import FieldMask.Selector.Basic
import FieldMask.Text.Quoted

/-!
# Writing selectors as a pattern

Every key is written between quotes, a branch's children between braces after a
colon, and siblings with commas between them. So any list of selectors can be
written, whatever characters its keys hold.
-/

namespace FieldMask

namespace Selector

mutual

/-- The expression of a selector. -/
def render : Selector → List Char
  | leaf key => Quoted.quote key.toList
  | branch key children =>
    Quoted.quote key.toList ++ ':' :: '\x7b' :: renderSiblings children ++ ['\x7d']

/-- The expressions of siblings, separated by commas. -/
def renderSiblings : List Selector → List Char
  | [] => []
  | [s] => s.render
  | s :: t :: rest => s.render ++ ',' :: renderSiblings (t :: rest)

end

end Selector

/-- The pattern that stands for some root selectors. -/
def renderPattern (selectors : List Selector) : String :=
  String.ofList ('\x7b' :: Selector.renderSiblings selectors ++ ['\x7d'])

end FieldMask

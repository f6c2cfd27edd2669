import FieldMask.Pattern.Token
import FieldMask.Selector.Basic

/-!
# The grammar of patterns

Which tokens stand for which selectors, said without reading them from left to
right. Only the kinds of the tokens matter.

A root is an object. An object has siblings between its braces. Siblings are
expressions with commas between them, and a comma may stand after the last
one. An expression is a key, or a key, a colon and an object.
-/

namespace FieldMask.Grammar

mutual

/-- The tokens of an expression and its selector. -/
inductive Expression : List TokenKind → Selector → Prop where
  | leaf (key : String) : Expression [.text key] (.leaf key)
  | branch (key : String) {inner : List TokenKind} {children : List Selector}
      (siblings : Siblings inner children) :
      Expression (.text key :: .colon :: .openBrace :: inner ++ [.closeBrace])
        (.branch key children)

/-- The tokens between an object's braces and the selectors they stand for. -/
inductive Siblings : List TokenKind → List Selector → Prop where
  | nil : Siblings [] []
  | last {tokens : List TokenKind} {s : Selector} (expression : Expression tokens s) :
      Siblings tokens [s]
  | cons {tokens more : List TokenKind} {s : Selector} {rest : List Selector}
      (expression : Expression tokens s) (siblings : Siblings more rest) :
      Siblings (tokens ++ .comma :: more) (s :: rest)

end

/-- The tokens of a whole pattern and its root selectors. -/
def Root (tokens : List TokenKind) (selectors : List Selector) : Prop :=
  ∃ inner, tokens = .openBrace :: inner ++ [.closeBrace] ∧ Siblings inner selectors

/-- Whether tokens can be completed to a whole pattern. -/
def Viable (tokens : List TokenKind) : Prop :=
  ∃ more selectors, Root (tokens ++ more) selectors

/-- A comma after the last expression changes nothing. -/
theorem Siblings.trailing_comma {tokens : List TokenKind} {s : Selector}
    (expression : Expression tokens s) : Siblings (tokens ++ [.comma]) [s] :=
  .cons expression .nil

theorem Expression.ne_nil {tokens : List TokenKind} {s : Selector}
    (expression : Expression tokens s) : tokens ≠ [] := by
  cases expression <;> simp

/-- An expression starts with its selector's key. -/
theorem Expression.head_eq {tokens : List TokenKind} {s : Selector}
    (expression : Expression tokens s) : tokens.head? = some (.text s.key) := by
  cases expression <;> rfl

end FieldMask.Grammar

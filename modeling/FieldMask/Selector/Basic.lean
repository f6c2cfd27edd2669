/-!
# Selectors

A selector names one key of an object. A leaf keeps the key's value as it is;
a branch keeps of the value only what its children select, which is nothing
when there are none. An ordered list of sibling selectors selects from one
object.

Results:
* `Selector.induct`: induction over a selector and the lists below it.
-/

namespace FieldMask

/-- The selection of one key: `Selector` of `ast` (lines 10–20), where a leaf has no list of
    children. -/
inductive Selector where
  | leaf (key : String)
  | branch (key : String) (children : List Selector)
  deriving Repr, Inhabited

namespace Selector

/-- The selected key. -/
def key : Selector → String
  | leaf key => key
  | branch key _ => key

/-- The selection inside the key's value, if it is restricted: `Selector::children` of `ast`
    (lines 51–53). -/
def children? : Selector → Option (List Selector)
  | leaf _ => none
  | branch _ children => some children

/-- Whether the key's value is kept as it is: `Selector::is_leaf` of `ast` (lines 45–47). -/
def isLeaf : Selector → Bool
  | leaf _ => true
  | branch _ _ => false

/-- A key with the selection inside its value. -/
def ofChildren (key : String) : Option (List Selector) → Selector
  | none => leaf key
  | some children => branch key children

@[simp] theorem key_ofChildren (key : String) (children : Option (List Selector)) :
    (ofChildren key children).key = key := by
  cases children <;> rfl

/-! ## Induction -/

/-- To prove something of every list of siblings, prove it of the empty list, and
    of a list whose first selector is a leaf, or a branch of whose children it holds. -/
theorem induct {motive : List Selector → Prop} (nil : motive [])
    (leaf : ∀ key rest, motive rest → motive (.leaf key :: rest))
    (branch : ∀ key children rest, motive children → motive rest →
      motive (.branch key children :: rest)) :
    ∀ selectors, motive selectors
  | [] => nil
  | .leaf key :: rest => leaf key rest (induct nil leaf branch rest)
  | .branch key children :: rest =>
    branch key children rest (induct nil leaf branch children) (induct nil leaf branch rest)

/-! ## Depth -/

mutual

/-- The number of selector levels from this one down, itself included: `Selector::depth` of `ast`
    (lines 57–61). -/
def depth : Selector → Nat
  | leaf _ => 1
  | branch _ children => 1 + depths children

/-- The depth of the deepest of some siblings, zero when there are none. -/
def depths : List Selector → Nat
  | [] => 0
  | s :: rest => max s.depth (depths rest)

/-- The number of object levels that a key's value opens: none for a leaf. -/
def nesting : Selector → Nat
  | leaf _ => 0
  | branch _ children => 1 + nestings children

/-- The number of object levels below some siblings. -/
def nestings : List Selector → Nat
  | [] => 0
  | s :: rest => max s.nesting (nestings rest)

end

/-! ## Equality -/

mutual

/-- Whether two selectors are equal. -/
def decEq : (s t : Selector) → Decidable (s = t)
  | leaf k, leaf l =>
    if h : k = l then isTrue (by rw [h]) else isFalse (by simp [h])
  | leaf _, branch _ _ => isFalse (by simp)
  | branch _ _, leaf _ => isFalse (by simp)
  | branch k cs, branch l ds =>
    if h : k = l then
      match decEqs cs ds with
      | isTrue hs => isTrue (by rw [h, hs])
      | isFalse hs => isFalse (by simp [hs])
    else isFalse (by simp [h])

/-- Whether two lists of selectors are equal. -/
def decEqs : (ss ts : List Selector) → Decidable (ss = ts)
  | [], [] => isTrue rfl
  | [], _ :: _ => isFalse (by simp)
  | _ :: _, [] => isFalse (by simp)
  | s :: ss, t :: ts =>
    match decEq s t, decEqs ss ts with
    | isTrue h, isTrue hs => isTrue (by rw [h, hs])
    | isFalse h, _ => isFalse (by simp [h])
    | _, isFalse hs => isFalse (by simp [hs])

end

instance : DecidableEq Selector := decEq

end Selector

end FieldMask

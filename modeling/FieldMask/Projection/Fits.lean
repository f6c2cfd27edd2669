import FieldMask.Json.Basic
import FieldMask.Selector.Siblings

/-!
# Values that hold only what is selected

A value fits some selectors when there is nothing in it to leave out: each
object has only selected keys, in the order of the selectors, and what stands
under a branch fits its children. A path of keys is admitted when the selectors
let it through.
-/

namespace FieldMask

mutual

/-- Whether a value holds only what the selectors select. -/
def Fits (selectors : List Selector) : Json → Prop
  | .array items => ItemsFit selectors items
  | .object entries =>
    (Object.keys entries).Sublist (Selector.keys selectors) ∧ EntriesFit selectors entries
  | _ => True

/-- Whether all of some values fit. -/
def ItemsFit (selectors : List Selector) : List Json → Prop
  | [] => True
  | item :: items => Fits selectors item ∧ ItemsFit selectors items

/-- Whether the value of each entry under a branch fits the branch's children. -/
def EntriesFit (selectors : List Selector) : List (String × Json) → Prop
  | [] => True
  | (key, value) :: rest =>
    (match Selector.find? key selectors with
      | some (.branch _ children) => Fits children value
      | _ => True) ∧ EntriesFit selectors rest

end

/-- Whether the selectors let a path of keys through: up to a leaf each key is selected. -/
def Admits (selectors : List Selector) : List String → Prop
  | [] => True
  | key :: keys =>
    match Selector.find? key selectors with
    | none => False
    | some (.leaf _) => True
    | some (.branch _ children) => Admits children keys

theorem itemsFit_iff {selectors : List Selector} {items : List Json} :
    ItemsFit selectors items ↔ ∀ item ∈ items, Fits selectors item := by
  induction items with
  | nil => simp [ItemsFit]
  | cons item items ih => simp [ItemsFit, ih]

end FieldMask

import FieldMask.Json.Basic
import FieldMask.Selector.Basic

/-!
# Values that agree where they are selected

Two values are alike under some selectors when nothing that is selected tells
them apart: scalars are equal, arrays have alike elements in the same places,
and of two objects each selected key is missing from both or present in both,
with equal values under a leaf and alike ones under a branch.
-/

namespace FieldMask

mutual

/-- Two values that agree on what is selected. -/
inductive Alike : List Selector → Json → Json → Prop where
  | scalar {selectors : List Selector} {value : Json} (h : value.IsScalar) :
      Alike selectors value value
  | array {selectors : List Selector} {vs ws : List Json} (items : ItemsAlike selectors vs ws) :
      Alike selectors (.array vs) (.array ws)
  | object {selectors : List Selector} {es fs : Object Json} (entries : AgreeOn selectors es fs) :
      Alike selectors (.object es) (.object fs)

/-- Two lists of values that are alike place by place. -/
inductive ItemsAlike : List Selector → List Json → List Json → Prop where
  | nil {selectors : List Selector} : ItemsAlike selectors [] []
  | cons {selectors : List Selector} {v w : Json} {vs ws : List Json} (item : Alike selectors v w)
      (items : ItemsAlike selectors vs ws) : ItemsAlike selectors (v :: vs) (w :: ws)

/-- Two objects that agree under each selected key. -/
inductive AgreeOn : List Selector → Object Json → Object Json → Prop where
  | nil {es fs : Object Json} : AgreeOn [] es fs
  | missing {s : Selector} {rest : List Selector} {es fs : Object Json}
      (left : es.get? s.key = none) (right : fs.get? s.key = none) (others : AgreeOn rest es fs) :
      AgreeOn (s :: rest) es fs
  | leaf {key : String} {rest : List Selector} {es fs : Object Json} {value : Json}
      (left : es.get? key = some value) (right : fs.get? key = some value)
      (others : AgreeOn rest es fs) : AgreeOn (.leaf key :: rest) es fs
  | branch {key : String} {children rest : List Selector} {es fs : Object Json} {v w : Json}
      (left : es.get? key = some v) (right : fs.get? key = some w) (values : Alike children v w)
      (others : AgreeOn rest es fs) : AgreeOn (.branch key children :: rest) es fs

end

end FieldMask

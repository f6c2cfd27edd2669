import FieldMask.Projection

/-!
# Filters

A filter is a pattern together with the selectors it stands for. It is applied
to a JSON value, by copying or by moving, or to data that is turned into JSON
first. What turns data into JSON is left open, as is the order in which removing
an entry of an object leaves the others.
-/

namespace FieldMask

/-- A pattern and its selectors: `CompiledFilter` of `filter` (lines 21–24). -/
structure Filter where
  pattern : String
  selectors : List Selector
  deriving DecidableEq

namespace Filter

/-- A filter is shown as its pattern. -/
instance : ToString Filter := ⟨pattern⟩

/-- The selected part of a value, copied: `CompiledFilter::apply` of `filter` (lines 51–54). -/
def apply (filter : Filter) (value : Json) : Json := project filter.selectors value

section Moving

variable (remove : Object Json → String → Object Json)

/-- The selected part of a value, moved out of it by removing entries:
    `CompiledFilter::apply_owned` of `filter` (lines 58–61). -/
def applyMovingBy (filter : Filter) (value : Json) : Json :=
  extractBy remove filter.selectors value

/-- The selected part of data. All of it is turned into JSON before anything is selected.
    `CompiledFilter::apply_serialize` of `filter` (lines 69–74). -/
def applySerializeBy {α ε : Type} (serialize : α → Except ε Json) (filter : Filter) (data : α) :
    Except ε Json :=
  (serialize data).map (filter.applyMovingBy remove)

end Moving

/-- The selected part of a value, moved out of it. -/
def applyMoving (filter : Filter) (value : Json) : Json := filter.applyMovingBy Object.erase value

/-- The selected part of data, moved out of its JSON form. -/
def applySerialize {α ε : Type} (serialize : α → Except ε Json) (filter : Filter) (data : α) :
    Except ε Json :=
  filter.applySerializeBy Object.erase serialize data

end Filter

end FieldMask

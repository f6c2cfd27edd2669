import FieldMask.Json.Basic

/-!
# Paths into a value

A path leads from a value to one inside it, by keys of objects and indices of
arrays.

Results:
* `Json.resolve_append`: resolving a path in two parts.
-/

namespace FieldMask

/-- One step of a path. -/
inductive Step where
  | key (key : String)
  | index (i : Nat)
  deriving DecidableEq, Repr

/-- The keys among the steps of a path. -/
def Step.keys : List Step → List String
  | [] => []
  | key k :: rest => k :: keys rest
  | index _ :: rest => keys rest

namespace Json

/-- The value inside this one that a step leads to. -/
def child? : Json → Step → Option Json
  | object entries, .key k => Object.get? entries k
  | array items, .index i => items[i]?
  | _, _ => none

/-- The value inside this one that a path leads to. -/
def resolve (value : Json) : List Step → Option Json
  | [] => some value
  | step :: rest => (value.child? step).bind fun child => child.resolve rest

theorem resolve_append (value : Json) (path more : List Step) :
    value.resolve (path ++ more) = (value.resolve path).bind fun inner => inner.resolve more := by
  induction path generalizing value with
  | nil => rfl
  | cons step rest ih =>
    cases h : value.child? step with
    | none => simp [resolve, h]
    | some child => simp [resolve, h, ih]

/-- Whether two values are of the same sort: arrays, objects, or neither. -/
def SameSort : Json → Json → Prop
  | array vs, array ws => vs.length = ws.length
  | object _, object _ => True
  | v, w => v = w

end Json

end FieldMask

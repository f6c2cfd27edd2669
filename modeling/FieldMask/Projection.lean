import FieldMask.Json.Basic
import FieldMask.Selector.Basic

/-!
# Projecting a value through selectors

Selectors are applied to an object, and to every object inside an array; all
other values stay as they are. An object keeps the entries whose keys are
selected, in the order of the selectors; a selected key that is missing is
left out. Under a leaf the value is kept whole, under a branch it is projected
through the children.

`project` copies what it keeps. `extractBy` moves it out of the object, so that a
selector finds only what the ones before it have left; how an object loses an
entry is a parameter, and `extract` keeps the order of the entries that are left.

Results:
* `keepFrom_cons`, `moveFrom_cons`: what one selector does.
-/

namespace FieldMask

mutual

/-- What a selector keeps of the value under its key: the body of the loop of `project_object` of
    `projection::engine` (lines 28–45). -/
def Selector.keep : Selector → Json → Json
  | .leaf _, value => value
  | .branch _ children, value => value.mapObjects fun source => keepFrom children source []

/-- Adds to `kept` what the selectors keep of `source`: the loop of `project_object` of
    `projection::engine` (lines 28–45). -/
def keepFrom : List Selector → (source kept : Object Json) → Object Json
  | [], _, kept => kept
  | s :: rest, source, kept =>
    match source.get? s.key with
    | none => keepFrom rest source kept
    | some value => keepFrom rest source (kept.insert s.key (s.keep value))

end

/-- The part of a value that the selectors select: `project` of `projection::engine`
    (lines 15–26). -/
def project (selectors : List Selector) (value : Json) : Json :=
  value.mapObjects fun source => keepFrom selectors source []

section Moving

variable (remove : Object Json → String → Object Json)

mutual

/-- What a selector leaves of the value moved out from under its key: the body of the loop of
    `project_object_owned` of `projection::engine` (lines 64–82). -/
def Selector.move : Selector → Json → Json
  | .leaf _, value => value
  | .branch _ children, value => value.mapObjects fun source => moveFrom children source []

/-- Moves what the selectors select from `source` to `kept`: the loop of `project_object_owned` of
    `projection::engine` (lines 64–82). -/
def moveFrom : List Selector → (source kept : Object Json) → Object Json
  | [], _, kept => kept
  | s :: rest, source, kept =>
    match source.get? s.key with
    | none => moveFrom rest source kept
    | some value => moveFrom rest (remove source s.key) (kept.insert s.key (s.move value))

end

/-- The part of a value that the selectors select, moved out of it by removing entries:
    `project_owned` of `projection::engine` (lines 51–62). -/
def extractBy (selectors : List Selector) (value : Json) : Json :=
  value.mapObjects fun source => moveFrom remove selectors source []

end Moving

/-- The part of a value that the selectors select, moved out of it. -/
def extract (selectors : List Selector) (value : Json) : Json :=
  extractBy Object.erase selectors value

/-! ## Copying -/

@[simp] theorem Selector.keep_leaf (key : String) (value : Json) :
    (leaf key).keep value = value := by
  rw [keep]

@[simp] theorem Selector.keep_branch (key : String) (children : List Selector) (value : Json) :
    (branch key children).keep value = project children value := by
  rw [keep, project]

@[simp] theorem keepFrom_nil (source kept : Object Json) : keepFrom [] source kept = kept := by
  rw [keepFrom]

theorem keepFrom_cons (s : Selector) (rest : List Selector) (source kept : Object Json) :
    keepFrom (s :: rest) source kept =
      match source.get? s.key with
      | none => keepFrom rest source kept
      | some value => keepFrom rest source (kept.insert s.key (s.keep value)) := by
  rw [keepFrom]

@[simp] theorem project_array (selectors : List Selector) (items : List Json) :
    project selectors (.array items) = .array (items.map (project selectors)) := by
  rw [project, Json.mapObjects_array]; rfl

@[simp] theorem project_object (selectors : List Selector) (source : Object Json) :
    project selectors (.object source) = .object (keepFrom selectors source []) := by
  rw [project, Json.mapObjects_object]

theorem project_of_isScalar (selectors : List Selector) {value : Json} (h : value.IsScalar) :
    project selectors value = value := by
  rw [project, Json.mapObjects_of_isScalar _ h]

/-! ## Moving -/

section Moving

variable (remove : Object Json → String → Object Json)

@[simp] theorem Selector.move_leaf (key : String) (value : Json) :
    (leaf key).move remove value = value := by
  rw [move]

@[simp] theorem Selector.move_branch (key : String) (children : List Selector) (value : Json) :
    (branch key children).move remove value = extractBy remove children value := by
  rw [move, extractBy]

@[simp] theorem moveFrom_nil (source kept : Object Json) :
    moveFrom remove [] source kept = kept := by
  rw [moveFrom]

theorem moveFrom_cons (s : Selector) (rest : List Selector) (source kept : Object Json) :
    moveFrom remove (s :: rest) source kept =
      match source.get? s.key with
      | none => moveFrom remove rest source kept
      | some value =>
        moveFrom remove rest (remove source s.key) (kept.insert s.key (s.move remove value)) := by
  rw [moveFrom]

end Moving

end FieldMask

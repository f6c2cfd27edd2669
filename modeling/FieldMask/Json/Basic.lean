import FieldMask.Json.Number
import FieldMask.Json.Object

/-!
# JSON values

Null, booleans, numbers, strings, arrays, and objects whose keys keep the order
in which they were inserted.

Results:
* `Json.mapObjects_object`, `Json.mapObjects_array`: a function on objects is
  carried through arrays element by element and leaves all else alone.
-/

namespace FieldMask

/-- A JSON value. -/
inductive Json where
  | null
  | bool (b : Bool)
  | number (n : Number)
  | string (s : String)
  | array (items : List Json)
  | object (entries : List (String × Json))
  deriving Inhabited

namespace Json

/-- A natural number as a value. -/
def ofNat (n : Nat) : Json := number (.integer n)

/-- Values that hold no other value. -/
def IsScalar : Json → Prop
  | array _ | object _ => False
  | _ => True

/-! ## Objects inside arrays -/

mutual

/-- Applies a function to the object that a value is, or to each object that is
    reached from it through arrays alone. -/
def mapObjects (f : Object Json → Object Json) : Json → Json
  | object entries => object (f entries)
  | array items => array (mapObjectsIn f items)
  | value => value

/-- Applies a function to each object reached from some values through arrays alone. -/
def mapObjectsIn (f : Object Json → Object Json) : List Json → List Json
  | [] => []
  | item :: items => mapObjects f item :: mapObjectsIn f items

end

theorem mapObjectsIn_eq_map (f : Object Json → Object Json) (items : List Json) :
    mapObjectsIn f items = items.map (mapObjects f) := by
  induction items with
  | nil => rfl
  | cons item items ih => rw [mapObjectsIn, ih]; rfl

@[simp] theorem mapObjects_object (f : Object Json → Object Json)
    (entries : Object Json) : mapObjects f (object entries) = object (f entries) := by
  rw [mapObjects]

@[simp] theorem mapObjects_array (f : Object Json → Object Json)
    (items : List Json) : mapObjects f (array items) = array (items.map (mapObjects f)) := by
  rw [mapObjects, mapObjectsIn_eq_map]

theorem mapObjects_of_isScalar (f : Object Json → Object Json) {value : Json}
    (h : value.IsScalar) : mapObjects f value = value := by
  cases value <;> simp_all [mapObjects, IsScalar]

/-! ## Equality -/

mutual

/-- Whether two values are equal. -/
def decEq : (v w : Json) → Decidable (v = w)
  | null, null => isTrue rfl
  | bool a, bool b => decidable_of_iff (a = b) (by simp)
  | number a, number b => decidable_of_iff (a = b) (by simp)
  | string a, string b => decidable_of_iff (a = b) (by simp)
  | array vs, array ws =>
    match decEqItems vs ws with
    | isTrue h => isTrue (by rw [h])
    | isFalse h => isFalse (by simp [h])
  | object es, object fs =>
    match decEqEntries es fs with
    | isTrue h => isTrue (by rw [h])
    | isFalse h => isFalse (by simp [h])
  | null, bool _ | null, number _ | null, string _ | null, array _ | null, object _ =>
    isFalse (by simp)
  | bool _, null | bool _, number _ | bool _, string _ | bool _, array _ | bool _, object _ =>
    isFalse (by simp)
  | number _, null | number _, bool _ | number _, string _ | number _, array _
  | number _, object _ => isFalse (by simp)
  | string _, null | string _, bool _ | string _, number _ | string _, array _
  | string _, object _ => isFalse (by simp)
  | array _, null | array _, bool _ | array _, number _ | array _, string _
  | array _, object _ => isFalse (by simp)
  | object _, null | object _, bool _ | object _, number _ | object _, string _
  | object _, array _ => isFalse (by simp)

/-- Whether two lists of values are equal. -/
def decEqItems : (vs ws : List Json) → Decidable (vs = ws)
  | [], [] => isTrue rfl
  | [], _ :: _ => isFalse (by simp)
  | _ :: _, [] => isFalse (by simp)
  | v :: vs, w :: ws =>
    match decEq v w, decEqItems vs ws with
    | isTrue h, isTrue hs => isTrue (by rw [h, hs])
    | isFalse h, _ => isFalse (by simp [h])
    | _, isFalse hs => isFalse (by simp [hs])

/-- Whether two lists of entries are equal. -/
def decEqEntries : (es fs : Object Json) → Decidable (es = fs)
  | [], [] => isTrue rfl
  | [], _ :: _ => isFalse (by simp)
  | _ :: _, [] => isFalse (by simp)
  | (k, v) :: es, (l, w) :: fs =>
    match decEq v w, decEqEntries es fs with
    | isTrue h, isTrue hs =>
      if hk : k = l then isTrue (by rw [hk, h, hs]) else isFalse (by simp [hk])
    | isFalse h, _ => isFalse (by simp [h])
    | _, isFalse hs => isFalse (by simp [hs])

end

instance : DecidableEq Json := decEq

end Json

end FieldMask

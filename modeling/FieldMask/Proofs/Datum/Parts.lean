import FieldMask.Datum
import FieldMask.Proofs.Basic
import FieldMask.Proofs.Json.Keyed

/-!
# Parts of data

The form of data has distinct keys in every object, since maps and fields are inserted
one by one. This is all that a filter asks of what turns data into JSON.

Results:
* `keyed_of_toJson`: the form of data has distinct keys.
-/

namespace FieldMask

namespace Datum

/-- Data that stands right inside other data as a value. The keys of a map are no values. -/
inductive Inside : Datum → Datum → Prop
  | present {value : Datum} : Inside value (.present value)
  | sequence {item : Datum} {items : List Datum} (h : item ∈ items) : Inside item (.sequence items)
  | map {key value : Datum} {entries : List (Datum × Datum)} (h : (key, value) ∈ entries) :
      Inside value (.map entries)
  | wrapperCase {name : String} {value : Datum} : Inside value (.wrapperCase name value)
  | tupleCase {name : String} {item : Datum} {items : List Datum} (h : item ∈ items) :
      Inside item (.tupleCase name items)
  | recordCase {name field : String} {value : Datum} {fields : List (String × Datum)}
      (h : (field, value) ∈ fields) : Inside value (.recordCase name fields)

/-! ## Lists of data -/

theorem toJsons_eq_ok_cons_iff {item : Datum} {items : List Datum} {values : List Json} :
    toJsons (item :: items) = .ok values ↔ ∃ value others,
      item.toJson = .ok value ∧ toJsons items = .ok others ∧ values = value :: others := by
  rw [toJsons, bind_eq_ok_iff]
  constructor
  · rintro ⟨value, hv, h⟩
    obtain ⟨others, ho, h⟩ := bind_eq_ok_iff.1 h
    exact ⟨value, others, hv, ho, (Except.ok.inj h).symm⟩
  · rintro ⟨value, others, hv, ho, rfl⟩
    exact ⟨value, hv, bind_eq_ok_iff.2 ⟨others, ho, rfl⟩⟩

theorem exists_mem_of_toJsons {items : List Datum} {values : List Json}
    (h : toJsons items = .ok values) {value : Json} (hv : value ∈ values) :
    ∃ item ∈ items, item.toJson = .ok value := by
  induction items generalizing values with
  | nil =>
    rw [toJsons] at h
    cases h
    cases hv
  | cons first items ih =>
    obtain ⟨head, others, hh, ho, rfl⟩ := toJsons_eq_ok_cons_iff.1 h
    rcases List.mem_cons.1 hv with rfl | hv
    · exact ⟨first, List.mem_cons_self, hh⟩
    · obtain ⟨item, hi, hj⟩ := ih ho hv
      exact ⟨item, List.mem_cons_of_mem _ hi, hj⟩

theorem keyed_of_toJsons {items : List Datum} {values : List Json}
    (h : toJsons items = .ok values)
    (hin : ∀ item ∈ items, ∀ value, item.toJson = .ok value → value.Keyed) :
    (Json.array values).Keyed := by
  refine Json.keyed_array_iff.2 fun value hv => ?_
  obtain ⟨item, hi, hj⟩ := exists_mem_of_toJsons h hv
  exact hin item hi value hj

/-! ## Entries and fields -/

theorem entriesToJson_eq_ok_cons_iff {key value : Datum} {entries : List (Datum × Datum)}
    {object result : Object Json} :
    entriesToJson object ((key, value) :: entries) = .ok result ↔ ∃ name json,
      key.keyText = .ok name ∧ value.toJson = .ok json ∧
      entriesToJson (object.insert name json) entries = .ok result := by
  rw [entriesToJson, bind_eq_ok_iff]
  constructor
  · rintro ⟨name, hk, h⟩
    obtain ⟨json, hv, h⟩ := bind_eq_ok_iff.1 h
    exact ⟨name, json, hk, hv, h⟩
  · rintro ⟨name, json, hk, hv, h⟩
    exact ⟨name, hk, bind_eq_ok_iff.2 ⟨json, hv, h⟩⟩

/-- Fields are entries whose keys are texts. -/
theorem fieldsToJson_eq (object : Object Json) (fields : List (String × Datum)) :
    fieldsToJson object fields = entriesToJson object
      (fields.map fun field => (scalar (.string field.1) trivial, field.2)) := by
  induction fields generalizing object with
  | nil => rw [fieldsToJson, List.map_nil, entriesToJson]
  | cons field fields ih =>
    rw [fieldsToJson, List.map_cons, entriesToJson]
    simp only [ih, keyText]
    rfl

theorem keyed_of_entriesToJson {entries : List (Datum × Datum)} {object result : Object Json}
    (h : entriesToJson object entries = .ok result) (hk : (Json.object object).Keyed)
    (hin : ∀ key value, (key, value) ∈ entries → ∀ json, value.toJson = .ok json → json.Keyed) :
    (Json.object result).Keyed := by
  induction entries generalizing object with
  | nil =>
    rw [entriesToJson] at h
    cases h
    exact hk
  | cons entry entries ih =>
    obtain ⟨name, json, -, hv, hrest⟩ := entriesToJson_eq_ok_cons_iff.1 h
    have hjson := hin entry.1 entry.2 List.mem_cons_self json hv
    exact ih hrest (hk.insert name hjson)
      fun key value he => hin key value (List.mem_cons_of_mem _ he)

/-! ## The whole and its parts -/

theorem sizeOf_lt_of_inside {value datum : Datum} (h : Inside value datum) :
    sizeOf value < sizeOf datum := by
  cases h with
  | present => simp
  | wrapperCase =>
    rw [wrapperCase.sizeOf_spec]
    omega
  | sequence h | tupleCase h =>
    have := List.sizeOf_lt_of_mem h
    simp
    omega
  | map h | recordCase h =>
    have := List.sizeOf_lt_of_mem h
    simp at this ⊢
    omega

/-- To prove something of data, prove it where it holds of all data right inside. -/
theorem induct {motive : Datum → Prop}
    (h : ∀ datum, (∀ value, Inside value datum → motive value) → motive datum) (datum : Datum) :
    motive datum :=
  h datum fun value _hi => induct h value
termination_by datum
decreasing_by exact sizeOf_lt_of_inside _hi

theorem isScalar_of_integerToJson {n : Int} {value : Json} (h : integerToJson n = .ok value) :
    value.IsScalar := by
  rw [integerToJson] at h
  split at h
  · cases h
    trivial
  · contradiction

theorem isScalar_floatToJson (x : Float) : (floatToJson x).IsScalar := by
  rw [floatToJson]
  split <;> trivial

/-- The JSON form of data has distinct keys in every object. -/
theorem keyed_of_toJson {datum : Datum} {value : Json} (h : datum.toJson = .ok value) :
    value.Keyed := by
  induction datum using induct generalizing value with
  | h datum ih =>
  have hin : ∀ inner, Inside inner datum → ∀ json, inner.toJson = .ok json → json.Keyed :=
    fun inner hi json => ih inner hi
  cases datum with
  | scalar v hs =>
    rw [toJson] at h
    cases h
    exact Json.keyed_of_isScalar hs
  | integer n =>
    rw [toJson] at h
    exact Json.keyed_of_isScalar (isScalar_of_integerToJson h)
  | float x =>
    rw [toJson] at h
    cases h
    exact Json.keyed_of_isScalar (isScalar_floatToJson x)
  | character | absent | unitCase =>
    rw [toJson] at h
    cases h
    exact Json.keyed_of_isScalar trivial
  | bytes values =>
    rw [toJson] at h
    cases h
    refine Json.keyed_array_iff.2 fun item hi => ?_
    obtain ⟨b, -, rfl⟩ := List.mem_map.1 hi
    exact Json.keyed_of_isScalar trivial
  | present inner =>
    rw [toJson] at h
    exact hin inner .present value h
  | sequence items =>
    rw [toJson] at h
    obtain ⟨values, hv, h⟩ := bind_eq_ok_iff.1 h
    cases h
    exact keyed_of_toJsons hv fun item hi => hin item (.sequence hi)
  | map entries =>
    rw [toJson] at h
    obtain ⟨object, ho, h⟩ := bind_eq_ok_iff.1 h
    cases h
    exact keyed_of_entriesToJson ho Json.keyed_nil fun key inner he => hin inner (.map he)
  | wrapperCase name inner =>
    rw [toJson] at h
    obtain ⟨json, hj, h⟩ := bind_eq_ok_iff.1 h
    cases h
    exact Json.keyed_nil.insert name (hin inner .wrapperCase json hj)
  | tupleCase name items =>
    rw [toJson] at h
    obtain ⟨values, hv, h⟩ := bind_eq_ok_iff.1 h
    cases h
    exact Json.keyed_nil.insert name (keyed_of_toJsons hv fun item hi => hin item (.tupleCase hi))
  | recordCase name fields =>
    rw [toJson] at h
    obtain ⟨object, ho, h⟩ := bind_eq_ok_iff.1 h
    cases h
    rw [fieldsToJson_eq] at ho
    refine Json.keyed_nil.insert name (keyed_of_entriesToJson ho Json.keyed_nil ?_)
    intro key inner he
    obtain ⟨field, hf, hfield⟩ := List.mem_map.1 he
    cases hfield
    exact hin _ (.recordCase hf)
  | failing message =>
    rw [toJson] at h
    contradiction

end Datum

end FieldMask

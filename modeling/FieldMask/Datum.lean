import FieldMask.Json.Basic

/-!
# Data with a JSON form

Filters are applied to data of any type, by whatever turns it into JSON. This is one such
type, with the shapes that data commonly has: optional values, byte strings, maps with keys
of any kind, named cases, integers of any size, floats that are not finite. Each shape has a
JSON form, or is refused with a cause. Data is turned into JSON part by part in order, and
the first part that is refused is reported.
-/

namespace FieldMask

/-- Data that may have a JSON form. -/
inductive Datum where
  | scalar (value : Json) (h : value.IsScalar)
  | integer (n : Int)
  | float (x : Float)
  | character (c : Char)
  | bytes (values : List UInt8)
  | absent
  | present (value : Datum)
  | sequence (items : List Datum)
  | map (entries : List (Datum × Datum))
  /-- A named case without contents. -/
  | unitCase (name : String)
  /-- A named case around one value. -/
  | wrapperCase (name : String) (value : Datum)
  /-- A named case around values in order. -/
  | tupleCase (name : String) (items : List Datum)
  /-- A named case around named fields. -/
  | recordCase (name : String) (fields : List (String × Datum))
  /-- Data that refuses to be turned into JSON. -/
  | failing (message : String)

/-- Why data has no JSON form. -/
inductive SerializeError where
  | integerOutOfRange
  | keyNotText
  | keyNotFinite
  | custom (message : String)
  deriving DecidableEq, Repr

/-- The integers that fit 64 bits, signed or unsigned. -/
def FitsWord (n : Int) : Prop := -0x8000000000000000 ≤ n ∧ n < 0x10000000000000000

instance (n : Int) : Decidable (FitsWord n) := inferInstanceAs (Decidable (_ ∧ _))

namespace Datum

/-- The number of a finite float, null for any other. -/
def floatToJson (x : Float) : Json :=
  match Number.ofFloat? x with
  | some n => .number n
  | none => .null

/-- The number of an integer that fits 64 bits. -/
def integerToJson (n : Int) : Except SerializeError Json :=
  if FitsWord n then .ok (.number (.integer n)) else .error .integerOutOfRange

/-- The text of data that stands as a key: texts as they are, numbers and booleans
    as they are written. Integers of any size may be keys. -/
def keyText : Datum → Except SerializeError String
  | scalar (.string s) _ => .ok s
  | scalar (.number n) _ => .ok n.text
  | scalar (.bool b) _ => .ok (toString b)
  | integer n => .ok (toString n)
  | float x =>
    match Number.ofFloat? x with
    | some n => .ok n.text
    | none => .error .keyNotFinite
  | character c => .ok (String.singleton c)
  | unitCase name => .ok name
  | failing message => .error (.custom message)
  | _ => .error .keyNotText

mutual

/-- The JSON form of data. -/
def toJson : Datum → Except SerializeError Json
  | scalar value _ => .ok value
  | integer n => integerToJson n
  | float x => .ok (floatToJson x)
  | character c => .ok (.string (String.singleton c))
  | bytes values => .ok (.array (values.map fun b => .ofNat b.toNat))
  | absent => .ok .null
  | present value => value.toJson
  | sequence items => do
    let items ← toJsons items
    .ok (.array items)
  | map entries => do
    let entries ← entriesToJson [] entries
    .ok (.object entries)
  | unitCase name => .ok (.string name)
  | wrapperCase name value => do
    let value ← value.toJson
    .ok (.object [(name, value)])
  | tupleCase name items => do
    let items ← toJsons items
    .ok (.object [(name, .array items)])
  | recordCase name fields => do
    let fields ← fieldsToJson [] fields
    .ok (.object [(name, .object fields)])
  | failing message => .error (.custom message)

/-- The JSON forms of data in order. -/
def toJsons : List Datum → Except SerializeError (List Json)
  | [] => .ok []
  | item :: items => do
    let value ← item.toJson
    let values ← toJsons items
    .ok (value :: values)

/-- Inserts the entries of a map, of each the key before the value. -/
def entriesToJson (object : Object Json) :
    List (Datum × Datum) → Except SerializeError (Object Json)
  | [] => .ok object
  | (key, value) :: entries => do
    let key ← key.keyText
    let value ← value.toJson
    entriesToJson (object.insert key value) entries

/-- Inserts named fields in order. -/
def fieldsToJson (object : Object Json) :
    List (String × Datum) → Except SerializeError (Object Json)
  | [] => .ok object
  | (name, value) :: fields => do
    let value ← value.toJson
    fieldsToJson (object.insert name value) fields

end

end Datum

end FieldMask

import FieldMask.Json.Basic
import FieldMask.Selector.Basic
import FieldMask.Text.Literal

/-!
# Selectors as JSON values

A selector is written as an object with its key and, for a branch, its list of
children. It is read from such an object, whose fields may come in any order
and with others between them, or from a list of the key and the children. A
null in place of the children counts as none.

What is wrong is reported for the first offending value, in the order in which
the value lists its parts.

Results:
* `Selector.ofJson_toJson`: what is written is read back.
-/

namespace FieldMask

/-- What a value should have been. -/
inductive Shape where
  | text
  | list
  | selector
  deriving DecidableEq, Repr

/-- Why a value is no selector. -/
inductive DecodeError where
  /-- A value of another shape. -/
  | mismatch (found : Json) (wanted : Shape)
  /-- An object without a key. -/
  | keyMissing
  /-- A list without a key. -/
  | emptyList
  /-- A list that goes on after the children. -/
  | longList (length : Nat)
  deriving DecidableEq

namespace Shape

/-- The shape in words. -/
def describe : Shape → String
  | text => "a string"
  | list => "a sequence"
  | selector => "struct Selector"

end Shape

/-- The value in words: what it is and, unless it holds others, its own text. -/
def Json.describe : Json → String
  | null => "null"
  | bool b => "boolean `" ++ toString b ++ "`"
  | number (.integer n) => "integer `" ++ (Number.integer n).text ++ "`"
  | number (.float x h) => "floating point `" ++ (Number.float x h).text ++ "`"
  | string s => "string " ++ Literal.quote s
  | array _ => "sequence"
  | object _ => "map"

namespace DecodeError

/-- The cause in words. -/
def message : DecodeError → String
  | mismatch found wanted => "invalid type: " ++ found.describe ++ ", expected " ++ wanted.describe
  | keyMissing => "missing field `key`"
  | emptyList => "invalid length 0, expected struct Selector with 2 elements"
  | longList n => "invalid length " ++ toString n ++ ", expected fewer elements in array"

end DecodeError

namespace Selector

/-! ## Writing -/

mutual

/-- The selector as an object: the serialized form of `Selector` of `ast` (lines 10–20), which
    leaves out children that are not there. -/
def toJson : Selector → Json
  | leaf key => .object [("key", .string key)]
  | branch key children => .object [("key", .string key), ("children", .array (toJsons children))]

/-- Some selectors as objects. -/
def toJsons : List Selector → List Json
  | [] => []
  | s :: rest => s.toJson :: toJsons rest

end

/-- Siblings as one value. -/
def listToJson (selectors : List Selector) : Json := .array (toJsons selectors)

/-! ## Reading -/

/-- The key that a value spells. -/
def keyOfJson : Json → Except DecodeError String
  | .string s => .ok s
  | other => .error (.mismatch other .text)

mutual

/-- The selector that a value spells: the form that `Selector` of `ast` (lines 10–20) is
    deserialized from. -/
def ofJson : Json → Except DecodeError Selector
  | .object fields => ofFields none none fields
  | .array [] => .error .emptyList
  | .array [key] => do
    let key ← keyOfJson key
    .ok (.leaf key)
  | .array (key :: children :: more) => do
    let key ← keyOfJson key
    let children ← childrenOfJson children
    if more.isEmpty then .ok (.ofChildren key children) else .error (.longList (more.length + 2))
  | other => .error (.mismatch other .selector)

/-- The selector spelled by the fields of an object, with what was read before. -/
def ofFields (key : Option String) (children : Option (List Selector)) :
    List (String × Json) → Except DecodeError Selector
  | [] =>
    match key with
    | some key => .ok (.ofChildren key children)
    | none => .error .keyMissing
  | (name, value) :: rest =>
    if name = "key" then do
      let key ← keyOfJson value
      ofFields (some key) children rest
    else if name = "children" then do
      let children ← childrenOfJson value
      ofFields key children rest
    else ofFields key children rest

/-- The children that a value spells; null spells none. -/
def childrenOfJson : Json → Except DecodeError (Option (List Selector))
  | .null => .ok none
  | .array items => do
    let children ← ofJsons items
    .ok (some children)
  | other => .error (.mismatch other .list)

/-- The selectors that some values spell. -/
def ofJsons : List Json → Except DecodeError (List Selector)
  | [] => .ok []
  | item :: items => do
    let selector ← ofJson item
    let selectors ← ofJsons items
    .ok (selector :: selectors)

end

/-- The siblings that a value spells. -/
def listOfJson : Json → Except DecodeError (List Selector)
  | .array items => ofJsons items
  | other => .error (.mismatch other .list)

/-! ## Reading what was written -/

theorem ofJsons_toJsons (selectors : List Selector) : ofJsons (toJsons selectors) = .ok selectors := by
  induction selectors using induct with
  | nil => rw [toJsons, ofJsons]
  | leaf key rest ih =>
    simp [toJsons, toJson, ofJsons, ofJson, ofFields, keyOfJson, ofChildren, ih, bind, Except.bind]
  | branch key children rest ihChildren ih =>
    simp [toJsons, toJson, ofJsons, ofJson, ofFields, keyOfJson, childrenOfJson, ofChildren, ih,
      ihChildren, bind, Except.bind]

theorem ofJson_toJson (s : Selector) : ofJson s.toJson = .ok s := by
  have h := ofJsons_toJsons [s]
  rw [toJsons, toJsons, ofJsons, ofJsons] at h
  cases hs : ofJson s.toJson with
  | error e => simp [hs, bind, Except.bind] at h
  | ok t => simp [hs, bind, Except.bind] at h; rw [h]

end Selector

end FieldMask

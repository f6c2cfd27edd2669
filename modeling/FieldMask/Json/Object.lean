/-!
# Objects

An object is a list of entries, each a key with its value, in the order in
which the keys were first inserted. Inserting under a key that is there
replaces its value and keeps its place.

Results:
* `get?_insert`: what is found after an insertion.
* `keys_insert`: the keys and their order after an insertion.
* `get?_erase`, `keys_erase`: the same after an erasure.
-/

namespace FieldMask

/-- Keys with their values, in order. -/
abbrev Object (α : Type) := List (String × α)

namespace Object

variable {α : Type}

/-- The value under a key. -/
def get? : Object α → String → Option α
  | [], _ => none
  | entry :: rest, key => if entry.1 = key then some entry.2 else get? rest key

/-- Puts a value under a key: in the key's place if it has one, else at the end. -/
def insert : Object α → String → α → Object α
  | [], key, value => [(key, value)]
  | entry :: rest, key, value =>
    if entry.1 = key then (key, value) :: rest else entry :: insert rest key value

/-- Removes what is under a key. -/
def erase : Object α → String → Object α
  | [], _ => []
  | entry :: rest, key => if entry.1 = key then erase rest key else entry :: erase rest key

/-- The keys in order. -/
def keys (entries : Object α) : List String := entries.map Prod.fst

/-! ## Finding -/

@[simp] theorem get?_nil (key : String) : get? ([] : Object α) key = none := rfl

theorem get?_cons (entry : String × α) (rest : Object α) (key : String) :
    get? (entry :: rest) key = if entry.1 = key then some entry.2 else get? rest key := rfl

theorem get?_isSome {entries : Object α} {key : String} :
    (get? entries key).isSome = true ↔ key ∈ keys entries := by
  induction entries with
  | nil => simp [keys]
  | cons entry rest ih =>
    rw [get?_cons]
    by_cases h : entry.1 = key
    · simp [keys, h]
    · have hne : key ≠ entry.1 := fun e => h e.symm
      simp [h, hne, ih, keys]

theorem get?_eq_none {entries : Object α} {key : String} :
    get? entries key = none ↔ key ∉ keys entries := by
  rw [← get?_isSome]; cases get? entries key <;> simp

/-! ## Inserting -/

theorem get?_insert (entries : Object α) (key : String) (value : α) (key' : String) :
    get? (insert entries key value) key' =
      if key = key' then some value else get? entries key' := by
  induction entries with
  | nil => simp [insert, get?_cons]
  | cons entry rest ih =>
    by_cases h : entry.1 = key
    · by_cases hk : key = key' <;> simp [insert, get?_cons, h, hk]
    · by_cases hk : key = key'
      · subst hk; simp [insert, get?_cons, h, ih]
      · simp [insert, get?_cons, h, ih, hk]

theorem keys_insert (entries : Object α) (key : String) (value : α) :
    keys (insert entries key value) =
      if key ∈ keys entries then keys entries else keys entries ++ [key] := by
  induction entries with
  | nil => simp [insert, keys]
  | cons entry rest ih =>
    by_cases h : entry.1 = key
    · simp [insert, keys, h]
    · have hne : key ≠ entry.1 := fun e => h e.symm
      simp only [keys] at ih
      by_cases hk : key ∈ rest.map Prod.fst <;> simp [insert, keys, h, hne, ih, hk]

/-- Under a new key a value goes to the end. -/
theorem insert_of_not_mem {entries : Object α} {key : String} (h : key ∉ keys entries)
    (value : α) : insert entries key value = entries ++ [(key, value)] := by
  induction entries with
  | nil => rfl
  | cons entry rest ih =>
    simp only [keys, List.map_cons, List.mem_cons, not_or] at h
    have hne : ¬entry.1 = key := fun e => h.1 e.symm
    simp [insert, hne, ih h.2]

/-! ## Erasing -/

theorem keys_erase (entries : Object α) (key : String) :
    keys (erase entries key) = (keys entries).filter (· ≠ key) := by
  induction entries with
  | nil => rfl
  | cons entry rest ih =>
    simp only [keys] at ih
    by_cases h : entry.1 = key <;> simp [erase, keys, h, ih]

theorem get?_erase (entries : Object α) (key key' : String) :
    get? (erase entries key) key' = if key = key' then none else get? entries key' := by
  induction entries with
  | nil => simp [erase]
  | cons entry rest ih =>
    rw [erase, get?_cons]
    split
    · grind
    · grind [get?_cons]

end Object

end FieldMask

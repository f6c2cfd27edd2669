import FieldMask.Json.Path

/-!
# Values with distinct keys

In a value as it is built by inserting, every object has each key once. What is
found under a key of such an object does not depend on the order of its
entries.

Results:
* `Json.induct`: induction over a value and the values inside it.
* `Object.get?_of_perm`: looking a key up in a different order.
* `Object.Removes.get?_remove`: what is found after removing an entry, in
  whatever order the others are left.
-/

namespace FieldMask

/-! ## Entries in any order -/

namespace Object

variable {α : Type}

theorem mem_of_get? {entries : Object α} {key : String} {value : α}
    (h : get? entries key = some value) : (key, value) ∈ entries := by
  induction entries with
  | nil => simp at h
  | cons entry rest ih =>
    rw [get?_cons] at h
    split at h
    · next hk =>
      obtain rfl := Option.some.inj h
      rw [← hk]
      exact List.mem_cons_self
    · exact List.mem_cons_of_mem _ (ih h)

theorem get?_of_mem {entries : Object α} (hn : (keys entries).Nodup) {key : String} {value : α}
    (h : (key, value) ∈ entries) : get? entries key = some value := by
  induction entries with
  | nil => cases h
  | cons entry rest ih =>
    obtain ⟨hne, hrest⟩ := List.nodup_cons.1 hn
    rw [get?_cons]
    rcases List.mem_cons.1 h with rfl | h
    · exact if_pos rfl
    · have hk : key ∈ keys rest := List.mem_map.2 ⟨_, h, rfl⟩
      have hd : entry.1 ≠ key := fun e => hne (e ▸ hk)
      rw [if_neg hd, ih hrest h]

theorem nodup_of_perm {entries others : Object α} (h : entries.Perm others)
    (hn : (keys entries).Nodup) : (keys others).Nodup :=
  (h.map Prod.fst).nodup_iff.1 hn

/-- With distinct keys the order of the entries makes no difference to what is found. -/
theorem get?_of_perm {entries others : Object α} (h : entries.Perm others)
    (hn : (keys entries).Nodup) (key : String) : get? others key = get? entries key := by
  cases hg : get? entries key with
  | none =>
    rw [get?_eq_none] at hg ⊢
    exact fun hk => hg ((h.map Prod.fst).mem_iff.2 hk)
  | some value => exact get?_of_mem (nodup_of_perm h hn) (h.mem_iff.1 (mem_of_get? hg))

theorem nodup_insert {entries : Object α} (hn : (keys entries).Nodup) (key : String) (value : α) :
    (keys (insert entries key value)).Nodup := by
  rw [keys_insert]
  split
  · exact hn
  · next hk =>
    refine List.nodup_append.2 ⟨hn, by simp, fun a ha b hb e => hk ?_⟩
    rw [← List.mem_singleton.1 hb, ← e]
    exact ha

/-! ## Removing entries -/

/-- A way of removing what is under a key: that entry goes, and the others are left
    in whatever order. -/
structure Removes (remove : Object α → String → Object α) : Prop where
  perm : ∀ entries key, (keys entries).Nodup → (remove entries key).Perm (erase entries key)

theorem nodup_erase {entries : Object α} (hn : (keys entries).Nodup) (key : String) :
    (keys (erase entries key)).Nodup := by
  rw [keys_erase]
  exact hn.sublist List.filter_sublist

namespace Removes

variable {remove : Object α → String → Object α} (hr : Removes remove) {entries : Object α}
  (hn : (keys entries).Nodup)

include hr hn

theorem nodup_remove (key : String) : (keys (remove entries key)).Nodup :=
  nodup_of_perm (hr.perm entries key hn).symm (nodup_erase hn key)

theorem get?_remove (key key' : String) :
    get? (remove entries key) key' = if key = key' then none else get? entries key' := by
  rw [get?_of_perm (hr.perm entries key hn).symm (nodup_erase hn key), get?_erase]

end Removes

theorem removes_erase : Removes (erase : Object α → String → Object α) :=
  ⟨fun _ _ _ => .refl _⟩

/-- Removes an entry and puts the last one in its place. -/
def swapErase : Object α → String → Object α
  | [], _ => []
  | entry :: rest, key =>
    if entry.1 = key then rest.getLast?.toList ++ rest.dropLast
    else entry :: swapErase rest key

theorem erase_of_not_mem {entries : Object α} {key : String} (h : key ∉ keys entries) :
    erase entries key = entries := by
  induction entries with
  | nil => rfl
  | cons entry rest ih =>
    have hne : entry.1 ≠ key := fun e => h (e ▸ List.mem_cons_self)
    have hrest : key ∉ keys rest := fun hk => h (List.mem_cons_of_mem _ hk)
    rw [erase, if_neg hne, ih hrest]

theorem removes_swapErase : Removes (swapErase : Object α → String → Object α) := by
  refine ⟨fun entries key hn => ?_⟩
  induction entries with
  | nil => exact .refl _
  | cons entry rest ih =>
    obtain ⟨hne, hrest⟩ := List.nodup_cons.1 hn
    rw [swapErase, erase]
    split
    · next hk =>
      rw [erase_of_not_mem (hk ▸ hne)]
      rcases List.eq_nil_or_concat rest with rfl | ⟨front, last, rfl⟩
      · exact .refl _
      · simpa using (List.perm_append_singleton last front).symm
    · exact (ih hrest).cons entry

end Object

/-! ## Values -/

namespace Json

/-- To prove something of every value, prove it of the values that hold no other,
    and of arrays and objects of whose contents it holds. -/
theorem induct {motive : Json → Prop} (scalar : ∀ value, value.IsScalar → motive value)
    (array : ∀ items, (∀ item ∈ items, motive item) → motive (.array items))
    (object : ∀ entries : Object Json, (∀ entry ∈ entries, motive entry.2) →
      motive (.object entries)) : ∀ value, motive value
  | null => scalar null trivial
  | bool b => scalar (bool b) trivial
  | number n => scalar (number n) trivial
  | string s => scalar (string s) trivial
  | .array items => array items fun item _hi => induct scalar array object item
  | .object entries => object entries fun entry _he => induct scalar array object entry.2
termination_by value => value
decreasing_by
  · have := List.sizeOf_lt_of_mem _hi
    simp
    omega
  · have hm := List.sizeOf_lt_of_mem _he
    obtain ⟨key, value⟩ := entry
    simp at hm ⊢
    omega

/-- Whether each object in the value has every key once. -/
def Keyed (value : Json) : Prop :=
  ∀ path entries, value.resolve path = some (.object entries) → (Object.keys entries).Nodup

theorem keyed_of_isScalar {value : Json} (h : value.IsScalar) : value.Keyed := by
  intro path entries hp
  cases path with
  | nil =>
    rw [resolve, Option.some.injEq] at hp
    rw [hp] at h
    exact h.elim
  | cons step rest => cases value <;> simp [resolve, child?] at hp <;> exact h.elim

theorem Keyed.child {value inner : Json} (h : value.Keyed) {step : Step}
    (hc : value.child? step = some inner) : inner.Keyed := by
  intro path entries hp
  refine h (step :: path) entries ?_
  rw [resolve, hc]
  exact hp

theorem Keyed.resolve {value inner : Json} (h : value.Keyed) {path : List Step}
    (hr : value.resolve path = some inner) : inner.Keyed := by
  intro more entries hp
  refine h (path ++ more) entries ?_
  rw [resolve_append, hr]
  exact hp

theorem keyed_array_iff {items : List Json} :
    (array items).Keyed ↔ ∀ item ∈ items, item.Keyed := by
  constructor
  · intro h item hi
    obtain ⟨i, hi⟩ := List.mem_iff_getElem?.1 hi
    exact h.child (show (array items).child? (.index i) = some item from hi)
  · intro h path entries hp
    cases path with
    | nil => simp [resolve] at hp
    | cons step rest =>
      rw [resolve] at hp
      obtain ⟨inner, hc, hrest⟩ := Option.bind_eq_some_iff.1 hp
      cases step with
      | key k => simp [child?] at hc
      | index i => exact h inner (List.mem_of_getElem? hc) rest entries hrest

theorem keyed_object_iff {entries : Object Json} : (object entries).Keyed ↔
    (Object.keys entries).Nodup ∧ ∀ key value, Object.get? entries key = some value →
      value.Keyed := by
  constructor
  · intro h
    refine ⟨h [] entries rfl, fun key value hg => ?_⟩
    exact h.child (show (object entries).child? (.key key) = some value from hg)
  · rintro ⟨hn, h⟩ path others hp
    cases path with
    | nil =>
      obtain rfl : entries = others := by simpa [resolve] using hp
      exact hn
    | cons step rest =>
      rw [resolve] at hp
      obtain ⟨inner, hc, hrest⟩ := Option.bind_eq_some_iff.1 hp
      cases step with
      | key k => exact h k inner hc rest others hrest
      | index i => simp [child?] at hc

theorem keyed_nil : (object []).Keyed := by
  rw [keyed_object_iff]
  simp [Object.keys]

/-- Putting a value with distinct keys into such an object makes another one. -/
theorem Keyed.insert {entries : Object Json} (hk : (object entries).Keyed) (key : String)
    {value : Json} (hv : value.Keyed) : (object (Object.insert entries key value)).Keyed := by
  obtain ⟨hn, hin⟩ := keyed_object_iff.1 hk
  refine keyed_object_iff.2 ⟨Object.nodup_insert hn key value, fun key' value' hg => ?_⟩
  rw [Object.get?_insert] at hg
  split at hg
  · obtain rfl := Option.some.inj hg
    exact hv
  · exact hin key' value' hg

/-- Removing an entry leaves an object with distinct keys. -/
theorem Keyed.remove {remove : Object Json → String → Object Json} (hr : Object.Removes remove)
    {entries : Object Json} (hk : (object entries).Keyed) (key : String) :
    (object (remove entries key)).Keyed := by
  obtain ⟨hn, hin⟩ := keyed_object_iff.1 hk
  refine keyed_object_iff.2 ⟨hr.nodup_remove hn key, fun key' value hg => ?_⟩
  rw [hr.get?_remove hn] at hg
  split at hg
  · contradiction
  · exact hin key' value hg

end Json

end FieldMask

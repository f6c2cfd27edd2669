import FieldMask.Projection
import FieldMask.Proofs.Json.Keyed
import FieldMask.Selector.Siblings
import Mathlib.Data.List.Basic

/-!
# What is kept of an object

Selectors with distinct keys never replace what one of them has inserted, so
the kept object lists, in the order of the selectors, one entry for each
selector whose key is there.

Results:
* `keepFrom_eq_append`: the kept entries are listed selector by selector.
* `project_object_eq_entries`: the projection of an object.
* `get?_entries`: what is found under a key of it.
* `keys_entries`: its keys are the selected ones that are there, in their order.
* `project_eq_array_iff`, `project_eq_object_iff`: a projection is of the sort of
  the value.
-/

namespace FieldMask

namespace Selector

/-- The entry that a selector keeps of an object, if the object has its key. -/
def kept? (source : Object Json) (s : Selector) : Option (String × Json) :=
  (source.get? s.key).map fun value => (s.key, s.keep value)

/-- The entries that some selectors keep of an object, in their order. -/
def entries (selectors : List Selector) (source : Object Json) : Object Json :=
  selectors.filterMap (kept? source)

section Find

variable {key : String} {s : Selector} {rest selectors : List Selector}

theorem find?_cons (key : String) (s : Selector) (rest : List Selector) :
    find? key (s :: rest) = if s.key = key then some s else find? key rest := by
  unfold find?
  rw [List.find?_cons]
  by_cases h : s.key = key <;> simp [h]

theorem find?_isSome : (find? key selectors).isSome = true ↔ key ∈ keys selectors := by
  simp [find?, keys]

theorem find?_eq_none : find? key selectors = none ↔ key ∉ keys selectors := by
  rw [← find?_isSome]
  cases find? key selectors <;> simp

theorem mem_of_find? (h : find? key selectors = some s) : s ∈ selectors :=
  List.mem_of_find?_eq_some h

theorem find?_of_mem (hn : (keys selectors).Nodup) (h : s ∈ selectors) :
    find? s.key selectors = some s := by
  induction selectors with
  | nil => cases h
  | cons t rest ih =>
    obtain ⟨hne, hrest⟩ := List.nodup_cons.1 hn
    rw [find?_cons]
    rcases List.mem_cons.1 h with rfl | h
    · exact if_pos rfl
    · have hk : s.key ∈ keys rest := List.mem_map_of_mem h
      have hd : t.key ≠ s.key := fun e => hne (e ▸ hk)
      rw [if_neg hd, ih hrest h]

end Find

theorem Distinct.nodup {selectors : List Selector} (h : Distinct selectors) :
    (keys selectors).Nodup := (distinct_iff.1 h).1

theorem Distinct.children {key : String} {children selectors : List Selector}
    (h : Distinct selectors) (hs : branch key children ∈ selectors) : Distinct children := by
  have hbelow := (distinct_iff.1 h).2 _ hs
  rwa [DistinctBelow] at hbelow

/-! ## Kept entries -/

@[simp] theorem entries_nil (source : Object Json) : entries [] source = [] := rfl

theorem entries_cons_of_none {source : Object Json} {s : Selector}
    (h : source.get? s.key = none) (rest : List Selector) :
    entries (s :: rest) source = entries rest source := by
  simp [entries, kept?, h]

theorem entries_cons_of_some {source : Object Json} {s : Selector} {value : Json}
    (h : source.get? s.key = some value) (rest : List Selector) :
    entries (s :: rest) source = (s.key, s.keep value) :: entries rest source := by
  simp [entries, kept?, h]

theorem kept?_eq (source : Object Json) (s : Selector) :
    kept? source s = ((source.get? s.key).map s.keep).map fun value => (s.key, value) := by
  rw [kept?, Option.map_map]
  rfl

/-- The kept entries are told by what each selector keeps under its key. -/
theorem entries_congr {selectors : List Selector} {es fs : Object Json}
    (h : ∀ s ∈ selectors, (es.get? s.key).map s.keep = (fs.get? s.key).map s.keep) :
    entries selectors es = entries selectors fs := by
  apply List.filterMap_congr
  intro s hs
  rw [kept?_eq, kept?_eq, h s hs]

/-- The kept keys are the selected ones that the object has. -/
theorem keys_entries (selectors : List Selector) (source : Object Json) :
    Object.keys (entries selectors source) =
      (keys selectors).filter fun key => (source.get? key).isSome := by
  induction selectors with
  | nil => rfl
  | cons s rest ih =>
    simp only [Object.keys, keys] at ih ⊢
    cases h : source.get? s.key with
    | none => simp [entries_cons_of_none h, h, ih]
    | some value => simp [entries_cons_of_some h, h, ih]

theorem keys_entries_sublist (selectors : List Selector) (source : Object Json) :
    (Object.keys (entries selectors source)).Sublist (keys selectors) := by
  rw [keys_entries]
  exact List.filter_sublist

/-- Under a key stands what its selector keeps of the value under it. -/
theorem get?_entries {selectors : List Selector} (hn : (keys selectors).Nodup)
    (source : Object Json) (key : String) :
    (entries selectors source).get? key =
      (find? key selectors).bind fun s => (source.get? key).map s.keep := by
  induction selectors with
  | nil => rfl
  | cons s rest ih =>
    obtain ⟨hne, hrest⟩ := List.nodup_cons.1 hn
    rw [find?_cons]
    by_cases hk : s.key = key
    · subst hk
      rw [if_pos rfl, Option.bind_some]
      cases h : source.get? s.key with
      | none =>
        have hmiss : find? s.key rest = none := find?_eq_none.2 hne
        rw [entries_cons_of_none h, ih hrest, hmiss]
        rfl
      | some value =>
        rw [entries_cons_of_some h, Object.get?_cons]
        exact if_pos rfl
    · rw [if_neg hk, ← ih hrest]
      cases h : source.get? s.key with
      | none => rw [entries_cons_of_none h]
      | some value =>
        rw [entries_cons_of_some h, Object.get?_cons]
        exact if_neg hk

end Selector

/-! ## Projected objects -/

/-- No selector finds its key among those kept before it, so each entry goes to the end. -/
theorem keepFrom_eq_append {selectors : List Selector} (hn : (Selector.keys selectors).Nodup)
    (source : Object Json) {kept : Object Json}
    (hf : ∀ key ∈ Selector.keys selectors, key ∉ Object.keys kept) :
    keepFrom selectors source kept = kept ++ Selector.entries selectors source := by
  induction selectors generalizing kept with
  | nil => simp
  | cons s rest ih =>
    obtain ⟨hne, hrest⟩ := List.nodup_cons.1 hn
    have hs : s.key ∉ Object.keys kept := hf s.key List.mem_cons_self
    have hfresh : ∀ key ∈ Selector.keys rest, key ∉ Object.keys kept :=
      fun key hk => hf key (List.mem_cons_of_mem _ hk)
    rw [keepFrom_cons]
    cases h : source.get? s.key with
    | none =>
      rw [Selector.entries_cons_of_none h]
      exact ih hrest hfresh
    | some value =>
      have hfresh' : ∀ key ∈ Selector.keys rest,
          key ∉ Object.keys (kept ++ [(s.key, s.keep value)]) := by
        intro key hk hmem
        rw [Object.keys, List.map_append, List.mem_append] at hmem
        rcases hmem with hmem | hmem
        · exact hfresh key hk hmem
        · obtain rfl : key = s.key := by simpa using hmem
          exact hne hk
      simp only [Object.insert_of_not_mem hs]
      rw [ih hrest hfresh', Selector.entries_cons_of_some h, List.append_assoc,
        List.singleton_append]

theorem keepFrom_nil_eq_entries {selectors : List Selector}
    (hn : (Selector.keys selectors).Nodup) (source : Object Json) :
    keepFrom selectors source [] = Selector.entries selectors source := by
  rw [keepFrom_eq_append hn source (by simp [Object.keys]), List.nil_append]

theorem project_object_eq_entries {selectors : List Selector}
    (hn : (Selector.keys selectors).Nodup) (source : Object Json) :
    project selectors (.object source) = .object (Selector.entries selectors source) := by
  rw [project_object, keepFrom_nil_eq_entries hn]

/-! ## Sorts of values -/

section Sorts

variable {selectors : List Selector} {value : Json}

theorem project_eq_scalar_iff {scalar : Json} (hs : scalar.IsScalar) :
    project selectors value = scalar ↔ value = scalar := by
  induction value using Json.induct with
  | scalar value hv => rw [project_of_isScalar selectors hv]
  | array items =>
    rw [project_array]
    constructor <;> intro h <;> exact absurd hs (by simp [← h, Json.IsScalar])
  | object source =>
    rw [project_object]
    constructor <;> intro h <;> exact absurd hs (by simp [← h, Json.IsScalar])

theorem project_eq_array_iff {items : List Json} :
    project selectors value = .array items ↔
      ∃ sources, value = .array sources ∧ sources.map (project selectors) = items := by
  induction value using Json.induct with
  | scalar value hv =>
    rw [project_of_isScalar selectors hv]
    constructor
    · intro h
      exact absurd hv (by simp [h, Json.IsScalar])
    · rintro ⟨sources, rfl, -⟩
      exact hv.elim
  | array sources => simp
  | object source => simp

theorem project_eq_object_iff {entries : Object Json} :
    project selectors value = .object entries ↔
      ∃ source, value = .object source ∧ keepFrom selectors source [] = entries := by
  induction value using Json.induct with
  | scalar value hv =>
    rw [project_of_isScalar selectors hv]
    constructor
    · intro h
      exact absurd hv (by simp [h, Json.IsScalar])
    · rintro ⟨source, rfl, -⟩
      exact hv.elim
  | array items => simp
  | object source => simp

end Sorts

end FieldMask

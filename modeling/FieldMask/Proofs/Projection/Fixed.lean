import FieldMask.Projection.Fits
import FieldMask.Proofs.Json.Keyed
import FieldMask.Proofs.Projection.Entries

/-!
# Values that a projection leaves as they are

A projection leaves a value as it is exactly if the value fits the selectors:
there is no key in it that is not selected, and no key out of the selectors'
order. What a projection makes always fits, so every value becomes one that is
left as it is.

Results:
* `entriesFit_iff`: when the entries of an object fit.
* `fits_project`: a projection fits.
* `Fits.project_eq`: what fits is left as it is.
* `project_eq_self_iff_fits`: nothing else is.
-/

namespace FieldMask

/-! ## Fitting entry by entry -/

section Fit

variable {selectors : List Selector}

theorem entriesFit_iff {entries : Object Json} :
    EntriesFit selectors entries ↔ ∀ key value, (key, value) ∈ entries →
      ∀ name children, Selector.find? key selectors = some (.branch name children) →
        Fits children value := by
  induction entries with
  | nil => simp [EntriesFit]
  | cons entry rest ih =>
    obtain ⟨key, value⟩ := entry
    rw [EntriesFit, ih]
    constructor
    · rintro ⟨hfirst, hrest⟩ key' value' hmem name children hf
      rcases List.mem_cons.1 hmem with heq | hmem
      · obtain ⟨rfl, rfl⟩ := Prod.mk.inj heq
        rwa [hf] at hfirst
      · exact hrest key' value' hmem name children hf
    · intro h
      refine ⟨?_, fun key' value' hmem => h key' value' (List.mem_cons_of_mem _ hmem)⟩
      split
      · next hf => exact h key value List.mem_cons_self _ _ hf
      · trivial

theorem fits_object_iff {entries : Object Json} : Fits selectors (.object entries) ↔
    (Object.keys entries).Sublist (Selector.keys selectors) ∧ EntriesFit selectors entries := by
  rw [Fits]

theorem fits_of_isScalar {value : Json} (h : value.IsScalar) : Fits selectors value := by
  cases value with
  | array items => exact h.elim
  | object entries => exact h.elim
  | _ => trivial

end Fit

/-! ## What a projection makes -/

/-- What is kept under a key fits, by what its selector keeps there. -/
theorem entriesFit_entries {selectors : List Selector} (hd : Selector.Distinct selectors)
    {source : Object Json}
    (ih : ∀ entry ∈ source, ∀ children, Selector.Distinct children →
      Fits children (project children entry.2)) :
    EntriesFit selectors (Selector.entries selectors source) := by
  rw [entriesFit_iff]
  intro key kept hmem name children hf
  have hn : (Object.keys (Selector.entries selectors source)).Nodup :=
    hd.nodup.sublist (Selector.keys_entries_sublist selectors source)
  have hget := Object.get?_of_mem hn hmem
  rw [Selector.get?_entries hd.nodup, hf, Option.bind_some] at hget
  obtain ⟨value, hv, rfl⟩ := Option.map_eq_some_iff.1 hget
  rw [Selector.keep_branch]
  exact ih _ (Object.mem_of_get? hv) children (hd.children (Selector.mem_of_find? hf))

theorem fits_project {selectors : List Selector} (hd : Selector.Distinct selectors)
    (value : Json) : Fits selectors (project selectors value) := by
  induction value using Json.induct generalizing selectors with
  | scalar value hs =>
    rw [project_of_isScalar selectors hs]
    exact fits_of_isScalar hs
  | array items ih =>
    rw [project_array, Fits, itemsFit_iff]
    intro kept hmem
    obtain ⟨item, hi, rfl⟩ := List.mem_map.1 hmem
    exact ih item hi hd
  | object source ih =>
    rw [project_object_eq_entries hd.nodup, fits_object_iff]
    exact ⟨Selector.keys_entries_sublist selectors source,
      entriesFit_entries hd fun entry hmem children hc => ih entry hmem hc⟩

/-! ## What a projection leaves -/

/-- An object whose keys stand in the order of the selectors is kept entry by entry. -/
theorem Selector.entries_eq_self {selectors : List Selector} (hn : (keys selectors).Nodup)
    {source : Object Json} (hsub : (Object.keys source).Sublist (keys selectors))
    (hkeep : ∀ s ∈ selectors, ∀ value, source.get? s.key = some value → s.keep value = value) :
    entries selectors source = source := by
  induction selectors generalizing source with
  | nil =>
    obtain rfl : source = [] := List.map_eq_nil_iff.1 (List.sublist_nil.1 hsub)
    rfl
  | cons s rest ih =>
    obtain ⟨hne, hrest⟩ := List.nodup_cons.1 hn
    rcases List.sublist_cons_iff.1 hsub with hskip | ⟨names, hnames, hsub⟩
    · have hmiss : source.get? s.key = none :=
        Object.get?_eq_none.2 fun hmem => hne (hskip.subset hmem)
      rw [entries_cons_of_none hmiss]
      exact ih hrest hskip fun t ht => hkeep t (List.mem_cons_of_mem s ht)
    · obtain ⟨⟨key, value⟩, others, rfl, hkey, rfl⟩ := List.map_eq_cons_iff.1 hnames
      have hfound : Object.get? ((key, value) :: others) s.key = some value := by
        rw [Object.get?_cons, if_pos hkey]
      -- The selectors behind the first one do not see the first entry.
      have hsame : ∀ t ∈ rest,
          Object.get? ((key, value) :: others) t.key = Object.get? others t.key := by
        intro t ht
        have hk : key ≠ t.key := by
          rintro rfl
          exact hne (hkey ▸ List.mem_map_of_mem ht)
        rw [Object.get?_cons, if_neg hk]
      have hothers : entries rest ((key, value) :: others) = entries rest others := by
        apply entries_congr
        intro t ht
        rw [hsame t ht]
      have hself : entries rest others = others := by
        refine ih hrest hsub fun t ht v hv => ?_
        exact hkeep t (List.mem_cons_of_mem s ht) v ((hsame t ht).trans hv)
      rw [entries_cons_of_some hfound, hothers, hself, hkeep s List.mem_cons_self value hfound,
        ← hkey]

theorem Fits.project_eq {selectors : List Selector} {value : Json} (h : Fits selectors value)
    (hd : Selector.Distinct selectors) : project selectors value = value := by
  induction value using Json.induct generalizing selectors with
  | scalar value hs => exact project_of_isScalar selectors hs
  | array items ih =>
    rw [Fits, itemsFit_iff] at h
    have hitems : items.map (project selectors) = items.map id :=
      List.map_congr_left fun item hi => ih item hi (h item hi) hd
    rw [project_array, hitems, List.map_id]
  | object source ih =>
    obtain ⟨hsub, hfit⟩ := fits_object_iff.1 h
    rw [project_object_eq_entries hd.nodup, Selector.entries_eq_self hd.nodup hsub]
    intro s hs value hv
    have hmem := Object.mem_of_get? hv
    cases s with
    | leaf key => exact Selector.keep_leaf key value
    | branch key children =>
      have hf := Selector.find?_of_mem hd.nodup hs
      rw [Selector.keep_branch]
      exact ih _ hmem (entriesFit_iff.1 hfit _ value hmem key children hf) (hd.children hs)

/-- A projection leaves a value as it is, the order of the keys included, if and only if the
    value fits the selectors. Whatever the value, its projection fits. -/
theorem project_eq_self_iff_fits (selectors : List Selector) (hd : Selector.Distinct selectors)
    (value : Json) :
    (project selectors value = value ↔ Fits selectors value) ∧
      Fits selectors (project selectors value) := by
  have himage := fits_project hd value
  refine ⟨⟨fun h => ?_, fun h => h.project_eq hd⟩, himage⟩
  rwa [h] at himage

theorem project_eq_self_iff_fits_nested :
    Selector.Distinct [.branch "b" [.leaf "c", .leaf "d"], .leaf "a"] ∧
    project [.branch "b" [.leaf "c", .leaf "d"], .leaf "a"]
        (.object [("b", .array [.null, .object [("d", .null)]]), ("a", .object [("e", .null)])]) =
      .object [("b", .array [.null, .object [("d", .null)]]), ("a", .object [("e", .null)])] ∧
    project [.branch "b" [.leaf "c", .leaf "d"], .leaf "a"]
        (.object [("b", .object [("d", .null), ("c", .null)])]) ≠
      .object [("b", .object [("d", .null), ("c", .null)])] := by
  have hd : Selector.Distinct [.branch "b" [.leaf "c", .leaf "d"], .leaf "a"] := by decide
  refine ⟨hd, ?_, ?_⟩
  · rw [(project_eq_self_iff_fits _ hd _).1]
    simp [Fits, EntriesFit, ItemsFit, Selector.find?, Selector.key, Selector.keys, Object.keys]
  · intro heq
    have hfit := fits_object_iff.1 ((project_eq_self_iff_fits _ hd _).1.1 heq)
    have hinner := entriesFit_iff.1 hfit.2 "b" _ List.mem_cons_self "b" _ rfl
    have hsub := (fits_object_iff.1 hinner).1
    exact absurd hsub (by decide)

end FieldMask

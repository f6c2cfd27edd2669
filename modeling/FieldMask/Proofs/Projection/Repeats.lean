import FieldMask.Proofs.Projection.Entries
import FieldMask.Proofs.Projection.Moving

/-!
# Siblings with the same key

Selectors that are written by hand may repeat a key. Copying then replaces what
an earlier sibling has kept, in its place, so the last of them decides. Moving
finds the key gone when it comes to a later sibling, so the first of them
decides. Both hold at every level below the siblings that decide.

Results:
* `keys_firsts`, `keys_lasts`, `find?_firsts`, `find?_lasts`: which selectors
  decide, and in which order they stand.
* `project_lasts`: copying goes by the last selector of each key.
* `extractBy_eq_project_firsts`: moving goes by the first one.
* `project_lasts_extractBy_firsts`: each of the two ways in terms of the other.
-/

namespace FieldMask

namespace Selector

/-- Leaving out one more key. -/
theorem filter_not_mem_of_iff {key : String} {seen more : List String}
    (h : ∀ other, other ∈ more ↔ other = key ∨ other ∈ seen) (names : List String) :
    names.filter (· ∉ more) = (names.filter (· ∉ seen)).filter fun other => !other == key := by
  rw [List.filter_filter]
  refine List.filter_congr fun other _ => ?_
  by_cases hk : other = key <;> simp [h, hk]

theorem filter_not_mem_nil (names : List String) : names.filter (· ∉ ([] : List String)) = names :=
  List.filter_eq_self.2 (by simp)

/-! ## The first selector of each key -/

section Firsts

variable {seen : List String} {s : Selector}

@[simp] theorem firstsFrom_nil (seen : List String) : firstsFrom seen [] = [] := by
  rw [firstsFrom]

theorem firstsFrom_cons_of_mem (h : s.key ∈ seen) (rest : List Selector) :
    firstsFrom seen (s :: rest) = firstsFrom seen rest := by
  rw [firstsFrom, if_pos h]

theorem firstsFrom_cons_of_not_mem (h : s.key ∉ seen) (rest : List Selector) :
    firstsFrom seen (s :: rest) = s.withFirsts :: firstsFrom (s.key :: seen) rest := by
  rw [firstsFrom, if_neg h]

theorem keys_firstsFrom (seen : List String) (selectors : List Selector) :
    keys (firstsFrom seen selectors) = ((keys selectors).filter (· ∉ seen)).eraseDups := by
  induction selectors generalizing seen with
  | nil => simp [keys]
  | cons s rest ih =>
    simp only [keys] at ih ⊢
    by_cases hs : s.key ∈ seen
    · rw [firstsFrom_cons_of_mem hs, ih, List.map_cons, List.filter_cons_of_neg (by simpa using hs)]
    · have hmore : ∀ other, other ∈ s.key :: seen ↔ other = s.key ∨ other ∈ seen :=
        fun other => List.mem_cons
      rw [firstsFrom_cons_of_not_mem hs, List.map_cons, List.map_cons, ih, key_withFirsts,
        List.filter_cons_of_pos (by simpa using hs), List.eraseDups_cons,
        filter_not_mem_of_iff hmore]

/-- Each key stands where it first stood. -/
theorem keys_firsts (selectors : List Selector) :
    keys (firsts selectors) = (keys selectors).eraseDups := by
  rw [firsts, keys_firstsFrom, filter_not_mem_nil]

theorem find?_firstsFrom (seen : List String) (selectors : List Selector) (key : String) :
    find? key (firstsFrom seen selectors) =
      if key ∈ seen then none else (find? key selectors).map withFirsts := by
  induction selectors generalizing seen with
  | nil => simp [find?]
  | cons s rest ih =>
    by_cases hs : s.key ∈ seen
    · rw [firstsFrom_cons_of_mem hs, ih, find?_cons]
      by_cases hk : s.key = key
      · rw [← hk, if_pos hs, if_pos hs]
      · rw [if_neg hk]
    · rw [firstsFrom_cons_of_not_mem hs, find?_cons, find?_cons, ih, key_withFirsts]
      by_cases hk : s.key = key
      · rw [if_pos hk, if_pos hk, ← hk, if_neg hs, Option.map_some]
      · have hmem : key ∈ s.key :: seen ↔ key ∈ seen := by simp [Ne.symm hk]
        simp only [if_neg hk, hmem]

theorem find?_firsts (selectors : List Selector) (key : String) :
    find? key (firsts selectors) = (find? key selectors).map withFirsts := by
  rw [firsts, find?_firstsFrom, if_neg List.not_mem_nil]

end Firsts

/-! ## The last selector of each key -/

section Lasts

variable {s : Selector} {kept : List Selector}

@[simp] theorem lastsInto_nil (kept : List Selector) : lastsInto kept [] = kept := by
  rw [lastsInto]

theorem lastsInto_cons (kept : List Selector) (s : Selector) (rest : List Selector) :
    lastsInto kept (s :: rest) = lastsInto (put kept s.withLasts) rest := by
  rw [lastsInto]

theorem keys_put (kept : List Selector) (s : Selector) :
    keys (put kept s) = if s.key ∈ keys kept then keys kept else keys kept ++ [s.key] := by
  induction kept with
  | nil => rfl
  | cons t rest ih =>
    simp only [keys] at ih ⊢
    by_cases h : t.key = s.key
    · simp [put, h]
    · have hne : ¬s.key = t.key := fun e => h e.symm
      by_cases hk : s.key ∈ rest.map key <;> simp [put, h, hne, ih, hk]

theorem find?_put (kept : List Selector) (s : Selector) (key : String) :
    find? key (put kept s) = if s.key = key then some s else find? key kept := by
  induction kept with
  | nil => simp [put, find?_cons]
  | cons t rest ih =>
    by_cases h : t.key = s.key
    · by_cases hk : s.key = key <;> simp [put, find?_cons, h, hk]
    · by_cases hk : s.key = key
      · subst hk
        simp [put, find?_cons, h, ih]
      · simp [put, find?_cons, h, ih, hk]

theorem keys_lastsInto (kept selectors : List Selector) :
    keys (lastsInto kept selectors) =
      keys kept ++ ((keys selectors).filter (· ∉ keys kept)).eraseDups := by
  induction selectors generalizing kept with
  | nil => simp [keys]
  | cons s rest ih =>
    have hcons : keys (s :: rest) = s.key :: keys rest := rfl
    rw [lastsInto_cons, ih, keys_put, key_withLasts, hcons]
    by_cases hs : s.key ∈ keys kept
    · rw [if_pos hs, List.filter_cons_of_neg (by simpa using hs)]
    · have hmore : ∀ other, other ∈ keys kept ++ [s.key] ↔ other = s.key ∨ other ∈ keys kept := by
        simp [or_comm]
      rw [if_neg hs, List.filter_cons_of_pos (by simpa using hs), List.eraseDups_cons,
        filter_not_mem_of_iff hmore, List.append_assoc, List.singleton_append]

/-- Each key stands where it first stood. -/
theorem keys_lasts (selectors : List Selector) :
    keys (lasts selectors) = (keys selectors).eraseDups := by
  have hnil : keys [] = [] := rfl
  rw [lasts, keys_lastsInto, hnil, filter_not_mem_nil, List.nil_append]

theorem find?_lastsInto (kept selectors : List Selector) (key : String) :
    find? key (lastsInto kept selectors) =
      ((find? key selectors.reverse).map withLasts).or (find? key kept) := by
  induction selectors generalizing kept with
  | nil => simp [find?]
  | cons s rest ih =>
    have hlast : find? key (s :: rest).reverse = (find? key rest.reverse).or (find? key [s]) := by
      rw [List.reverse_cons, find?, List.find?_append]
      rfl
    rw [lastsInto_cons, ih, find?_put, key_withLasts, hlast, find?_cons]
    cases find? key rest.reverse with
    | some t => rfl
    | none => by_cases hk : s.key = key <;> simp [hk, find?]

/-- The last selector of a key is the first one from behind. -/
theorem find?_lasts (selectors : List Selector) (key : String) :
    find? key (lasts selectors) = (find? key selectors.reverse).map withLasts := by
  rw [lasts, find?_lastsInto]
  simp [find?]

theorem mem_put {t : Selector} (h : t ∈ put kept s) : t = s ∨ t ∈ kept := by
  induction kept with
  | nil => exact .inl (List.mem_singleton.1 h)
  | cons u rest ih =>
    rw [put] at h
    split at h
    · rcases List.mem_cons.1 h with rfl | h
      · exact .inl rfl
      · exact .inr (List.mem_cons_of_mem _ h)
    · rcases List.mem_cons.1 h with rfl | h
      · exact .inr List.mem_cons_self
      · exact (ih h).imp_right (List.mem_cons_of_mem _)

theorem Distinct.put (hk : Distinct kept) (hs : s.DistinctBelow) : Distinct (put kept s) := by
  obtain ⟨hn, hbelow⟩ := distinct_iff.1 hk
  refine distinct_iff.2 ⟨?_, fun t ht => ?_⟩
  · rw [keys_put]
    split
    · exact hn
    · next hnew =>
      refine List.nodup_append.2 ⟨hn, by simp, fun a ha b hb e => hnew ?_⟩
      rw [← List.mem_singleton.1 hb, ← e]
      exact ha
  · rcases mem_put ht with rfl | ht
    · exact hs
    · exact hbelow t ht

theorem distinct_lastsInto {selectors : List Selector} (hk : Distinct kept) :
    Distinct (lastsInto kept selectors) := by
  induction selectors using Selector.induct generalizing kept with
  | nil => rwa [lastsInto_nil]
  | leaf key rest ih =>
    have hbelow : (leaf key).withLasts.DistinctBelow := by
      rw [withLasts, DistinctBelow]
      trivial
    rw [lastsInto_cons]
    exact ih (hk.put hbelow)
  | branch key children rest ihc ihr =>
    have hnil : Distinct [] := by
      rw [Distinct]
      trivial
    have hbelow : (branch key children).withLasts.DistinctBelow := by
      rw [withLasts, DistinctBelow]
      exact ihc hnil
    rw [lastsInto_cons]
    exact ihr (hk.put hbelow)

theorem distinct_lasts (selectors : List Selector) : Distinct (lasts selectors) := by
  refine distinct_lastsInto ?_
  rw [Distinct]
  trivial

end Lasts

/-! ## Copying: a later selector replaces what an earlier one has kept -/

section Copying

variable {source : Object Json} {s t : Selector} {kept : List Selector}

/-- Where the key is missing, neither the selector nor the one it replaces keeps anything. -/
theorem entries_put_of_none (h : source.get? s.key = none) :
    entries (put kept s) source = entries kept source := by
  induction kept with
  | nil => rw [put, entries_cons_of_none h]
  | cons t rest ih =>
    rw [put]
    split
    · next hk =>
      have ht : source.get? t.key = none := by rw [hk, h]
      rw [entries_cons_of_none h, entries_cons_of_none ht]
    · cases ht : source.get? t.key with
      | none => rw [entries_cons_of_none ht, entries_cons_of_none ht, ih]
      | some value => rw [entries_cons_of_some ht, entries_cons_of_some ht, ih]

/-- Where the key is there, the selector replaces the entry of the one it replaces. -/
theorem entries_put_of_some {value : Json} (h : source.get? s.key = some value) :
    entries (put kept s) source = (entries kept source).insert s.key (s.keep value) := by
  induction kept with
  | nil => rw [put, entries_cons_of_some h]; rfl
  | cons t rest ih =>
    rw [put]
    split
    · next hk =>
      have ht : source.get? t.key = some value := by rw [hk, h]
      rw [entries_cons_of_some h, entries_cons_of_some ht, Object.insert, if_pos hk]
    · next hk =>
      cases ht : source.get? t.key with
      | none => rw [entries_cons_of_none ht, entries_cons_of_none ht, ih]
      | some other =>
        rw [entries_cons_of_some ht, entries_cons_of_some ht, Object.insert, if_neg hk, ih]

/-- What copying does for one selector, the selectors kept so far do with it among them. -/
theorem keepFrom_entries_cons {rest : List Selector}
    (hs : ∀ value, s.withLasts.keep value = s.keep value)
    (ih : ∀ kept, keepFrom rest source (entries kept source) =
      entries (lastsInto kept rest) source) (kept : List Selector) :
    keepFrom (s :: rest) source (entries kept source) =
      entries (lastsInto kept (s :: rest)) source := by
  have hkey : s.withLasts.key = s.key := key_withLasts s
  rw [keepFrom_cons, lastsInto_cons, ← ih]
  cases hv : source.get? s.key with
  | none =>
    have hmiss : source.get? s.withLasts.key = none := by rw [hkey, hv]
    rw [entries_put_of_none hmiss]
  | some value =>
    have hfound : source.get? s.withLasts.key = some value := by rw [hkey, hv]
    rw [entries_put_of_some hfound, hkey, hs]

end Copying

end Selector

theorem project_congr {selectors others : List Selector}
    (h : ∀ source, keepFrom selectors source [] = keepFrom others source []) (value : Json) :
    project selectors value = project others value := by
  simp only [project, h]

/-- By induction on the selectors: what was kept before a selector is what the last
    selectors up to there keep. -/
theorem keepFrom_entries (selectors kept : List Selector) (source : Object Json) :
    keepFrom selectors source (Selector.entries kept source) =
      Selector.entries (Selector.lastsInto kept selectors) source := by
  induction selectors using Selector.induct generalizing kept source with
  | nil => rw [keepFrom_nil, Selector.lastsInto_nil]
  | leaf key rest ih =>
    refine Selector.keepFrom_entries_cons (fun value => ?_) (fun kept => ih kept source) kept
    rw [Selector.withLasts]
  | branch key children rest ihc ihr =>
    refine Selector.keepFrom_entries_cons (fun value => ?_) (fun kept => ihr kept source) kept
    rw [Selector.withLasts, Selector.keep_branch, Selector.keep_branch]
    refine project_congr (fun inner => ?_) value
    have hn := (Selector.distinct_lasts children).nodup
    rw [← Selector.lasts, keepFrom_nil_eq_entries hn]
    exact (ihc [] inner).symm

theorem keepFrom_lasts (selectors : List Selector) (source : Object Json) :
    keepFrom (Selector.lasts selectors) source [] = keepFrom selectors source [] := by
  have hn := (Selector.distinct_lasts selectors).nodup
  rw [keepFrom_nil_eq_entries hn]
  exact (keepFrom_entries selectors [] source).symm

theorem project_lasts (selectors : List Selector) (value : Json) :
    project (Selector.lasts selectors) value = project selectors value :=
  project_congr (keepFrom_lasts selectors) value

/-! ## Moving: an earlier selector leaves nothing to a later one -/

section Moving

variable {remove : Object Json → String → Object Json} (hr : Object.Removes remove)

/-- What is left of an object is the object without the keys in `seen`. -/
def Left (seen : List String) (source left : Object Json) : Prop :=
  ∀ key, left.get? key = if key ∈ seen then none else source.get? key

theorem left_nil (source : Object Json) : Left [] source source := by
  intro key
  rw [if_neg List.not_mem_nil]

/-- A key that is not there might as well have been removed. -/
theorem Left.cons_of_none {seen : List String} {source left : Object Json} {key : String}
    (h : Left seen source left) (hkey : left.get? key = none) : Left (key :: seen) source left := by
  intro other
  by_cases ho : other = key
  · rw [ho, hkey, if_pos List.mem_cons_self]
  · have hmem : other ∈ key :: seen ↔ other ∈ seen := by simp [ho]
    simp only [h other, hmem]

include hr

theorem Left.of_remove {seen : List String} {source left : Object Json} (h : Left seen source left)
    (hn : (Object.keys left).Nodup) (key : String) :
    Left (key :: seen) source (remove left key) := by
  intro other
  rw [hr.get?_remove hn]
  by_cases ho : key = other
  · rw [if_pos ho, ho, if_pos List.mem_cons_self]
  · have hmem : other ∈ key :: seen ↔ other ∈ seen := by simp [Ne.symm ho]
    simp only [if_neg ho, h other, hmem]

/-- One selector: its key has been moved out before, or it is the first one with the key. -/
theorem moveFrom_cons_eq_keepFrom_firsts {s : Selector} {rest : List Selector}
    {seen : List String} {source left : Object Json}
    (hs : ∀ value, value.Keyed → s.move remove value = s.withFirsts.keep value)
    (ih : ∀ {seen : List String} {left : Object Json}, (Json.object left).Keyed →
      Left seen source left → ∀ kept, moveFrom remove rest left kept =
        keepFrom (Selector.firstsFrom seen rest) source kept)
    (hk : (Json.object left).Keyed) (hl : Left seen source left) (kept : Object Json) :
    moveFrom remove (s :: rest) left kept =
      keepFrom (Selector.firstsFrom seen (s :: rest)) source kept := by
  have hfirst := hl s.key
  rw [moveFrom_cons]
  by_cases hseen : s.key ∈ seen
  · rw [if_pos hseen] at hfirst
    rw [hfirst, Selector.firstsFrom_cons_of_mem hseen]
    exact ih hk hl kept
  · rw [if_neg hseen] at hfirst
    rw [Selector.firstsFrom_cons_of_not_mem hseen, keepFrom_cons, Selector.key_withFirsts, ← hfirst]
    cases hg : left.get? s.key with
    | none => exact ih hk (hl.cons_of_none hg) kept
    | some value =>
      obtain ⟨hn, hin⟩ := Json.keyed_object_iff.1 hk
      have hv : value.Keyed := hin s.key value hg
      simp only [hs value hv]
      exact ih (hk.remove hr s.key) (hl.of_remove hr hn s.key) _

theorem moveFrom_eq_keepFrom_firsts (selectors : List Selector) {seen : List String}
    {source left : Object Json} (hk : (Json.object left).Keyed) (hl : Left seen source left)
    (kept : Object Json) :
    moveFrom remove selectors left kept =
      keepFrom (Selector.firstsFrom seen selectors) source kept := by
  induction selectors using Selector.induct generalizing seen source left kept with
  | nil => rw [moveFrom_nil, Selector.firstsFrom_nil, keepFrom_nil]
  | leaf key rest ih =>
    refine moveFrom_cons_eq_keepFrom_firsts hr (fun value _ => ?_) ih hk hl kept
    rw [Selector.withFirsts, Selector.move_leaf, Selector.keep_leaf]
  | branch key children rest ihc ihr =>
    refine moveFrom_cons_eq_keepFrom_firsts hr (fun value hv => ?_) ihr hk hl kept
    rw [Selector.withFirsts, Selector.move_branch, Selector.keep_branch, extractBy, project]
    exact mapObjects_congr (fun entries he => ihc he (left_nil entries) []) hv

theorem extractBy_eq_project_firsts (selectors : List Selector) {value : Json}
    (hk : value.Keyed) :
    extractBy remove selectors value = project (Selector.firsts selectors) value :=
  mapObjects_congr (fun _ he => moveFrom_eq_keepFrom_firsts hr selectors he (left_nil _) []) hk

end Moving

/-- Where siblings repeat a key, copying goes by the last of them, in the place of the first
    one, and moving by the first. So each of the two ways gives what the other one gives for
    the selectors that decide, in whatever order removing an entry leaves the others. -/
theorem project_lasts_extractBy_firsts {remove : Object Json → String → Object Json}
    (hr : Object.Removes remove) (selectors : List Selector) {value : Json} (hk : value.Keyed) :
    project selectors value = extractBy remove (Selector.lasts selectors) value ∧
      extractBy remove selectors value = project (Selector.firsts selectors) value := by
  refine ⟨?_, extractBy_eq_project_firsts hr selectors hk⟩
  rw [extractBy_eq_project hr (Selector.distinct_lasts selectors) hk, project_lasts]

theorem project_lasts_extractBy_firsts_nested :
    (Json.object [("a", .object [("b", .null), ("c", .bool true)]), ("d", .null)]).Keyed ∧
    Selector.lasts [.branch "a" [.leaf "b"], .leaf "d", .branch "a" [.leaf "c", .leaf "c"]] =
      [.branch "a" [.leaf "c"], .leaf "d"] ∧
    Selector.firsts [.branch "a" [.leaf "b"], .leaf "d", .branch "a" [.leaf "c", .leaf "c"]] =
      [.branch "a" [.leaf "b"], .leaf "d"] ∧
    project [.branch "a" [.leaf "b"], .leaf "d", .branch "a" [.leaf "c", .leaf "c"]]
        (.object [("a", .object [("b", .null), ("c", .bool true)]), ("d", .null)]) =
      .object [("a", .object [("c", .bool true)]), ("d", .null)] ∧
    extractBy Object.swapErase
        [.branch "a" [.leaf "b"], .leaf "d", .branch "a" [.leaf "c", .leaf "c"]]
        (.object [("a", .object [("b", .null), ("c", .bool true)]), ("d", .null)]) =
      .object [("a", .object [("b", .null)]), ("d", .null)] := by
  have hnull : Json.null.Keyed := Json.keyed_of_isScalar trivial
  have htrue : (Json.bool true).Keyed := Json.keyed_of_isScalar trivial
  have hinner : (Json.object [("b", .null), ("c", .bool true)]).Keyed :=
    (Json.keyed_nil.insert "b" hnull).insert "c" htrue
  have hk : (Json.object
      [("a", .object [("b", .null), ("c", .bool true)]), ("d", .null)]).Keyed :=
    (Json.keyed_nil.insert "a" hinner).insert "d" hnull
  obtain ⟨hcopy, hmove⟩ := project_lasts_extractBy_firsts Object.removes_swapErase
    [.branch "a" [.leaf "b"], .leaf "d", .branch "a" [.leaf "c", .leaf "c"]] hk
  refine ⟨hk, rfl, rfl, ?_, ?_⟩
  · rw [hcopy]
    rfl
  · rw [hmove]
    rfl

end FieldMask

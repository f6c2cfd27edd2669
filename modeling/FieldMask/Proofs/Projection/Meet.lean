import FieldMask.Proofs.Pattern.RoundTrip
import FieldMask.Proofs.Projection.Entries

/-!
# Projecting a projection

What two lists of selectors select one after the other is what their meet
selects at once. Under a key that both have, a leaf leaves the value to the other
selector, and of two branches the outer one is applied to what the inner one
has kept, so that the order of the keys is that of the outer one.

Results:
* `Selector.keys_meet`, `Selector.meet_self`: the keys of a meet, and the meet of
  a list with itself.
* `project_project`: projecting twice is projecting through the meet.
* `project_project_eq_meet`: the same, with what follows for compiled filters.
-/

namespace FieldMask

namespace Selector

/-! ## The meet of two lists -/

section Meet

variable {s t : Selector} {rest others : List Selector}

@[simp] theorem meet_nil (others : List Selector) : meet [] others = [] := by
  rw [meet]

theorem meet_cons_of_none (h : find? s.key others = none) :
    meet (s :: rest) others = meet rest others := by
  rw [meet, h]

theorem meet_cons_of_some (h : find? s.key others = some t) :
    meet (s :: rest) others = s.meetOne t :: meet rest others := by
  rw [meet, h]

/-- A meet has the keys of the first list that the second one has, too. -/
theorem keys_meet (selectors others : List Selector) :
    keys (meet selectors others) = (keys selectors).filter (· ∈ keys others) := by
  induction selectors with
  | nil => simp [keys]
  | cons s rest ih =>
    simp only [keys] at ih ⊢
    cases h : find? s.key others with
    | none =>
      have hmiss : s.key ∉ others.map key := find?_eq_none.1 h
      rw [meet_cons_of_none h, ih, List.map_cons, List.filter_cons_of_neg (by simpa using hmiss)]
    | some t =>
      have hkey : s.key ∈ others.map key := find?_isSome.1 (by rw [h]; rfl)
      rw [meet_cons_of_some h, List.map_cons, ih, key_meetOne, List.map_cons,
        List.filter_cons_of_pos (by simpa using hkey)]

theorem nodup_keys_meet (h : (keys rest).Nodup) (others : List Selector) :
    (keys (meet rest others)).Nodup := by
  rw [keys_meet]
  exact h.sublist List.filter_sublist

/-- By induction on the selectors: each of them meets itself. -/
theorem meet_eq_of_subset {selectors others : List Selector} (hd : Distinct others)
    (hsub : selectors ⊆ others) : meet selectors others = selectors := by
  induction selectors using Selector.induct generalizing others with
  | nil => exact meet_nil others
  | leaf key rest ih =>
    have hmem : leaf key ∈ others := hsub List.mem_cons_self
    have hrest : rest ⊆ others := fun s hs => hsub (List.mem_cons_of_mem _ hs)
    have hself : (leaf key).meetOne (leaf key) = leaf key := by rw [meetOne]; rfl
    rw [meet_cons_of_some (find?_of_mem hd.nodup hmem), hself, ih hd hrest]
  | branch key children rest ihc ihr =>
    have hmem : branch key children ∈ others := hsub List.mem_cons_self
    have hrest : rest ⊆ others := fun s hs => hsub (List.mem_cons_of_mem _ hs)
    have hchildren : meet children children = children :=
      ihc (hd.children hmem) (List.Subset.refl children)
    have hself : (branch key children).meetOne (branch key children) = branch key children := by
      rw [meetOne, hchildren]
    rw [meet_cons_of_some (find?_of_mem hd.nodup hmem), hself, ihr hd hrest]

theorem meet_self {selectors : List Selector} (hd : Distinct selectors) :
    meet selectors selectors = selectors :=
  meet_eq_of_subset hd (List.Subset.refl selectors)

end Meet

/-! ## Keeping twice -/

section Keep

variable {key : String} {children : List Selector}

theorem keep_meetOne_leaf (key : String) (t : Selector) (value : Json) :
    (leaf key).keep (t.keep value) = ((leaf key).meetOne t).keep value := by
  rw [keep_leaf, meetOne]
  cases t with
  | leaf k => simp [children?, ofChildren]
  | branch k others => simp [children?, ofChildren]

/-- Of two branches the outer one is applied to what the inner one has kept. -/
theorem keep_meetOne_branch
    (ih : ∀ {others : List Selector}, Distinct others → ∀ value,
      project children (project others value) = project (meet children others) value)
    {t : Selector} (ht : t.DistinctBelow) (value : Json) :
    (branch key children).keep (t.keep value) =
      ((branch key children).meetOne t).keep value := by
  cases t with
  | leaf k => rw [meetOne, keep_leaf]
  | branch k others =>
    have hothers : Distinct others := by rwa [DistinctBelow] at ht
    rw [meetOne, keep_branch, keep_branch, keep_branch, ih hothers]

end Keep

/-- What one selector keeps of the entries that others have kept. -/
theorem entries_entries_cons {s : Selector} {rest others : List Selector} {source : Object Json}
    (hn : (keys others).Nodup)
    (hs : ∀ t, find? s.key others = some t → ∀ value,
      s.keep (t.keep value) = (s.meetOne t).keep value)
    (ih : entries rest (entries others source) = entries (meet rest others) source) :
    entries (s :: rest) (entries others source) = entries (meet (s :: rest) others) source := by
  have hget := get?_entries hn source s.key
  cases hf : find? s.key others with
  | none =>
    have hmiss : (entries others source).get? s.key = none := by rw [hget, hf]; rfl
    rw [entries_cons_of_none hmiss, meet_cons_of_none hf, ih]
  | some t =>
    rw [hf, Option.bind_some] at hget
    rw [meet_cons_of_some hf]
    have hkey : (s.meetOne t).key = s.key := key_meetOne s t
    cases hv : source.get? s.key with
    | none =>
      rw [hv] at hget
      have hmiss : source.get? (s.meetOne t).key = none := by rw [hkey, hv]
      rw [entries_cons_of_none hget, entries_cons_of_none hmiss, ih]
    | some value =>
      rw [hv] at hget
      have hfound : source.get? (s.meetOne t).key = some value := by rw [hkey, hv]
      rw [entries_cons_of_some hget, entries_cons_of_some hfound, ih, hkey, hs t hf]

end Selector

/-! ## Projecting twice -/

/-- What holds of the entries of objects holds of the values that are made of objects. -/
theorem project_project_of_entries {outer inner : List Selector}
    (ho : (Selector.keys outer).Nodup) (hi : (Selector.keys inner).Nodup)
    (h : ∀ source, Selector.entries outer (Selector.entries inner source) =
      Selector.entries (Selector.meet outer inner) source) (value : Json) :
    project outer (project inner value) = project (Selector.meet outer inner) value := by
  induction value using Json.induct with
  | scalar value hs =>
    rw [project_of_isScalar inner hs, project_of_isScalar outer hs, project_of_isScalar _ hs]
  | array items ih =>
    rw [project_array, project_array, project_array, List.map_map]
    congr 1
    exact List.map_congr_left ih
  | object source =>
    have hm := Selector.nodup_keys_meet ho inner
    rw [project_object_eq_entries hi, project_object_eq_entries ho, project_object_eq_entries hm, h]

theorem entries_entries {outer inner : List Selector} (ho : Selector.Distinct outer)
    (hi : Selector.Distinct inner) (source : Object Json) :
    Selector.entries outer (Selector.entries inner source) =
      Selector.entries (Selector.meet outer inner) source := by
  induction outer using Selector.induct generalizing inner source with
  | nil => rw [Selector.meet_nil, Selector.entries_nil, Selector.entries_nil]
  | leaf key rest ih =>
    rw [Selector.Distinct] at ho
    obtain ⟨-, -, hrest⟩ := ho
    exact Selector.entries_entries_cons hi.nodup
      (fun t _ value => Selector.keep_meetOne_leaf key t value) (ih hrest hi source)
  | branch key children rest ihc ihr =>
    rw [Selector.Distinct, Selector.DistinctBelow] at ho
    obtain ⟨-, hchildren, hrest⟩ := ho
    refine Selector.entries_entries_cons hi.nodup (fun t ht value => ?_) (ihr hrest hi source)
    have hbelow := (Selector.distinct_iff.1 hi).2 t (Selector.mem_of_find? ht)
    refine Selector.keep_meetOne_branch (fun {others} hothers => ?_) hbelow value
    exact project_project_of_entries hchildren.nodup hothers.nodup (ihc hchildren hothers)

theorem project_project {outer inner : List Selector} (ho : Selector.Distinct outer)
    (hi : Selector.Distinct inner) (value : Json) :
    project outer (project inner value) = project (Selector.meet outer inner) value :=
  project_project_of_entries ho.nodup hi.nodup (entries_entries ho hi) value

theorem project_idem {selectors : List Selector} (hd : Selector.Distinct selectors)
    (value : Json) : project selectors (project selectors value) = project selectors value := by
  rw [project_project hd hd, Selector.meet_self hd]

/-- Projecting a projection is projecting through the meet of the selectors. A list of
    selectors is its own meet, so that a compiled filter changes nothing of what it has
    kept. -/
theorem project_project_eq_meet (outer inner : List Selector) (ho : Selector.Distinct outer)
    (hi : Selector.Distinct inner) :
    (∀ value, project outer (project inner value) =
      project (Selector.meet outer inner) value) ∧
    Selector.meet outer outer = outer ∧
    ∀ compiler pattern filter, Compiler.compile compiler pattern = .ok filter →
      ∀ value, filter.apply (filter.apply value) = filter.apply value := by
  refine ⟨project_project ho hi, Selector.meet_self ho, ?_⟩
  intro compiler pattern filter h value
  have hd : Selector.Distinct filter.selectors := (Compiler.allowed_of_compile h).distinct
  exact project_idem hd value

theorem project_project_eq_meet_mixed :
    Selector.Distinct [.leaf "b", .branch "a" [.leaf "c"], .leaf "d"] ∧
    Selector.Distinct [.leaf "a", .branch "b" [.leaf "e", .leaf "f"]] ∧
    project [.leaf "b", .branch "a" [.leaf "c"], .leaf "d"]
        (project [.leaf "a", .branch "b" [.leaf "e", .leaf "f"]]
          (.object [("a", .object [("g", .null), ("c", .null)]),
            ("b", .array [.object [("f", .null), ("e", .bool true)]]), ("d", .null)])) =
      .object [("b", .array [.object [("e", .bool true), ("f", .null)]]),
        ("a", .object [("c", .null)])] ∧
    ∃ pattern filter, Compiler.standard.compile pattern = .ok filter ∧
      filter.selectors = [.leaf "b", .branch "a" [.leaf "c"], .leaf "d"] ∧
      ∀ value, filter.apply (filter.apply value) = filter.apply value := by
  have ho : Selector.Distinct [.leaf "b", .branch "a" [.leaf "c"], .leaf "d"] := by decide
  have hi : Selector.Distinct [.leaf "a", .branch "b" [.leaf "e", .leaf "f"]] := by decide
  have hallowed : Selector.Allowed Compiler.standard.maxDepth 1
      [.leaf "b", .branch "a" [.leaf "c"], .leaf "d"] := by
    rw [Selector.allowed_iff]
    decide
  have hc := Compiler.compile_renderPattern_of_allowed hallowed
  obtain ⟨hmeet, -, hfilter⟩ := project_project_eq_meet _ _ ho hi
  refine ⟨ho, hi, ?_, _, _, hc, rfl, hfilter _ _ _ hc⟩
  rw [hmeet]
  rfl

end FieldMask

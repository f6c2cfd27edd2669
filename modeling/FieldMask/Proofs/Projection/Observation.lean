import FieldMask.Projection.Alike
import FieldMask.Proofs.Projection.Paths

/-!
# What a projection tells of a value

Two values have the same projection exactly if they are alike under the
selectors. So whatever is done to fields that are not selected, at any depth and
inside arrays too, does not show, and a change of a selected part always does.

Results:
* `entries_cons_inj`: the kept entries tell what is kept for each selector.
* `Retouched.project_eq`: a change outside of what is selected does not show.
* `project_eq_iff_alike`: the projection tells exactly what is selected.
-/

namespace FieldMask

/-- One change outside of what is selected. In one object, reached through arrays and
    selected branches only, entries are changed, added, removed or put in another order,
    but under the selected keys the same is found as before. -/
inductive Retouched : List Selector → Json → Json → Prop
  | here {selectors : List Selector} {es fs : Object Json}
      (h : ∀ key ∈ Selector.keys selectors, Object.get? es key = Object.get? fs key) :
      Retouched selectors (.object es) (.object fs)
  | item {selectors : List Selector} {items : List Json} {i : Nat} {v w : Json}
      (hi : items[i]? = some v) (inner : Retouched selectors v w) :
      Retouched selectors (.array items) (.array (items.set i w))
  | entry {selectors children : List Selector} {key : String} {es : Object Json} {v w : Json}
      (hs : .branch key children ∈ selectors) (hv : Object.get? es key = some v)
      (inner : Retouched children v w) :
      Retouched selectors (.object es) (.object (Object.insert es key w))

/-! ## Agreement selector by selector -/

section Agreement

variable {key : String} {children rest : List Selector} {es fs : Object Json}

theorem agreeOn_leaf_cons_iff : AgreeOn (.leaf key :: rest) es fs ↔
    Object.get? es key = Object.get? fs key ∧ AgreeOn rest es fs := by
  constructor
  · intro h
    cases h with
    | missing left right others => exact ⟨left.trans right.symm, others⟩
    | leaf left right others => exact ⟨left.trans right.symm, others⟩
  · rintro ⟨hg, hrest⟩
    cases he : Object.get? es key with
    | none => exact .missing he (hg ▸ he) hrest
    | some value => exact .leaf he (hg ▸ he) hrest

theorem agreeOn_branch_cons_iff : AgreeOn (.branch key children :: rest) es fs ↔
    Option.Rel (Alike children) (Object.get? es key) (Object.get? fs key) ∧
      AgreeOn rest es fs := by
  constructor
  · intro h
    cases h with
    | missing left right others =>
      have hl : Object.get? es key = none := left
      have hr : Object.get? fs key = none := right
      rw [hl, hr]
      exact ⟨.none, others⟩
    | branch left right values others =>
      rw [left, right]
      exact ⟨.some values, others⟩
  · rintro ⟨hg, hrest⟩
    cases he : Object.get? es key with
    | none =>
      cases hf : Object.get? fs key with
      | none => exact .missing he hf hrest
      | some w =>
        rw [he, hf] at hg
        cases hg
    | some v =>
      cases hf : Object.get? fs key with
      | none =>
        rw [he, hf] at hg
        cases hg
      | some w =>
        rw [he, hf] at hg
        cases hg with
        | some values => exact .branch he hf values hrest

end Agreement

/-! ## What kept entries tell -/

namespace Selector

variable {s : Selector} {rest : List Selector} {es fs : Object Json}

theorem not_mem_keys_entries (h : s.key ∉ keys rest) (source : Object Json) :
    s.key ∉ Object.keys (entries rest source) :=
  fun hk => h ((keys_entries_sublist rest source).subset hk)

/-- Since no other selector keeps an entry with the first one's key, equal lists of entries
    start with what the first one keeps. -/
theorem entries_cons_inj (hne : s.key ∉ keys rest) :
    entries (s :: rest) es = entries (s :: rest) fs ↔
      (es.get? s.key).map s.keep = (fs.get? s.key).map s.keep ∧
        entries rest es = entries rest fs := by
  cases he : es.get? s.key with
  | none =>
    cases hf : fs.get? s.key with
    | none => simp [entries_cons_of_none he, entries_cons_of_none hf]
    | some w =>
      have hkey : entries rest es ≠ (s.key, s.keep w) :: entries rest fs := by
        intro h
        apply not_mem_keys_entries hne es
        rw [h]
        exact List.mem_cons_self
      simp [entries_cons_of_none he, entries_cons_of_some hf, hkey]
  | some v =>
    cases hf : fs.get? s.key with
    | none =>
      have hkey : (s.key, s.keep v) :: entries rest es ≠ entries rest fs := by
        intro h
        apply not_mem_keys_entries hne fs
        rw [← h]
        exact List.mem_cons_self
      simp [entries_cons_of_some he, entries_cons_of_none hf, hkey]
    | some w => simp [entries_cons_of_some he, entries_cons_of_some hf]

end Selector

/-! ## Equal projections -/

section Alike

variable {selectors : List Selector}

theorem alike_scalar_iff {v w : Json} (hv : v.IsScalar) : Alike selectors v w ↔ w = v := by
  constructor
  · intro h
    cases h with
    | scalar => rfl
    | array => exact hv.elim
    | object => exact hv.elim
  · rintro rfl
    exact .scalar hv

theorem alike_array_iff {vs : List Json} {w : Json} :
    Alike selectors (.array vs) w ↔ ∃ ws, w = .array ws ∧ ItemsAlike selectors vs ws := by
  constructor
  · intro h
    cases h with
    | scalar hv => exact hv.elim
    | array items => exact ⟨_, rfl, items⟩
  · rintro ⟨ws, rfl, items⟩
    exact .array items

theorem alike_object_iff {es : Object Json} {w : Json} :
    Alike selectors (.object es) w ↔ ∃ fs, w = .object fs ∧ AgreeOn selectors es fs := by
  constructor
  · intro h
    cases h with
    | scalar hv => exact hv.elim
    | object entries => exact ⟨_, rfl, entries⟩
  · rintro ⟨fs, rfl, entries⟩
    exact .object entries

/-- Items are alike place by place if what is said of alike values holds of each of them. -/
theorem map_project_eq_iff {vs : List Json}
    (h : ∀ v ∈ vs, ∀ w, project selectors v = project selectors w ↔ Alike selectors v w)
    (ws : List Json) :
    ws.map (project selectors) = vs.map (project selectors) ↔ ItemsAlike selectors vs ws := by
  induction vs generalizing ws with
  | nil =>
    cases ws with
    | nil => exact ⟨fun _ => .nil, fun _ => rfl⟩
    | cons w ws => exact ⟨fun hm => by simp at hm, fun ha => by cases ha⟩
  | cons v vs ih =>
    cases ws with
    | nil => exact ⟨fun hm => by simp at hm, fun ha => by cases ha⟩
    | cons w ws =>
      have hv := h v List.mem_cons_self w
      have hvs := ih (fun u hu => h u (List.mem_cons_of_mem _ hu)) ws
      rw [List.map_cons, List.map_cons, List.cons.injEq, hvs, eq_comm, hv]
      constructor
      · rintro ⟨item, items⟩
        exact .cons item items
      · intro ha
        cases ha with
        | cons item items => exact ⟨item, items⟩

/-- What is said of the entries of objects holds of the values that are made of objects. -/
theorem project_eq_iff_of_entries (hn : (Selector.keys selectors).Nodup)
    (h : ∀ es fs, Selector.entries selectors es = Selector.entries selectors fs ↔
      AgreeOn selectors es fs) (v w : Json) :
    project selectors v = project selectors w ↔ Alike selectors v w := by
  induction v using Json.induct generalizing w with
  | scalar v hv =>
    rw [project_of_isScalar selectors hv, eq_comm, project_eq_scalar_iff hv, alike_scalar_iff hv]
  | array vs ih =>
    rw [project_array, eq_comm, project_eq_array_iff, alike_array_iff]
    simp only [map_project_eq_iff ih]
  | object es =>
    rw [project_object, eq_comm, project_eq_object_iff, alike_object_iff]
    simp only [keepFrom_nil_eq_entries hn, eq_comm (b := Selector.entries selectors es), h]

end Alike

theorem map_keep_branch_eq_iff {key : String} {children : List Selector}
    (h : ∀ v w, project children v = project children w ↔ Alike children v w)
    (v w : Option Json) :
    v.map (Selector.branch key children).keep = w.map (Selector.branch key children).keep ↔
      Option.Rel (Alike children) v w := by
  cases v with
  | none =>
    cases w with
    | none => exact ⟨fun _ => .none, fun _ => rfl⟩
    | some w => exact ⟨fun hm => by simp at hm, fun ha => by cases ha⟩
  | some v =>
    cases w with
    | none => exact ⟨fun hm => by simp at hm, fun ha => by cases ha⟩
    | some w =>
      rw [Option.map_some, Option.map_some, Option.some.injEq, Selector.keep_branch,
        Selector.keep_branch, h]
      constructor
      · intro ha
        exact .some ha
      · intro ha
        cases ha with
        | some ha => exact ha

/-- The kept entries tell exactly what is selected, by induction on the selectors. -/
theorem entries_eq_iff_agreeOn {selectors : List Selector} (hd : Selector.Distinct selectors)
    (es fs : Object Json) :
    Selector.entries selectors es = Selector.entries selectors fs ↔ AgreeOn selectors es fs := by
  induction selectors using Selector.induct generalizing es fs with
  | nil => exact ⟨fun _ => .nil, fun _ => rfl⟩
  | leaf key rest ih =>
    rw [Selector.Distinct] at hd
    obtain ⟨hne, -, hrest⟩ := hd
    have hkeep : (Selector.leaf key).keep = id := funext (Selector.keep_leaf key)
    rw [Selector.entries_cons_inj hne, agreeOn_leaf_cons_iff, ih hrest, hkeep, Option.map_id]
    rfl
  | branch key children rest ihc ihr =>
    rw [Selector.Distinct, Selector.DistinctBelow] at hd
    obtain ⟨hne, hchildren, hrest⟩ := hd
    rw [Selector.entries_cons_inj hne, agreeOn_branch_cons_iff, ihr hrest,
      map_keep_branch_eq_iff (project_eq_iff_of_entries hchildren.nodup (ihc hchildren))]
    rfl

/-! ## Changes that do not show -/

theorem Retouched.project_eq {selectors : List Selector} {v w : Json}
    (h : Retouched selectors v w) (hd : Selector.Distinct selectors) :
    project selectors v = project selectors w := by
  induction h with
  | here hg =>
    rw [project_object_eq_entries hd.nodup, project_object_eq_entries hd.nodup]
    congr 1
    apply Selector.entries_congr
    intro s hs
    rw [hg s.key (List.mem_map_of_mem hs)]
  | @item selectors items i v w hi _ ih =>
    rw [project_array, project_array, List.map_set, ← ih hd]
    congr 1
    apply List.ext_getElem?
    intro j
    rw [List.getElem?_set]
    split
    · next hij =>
      obtain ⟨hlt, hv⟩ := List.getElem?_eq_some_iff.1 hi
      subst hij
      simp [hlt, hv]
    · rfl
  | @entry selectors children key es v w hs hv _ ih =>
    have heq := ih (hd.children hs)
    rw [project_object_eq_entries hd.nodup, project_object_eq_entries hd.nodup]
    congr 1
    apply Selector.entries_congr
    intro s hmem
    rw [Object.get?_insert]
    split
    · next hk =>
      -- The only selector with the key is the branch that the change is inside of.
      have hbranch := Selector.find?_of_mem hd.nodup hs
      have hkey : (Selector.branch key children).key = s.key := hk
      rw [hkey, Selector.find?_of_mem hd.nodup hmem] at hbranch
      obtain rfl := Option.some.inj hbranch
      rw [← hk, hv]
      simp [heq]
    · rfl

/-- A projection tells exactly what is selected: two values have the same one if and only
    if they are alike under the selectors. A change outside of what is selected does not
    show in it; a change of what is selected behind any path does. -/
theorem project_eq_iff_alike (selectors : List Selector) (hd : Selector.Distinct selectors)
    (v w : Json) :
    (project selectors v = project selectors w ↔ Alike selectors v w) ∧
    (Retouched selectors v w → project selectors v = project selectors w) ∧
    ∀ path scope, (Scope.part selectors).reach? (Step.keys path) = some scope →
      (v.resolve path).map scope.keep ≠ (w.resolve path).map scope.keep →
      project selectors v ≠ project selectors w := by
  refine ⟨project_eq_iff_of_entries hd.nodup (entries_eq_iff_agreeOn hd) v w,
    fun h => h.project_eq hd, ?_⟩
  intro path scope hr hne heq
  have hv := resolve_project hd v path
  have hw := resolve_project hd w path
  rw [hr, Option.bind_some] at hv hw
  rw [← hv, ← hw, heq] at hne
  exact hne rfl

theorem project_eq_iff_alike_nested :
    Selector.Distinct [.branch "b" [.leaf "c"]] ∧
    project [.branch "b" [.leaf "c"]]
        (.object [("a", .null), ("b", .array [.object [("c", .null), ("d", .null)]])]) =
      project [.branch "b" [.leaf "c"]]
        (.object [("a", .null), ("b", .array [.object [("e", .null), ("c", .null)]])]) ∧
    project [.branch "b" [.leaf "c"]]
        (.object [("a", .null), ("b", .array [.object [("c", .null), ("d", .null)]])]) ≠
      project [.branch "b" [.leaf "c"]]
        (.object [("a", .null), ("b", .array [.object [("d", .null)]])]) := by
  have hd : Selector.Distinct [.branch "b" [.leaf "c"]] := by decide
  have hinner : Retouched [.leaf "c"] (.object [("c", .null), ("d", .null)])
      (.object [("e", .null), ("c", .null)]) :=
    .here (by simp [Selector.keys, Selector.key, Object.get?_cons])
  have hitem : Retouched [.leaf "c"] (.array [.object [("c", .null), ("d", .null)]])
      (.array [.object [("e", .null), ("c", .null)]]) := .item (i := 0) rfl hinner
  refine ⟨hd, ?_, ?_⟩
  · exact (project_eq_iff_alike _ hd _ _).2.1 (.entry List.mem_cons_self rfl hitem)
  · refine (project_eq_iff_alike _ hd _ _).2.2 [.key "b", .index 0, .key "c"] .whole rfl ?_
    simp [Json.resolve, Json.child?, Object.get?, Scope.keep]

end FieldMask

import FieldMask.Proofs.Projection.Paths

/-!
# Projecting in another order

The order in which selectors are written and the order of the entries of a value
decide nothing but the order of keys in the projection. The selectors alone
decide it for every object that a branch has made; an object inside a value kept
by a leaf keeps the order it had.

Results:
* `Json.Shuffled.get?`: in another order, the same is found under each key.
* `Json.Shuffled.resolve`: and behind each path.
* `Selector.Reordered.project`: projecting in another order.
* `project_reordered`: the same, with where the order of the keys stays.
-/

namespace FieldMask

/-- Two values that are there or not together. -/
theorem rel_cases {α β : Type} {r : α → β → Prop} {a : Option α} {b : Option β}
    (h : Option.Rel r a b) : (a = none ∧ b = none) ∨ ∃ v w, a = some v ∧ b = some w ∧ r v w := by
  cases h with
  | none => exact .inl ⟨rfl, rfl⟩
  | some h => exact .inr ⟨_, _, rfl, rfl, h⟩

/-! ## Values in another order -/

namespace Json

mutual

/-- The same value but for the order of the entries of the objects in it, at any depth. -/
inductive Shuffled : Json → Json → Prop where
  | scalar {value : Json} (h : value.IsScalar) : Shuffled value value
  | array {vs ws : List Json} (items : ItemsShuffled vs ws) : Shuffled (.array vs) (.array ws)
  | object {es mid fs : Object Json} (values : ValuesShuffled es mid) (order : mid.Perm fs) :
      Shuffled (.object es) (.object fs)

/-- The same items place by place, each of them in another order. -/
inductive ItemsShuffled : List Json → List Json → Prop where
  | nil : ItemsShuffled [] []
  | cons {v w : Json} {vs ws : List Json} (item : Shuffled v w) (items : ItemsShuffled vs ws) :
      ItemsShuffled (v :: vs) (w :: ws)

/-- The same entries place by place, each value in another order. -/
inductive ValuesShuffled : Object Json → Object Json → Prop where
  | nil : ValuesShuffled [] []
  | cons {key : String} {v w : Json} {es fs : Object Json} (value : Shuffled v w)
      (values : ValuesShuffled es fs) : ValuesShuffled ((key, v) :: es) ((key, w) :: fs)

end

/-- The keys of an object, in order. -/
def keys? : Json → Option (List String)
  | object entries => some (Object.keys entries)
  | _ => none

section Shuffled

theorem ValuesShuffled.keys_eq {es fs : Object Json} :
    ValuesShuffled es fs → Object.keys es = Object.keys fs
  | .nil => rfl
  | .cons _ values => congrArg (_ :: ·) values.keys_eq

theorem ValuesShuffled.get? {es fs : Object Json} (key : String) :
    ValuesShuffled es fs → Option.Rel Shuffled (Object.get? es key) (Object.get? fs key)
  | .nil => .none
  | @ValuesShuffled.cons name v w es fs value values => by
    rw [Object.get?_cons, Object.get?_cons]
    by_cases hk : name = key
    · rw [if_pos hk, if_pos hk]
      exact .some value
    · rw [if_neg hk, if_neg hk]
      exact values.get? key

theorem ItemsShuffled.getElem? {vs ws : List Json} :
    ItemsShuffled vs ws → ∀ i : Nat, Option.Rel Shuffled vs[i]? ws[i]?
  | .nil, _ => .none
  | .cons item _, 0 => .some item
  | .cons _ items, i + 1 => by
    rw [List.getElem?_cons_succ, List.getElem?_cons_succ]
    exact items.getElem? i

theorem ItemsShuffled.map {f g : Json → Json} {vs ws : List Json}
    (h : ∀ v ∈ vs, ∀ {w : Json}, Shuffled v w → Shuffled (f v) (g w)) :
    ItemsShuffled vs ws → ItemsShuffled (vs.map f) (ws.map g)
  | .nil => .nil
  | .cons item items =>
    .cons (h _ List.mem_cons_self item) (items.map fun v hv => h v (List.mem_cons_of_mem _ hv))

/-- With distinct keys, the entries that are found are the same in any order. -/
theorem Shuffled.get? {es fs : Object Json} (h : Shuffled (.object es) (.object fs))
    (hn : (Object.keys es).Nodup) (key : String) :
    Option.Rel Shuffled (Object.get? es key) (Object.get? fs key) := by
  cases h with
  | scalar hs => exact hs.elim
  | object values order =>
    have hmid := values.keys_eq
    rw [Object.get?_of_perm order (hmid ▸ hn)]
    exact values.get? key

variable {v w : Json} (hk : v.Keyed) (h : Shuffled v w)

include hk h

theorem Shuffled.child? (step : Step) : Option.Rel Shuffled (v.child? step) (w.child? step) := by
  cases h with
  | scalar hs =>
    rw [child?_of_isScalar hs]
    exact .none
  | array items =>
    cases step with
    | key k => exact .none
    | index i => exact items.getElem? i
  | object values order =>
    cases step with
    | key k => exact (Shuffled.object values order).get? (keyed_object_iff.1 hk).1 k
    | index i => exact .none

/-- By induction on the path: it leads to the same place in both values. -/
theorem Shuffled.resolve (path : List Step) :
    Option.Rel Shuffled (v.resolve path) (w.resolve path) := by
  induction path generalizing v w with
  | nil => exact .some h
  | cons step rest ih =>
    rw [Json.resolve, Json.resolve]
    obtain ⟨hv, hw⟩ | ⟨inner, other, hv, hw, hinner⟩ := rel_cases (h.child? hk step)
    · rw [hv, hw]
      exact .none
    · rw [hv, hw]
      exact ih (hk.child hv) hinner

end Shuffled

end Json

/-! ## Selectors in another order -/

namespace Selector

mutual

/-- The same selectors but for the order of siblings, at any level. -/
inductive Reordered : List Selector → List Selector → Prop where
  | siblings {ss mid ts : List Selector} (below : ReorderedBelow ss mid) (order : mid.Perm ts) :
      Reordered ss ts

/-- The same siblings place by place, with the selectors below them in another order. -/
inductive ReorderedBelow : List Selector → List Selector → Prop where
  | nil : ReorderedBelow [] []
  | leaf {key : String} {ss ts : List Selector} (others : ReorderedBelow ss ts) :
      ReorderedBelow (.leaf key :: ss) (.leaf key :: ts)
  | branch {key : String} {cs ds ss ts : List Selector} (children : Reordered cs ds)
      (others : ReorderedBelow ss ts) :
      ReorderedBelow (.branch key cs :: ss) (.branch key ds :: ts)

end

theorem ReorderedBelow.keys_eq {ss ts : List Selector} :
    ReorderedBelow ss ts → keys ss = keys ts
  | .nil => rfl
  | .leaf others => congrArg (_ :: ·) others.keys_eq
  | .branch _ others => congrArg (_ :: ·) others.keys_eq

theorem Reordered.keys_perm {ss ts : List Selector} : Reordered ss ts → (keys ss).Perm (keys ts)
  | .siblings below order => below.keys_eq ▸ order.map key

end Selector

/-! ## Projecting -/

open Json Selector

/-- The same is found under each key of two objects, but for its order, and has distinct keys
    itself. -/
structure FoundAlike (es fs : Object Json) : Prop where
  found : ∀ key, Option.Rel Shuffled (es.get? key) (fs.get? key)
  keyed : ∀ key value, es.get? key = some value → value.Keyed

theorem foundAlike_of_shuffled {es fs : Object Json} (hk : (Json.object es).Keyed)
    (h : Shuffled (.object es) (.object fs)) : FoundAlike es fs where
  found := h.get? (keyed_object_iff.1 hk).1
  keyed := (keyed_object_iff.1 hk).2

/-- What one selector keeps of two objects, in front of what the others keep. -/
theorem FoundAlike.entries_cons {es fs : Object Json} (hf : FoundAlike es fs) {s t : Selector}
    (hkey : s.key = t.key)
    (hkeep : ∀ {v w : Json}, v.Keyed → Shuffled v w → Shuffled (s.keep v) (t.keep w))
    {ss ts : List Selector} (ih : ValuesShuffled (entries ss es) (entries ts fs)) :
    ValuesShuffled (entries (s :: ss) es) (entries (t :: ts) fs) := by
  obtain ⟨hv, hw⟩ | ⟨v, w, hv, hw, hvw⟩ := rel_cases (hf.found s.key)
  · rw [entries_cons_of_none hv, entries_cons_of_none (hkey ▸ hw)]
    exact ih
  · rw [entries_cons_of_some hv, entries_cons_of_some (hkey ▸ hw), ← hkey]
    exact .cons (hkeep (hf.keyed _ _ hv) hvw) ih

/-- What holds of the entries of objects holds of the values that are made of objects. -/
theorem shuffled_project_of_entries {ss ts : List Selector} (hs : (keys ss).Nodup)
    (ht : (keys ts).Nodup)
    (h : ∀ {es fs : Object Json}, FoundAlike es fs →
      Shuffled (.object (entries ss es)) (.object (entries ts fs)))
    {v w : Json} (hk : v.Keyed) (hvw : Shuffled v w) :
    Shuffled (project ss v) (project ts w) := by
  induction v using Json.induct generalizing w with
  | scalar v hv =>
    cases hvw with
    | scalar hv =>
      rw [project_of_isScalar ss hv, project_of_isScalar ts hv]
      exact .scalar hv
    | array items => exact hv.elim
    | object values order => exact hv.elim
  | array vs ih =>
    cases hvw with
    | scalar hv => exact hv.elim
    | array items =>
      rw [project_array, project_array]
      rw [keyed_array_iff] at hk
      exact .array (items.map fun v hv w hvw => ih v hv (hk v hv) hvw)
  | object es =>
    cases hvw with
    | scalar hv => exact hv.elim
    | object values order =>
      rw [project_object_eq_entries hs, project_object_eq_entries ht]
      exact h (foundAlike_of_shuffled hk (.object values order))

namespace Selector

mutual

theorem Reordered.project {ss ts : List Selector} (hd : Distinct ss) :
    Reordered ss ts → ∀ {v w : Json}, v.Keyed → Shuffled v w →
      Shuffled (project ss v) (FieldMask.project ts w)
  | .siblings below order => fun hk hvw => by
    have hperm := (Reordered.siblings below order).keys_perm
    refine shuffled_project_of_entries hd.nodup (hperm.nodup_iff.1 hd.nodup) ?_ hk hvw
    intro es fs hf
    exact .object (below.entries hd hf) (order.filterMap _)

/-- Sibling by sibling, the same entries are kept but for their order. -/
theorem ReorderedBelow.entries {ss ts : List Selector} (hd : Distinct ss) :
    ReorderedBelow ss ts → ∀ {es fs : Object Json}, FoundAlike es fs →
      ValuesShuffled (entries ss es) (Selector.entries ts fs)
  | .nil => fun _ => .nil
  | .leaf others => fun hf => by
    rw [Distinct] at hd
    refine hf.entries_cons rfl ?_ (others.entries hd.2.2 hf)
    intro v w _ hvw
    rwa [keep_leaf, keep_leaf]
  | @ReorderedBelow.branch key cs ds _ _ children others => fun hf => by
    rw [Distinct, DistinctBelow] at hd
    have hkeep : ∀ {v w : Json}, v.Keyed → Shuffled v w →
        Shuffled ((branch key cs).keep v) ((branch key ds).keep w) := by
      intro v w hk hvw
      rw [keep_branch, keep_branch]
      exact children.project hd.2.1 hk hvw
    have hkey : (branch key cs).key = (branch key ds).key := rfl
    exact hf.entries_cons hkey hkeep (others.entries hd.2.2 hf)

end

end Selector

/-- Under the same selectors the keys of an object stand in the same order. -/
theorem keys?_project_eq {selectors : List Selector} (hd : Selector.Distinct selectors) {v w : Json}
    (hk : v.Keyed) (h : Shuffled v w) :
    (project selectors v).keys? = (project selectors w).keys? := by
  cases h with
  | scalar hs => rfl
  | array items =>
    rw [project_array, project_array]
    rfl
  | @object es mid fs values order =>
    have hfound := (foundAlike_of_shuffled hk (.object values order)).found
    rw [project_object_eq_entries hd.nodup, project_object_eq_entries hd.nodup, keys?, keys?,
      keys_entries, keys_entries]
    congr 1
    refine List.filter_congr fun key _ => ?_
    obtain ⟨hv, hw⟩ | ⟨v, w, hv, hw, -⟩ := rel_cases (hfound key)
    · rw [hv, hw]
    · rw [hv, hw]
      rfl

/-- Writing the selectors and the value in another order changes nothing in the projection but
    the order of entries. With the selectors as they are, the keys of each object that no leaf
    has been passed on the way to stand in the same order. -/
theorem project_reordered (selectors others : List Selector) (hd : Selector.Distinct selectors)
    (hr : Selector.Reordered selectors others) (value shuffled : Json) (hk : value.Keyed)
    (h : Shuffled value shuffled) :
    Shuffled (project selectors value) (project others shuffled) ∧
    ∀ path left, (Scope.part selectors).reach? (Step.keys path) = some (.part left) →
      ((project selectors value).resolve path).bind keys? =
        ((project selectors shuffled).resolve path).bind keys? := by
  refine ⟨hr.project hd hk h, fun path left hl => ?_⟩
  have hscope : (Scope.part selectors).Distinct := hd
  have hleft : Selector.Distinct left := hscope.reach hl
  rw [resolve_project hd, resolve_project hd, hl, Option.bind_some, Option.bind_some]
  obtain ⟨hv, hw⟩ | ⟨v, w, hv, hw, hvw⟩ := rel_cases (h.resolve hk path)
  · rw [hv, hw]
  · rw [hv, hw]
    exact keys?_project_eq hleft (hk.resolve hv) hvw

theorem project_reordered_nested :
    Selector.Reordered [.branch "a" [.leaf "b", .leaf "c"], .leaf "d"]
      [.leaf "d", .branch "a" [.leaf "c", .leaf "b"]] ∧
    Shuffled
      (project [.branch "a" [.leaf "b", .leaf "c"], .leaf "d"]
        (.object [("e", .null), ("a", .array [.object [("c", .null), ("b", .object [])]])]))
      (project [.leaf "d", .branch "a" [.leaf "c", .leaf "b"]]
        (.object [("a", .array [.object [("b", .object []), ("c", .null)]]), ("e", .null)])) ∧
    ((project [.branch "a" [.leaf "b", .leaf "c"], .leaf "d"]
      (.object [("a", .array [.object [("b", .object []), ("c", .null)]]), ("e", .null)])).resolve
        [.key "a", .index 0]).bind keys? = some ["b", "c"] := by
  have hd : Selector.Distinct [.branch "a" [.leaf "b", .leaf "c"], .leaf "d"] := by decide
  have hr : Selector.Reordered [.branch "a" [.leaf "b", .leaf "c"], .leaf "d"]
      [.leaf "d", .branch "a" [.leaf "c", .leaf "b"]] :=
    .siblings (.branch (.siblings (.leaf (.leaf .nil)) (.swap _ _ _)) (.leaf .nil)) (.swap _ _ _)
  have hnull : Json.null.Keyed := keyed_of_isScalar trivial
  have hitem : (Json.object [("c", .null), ("b", .object [])]).Keyed :=
    (keyed_nil.insert "c" hnull).insert "b" keyed_nil
  have hk : (Json.object
      [("e", .null), ("a", .array [.object [("c", .null), ("b", .object [])]])]).Keyed :=
    (keyed_nil.insert "e" hnull).insert "a" (keyed_array_iff.2 (List.forall_mem_singleton.2 hitem))
  have h : Shuffled
      (.object [("e", .null), ("a", .array [.object [("c", .null), ("b", .object [])]])])
      (.object [("a", .array [.object [("b", .object []), ("c", .null)]]), ("e", .null)]) :=
    .object (.cons (.scalar trivial) (.cons (.array (.cons (.object (.cons (.scalar trivial)
      (.cons (.object .nil .nil) .nil)) (.swap _ _ _)) .nil)) .nil)) (.swap _ _ _)
  obtain ⟨hshuffled, hkeys⟩ := project_reordered _ _ hd hr _ _ hk h
  refine ⟨hr, hshuffled, ?_⟩
  rw [← hkeys [.key "a", .index 0] _ rfl]
  rfl

end FieldMask

import FieldMask.Projection.Fits
import FieldMask.Proofs.Json.Keyed
import FieldMask.Proofs.Projection.Entries

/-!
# Paths into a projection

A path leads somewhere in the projection of a value exactly if it leads
somewhere in the value and the selectors admit its keys. What stands there is
what stands in the value, projected through the selectors that are left at the
end of the path, or as it is if the path has passed a leaf.

Results:
* `Scope.resolve_keep`: what a path leads to in a projection.
* `admits_iff`: a path of keys is admitted if something is selected behind it.
* `resolve_project_exact`: a path in a projection and in the value itself.
-/

namespace FieldMask

namespace Json

theorem child?_of_isScalar {value : Json} (h : value.IsScalar) (step : Step) :
    value.child? step = none := by
  cases value with
  | array items => exact h.elim
  | object entries => exact h.elim
  | _ => cases step <;> rfl

theorem sameSort_refl (value : Json) : SameSort value value := by
  cases value <;> simp [SameSort]

end Json

/-- What of a value is selected: all of it, or what some selectors select in it. -/
inductive Scope where
  | whole
  | part (selectors : List Selector)

/-- What is selected of the value under a selector's key. -/
def Selector.scope : Selector → Scope
  | leaf _ => .whole
  | branch _ children => .part children

namespace Scope

/-- The selected part of a value. -/
def keep : Scope → Json → Json
  | whole, value => value
  | part selectors, value => project selectors value

/-- What is selected of the value under a key, if the key is selected. -/
def child? : Scope → String → Option Scope
  | whole, _ => some whole
  | part selectors, key => (Selector.find? key selectors).map Selector.scope

/-- What is selected of the value behind a path of keys, if all of them are selected:
    all of it once a leaf has been passed, and until then what the children of the last
    branch select. -/
def reach? (scope : Scope) : List String → Option Scope
  | [] => some scope
  | key :: keys => (scope.child? key).bind fun inner => inner.reach? keys

/-- Whether no two sibling selectors have the same key. -/
def Distinct : Scope → Prop
  | whole => True
  | part selectors => Selector.Distinct selectors

theorem keep_scope (s : Selector) : s.scope.keep = s.keep := by
  funext value
  cases s with
  | leaf key =>
    rw [Selector.keep_leaf]
    rfl
  | branch key children =>
    rw [Selector.keep_branch]
    rfl

theorem Distinct.child {scope inner : Scope} (h : scope.Distinct) {key : String}
    (hc : scope.child? key = some inner) : inner.Distinct := by
  cases scope with
  | whole =>
    obtain rfl := Option.some.inj hc
    exact h
  | part selectors =>
    obtain ⟨s, hs, rfl⟩ := Option.map_eq_some_iff.1 hc
    cases s with
    | leaf key => trivial
    | branch key children => exact Selector.Distinct.children h (Selector.mem_of_find? hs)

theorem Distinct.reach {scope inner : Scope} (h : scope.Distinct) {keys : List String}
    (hr : scope.reach? keys = some inner) : inner.Distinct := by
  induction keys generalizing scope with
  | nil =>
    obtain rfl := Option.some.inj hr
    exact h
  | cons key keys ih =>
    obtain ⟨next, hc, hr⟩ := Option.bind_eq_some_iff.1 hr
    exact ih (h.child hc) hr

theorem reach?_whole (keys : List String) : whole.reach? keys = some whole := by
  induction keys with
  | nil => rfl
  | cons key keys ih => exact ih

/-! ## One step -/

theorem map_keep_whole (value : Option Json) : value.map whole.keep = value := by
  cases value <;> rfl

/-- Arrays are projected item by item. -/
theorem child?_keep_index (scope : Scope) (value : Json) (i : Nat) :
    (scope.keep value).child? (.index i) = (value.child? (.index i)).map scope.keep := by
  cases scope with
  | whole => exact (map_keep_whole _).symm
  | part selectors =>
    show (project selectors value).child? (.index i) =
      (value.child? (.index i)).map (project selectors)
    induction value using Json.induct with
    | scalar value hs =>
      rw [project_of_isScalar selectors hs, Json.child?_of_isScalar hs]
      rfl
    | array items =>
      rw [project_array]
      exact List.getElem?_map
    | object source =>
      rw [project_object]
      rfl

/-- Under a selected key stands what is selected of the value under it. -/
theorem child?_keep_key {scope : Scope} (h : scope.Distinct) (value : Json) (key : String) :
    (scope.keep value).child? (.key key) =
      (scope.child? key).bind fun inner => (value.child? (.key key)).map inner.keep := by
  cases scope with
  | whole => exact (map_keep_whole _).symm
  | part selectors =>
    show (project selectors value).child? (.key key) =
      ((Selector.find? key selectors).map Selector.scope).bind
        fun inner => (value.child? (.key key)).map inner.keep
    induction value using Json.induct with
    | scalar value hs =>
      rw [project_of_isScalar selectors hs, Json.child?_of_isScalar hs]
      cases Selector.find? key selectors <;> rfl
    | array items =>
      rw [project_array]
      cases Selector.find? key selectors <;> rfl
    | object source =>
      have hn : (Selector.keys selectors).Nodup := Selector.Distinct.nodup h
      rw [project_object_eq_entries hn]
      show Object.get? (Selector.entries selectors source) key = _
      rw [Selector.get?_entries hn]
      cases Selector.find? key selectors with
      | none => rfl
      | some s => simp [Json.child?, keep_scope]

/-! ## Whole paths -/

/-- By induction on the path: an index step changes nothing of what is selected, a key
    step leads on to what is selected under the key. -/
theorem resolve_keep {scope : Scope} (h : scope.Distinct) (value : Json) (path : List Step) :
    (scope.keep value).resolve path =
      (scope.reach? (Step.keys path)).bind fun inner => (value.resolve path).map inner.keep := by
  induction path generalizing scope value with
  | nil => rfl
  | cons step rest ih =>
    rw [Json.resolve, Json.resolve]
    cases step with
    | index i =>
      rw [child?_keep_index, Step.keys]
      cases value.child? (.index i) with
      | none => cases scope.reach? (Step.keys rest) <;> rfl
      | some item => exact ih h item
    | key k =>
      rw [child?_keep_key h, Step.keys, reach?]
      cases hc : scope.child? k with
      | none => rfl
      | some inner =>
        simp only [Option.bind_some]
        cases value.child? (.key k) with
        | none => cases inner.reach? (Step.keys rest) <;> rfl
        | some child => exact ih (h.child hc) child

/-- The selected part of a value is of the same sort as the value. -/
theorem sameSort_keep (scope : Scope) (value : Json) : Json.SameSort (scope.keep value) value := by
  cases scope with
  | whole => exact Json.sameSort_refl value
  | part selectors =>
    show Json.SameSort (project selectors value) value
    induction value using Json.induct with
    | scalar value hs =>
      rw [project_of_isScalar selectors hs]
      exact Json.sameSort_refl value
    | array items => simp [Json.SameSort]
    | object source => simp [Json.SameSort]

end Scope

/-- A path of keys is admitted exactly if something is selected behind it. -/
theorem admits_iff {selectors : List Selector} {keys : List String} :
    Admits selectors keys ↔ ((Scope.part selectors).reach? keys).isSome = true := by
  induction keys generalizing selectors with
  | nil => simp [Admits, Scope.reach?]
  | cons key keys ih =>
    rw [Admits, Scope.reach?, Scope.child?]
    cases Selector.find? key selectors with
    | none => simp
    | some s =>
      cases s with
      | leaf k => simp [Selector.scope, Scope.reach?_whole]
      | branch k children => simpa [Selector.scope] using ih

theorem resolve_project {selectors : List Selector} (hd : Selector.Distinct selectors)
    (value : Json) (path : List Step) :
    (project selectors value).resolve path =
      ((Scope.part selectors).reach? (Step.keys path)).bind
        fun scope => (value.resolve path).map scope.keep := by
  have hscope : (Scope.part selectors).Distinct := hd
  exact Scope.resolve_keep hscope value path

/-- The keys of a projected object stand in the order of the selectors. -/
theorem keys_project_sublist {selectors : List Selector} (hd : Selector.Distinct selectors)
    {value : Json} {entries : Object Json} (h : project selectors value = .object entries) :
    (Object.keys entries).Sublist (Selector.keys selectors) := by
  obtain ⟨source, -, rfl⟩ := project_eq_object_iff.1 h
  rw [keepFrom_nil_eq_entries hd.nodup]
  exact Selector.keys_entries_sublist selectors source

/-- Projection is exact on paths. A path leads somewhere in the projection exactly if it
    does in the value and its keys are admitted; then both lead to scalars that are equal,
    to arrays of one length or to objects, and to equal values once a leaf has been
    passed. Behind branches only, the keys of an object stand in the order of the selectors
    that are left there. -/
theorem resolve_project_exact (selectors : List Selector) (hd : Selector.Distinct selectors)
    (value : Json) (path : List Step) :
    (((project selectors value).resolve path).isSome = true ↔
      (value.resolve path).isSome = true ∧ Admits selectors (Step.keys path)) ∧
    (∀ kept inner, (project selectors value).resolve path = some kept →
      value.resolve path = some inner → Json.SameSort kept inner ∧
        ((Scope.part selectors).reach? (Step.keys path) = some .whole → kept = inner)) ∧
    ∀ left entries, (Scope.part selectors).reach? (Step.keys path) = some (.part left) →
      (project selectors value).resolve path = some (.object entries) →
      (Object.keys entries).Sublist (Selector.keys left) := by
  rw [resolve_project hd]
  refine ⟨?_, ?_, ?_⟩
  · rw [admits_iff, Option.isSome_bind]
    cases (Scope.part selectors).reach? (Step.keys path) <;> simp
  · intro kept inner hk hi
    rw [hi] at hk
    obtain ⟨scope, hs, hk⟩ := Option.bind_eq_some_iff.1 hk
    obtain rfl := Option.some.inj hk
    refine ⟨scope.sameSort_keep inner, fun hw => ?_⟩
    obtain rfl := Option.some.inj (hs.symm.trans hw)
    rfl
  · intro left entries hl hk
    rw [hl, Option.bind_some] at hk
    obtain ⟨inner, -, hk⟩ := Option.map_eq_some_iff.1 hk
    have hscope : (Scope.part selectors).Distinct := hd
    have hleft : Selector.Distinct left := hscope.reach hl
    exact keys_project_sublist hleft hk

theorem resolve_project_exact_nested :
    Selector.Distinct [.branch "a" [.branch "b" [], .leaf "c"]] ∧
    ∃ kept, (project [.branch "a" [.branch "b" [], .leaf "c"]] (.object [("x", .null),
      ("a", .array [.object [("d", .null), ("c", .array [.null])]])])).resolve
        [.key "a", .index 0, .key "c"] = some kept ∧ kept = .array [.null] := by
  have hd : Selector.Distinct [.branch "a" [.branch "b" [], .leaf "c"]] := by decide
  obtain ⟨hiff, hkept, -⟩ := resolve_project_exact _ hd
    (.object [("x", .null), ("a", .array [.object [("d", .null), ("c", .array [.null])]])])
    [.key "a", .index 0, .key "c"]
  obtain ⟨kept, hk⟩ := Option.isSome_iff_exists.1 (hiff.2 ⟨rfl, by
    simp [Step.keys, Admits, Selector.find?, Selector.key]⟩)
  refine ⟨hd, kept, hk, (hkept kept _ hk rfl).2 rfl⟩

end FieldMask

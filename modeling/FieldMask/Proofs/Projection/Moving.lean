import FieldMask.Proofs.Datum.Parts
import FieldMask.Proofs.Pattern.RoundTrip

/-!
# Copying and moving select the same

Moving takes what it keeps out of the object, so a selector could find that an
earlier one has taken its key. Among siblings with distinct keys it never does,
and then moving and copying give the same value, whatever order removing an
entry leaves behind. Siblings that are compiled have distinct keys.

Results:
* `extractBy_eq_project`: moving and copying agree for distinct siblings.
* `apply_ways_agree`: a compiled filter gives the same answer by copying, by
  moving, and for data by way of its JSON form, whatever turns data into JSON.
-/

namespace FieldMask

section Moving

variable {remove : Object Json → String → Object Json} (hr : Object.Removes remove)

/-- What holds of the objects that a value consists of holds of the whole value. -/
theorem mapObjects_congr {f g : Object Json → Object Json}
    (h : ∀ entries, (Json.object entries).Keyed → f entries = g entries) {value : Json}
    (hk : value.Keyed) : value.mapObjects f = value.mapObjects g := by
  induction value using Json.induct with
  | scalar value hs => rw [Json.mapObjects_of_isScalar f hs, Json.mapObjects_of_isScalar g hs]
  | array items ih =>
    rw [Json.mapObjects_array, Json.mapObjects_array]
    congr 1
    exact List.map_congr_left fun item hi => ih item hi (Json.keyed_array_iff.1 hk item hi)
  | object entries => rw [Json.mapObjects_object, Json.mapObjects_object, h entries hk]

include hr

/-- One selector leaves the keys of the others in place. -/
theorem moveFrom_cons_eq_keepFrom {s : Selector} {rest : List Selector}
    (hs : ∀ value, value.Keyed → s.move remove value = s.keep value)
    (hne : s.key ∉ Selector.keys rest)
    (ih : ∀ {source left : Object Json}, (Json.object left).Keyed →
      (∀ key ∈ Selector.keys rest, left.get? key = source.get? key) →
      ∀ kept, moveFrom remove rest left kept = keepFrom rest source kept)
    {source left : Object Json} (hk : (Json.object left).Keyed)
    (hf : ∀ key ∈ Selector.keys (s :: rest), left.get? key = source.get? key)
    (kept : Object Json) :
    moveFrom remove (s :: rest) left kept = keepFrom (s :: rest) source kept := by
  have hfirst : left.get? s.key = source.get? s.key := hf s.key List.mem_cons_self
  have hrest : ∀ key ∈ Selector.keys rest, left.get? key = source.get? key :=
    fun key hkey => hf key (List.mem_cons_of_mem _ hkey)
  obtain ⟨hn, hin⟩ := Json.keyed_object_iff.1 hk
  rw [moveFrom_cons, keepFrom_cons, hfirst]
  cases hg : source.get? s.key with
  | none => exact ih hk hrest kept
  | some value =>
    have hv : value.Keyed := hin s.key value (hfirst.trans hg)
    simp only [hs value hv]
    refine ih (hk.remove hr s.key) (fun key hkey => ?_) _
    have hd : s.key ≠ key := fun e => hne (e ▸ hkey)
    rw [hr.get?_remove hn, if_neg hd, hrest key hkey]

/-- Selectors with distinct keys find in what is left of an object what they would find
    in the whole object. -/
theorem moveFrom_eq_keepFrom {selectors : List Selector} (hd : Selector.Distinct selectors)
    {source left : Object Json} (hk : (Json.object left).Keyed)
    (hf : ∀ key ∈ Selector.keys selectors, left.get? key = source.get? key)
    (kept : Object Json) :
    moveFrom remove selectors left kept = keepFrom selectors source kept := by
  induction selectors using Selector.induct generalizing source left kept with
  | nil => rw [moveFrom_nil, keepFrom_nil]
  | leaf key rest ih =>
    rw [Selector.Distinct] at hd
    obtain ⟨hne, -, hrest⟩ := hd
    refine moveFrom_cons_eq_keepFrom hr (fun value _ => ?_) hne (ih hrest) hk hf kept
    rw [Selector.move_leaf, Selector.keep_leaf]
  | branch key children rest ihc ihr =>
    rw [Selector.Distinct, Selector.DistinctBelow] at hd
    obtain ⟨hne, hchildren, hrest⟩ := hd
    refine moveFrom_cons_eq_keepFrom hr (fun value hv => ?_) hne (ihr hrest) hk hf kept
    rw [Selector.move_branch, Selector.keep_branch, extractBy, project]
    exact mapObjects_congr (fun entries he => ihc hchildren he (fun _ _ => rfl) []) hv

theorem extractBy_eq_project {selectors : List Selector} (hd : Selector.Distinct selectors)
    {value : Json} (hk : value.Keyed) :
    extractBy remove selectors value = project selectors value :=
  mapObjects_congr (fun _ he => moveFrom_eq_keepFrom hr hd he (fun _ _ => rfl) []) hk

end Moving

/-! ## Compiled filters -/

namespace Filter

/-- Moving without changing the order of what is left gives what copying gives. -/
theorem applyMoving_eq_apply {compiler : Compiler} {pattern : String} {filter : Filter}
    (h : compiler.compile pattern = .ok filter) {value : Json} (hk : value.Keyed) :
    filter.applyMoving value = filter.apply value := by
  have hd : Selector.Distinct filter.selectors := (Compiler.allowed_of_compile h).distinct
  exact extractBy_eq_project Object.removes_erase hd hk

variable {remove : Object Json → String → Object Json}

/-- A compiled filter gives one answer. Moving gives what copying gives, in whatever
    order removing an entry leaves the others. Data is refused exactly if turning all of
    it into JSON fails, with the same error, whatever the filter selects; otherwise the
    answer is the one for its JSON form. Nothing is asked of the serializer but that the
    objects that it returns have distinct keys. -/
theorem apply_ways_agree (hr : Object.Removes remove) {α ε : Type} {serialize : α → Except ε Json}
    (hkeyed : ∀ data value, serialize data = .ok value → value.Keyed)
    {compiler : Compiler} {pattern : String} {filter : Filter}
    (h : compiler.compile pattern = .ok filter) :
    (∀ value, value.Keyed → filter.applyMovingBy remove value = filter.apply value) ∧
    ∀ data,
      (∀ error, filter.applySerializeBy remove serialize data = .error error ↔
        serialize data = .error error) ∧
      ∀ value, serialize data = .ok value →
        filter.applySerializeBy remove serialize data = .ok (filter.apply value) := by
  have hd : Selector.Distinct filter.selectors := (Compiler.allowed_of_compile h).distinct
  have hmoving : ∀ value, value.Keyed → filter.applyMovingBy remove value = filter.apply value :=
    fun value hk => extractBy_eq_project hr hd hk
  refine ⟨hmoving, fun data => ⟨fun error => ?_, fun value hv => ?_⟩⟩
  · rw [applySerializeBy, map_eq_error_iff]
  · rw [applySerializeBy, hv]
    exact congrArg Except.ok (hmoving value (hkeyed data value hv))

theorem apply_ways_agree_swapErase :
    ∃ pattern filter, Compiler.standard.compile pattern = .ok filter ∧
      filter.selectors = [.leaf "b", .branch "a" [.leaf "c"]] ∧
      filter.applyMovingBy Object.swapErase
          (.object [("a", .object [("d", .null), ("c", .bool true)]), ("b", .null)]) =
        .object [("b", .null), ("a", .object [("c", .bool true)])] ∧
      filter.applySerializeBy Object.swapErase Datum.toJson
          (.recordCase "a" [("d", .integer 7), ("c", .present (.character 'x'))]) =
        .ok (.object [("a", .object [("c", .string "x")])]) ∧
      filter.applySerializeBy Object.swapErase Datum.toJson
          (.sequence [.absent, .wrapperCase "d" (.failing "refused")]) =
        .error (.custom "refused") := by
  have hallowed : Selector.Allowed Compiler.standard.maxDepth 1
      [.leaf "b", .branch "a" [.leaf "c"]] := by
    rw [Selector.allowed_iff]
    decide
  have h := Compiler.compile_renderPattern_of_allowed hallowed
  have hkeyed : ∀ datum value, Datum.toJson datum = .ok value → value.Keyed :=
    fun _ _ => Datum.keyed_of_toJson
  obtain ⟨hmoving, hdata⟩ := apply_ways_agree Object.removes_swapErase hkeyed h
  have hnull : Json.null.Keyed := Json.keyed_of_isScalar trivial
  have htrue : (Json.bool true).Keyed := Json.keyed_of_isScalar trivial
  have hinner : (Json.object [("d", .null), ("c", .bool true)]).Keyed :=
    (Json.keyed_nil.insert "d" hnull).insert "c" htrue
  have hk : (Json.object [("a", .object [("d", .null), ("c", .bool true)]), ("b", .null)]).Keyed :=
    (Json.keyed_nil.insert "a" hinner).insert "b" hnull
  have hform : (Datum.recordCase "a" [("d", .integer 7), ("c", .present (.character 'x'))]).toJson =
      .ok (.object [("a", .object [("d", .number (.integer 7)), ("c", .string "x")])]) := by
    rfl
  refine ⟨_, _, h, rfl, ?_, ?_, ?_⟩
  · rw [hmoving _ hk]
    rfl
  · rw [(hdata _).2 _ hform]
    rfl
  · exact ((hdata _).1 _).2 rfl

end Filter

end FieldMask

import FieldMask.Proofs.Basic
import FieldMask.Proofs.Json.Keyed
import FieldMask.Selector.Encoding

/-!
# The spellings of a selector

A selector may be spelled in several ways, each selector below it in its own: as
an object with fields in any order and others between them, with its children
missing or null, or as a list. All spellings are read as the one selector, and
one of them is the canonical one, which the selector is written as.

Results:
* `ofFields_eq_ok_iff`: the fields of an object with distinct keys are read by their names.
* `ofJson_eq_ok_iff`: a value is read as a selector exactly if it spells it.
* `Canonical.eq_toJson`: the canonical spelling of a selector is what it is written as.
* `ofJson_toJson_canonical`: what is read is written in canonical form, and read back.
-/

namespace FieldMask.Selector

/-! ## The two sides -/

/-- The values that selectors are written as: an object with the key and behind it, for a
    branch only, the children, which are written alike. -/
inductive Canonical : Json → Prop
  | leaf (key : String) : Canonical (.object [("key", .string key)])
  | branch (key : String) {items : List Json} (h : ∀ item ∈ items, Canonical item) :
      Canonical (.object [("key", .string key), ("children", .array items)])

mutual

/-- The values that spell a selector. -/
inductive Spelling : Json → Selector → Prop
  /-- An object with a field for the key, and maybe one for the children. -/
  | object {fields : Object Json} {key : String} {children : Option (List Selector)}
      (hk : fields.get? "key" = some (.string key))
      (hc : ChildrenSpelling (fields.get? "children") children) :
      Spelling (.object fields) (.ofChildren key children)
  /-- A list of the key and maybe the children. -/
  | list {key : String} {rest : List Json} {children : Option (List Selector)}
      (hl : rest.length ≤ 1) (hc : ChildrenSpelling rest.head? children) :
      Spelling (.array (.string key :: rest)) (.ofChildren key children)

/-- The values, or the lack of one, that spell the children of a selector, or that it has none. -/
inductive ChildrenSpelling : Option Json → Option (List Selector) → Prop
  | missing : ChildrenSpelling none none
  | null : ChildrenSpelling (some .null) none
  | list {items : List Json} {children : List Selector} (h : ItemsSpelling items children) :
      ChildrenSpelling (some (.array items)) (some children)

/-- The values that spell some selectors, one by one. -/
inductive ItemsSpelling : List Json → List Selector → Prop
  | nil : ItemsSpelling [] []
  | cons {item : Json} {items : List Json} {s : Selector} {selectors : List Selector}
      (h : Spelling item s) (hs : ItemsSpelling items selectors) :
      ItemsSpelling (item :: items) (s :: selectors)

end

/-! ## Writing -/

theorem canonical_of_mem_toJsons {selectors : List Selector} :
    ∀ item ∈ toJsons selectors, Canonical item := by
  induction selectors using induct with
  | nil => simp [toJsons]
  | leaf key rest ih =>
    intro item hi
    rw [toJsons, toJson] at hi
    rcases List.mem_cons.1 hi with rfl | hi
    · exact .leaf key
    · exact ih item hi
  | branch key children rest ihChildren ih =>
    intro item hi
    rw [toJsons, toJson] at hi
    rcases List.mem_cons.1 hi with rfl | hi
    · exact .branch key ihChildren
    · exact ih item hi

theorem canonical_toJson (s : Selector) : Canonical s.toJson := by
  have hmem : s.toJson ∈ toJsons [s] := by simp [toJsons]
  exact canonical_of_mem_toJsons s.toJson hmem

/-! ## Reading the parts -/

theorem keyOfJson_eq_ok_iff {value : Json} {key : String} :
    keyOfJson value = .ok key ↔ value = .string key := by
  cases value <;> simp [keyOfJson]

theorem ofJsons_cons_eq_ok_iff {item : Json} {items : List Json} {selectors : List Selector} :
    ofJsons (item :: items) = .ok selectors ↔ ∃ s others,
      ofJson item = .ok s ∧ ofJsons items = .ok others ∧ selectors = s :: others := by
  rw [ofJsons, bind_eq_ok_iff]
  constructor
  · rintro ⟨s, hs, h⟩
    obtain ⟨others, ho, h⟩ := bind_eq_ok_iff.1 h
    exact ⟨s, others, hs, ho, (Except.ok.inj h).symm⟩
  · rintro ⟨s, others, hs, ho, rfl⟩
    exact ⟨s, hs, bind_eq_ok_iff.2 ⟨others, ho, rfl⟩⟩

theorem childrenOfJson_array_eq_ok_iff {items : List Json} {children : Option (List Selector)} :
    childrenOfJson (.array items) = .ok children ↔ ∃ selectors,
      ofJsons items = .ok selectors ∧ children = some selectors := by
  rw [childrenOfJson, bind_eq_ok_iff]
  constructor
  · rintro ⟨selectors, hs, h⟩
    exact ⟨selectors, hs, (Except.ok.inj h).symm⟩
  · rintro ⟨selectors, hs, rfl⟩
    exact ⟨selectors, hs, rfl⟩

/-- What the value of a field is read as, or what there was before if the field is missing. -/
def readField {β : Type} (read : Json → Except DecodeError β) (before : β) :
    Option Json → Except DecodeError β
  | none => .ok before
  | some value => read value

/-- In an object with distinct keys the key and the children are found by their names. -/
theorem ofFields_eq_ok_iff {fields : Object Json} (hn : (Object.keys fields).Nodup)
    {key : Option String} {children : Option (List Selector)} {s : Selector} :
    ofFields key children fields = .ok s ↔ ∃ k cs,
      readField (fun value => (keyOfJson value).map some) key (fields.get? "key") = .ok (some k) ∧
      readField childrenOfJson children (fields.get? "children") = .ok cs ∧
      s = .ofChildren k cs := by
  induction fields generalizing key children with
  | nil =>
    cases key with
    | none => simp [ofFields, readField]
    | some k => simp [ofFields, readField, eq_comm]
  | cons field rest ih =>
    obtain ⟨name, value⟩ := field
    obtain ⟨hname, hrest⟩ := List.nodup_cons.1 hn
    -- Behind its field a name is not found again.
    have hmissing : Object.get? rest name = none := Object.get?_eq_none.2 hname
    rw [ofFields, Object.get?_cons, Object.get?_cons]
    by_cases hk : name = "key"
    · subst hk
      have hne : "key" ≠ "children" := by decide
      rw [if_pos rfl, if_pos rfl, if_neg hne, bind_eq_ok_iff]
      simp only [ih hrest, hmissing, readField, map_eq_ok_iff]
      constructor
      · rintro ⟨a, ha, k, cs, hak, hcs, rfl⟩
        obtain rfl := Option.some.inj (Except.ok.inj hak)
        exact ⟨a, cs, ⟨a, ha, rfl⟩, hcs, rfl⟩
      · rintro ⟨k, cs, ⟨a, ha, hak⟩, hcs, rfl⟩
        exact ⟨a, ha, k, cs, by rw [hak], hcs, rfl⟩
    · rw [if_neg hk, if_neg hk]
      by_cases hc : name = "children"
      · subst hc
        rw [if_pos rfl, if_pos rfl, bind_eq_ok_iff]
        simp only [ih hrest, hmissing, readField]
        constructor
        · rintro ⟨a, ha, k, cs, hk, hcs, rfl⟩
          obtain rfl := Except.ok.inj hcs
          exact ⟨k, a, hk, ha, rfl⟩
        · rintro ⟨k, cs, hk, hcs, rfl⟩
          exact ⟨cs, hcs, k, cs, hk, rfl, rfl⟩
      · rw [if_neg hc, if_neg hc]
        exact ih hrest

theorem ofJson_object_eq_ok_iff {fields : Object Json} (hn : (Object.keys fields).Nodup)
    {s : Selector} : ofJson (.object fields) = .ok s ↔ ∃ key children,
      fields.get? "key" = some (.string key) ∧
      readField childrenOfJson none (fields.get? "children") = .ok children ∧
      s = .ofChildren key children := by
  have hkey {key : String} : readField (fun value => (keyOfJson value).map some) none
      (fields.get? "key") = .ok (some key) ↔ fields.get? "key" = some (.string key) := by
    cases fields.get? "key" with
    | none => simp [readField]
    | some value => simp [readField, map_eq_ok_iff, keyOfJson_eq_ok_iff]
  rw [ofJson, ofFields_eq_ok_iff hn]
  simp only [hkey]

theorem ofJson_list_eq_ok_iff {first : Json} {rest : List Json} {s : Selector} :
    ofJson (.array (first :: rest)) = .ok s ↔ ∃ key children,
      first = .string key ∧ rest.length ≤ 1 ∧
      readField childrenOfJson none rest.head? = .ok children ∧ s = .ofChildren key children := by
  cases rest with
  | nil =>
    rw [ofJson, bind_eq_ok_iff]
    constructor
    · rintro ⟨key, hk, hs⟩
      exact ⟨key, none, keyOfJson_eq_ok_iff.1 hk, Nat.zero_le _, rfl, (Except.ok.inj hs).symm⟩
    · rintro ⟨key, children, hk, -, hc, rfl⟩
      obtain rfl := Except.ok.inj hc
      exact ⟨key, keyOfJson_eq_ok_iff.2 hk, rfl⟩
  | cons second more =>
    rw [ofJson, bind_eq_ok_iff]
    constructor
    · rintro ⟨key, hk, h⟩
      obtain ⟨children, hc, h⟩ := bind_eq_ok_iff.1 h
      cases more with
      | nil =>
        exact ⟨key, children, keyOfJson_eq_ok_iff.1 hk, Nat.le_refl _, hc, (Except.ok.inj h).symm⟩
      | cons third others => cases h
    · rintro ⟨key, children, hk, hl, hc, rfl⟩
      have hzero : more.length = 0 := Nat.le_zero.1 (Nat.le_of_succ_le_succ hl)
      obtain rfl := List.eq_nil_of_length_eq_zero hzero
      exact ⟨key, keyOfJson_eq_ok_iff.2 hk, bind_eq_ok_iff.2 ⟨children, hc, rfl⟩⟩

/-! ## The canonical spelling -/

theorem ofJson_canonical_leaf (key : String) :
    ofJson (.object [("key", .string key)]) = .ok (leaf key) := by
  simp [ofJson, ofFields, keyOfJson, ofChildren, bind, Except.bind]

theorem ofJson_canonical_branch (key : String) (items : List Json) :
    ofJson (.object [("key", .string key), ("children", .array items)]) =
      (ofJsons items).map (branch key) := by
  cases h : ofJsons items <;>
    simp [ofJson, ofFields, keyOfJson, childrenOfJson, ofChildren, h, bind, Except.bind, Except.map]

/-- If each of some values is what the selector read from it is written as, they are what
    the selectors read from them are written as. -/
theorem eq_toJsons {items : List Json}
    (h : ∀ item ∈ items, ∀ s, ofJson item = .ok s → item = s.toJson) {selectors : List Selector}
    (hr : ofJsons items = .ok selectors) : items = toJsons selectors := by
  induction items generalizing selectors with
  | nil =>
    obtain rfl : [] = selectors := by simpa [ofJsons] using hr
    rw [toJsons]
  | cons item items ih =>
    obtain ⟨s, others, hs, ho, rfl⟩ := ofJsons_cons_eq_ok_iff.1 hr
    have hitem := h item List.mem_cons_self s hs
    have hitems := ih (fun other hm => h other (List.mem_cons_of_mem _ hm)) ho
    rw [toJsons, ← hitem, ← hitems]

/-- Of the values that spell a selector, the one in canonical form is what it is written as. -/
theorem Canonical.eq_toJson {value : Json} (h : Canonical value) {s : Selector}
    (hr : ofJson value = .ok s) : value = s.toJson := by
  induction h generalizing s with
  | leaf key =>
    rw [ofJson_canonical_leaf] at hr
    obtain rfl := Except.ok.inj hr
    rw [toJson]
  | branch key _ ih =>
    rw [ofJson_canonical_branch] at hr
    obtain ⟨children, hc, rfl⟩ := map_eq_ok_iff.1 hr
    rw [toJson, ← eq_toJsons (fun item hi _ => ih item hi) hc]

/-! ## All spellings -/

theorem ofJsons_eq_ok_iff {items : List Json}
    (h : ∀ item ∈ items, ∀ s, ofJson item = .ok s ↔ Spelling item s) (selectors : List Selector) :
    ofJsons items = .ok selectors ↔ ItemsSpelling items selectors := by
  induction items generalizing selectors with
  | nil =>
    constructor
    · intro hr
      obtain rfl : [] = selectors := by simpa [ofJsons] using hr
      exact .nil
    · rintro ⟨⟩
      rw [ofJsons]
  | cons item items ih =>
    have hitem := h item List.mem_cons_self
    have hitems := ih fun other hm => h other (List.mem_cons_of_mem _ hm)
    rw [ofJsons_cons_eq_ok_iff]
    constructor
    · rintro ⟨s, others, hs, ho, rfl⟩
      exact .cons ((hitem s).1 hs) ((hitems others).1 ho)
    · intro hs
      cases hs with
      | cons hs ho => exact ⟨_, _, (hitem _).2 hs, (hitems _).2 ho, rfl⟩

/-- What a value says as a selector and as children, if it says exactly what it spells. -/
structure Understood (value : Json) : Prop where
  selector : ∀ s, ofJson value = .ok s ↔ Spelling value s
  children : ∀ children, childrenOfJson value = .ok children ↔
    ChildrenSpelling (some value) children

theorem readField_children_eq_ok_iff {found : Option Json}
    (h : ∀ value, found = some value → Understood value) {children : Option (List Selector)} :
    readField childrenOfJson none found = .ok children ↔ ChildrenSpelling found children := by
  cases found with
  | none =>
    constructor
    · intro hr
      obtain rfl := Except.ok.inj hr
      exact .missing
    · rintro ⟨⟩
      rfl
  | some value => exact (h value rfl).children children

theorem understood_scalar {value : Json} (h : value.IsScalar) : Understood value := by
  constructor
  · intro s
    constructor
    · intro hr
      cases value <;> first | exact h.elim | simp [ofJson] at hr
    · rintro (_ | _) <;> exact h.elim
  · intro children
    constructor
    · intro hr
      cases value <;> first | exact h.elim | simp [childrenOfJson] at hr
      subst hr
      exact .null
    · rintro (_ | _ | _)
      · rw [childrenOfJson]
      · exact h.elim

theorem understood_array {items : List Json} (h : ∀ item ∈ items, Understood item) :
    Understood (.array items) := by
  constructor
  · intro s
    cases items with
    | nil =>
      constructor
      · intro hr
        simp [ofJson] at hr
      · rintro ⟨⟩
    | cons first rest =>
      have hrest {found : Option (List Selector)} :
          readField childrenOfJson none rest.head? = .ok found ↔
            ChildrenSpelling rest.head? found :=
        readField_children_eq_ok_iff fun value hv =>
          h value (List.mem_cons_of_mem _ (List.mem_of_head? hv))
      rw [ofJson_list_eq_ok_iff]
      constructor
      · rintro ⟨key, children, rfl, hl, hc, rfl⟩
        exact .list hl (hrest.1 hc)
      · rintro (_ | ⟨hl, hc⟩)
        exact ⟨_, _, rfl, hl, hrest.2 hc, rfl⟩
  · intro children
    have hitems := ofJsons_eq_ok_iff fun item hi => (h item hi).selector
    rw [childrenOfJson_array_eq_ok_iff]
    constructor
    · rintro ⟨selectors, hs, rfl⟩
      exact .list ((hitems selectors).1 hs)
    · rintro (_ | _ | hs)
      exact ⟨_, (hitems _).2 hs, rfl⟩

theorem understood_object {fields : Object Json} (hn : (Object.keys fields).Nodup)
    (h : ∀ name value, fields.get? name = some value → Understood value) :
    Understood (.object fields) := by
  constructor
  · intro s
    have hfield {found : Option (List Selector)} :
        readField childrenOfJson none (fields.get? "children") = .ok found ↔
          ChildrenSpelling (fields.get? "children") found :=
      readField_children_eq_ok_iff fun value hv => h "children" value hv
    rw [ofJson_object_eq_ok_iff hn]
    constructor
    · rintro ⟨key, children, hk, hc, rfl⟩
      exact .object hk (hfield.1 hc)
    · rintro (⟨hk, hc⟩ | _)
      exact ⟨_, _, hk, hfield.2 hc, rfl⟩
  · intro children
    constructor
    · intro hr
      simp [childrenOfJson] at hr
    · rintro ⟨⟩

/-- A value is read as a selector, and as children, exactly if it spells them. -/
theorem understood {value : Json} (h : value.Keyed) : Understood value := by
  induction value using Json.induct with
  | scalar value hs => exact understood_scalar hs
  | array items ih =>
    exact understood_array fun item hi => ih item hi (Json.keyed_array_iff.1 h item hi)
  | object fields ih =>
    obtain ⟨hn, hin⟩ := Json.keyed_object_iff.1 h
    exact understood_object hn fun name value hg =>
      ih (name, value) (Object.mem_of_get? hg) (hin name value hg)

theorem ofJson_eq_ok_iff {value : Json} (h : value.Keyed) {s : Selector} :
    ofJson value = .ok s ↔ Spelling value s :=
  (understood h).selector s

/-- What is written is read back, so no two selectors are written alike. However a selector
    is spelled, it is written in canonical form, which is read as that spelling is, as no
    other value in canonical form is. -/
theorem ofJson_toJson_canonical :
    (∀ s : Selector, ofJson s.toJson = .ok s) ∧
    (∀ s t : Selector, s.toJson = t.toJson → s = t) ∧
    (∀ value s, ofJson value = .ok s → Canonical s.toJson ∧ ofJson s.toJson = ofJson value ∧
      ∀ other, Canonical other → ofJson other = ofJson value → other = s.toJson) ∧
    ∀ value : Json, value.Keyed → ∀ s, ofJson value = .ok s ↔ Spelling value s := by
  refine ⟨ofJson_toJson, fun s t h => ?_, fun value s hr => ?_, fun value h s => ofJson_eq_ok_iff h⟩
  · have hs := ofJson_toJson s
    rw [h, ofJson_toJson t] at hs
    exact (Except.ok.inj hs).symm
  · rw [hr]
    exact ⟨canonical_toJson s, ofJson_toJson s, fun other hc ho => hc.eq_toJson ho⟩

/-- A branch spelled out of order above a list and a null, what it is written as, and an
    empty branch, which is not written as a leaf is. -/
theorem ofJson_toJson_canonical_mixed :
    let value : Json := .object [("extra", .null), ("children", .array
      [.array [.string "b"], .object [("children", .null), ("key", .string "c")]]),
      ("key", .string "a")]
    let written : Json := .object [("key", .string "a"), ("children", .array
      [.object [("key", .string "b")], .object [("key", .string "c")]])]
    let s := branch "a" [leaf "b", leaf "c"]
    value.Keyed ∧ ofJson value = .ok s ∧ Spelling value s ∧ Canonical written ∧
      written = s.toJson ∧ ofJson s.toJson = ofJson value ∧
      (leaf "a").toJson ≠ (branch "a" []).toJson := by
  intro value written s
  have hnull : Json.null.Keyed := Json.keyed_of_isScalar trivial
  have htext (text : String) : (Json.string text).Keyed := Json.keyed_of_isScalar trivial
  have hb : (Json.array [.string "b"]).Keyed := Json.keyed_array_iff.2 (by simp [htext])
  have hc : (Json.object [("children", .null), ("key", .string "c")]).Keyed :=
    (Json.keyed_nil.insert "children" hnull).insert "key" (htext "c")
  have hchildren : (Json.array [.array [.string "b"],
      .object [("children", .null), ("key", .string "c")]]).Keyed :=
    Json.keyed_array_iff.2 (by simp [hb, hc])
  have hk : value.Keyed :=
    ((Json.keyed_nil.insert "extra" hnull).insert "children" hchildren).insert "key" (htext "a")
  have hr : ofJson value = .ok s := by
    simp [value, s, ofJson, ofFields, ofJsons, keyOfJson, childrenOfJson, ofChildren, bind,
      Except.bind]
  have hcanonical : Canonical written := .branch "a" (by simp [Canonical.leaf])
  have hw : ofJson written = .ok s := by
    simp [written, s, ofJson, ofFields, ofJsons, keyOfJson, childrenOfJson, ofChildren, bind,
      Except.bind]
  have hne : leaf "a" ≠ branch "a" [] := by simp
  obtain ⟨-, hinjective, hwritten, hspelled⟩ := ofJson_toJson_canonical
  obtain ⟨-, hback, hunique⟩ := hwritten value s hr
  have hwrittenAs : written = s.toJson := hunique written hcanonical (hw.trans hr.symm)
  exact ⟨hk, hr, (hspelled value hk s).1 hr, hcanonical, hwrittenAs, hback,
    fun h => hne (hinjective _ _ h)⟩

end FieldMask.Selector

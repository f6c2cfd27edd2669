import FieldMask.Selector.Basic

/-!
# Siblings and their keys

Siblings usually have distinct keys. Where they have not, `firsts` keeps the
first selector of each key and `lasts` the last one. `meet` selects what both
of two lists of siblings select.

Results:
* `distinct_iff`: siblings are distinct exactly if their keys have no repeat and
  the children of each are distinct.
-/

namespace FieldMask.Selector

/-- The keys of siblings, in order. -/
def keys (selectors : List Selector) : List String := selectors.map key

/-- The first of some siblings with the given key. -/
def find? (key : String) (selectors : List Selector) : Option Selector :=
  selectors.find? fun s => s.key = key

/-! ## Distinct keys -/

mutual

/-- Whether no two siblings among the selectors below this one have the same key. -/
def DistinctBelow : Selector → Prop
  | leaf _ => True
  | branch _ children => Distinct children

/-- Whether no two siblings have the same key, here and at every level below. -/
def Distinct : List Selector → Prop
  | [] => True
  | s :: rest => s.key ∉ keys rest ∧ s.DistinctBelow ∧ Distinct rest

end

mutual

/-- Decides `DistinctBelow`. -/
def decDistinctBelow : (s : Selector) → Decidable s.DistinctBelow
  | leaf _ => isTrue (by rw [DistinctBelow]; trivial)
  | branch _ children =>
    match decDistinct children with
    | isTrue h => isTrue (by rw [DistinctBelow]; exact h)
    | isFalse h => isFalse (by rw [DistinctBelow]; exact h)

/-- Decides `Distinct`. -/
def decDistinct : (selectors : List Selector) → Decidable (Distinct selectors)
  | [] => isTrue (by rw [Distinct]; trivial)
  | s :: rest =>
    match decDistinctBelow s, decDistinct rest with
    | isTrue h, isTrue hs =>
      if hk : s.key ∈ keys rest then isFalse (by rw [Distinct]; exact fun d => d.1 hk)
      else isTrue (by rw [Distinct]; exact ⟨hk, h, hs⟩)
    | isFalse h, _ => isFalse (by rw [Distinct]; exact fun d => h d.2.1)
    | _, isFalse hs => isFalse (by rw [Distinct]; exact fun d => hs d.2.2)

end

instance (selectors : List Selector) : Decidable (Distinct selectors) := decDistinct selectors

theorem distinct_iff {selectors : List Selector} :
    Distinct selectors ↔ (keys selectors).Nodup ∧ ∀ s ∈ selectors, s.DistinctBelow := by
  induction selectors with
  | nil => simp [Distinct, keys]
  | cons s rest ih =>
    rw [Distinct, ih]
    simp only [keys, List.map_cons, List.nodup_cons, List.forall_mem_cons]
    constructor
    · rintro ⟨hk, hs, hn, hr⟩; exact ⟨⟨hk, hn⟩, hs, hr⟩
    · rintro ⟨⟨hk, hn⟩, hs, hr⟩; exact ⟨hk, hs, hn, hr⟩

/-! ## Resolving repeated keys -/

/-- Puts a selector in the place of the one with the same key, or at the end. -/
def put : List Selector → Selector → List Selector
  | [], s => [s]
  | t :: rest, s => if t.key = s.key then s :: rest else t :: put rest s

mutual

/-- The selector with the first selector of each key kept below it. -/
def withFirsts : Selector → Selector
  | leaf key => leaf key
  | branch key children => branch key (firstsFrom [] children)

/-- The first selector of each key that is not in `seen`. -/
def firstsFrom (seen : List String) : List Selector → List Selector
  | [] => []
  | s :: rest =>
    if s.key ∈ seen then firstsFrom seen rest
    else s.withFirsts :: firstsFrom (s.key :: seen) rest

end

/-- The first selector of each key, here and at every level below. -/
def firsts (selectors : List Selector) : List Selector := firstsFrom [] selectors

mutual

/-- The selector with the last selector of each key kept below it. -/
def withLasts : Selector → Selector
  | leaf key => leaf key
  | branch key children => branch key (lastsInto [] children)

/-- Puts each selector in the place of the one with its key. -/
def lastsInto (kept : List Selector) : List Selector → List Selector
  | [] => kept
  | s :: rest => lastsInto (put kept s.withLasts) rest

end

/-- The last selector of each key, in the place of the first one, here and at every
    level below. -/
def lasts (selectors : List Selector) : List Selector := lastsInto [] selectors

/-! ## Selecting what both select -/

mutual

/-- What this selector and another one for the same key both select: a leaf adds
    no restriction of its own. -/
def meetOne : Selector → Selector → Selector
  | leaf key, t => ofChildren key t.children?
  | branch key children, leaf _ => branch key children
  | branch key children, branch _ others => branch key (meet children others)

/-- What two lists of siblings both select, in the order of the first. -/
def meet : List Selector → List Selector → List Selector
  | [], _ => []
  | s :: rest, others =>
    match find? s.key others with
    | none => meet rest others
    | some t => s.meetOne t :: meet rest others

end

@[simp] theorem key_withFirsts (s : Selector) : s.withFirsts.key = s.key := by
  cases s <;> simp [withFirsts, key]

@[simp] theorem key_withLasts (s : Selector) : s.withLasts.key = s.key := by
  cases s <;> simp [withLasts, key]

@[simp] theorem key_meetOne (s t : Selector) : (s.meetOne t).key = s.key := by
  cases s with
  | leaf k => rw [meetOne, key_ofChildren]; rfl
  | branch k children =>
    cases t with
    | leaf _ => rw [meetOne]
    | branch _ others => rw [meetOne]; rfl

end FieldMask.Selector

/-!
# Classes of characters given by ranges

A Unicode property is a set of code points, written as a list of closed
ranges in rising order.

Results:
* `CharClass.contains_iff`: over rising ranges, looking a character up finds
  exactly the ranges that hold it.
-/

namespace FieldMask

/-- A class of characters: the code points from `lo` to `hi`, for each of its ranges. -/
abbrev CharClass := List (Nat × Nat)

namespace CharClass

/-- Whether `c` lies in one of the ranges. The search ends at the first range that
    starts beyond `c`. -/
def contains : CharClass → Char → Bool
  | [], _ => false
  | (lo, hi) :: rest, c => lo ≤ c.toNat && (c.toNat ≤ hi || contains rest c)

/-- Whether every range holds something and ends before the next one starts. -/
def rising : CharClass → Bool
  | [] => true
  | [(lo, hi)] => lo ≤ hi
  | (lo, hi) :: (lo', hi') :: rest => lo ≤ hi && hi < lo' && rising ((lo', hi') :: rest)

theorem le_of_rising {lo hi : Nat} {rest : CharClass} (h : rising ((lo, hi) :: rest) = true) :
    ∀ r ∈ rest, lo ≤ r.1 := by
  induction rest generalizing lo hi with
  | nil => simp
  | cons s rest ih =>
    simp only [rising, Bool.and_eq_true, decide_eq_true_eq] at h
    intro r hr
    rcases List.mem_cons.1 hr with rfl | hr
    · omega
    · have := ih h.2 r hr; omega

theorem rising_tail {r : Nat × Nat} {rest : CharClass} (h : rising (r :: rest) = true) :
    rising rest = true := by
  cases rest with
  | nil => rfl
  | cons s rest =>
    simp only [rising, Bool.and_eq_true] at h
    exact h.2

theorem contains_iff {ranges : CharClass} (h : ranges.rising = true) {c : Char} :
    ranges.contains c = true ↔ ∃ r ∈ ranges, r.1 ≤ c.toNat ∧ c.toNat ≤ r.2 := by
  induction ranges with
  | nil => simp [contains]
  | cons r rest ih =>
    obtain ⟨lo, hi⟩ := r
    have hle := le_of_rising h
    simp only [contains, Bool.and_eq_true, Bool.or_eq_true, decide_eq_true_eq, ih (rising_tail h)]
    constructor
    · rintro ⟨h1, h2 | ⟨r, hr, h2⟩⟩
      · exact ⟨_, List.mem_cons_self, h1, h2⟩
      · exact ⟨r, List.mem_cons_of_mem _ hr, h2⟩
    · rintro ⟨r, hr, h1, h2⟩
      rcases List.mem_cons.1 hr with rfl | hr
      · exact ⟨h1, .inl h2⟩
      · exact ⟨Nat.le_trans (hle r hr) h1, .inr ⟨r, hr, h1, h2⟩⟩

end CharClass

end FieldMask

import FieldMask.Proofs.Basic
import FieldMask.Proofs.Pattern.Balance

/-!
# The brace that closes an object

An index of some tokens is matched by the first one behind it at which an object
is closed that was not opened in between. The tokens between the two hold as
many opening braces as closing ones, and nowhere among them have more been closed
than opened.

An object that is opened between the two is closed between them, so its match can
be found among the tokens between them alone. This is why an object can be cut
out at its closing brace and read by itself.

Indices are counted in words, so the search from an index is exact as long as the
index after it is a word, which every index of a token is.

Results:
* `closingBrace?_eq_some_iff_matches`: the search finds the match.
* `exists_runningDepth`, `Matches.runningDepth_eq`: how many objects are open at each
  index that the search comes to.
* `Matches.exists_inside`: objects between an index and its match are closed there.
-/

namespace FieldMask

/-- The tokens strictly between two indices. -/
def between (tokens : List Token) (i j : Nat) : List Token := (tokens.take j).drop (i + 1)

/-- At index `j` stands the brace that closes what is open behind index `i`. -/
structure Matches (tokens : List Token) (i j : Nat) : Prop where
  lt : i < j
  lt_length : j < tokens.length
  closes : tokens[j]?.map Token.kind = some .closeBrace
  count_eq : countKind .openBrace (between tokens i j) = countKind .closeBrace (between tokens i j)
  count_le : ∀ n, countKind .closeBrace ((between tokens i j).take n) ≤
    countKind .openBrace ((between tokens i j).take n)

/-! ## Counting both braces -/

/-- The running count is what has been opened less what has been closed. -/
theorem braceCount_eq_sub (tokens : List Token) : braceCount (tokens.map Token.kind) =
    (countKind .openBrace tokens : Int) - countKind .closeBrace tokens := by
  induction tokens with
  | nil => rfl
  | cons token rest ih =>
    rw [List.map_cons, braceCount_cons, ih]
    cases hk : token.kind <;> simp [countKind, hk] <;> omega

theorem balanced_iff_countKind {tokens : List Token} : Balanced (tokens.map Token.kind) ↔
    countKind .openBrace tokens = countKind .closeBrace tokens ∧
      ∀ n, countKind .closeBrace (tokens.take n) ≤ countKind .openBrace (tokens.take n) := by
  have hcount := braceCount_eq_sub tokens
  have hcut : ∀ n, braceCount ((tokens.map Token.kind).take n) =
      (countKind .openBrace (tokens.take n) : Int) - countKind .closeBrace (tokens.take n) := by
    intro n
    rw [← List.map_take, braceCount_eq_sub]
  constructor
  · intro h
    have heq := h.count_eq
    refine ⟨by omega, fun n => ?_⟩
    have hle := h.le_count n
    have := hcut n
    omega
  · rintro ⟨heq, hle⟩
    refine ⟨fun n => ?_, by omega⟩
    have := hle n
    have := hcut n
    omega

/-! ## The match -/

section Matches

variable {tokens : List Token} {i j : Nat}

theorem between_of_drop {front back : List Token} (h : tokens.drop (i + 1) = front ++ back) :
    between tokens i (i + 1 + front.length) = front := by
  rw [between, List.drop_take, Nat.add_sub_cancel_left, h, List.take_left]

/-- A match cuts the tokens behind an index into balanced ones, a closing brace, and others. -/
theorem matches_iff_exists_drop : Matches tokens i j ↔ ∃ inner closing after,
    tokens.drop (i + 1) = inner ++ closing :: after ∧ j = i + 1 + inner.length ∧
      closing.kind = .closeBrace ∧ Balanced (inner.map Token.kind) := by
  constructor
  · intro h
    obtain ⟨closing, hj, hk⟩ := Option.map_eq_some_iff.1 h.closes
    obtain ⟨hlength, rfl⟩ := List.getElem?_eq_some_iff.1 hj
    obtain ⟨inner, hdrop, rfl⟩ := exists_drop_eq_append h.lt (Nat.le_of_lt hlength)
    have hbalanced := balanced_iff_countKind.2 ⟨h.count_eq, h.count_le⟩
    rw [between_of_drop hdrop] at hbalanced
    rw [List.drop_eq_getElem_cons hlength] at hdrop
    exact ⟨inner, _, _, hdrop, rfl, hk, hbalanced⟩
  · rintro ⟨inner, closing, after, hdrop, rfl, hk, hb⟩
    have hlength := congrArg List.length hdrop
    rw [List.length_drop, List.length_append, List.length_cons] at hlength
    obtain ⟨heq, hle⟩ := balanced_iff_countKind.1 hb
    rw [← between_of_drop hdrop] at heq hle
    refine ⟨by omega, by omega, ?_, heq, hle⟩
    rw [← List.getElem?_drop, hdrop]
    simp [hk]

theorem closingBrace?_eq_some_iff_matches (hi : i + 1 < USize.size) :
    closingBrace? i tokens = some j ↔ Matches tokens i j := by
  rw [closingBrace?_of_lt hi, Option.map_eq_some_iff, matches_iff_exists_drop]
  constructor
  · rintro ⟨n, hn, rfl⟩
    obtain ⟨inner, closing, after, hdrop, rfl, hk, hb⟩ := closeOffset?_eq_some_iff.1 hn
    exact ⟨inner, closing, after, hdrop, Nat.add_comm _ _, hk, hb⟩
  · rintro ⟨inner, closing, after, hdrop, rfl, hk, hb⟩
    refine ⟨inner.length, ?_, Nat.add_comm _ _⟩
    exact closeOffset?_eq_some_iff.2 ⟨inner, closing, after, hdrop, rfl, hk, hb⟩

theorem closingBrace?_eq_none_iff_matches (hi : i + 1 < USize.size) :
    closingBrace? i tokens = none ↔ ∀ j, ¬Matches tokens i j := by
  rw [Option.eq_none_iff_forall_ne_some]
  exact forall_congr' fun j => not_congr (closingBrace?_eq_some_iff_matches hi)

theorem Matches.unique {k : Nat} (hi : i + 1 < USize.size) (hj : Matches tokens i j)
    (hk : Matches tokens i k) : j = k := by
  rw [← closingBrace?_eq_some_iff_matches hi] at hj hk
  exact Option.some.inj (hj.symm.trans hk)

end Matches

/-! ## Along the search -/

/-- Up to the closing brace, or everywhere without one, no more is closed than opened. -/
theorem nonneg_of_le_closeOffset? {n : Nat} {tokens : List Token}
    (h : ∀ m, closeOffset? 0 tokens = some m → n ≤ m) :
    0 ≤ braceCount ((tokens.map Token.kind).take n) := by
  cases hc : closeOffset? 0 tokens with
  | none => simpa using closeOffset?_eq_none_iff.1 hc n
  | some m =>
    obtain ⟨inner, closing, after, rfl, rfl, -, hb⟩ := closeOffset?_eq_some_iff.1 hc
    have hle := h _ hc
    rw [List.map_append, List.take_append_of_le_length (by rwa [List.length_map])]
    simpa using hb.le_count n

/-- How many objects are open before index `k`, the one that is open behind index `i` included. -/
def runningDepth (tokens : List Token) (i k : Nat) : Int :=
  1 + braceCount ((between tokens i k).map Token.kind)

section Search

variable {tokens : List Token} {i j k : Nat}

/-- At every index that the search comes to, it goes by the objects that are open there, of
    which there is at least one. -/
theorem exists_runningDepth (hi : i + 1 < USize.size) (hlt : i < k) (hle : k ≤ tokens.length)
    (h : ∀ j, closingBrace? i tokens = some j → k ≤ j) :
    ∃ inner : Nat, runningDepth tokens i k = inner + 1 ∧
      closingBrace? i tokens = (closeOffset? inner (tokens.drop k)).map (· + k) := by
  obtain ⟨front, hdrop, rfl⟩ := exists_drop_eq_append hlt hle
  have hnonneg : ∀ n, 0 ≤ braceCount ((front.map Token.kind).take n) := by
    intro n
    have hcut : (front.map Token.kind).take n =
        ((tokens.drop (i + 1)).map Token.kind).take (min n front.length) := by
      rw [hdrop, ← List.map_take, ← List.map_take, List.take_append_of_le_length
        (Nat.min_le_right _ _), ← List.take_take, List.take_length]
    rw [hcut]
    refine nonneg_of_le_closeOffset? fun m hm => ?_
    have := h (m + (i + 1)) (by rw [closingBrace?_of_lt hi, hm]; rfl)
    omega
  have hcount := hnonneg front.length
  rw [← List.map_take, List.take_length] at hcount
  obtain ⟨inner, hinner⟩ := Int.eq_ofNat_of_zero_le hcount
  refine ⟨inner, by rw [runningDepth, between_of_drop hdrop, hinner, Int.add_comm], ?_⟩
  have hsearch : closeOffset? 0 (front ++ tokens.drop (i + 1 + front.length)) =
      (closeOffset? inner (tokens.drop (i + 1 + front.length))).map (· + front.length) :=
    closeOffset?_append_of_nonneg (by simpa using hnonneg) (by omega) _
  rw [closingBrace?_of_lt hi, hdrop, hsearch, Option.map_map]
  congr 1
  funext p
  simp only [Function.comp_apply]
  omega

/-- The closing brace leaves none open. -/
theorem Matches.runningDepth_eq (h : Matches tokens i j) : runningDepth tokens i (j + 1) = 0 := by
  obtain ⟨inner, closing, after, hdrop, rfl, hk, hb⟩ := matches_iff_exists_drop.1 h
  rw [List.append_cons] at hdrop
  have hbetween := between_of_drop hdrop
  rw [List.length_append, List.length_singleton, ← Nat.add_assoc] at hbetween
  rw [runningDepth, hbetween, List.map_append, braceCount_append, hb.count_eq]
  simp [hk]

end Search

/-! ## Inside an object -/

section Inside

variable {tokens : List Token} {i j k : Nat}

/-- What stands behind a closing brace does not matter. -/
theorem closeOffset?_append_of_some {outer n : Nat} {front : List Token}
    (h : closeOffset? outer front = some n) (back : List Token) :
    closeOffset? outer (front ++ back) = some n := by
  obtain ⟨inner, closing, after, rfl, rfl, hk, hc⟩ := closeOffset?_eq_some_iff.1 h
  rw [List.append_assoc]
  exact closeOffset?_append hc hk _

/-- In balanced tokens every object is closed. -/
theorem exists_closeOffset? {front back : List Token} {opening : Token}
    (hb : Balanced ((front ++ opening :: back).map Token.kind))
    (ho : opening.kind = .openBrace) : ∃ n, closeOffset? 0 back = some n := by
  refine Option.ne_none_iff_exists'.1 fun hnone => ?_
  -- Never closed, it would leave the count above zero at the end.
  have hback := closeOffset?_eq_none_iff.1 hnone back.length
  have hfront := hb.le_count front.length
  have hcount := hb.count_eq
  rw [← List.map_take, List.take_left] at hfront
  rw [← List.map_take, List.take_length] at hback
  rw [List.map_append, braceCount_append, List.map_cons, braceCount_cons, ho,
    weight_openBrace] at hcount
  omega

/-- An object that is opened before the match is closed before it, and is closed alike among
    the tokens up to the match alone. -/
theorem Matches.exists_inside (hlength : tokens.length < USize.size) (h : Matches tokens i j)
    (hi : i < k) (hj : k < j) (ho : tokens[k]?.map Token.kind = some .openBrace) :
    ∃ l, closingBrace? k tokens = some l ∧ k < l ∧ l < j ∧
      closingBrace? (k - (i + 1)) (between tokens i j) = some (l - (i + 1)) := by
  have hwords : k + 1 < USize.size := by
    have := h.lt_length
    omega
  obtain ⟨inner, closing, after, hdrop, rfl, -, hb⟩ := matches_iff_exists_drop.1 h
  obtain ⟨n, rfl⟩ : ∃ n, k = i + 1 + n := Nat.exists_eq_add_of_le hi
  have hn : n < inner.length := by omega
  have hafter : tokens.drop (i + 1 + n + 1) = inner.drop (n + 1) ++ closing :: after := by
    rw [Nat.add_assoc (i + 1), ← List.drop_drop, hdrop, List.drop_append_of_le_length hn]
  have hopening : inner[n].kind = .openBrace := by
    rw [← List.getElem?_drop, hdrop, List.getElem?_append_left hn, List.getElem?_eq_getElem hn]
      at ho
    exact Option.some.inj ho
  rw [← List.take_append_drop n inner, List.drop_eq_getElem_cons hn] at hb
  obtain ⟨m, hm⟩ := exists_closeOffset? hb hopening
  have hlt := closeOffset?_lt hm
  rw [List.length_drop] at hlt
  have hfound : closingBrace? (i + 1 + n) tokens = some (m + (i + 1 + n + 1)) := by
    rw [closingBrace?_of_lt hwords, hafter, closeOffset?_append_of_some hm]
    rfl
  refine ⟨_, hfound, by omega, by omega, ?_⟩
  rw [between_of_drop hdrop, Nat.add_sub_cancel_left, closingBrace?_of_lt (by omega), hm,
    Option.map_some]
  congr 1
  omega

end Inside

/-- The search for a closing brace is exact. From any index that is not the largest word, it
    finds the one index behind it at which a closing brace stands, with as many opening braces
    as closing ones in between and nowhere among these more closing ones than opening ones; it
    finds none if there is no such index. At every index that it comes to, at least one object
    is open, and the closing brace it finds is what leaves none open. Objects opened in between
    are closed in between, and there the search comes to the same when it sees only the tokens
    in between. The tokens are as many as a word can count. -/
theorem closingBrace?_exact (tokens : List Token) (hlength : tokens.length < USize.size) (i : Nat)
    (hi : i + 1 < USize.size) :
    (∀ j, closingBrace? i tokens = some j ↔ Matches tokens i j) ∧
    (∀ j k, Matches tokens i j → Matches tokens i k → j = k) ∧
    (closingBrace? i tokens = none ↔ ∀ j, ¬Matches tokens i j) ∧
    (∀ k, i < k → k ≤ tokens.length → (∀ j, closingBrace? i tokens = some j → k ≤ j) →
      ∃ inner : Nat, runningDepth tokens i k = inner + 1 ∧
        closingBrace? i tokens = (closeOffset? inner (tokens.drop k)).map (· + k)) ∧
    ∀ j, closingBrace? i tokens = some j → runningDepth tokens i (j + 1) = 0 ∧
      ∀ k, i < k → k < j → tokens[k]?.map Token.kind = some .openBrace →
        ∃ l, closingBrace? k tokens = some l ∧ k < l ∧ l < j ∧
          closingBrace? (k - (i + 1)) (between tokens i j) = some (l - (i + 1)) := by
  refine ⟨fun j => closingBrace?_eq_some_iff_matches hi, fun j k hj hk => hj.unique hi hk,
    closingBrace?_eq_none_iff_matches hi, fun k hlt hle h => exists_runningDepth hi hlt hle h,
    fun j hj => ?_⟩
  have hmatch := (closingBrace?_eq_some_iff_matches hi).1 hj
  exact ⟨hmatch.runningDepth_eq, fun k hk hlt ho => hmatch.exists_inside hlength hk hlt ho⟩

theorem closingBrace?_exact_nested :
    let tokens : List Token := [⟨.text "a", ⟨0, 1⟩⟩, ⟨.text "b", ⟨2, 1⟩⟩, ⟨.colon, ⟨3, 1⟩⟩,
      ⟨.openBrace, ⟨4, 1⟩⟩, ⟨.closeBrace, ⟨5, 1⟩⟩, ⟨.closeBrace, ⟨6, 1⟩⟩, ⟨.closeBrace, ⟨7, 1⟩⟩]
    tokens.length < USize.size ∧ Matches tokens 0 5 ∧ runningDepth tokens 0 6 = 0 ∧
    (∃ inner : Nat, runningDepth tokens 0 4 = inner + 1 ∧
      some 5 = (closeOffset? inner (tokens.drop 4)).map (· + 4)) ∧
    (∃ l, closingBrace? 3 tokens = some l ∧ 3 < l ∧ l < 5 ∧
      closingBrace? 2 (between tokens 0 5) = some (l - 1)) ∧
    closingBrace? 100 tokens = none := by
  intro tokens
  have hlength : tokens.length < USize.size := Word.lt_size (by decide)
  have hfound : closingBrace? 0 tokens = some 5 := closingBrace?_of_lt (Word.lt_size (by decide)) _
  obtain ⟨hmatch, -, -, hscan, hinside⟩ :=
    closingBrace?_exact tokens hlength 0 (Word.lt_size (by decide))
  have hreached : ∀ j, closingBrace? 0 tokens = some j → 4 ≤ j := by
    intro j hj
    obtain rfl := Option.some.inj (hfound.symm.trans hj)
    decide
  obtain ⟨hclosed, hnested⟩ := hinside 5 hfound
  have hpast : ∀ j, ¬Matches tokens 100 j := fun j hj =>
    absurd (Nat.lt_trans hj.lt hj.lt_length) (by decide)
  obtain ⟨-, -, hnone, -⟩ := closingBrace?_exact tokens hlength 100 (Word.lt_size (by decide))
  exact ⟨hlength, (hmatch 5).1 hfound, hclosed,
    hfound ▸ hscan 4 (by decide) (by decide) hreached, hnested 3 (by decide) (by decide) rfl,
    hnone.2 hpast⟩

end FieldMask

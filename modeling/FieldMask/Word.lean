/-!
# Machine words

Depths and indices are counted in machine words, of 32 or 64 bits. Counting on adds one as
long as a word can hold the sum.

Results:
* `Word.next_of_lt`: counting on below the largest word.
-/

namespace FieldMask.Word

/-- What adding one to a word gives: behind the largest word stands zero. Where overflow is
    checked, the program stops there instead, so nothing is promised of that one addition. -/
def next (n : Nat) : Nat := (n + 1) % USize.size

theorem next_of_lt {n : Nat} (h : n + 1 < USize.size) : next n = n + 1 := Nat.mod_eq_of_lt h

/-- Numbers below `2 ^ 32` are words on every machine. -/
theorem lt_size {n : Nat} (h : n < 0x100000000) : n < USize.size :=
  Nat.lt_of_lt_of_le h USize.le_size

end FieldMask.Word

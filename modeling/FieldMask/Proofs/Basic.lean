/-!
# Outcomes, and lists from an index on

What the result or the error of a computation that may fail says about the
computation it was made from, and what is known of a list whose rest from an
index on is known.
-/

namespace FieldMask

/-! ## Outcomes -/

section Outcomes

variable {ε α β : Type}

theorem map_eq_ok_iff {x : Except ε α} {f : α → β} {b : β} :
    x.map f = .ok b ↔ ∃ a, x = .ok a ∧ f a = b := by
  cases x with
  | error e => simp [Except.map]
  | ok a => simp [Except.map]

theorem map_eq_error_iff {x : Except ε α} {f : α → β} {e : ε} :
    x.map f = .error e ↔ x = .error e := by
  cases x with
  | error e => simp [Except.map]
  | ok a => simp [Except.map]

theorem bind_eq_ok_iff {x : Except ε α} {f : α → Except ε β} {b : β} :
    x >>= f = .ok b ↔ ∃ a, x = .ok a ∧ f a = .ok b := by
  cases x with
  | error e => simp [bind, Except.bind]
  | ok a => simp [bind, Except.bind]

end Outcomes

/-! ## Lists from an index on -/

section Drop

variable {α : Type} {list rest : List α} {a : α} {start stop : Nat}

theorem getElem?_of_drop (h : list.drop start = a :: rest) : list[start]? = some a := by
  have := congrArg List.head? h
  rwa [List.head?_drop] at this

theorem drop_succ_of_drop (h : list.drop start = a :: rest) : list.drop (start + 1) = rest := by
  rw [← List.drop_drop, h, List.drop_one, List.tail_cons]

theorem length_of_drop (h : list.drop start = a :: rest) :
    list.length = start + 1 + rest.length := by
  have := congrArg List.length h
  rw [List.length_drop, List.length_cons] at this
  omega

/-- The rest from an index on, cut at an index further right. -/
theorem exists_drop_eq_append (h : start ≤ stop) (hstop : stop ≤ list.length) :
    ∃ front, list.drop start = front ++ list.drop stop ∧ stop = start + front.length := by
  obtain ⟨n, rfl⟩ := Nat.exists_eq_add_of_le h
  have hcut := List.take_append_drop n (list.drop start)
  rw [List.drop_drop] at hcut
  refine ⟨(list.drop start).take n, hcut.symm, ?_⟩
  rw [List.length_take, List.length_drop]
  omega

end Drop

end FieldMask

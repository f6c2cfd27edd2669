import FieldMask.Pattern.Expression

/-!
# Reading with related builders

Reading leaves open how the objects inside are built and what it means to fail or to go
on. So whatever relation is kept by ending, by failing and by going on, and holds of the
objects inside, holds of what is read: reading cannot tell related builders apart.

Results:
* `readSiblingsWith_related`: related builders of the objects inside give related siblings.
-/

namespace FieldMask

section Related

variable {m n : Type → Type} {R : (α : Type) → m α → n α → Prop} {limit inside inside' : Nat}

/-- Builders of the objects inside some tokens are related if they agree on the depth of an
    object there, and what they build within the limit is related. -/
def Relates (R : (α : Type) → m α → n α → Prop) (limit : Nat) (tokens : List Token)
    (inside inside' : Nat) (build : InnerBuilder m tokens) (build' : InnerBuilder n tokens) :
    Prop :=
  ∀ inner h, inside = inside' ∧ (inside ≤ limit → R _ (build inner h) (build' inner h))

theorem Relates.on {part tokens : List Token} {build : InnerBuilder m tokens}
    {build' : InnerBuilder n tokens} (h : Relates R limit tokens inside inside' build build')
    (hp : part <:+: tokens) :
    Relates R limit part inside inside' (build.on hp) (build'.on hp) :=
  fun inner hw => h inner (hw.mono hp)

variable [Monad m] [MonadExcept PatternError m] [Monad n] [MonadExcept PatternError n]

/-- A relation between computations that is kept by ending, by failing and by going on. -/
structure Respects (R : (α : Type) → m α → n α → Prop) : Prop where
  pure : ∀ {α : Type} (a : α), R α (pure a) (pure a)
  throw : ∀ {α : Type} (error : PatternError), R α (throw error) (throw error)
  bind : ∀ {α β : Type} {x : m α} {y : n α} {f : α → m β} {g : α → n β}, R α x y →
    (∀ a, R β (f a) (g a)) → R β (x >>= f) (y >>= g)

theorem readObjectWith_related (hR : Respects R) (colon : Token) {tokens : List Token}
    {build : InnerBuilder m tokens} {build' : InnerBuilder n tokens}
    (h : Relates R limit tokens inside inside' build build') :
    R _ (readObjectWith limit inside colon tokens build)
      (readObjectWith limit inside' colon tokens build') := by
  cases tokens with
  | nil => exact hR.throw _
  | cons opening inner =>
    rw [readObjectWith, readObjectWith]
    split
    · next ho =>
      obtain ⟨rfl, -⟩ := h _ (within_take ho inner 0)
      split
      · exact hR.throw _
      · next hlimit =>
        cases closeOffset? 0 inner with
        | none => exact hR.throw _
        | some n =>
          obtain ⟨-, hbuild⟩ := h _ (within_take ho inner n)
          refine hR.bind (hbuild (Nat.le_of_not_lt hlimit)) fun children => ?_
          split
          · exact hR.pure _
          · split
            · exact hR.pure _
            · exact hR.throw _
    · exact hR.throw _

theorem readExpressionWith_related (hR : Respects R) (first : Token) {rest : List Token}
    {build : InnerBuilder m rest} {build' : InnerBuilder n rest}
    (h : Relates R limit rest inside inside' build build') :
    R _ (readExpressionWith limit inside first rest build)
      (readExpressionWith limit inside' first rest build') := by
  rw [readExpressionWith, readExpressionWith]
  split
  · cases rest with
    | nil => exact hR.pure _
    | cons separator after =>
      simp only
      split
      · exact hR.pure _
      · exact hR.bind (readObjectWith_related hR separator (h.on _)) fun _ => hR.pure _
      · exact hR.throw _
  · exact hR.throw _

/-- By induction on the tokens that are left, expression by expression. -/
theorem readSiblingsWith_related (hR : Respects R) (seen : List String) {tokens : List Token}
    {build : InnerBuilder m tokens} {build' : InnerBuilder n tokens}
    (h : Relates R limit tokens inside inside' build build') :
    R _ (readSiblingsWith limit inside seen tokens build)
      (readSiblingsWith limit inside' seen tokens build') := by
  induction hlength : tokens.length using Nat.strongRecOn generalizing seen tokens with
  | ind size ih =>
    subst hlength
    cases tokens with
    | nil =>
      rw [readSiblingsWith, readSiblingsWith]
      exact hR.pure _
    | cons first rest =>
      rw [readSiblingsWith, readSiblingsWith]
      refine hR.bind (readExpressionWith_related hR first (h.on _)) fun reading => ?_
      obtain ⟨selector, more⟩ := reading
      simp only
      split
      · exact hR.throw _
      · have hlt : (rest.drop more).length < (first :: rest).length := by
          rw [List.length_drop, List.length_cons]
          omega
        exact hR.bind (ih _ hlt _ (h.on _) rfl) fun _ => hR.pure _

end Related

end FieldMask

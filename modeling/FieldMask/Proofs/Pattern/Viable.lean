import FieldMask.Pattern.Grammar
import FieldMask.Proofs.Pattern.Balance

/-!
# Prefixes of patterns

How far tokens have come on the way to a whole pattern: how many objects are
open and what may stand next. Every pattern of the grammar goes this way, so
tokens that leave it are the beginning of no pattern. Where siblings may stand
next, any siblings can be filled in and the pattern completed.

Results:
* `Grammar.Root.run_eq`: a pattern goes all the way.
* `Reaches.viable_expression`, `Reaches.not_viable`: what may follow a place
  where siblings are due, and what may not.
* `run_count`: the objects that are open are those the brace count tells.
-/

namespace FieldMask

open Grammar

/-- What may stand next inside an object. -/
inductive Spot where
  /-- A key or the closing brace. -/
  | key
  /-- What follows a key: a comma, a colon or the closing brace. -/
  | separator
  /-- The opening brace after a colon. -/
  | object
  /-- What follows a nested object: a comma or the closing brace. -/
  | comma
  deriving DecidableEq

/-- How far some tokens have come: before the first brace, inside an object that
    `outer` others enclose, or behind the last brace. -/
inductive Progress where
  | start
  | within (outer : Nat) (spot : Spot)
  | finished

namespace Progress

/-- Where closing an object leads. -/
def close : Nat → Progress
  | 0 => finished
  | outer + 1 => within outer .comma

/-- How one more token moves on, if it may stand there. -/
def step : Progress → TokenKind → Option Progress
  | start, .openBrace => some (within 0 .key)
  | within outer .key, .text _ => some (within outer .separator)
  | within outer .key, .closeBrace => some (close outer)
  | within outer .separator, .comma => some (within outer .key)
  | within outer .separator, .colon => some (within outer .object)
  | within outer .separator, .closeBrace => some (close outer)
  | within outer .object, .openBrace => some (within (outer + 1) .key)
  | within outer .comma, .comma => some (within outer .key)
  | within outer .comma, .closeBrace => some (close outer)
  | _, _ => none

/-- How some more tokens move on. -/
def run (progress : Progress) (kinds : List TokenKind) : Option Progress :=
  kinds.foldlM step progress

/-- The number of objects that are open. -/
def count : Progress → Nat
  | within outer _ => outer + 1
  | _ => 0

@[simp] theorem run_nil (progress : Progress) : progress.run [] = some progress := rfl

@[simp] theorem run_cons (progress : Progress) (kind : TokenKind) (kinds : List TokenKind) :
    progress.run (kind :: kinds) = (progress.step kind).bind fun next => next.run kinds := rfl

theorem run_append (progress : Progress) (front back : List TokenKind) :
    progress.run (front ++ back) = (progress.run front).bind fun next => next.run back := by
  simp [run, List.foldlM_append]

@[simp] theorem count_start : start.count = 0 := rfl

@[simp] theorem count_within (outer : Nat) (spot : Spot) : (within outer spot).count = outer + 1 :=
  rfl

@[simp] theorem count_close (outer : Nat) : (close outer).count = outer := by
  cases outer <;> rfl

theorem step_count {progress next : Progress} {kind : TokenKind}
    (h : progress.step kind = some next) : (next.count : Int) = progress.count + kind.weight := by
  unfold step at h
  split at h <;> cases h <;> simp only [count_start, count_within, count_close,
    weight_openBrace, weight_closeBrace, weight_comma, weight_colon, weight_text] <;> omega

theorem run_count {progress next : Progress} {kinds : List TokenKind}
    (h : progress.run kinds = some next) :
    (next.count : Int) = progress.count + braceCount kinds := by
  induction kinds generalizing progress with
  | nil =>
    cases h
    simp
  | cons kind kinds ih =>
    rw [run_cons] at h
    obtain ⟨mid, hm, h⟩ := Option.bind_eq_some_iff.1 h
    have hstep := step_count hm
    have hrest := ih h
    rw [braceCount_cons]
    omega

/-! ## Behind expressions and siblings -/

section Within

variable {outer : Nat} {spot : Spot}

theorem step_text (outer : Nat) (key : String) :
    (within outer .key).step (.text key) = some (within outer .separator) := rfl

theorem step_colon (outer : Nat) :
    (within outer .separator).step .colon = some (within outer .object) := rfl

theorem step_openBrace (outer : Nat) :
    (within outer .object).step .openBrace = some (within (outer + 1) .key) := rfl

theorem step_comma (h : spot = .separator ∨ spot = .comma) :
    (within outer spot).step .comma = some (within outer .key) := by
  rcases h with rfl | rfl <;> rfl

theorem step_closeBrace (h : spot ≠ .object) :
    (within outer spot).step .closeBrace = some (close outer) := by
  cases spot with
  | object => exact absurd rfl h
  | key | separator | comma => rfl

end Within

end Progress

namespace Grammar

open Progress

/-- Behind a nested object a comma or the closing brace must stand. -/
theorem run_object {outer : Nat} {inner : List TokenKind} {spot : Spot} (hs : spot ≠ .object)
    (h : (within (outer + 1) .key).run inner = some (within (outer + 1) spot)) (key : String) :
    (within outer .key).run (.text key :: .colon :: .openBrace :: inner ++ [.closeBrace]) =
      some (within outer .comma) := by
  simp [run_append, step_text, step_colon, step_openBrace, h, step_closeBrace hs, close]

mutual

/-- Behind an expression a comma may stand. -/
theorem Expression.run_eq (outer : Nat) {kinds : List TokenKind} {s : Selector} :
    Expression kinds s → ∃ spot, (spot = .separator ∨ spot = .comma) ∧
      (within outer .key).run kinds = some (within outer spot)
  | .leaf _ => ⟨.separator, .inl rfl, rfl⟩
  | .branch key siblings => by
    obtain ⟨spot, hs, hrun⟩ := siblings.run_eq (outer + 1)
    exact ⟨.comma, .inr rfl, run_object hs hrun key⟩

/-- Behind siblings the closing brace may stand. -/
theorem Siblings.run_eq (outer : Nat) {kinds : List TokenKind} {selectors : List Selector} :
    Siblings kinds selectors → ∃ spot, spot ≠ .object ∧
      (within outer .key).run kinds = some (within outer spot)
  | .nil => ⟨.key, by decide, rfl⟩
  | .last expression => by
    obtain ⟨spot, hs, hrun⟩ := expression.run_eq outer
    exact ⟨spot, by rcases hs with rfl | rfl <;> decide, hrun⟩
  | .cons expression siblings => by
    obtain ⟨spot, hs, hrun⟩ := expression.run_eq outer
    obtain ⟨last, hl, hrest⟩ := siblings.run_eq outer
    refine ⟨last, hl, ?_⟩
    simp [run_append, hrun, step_comma hs, hrest]

end

theorem Root.run_eq {kinds : List TokenKind} {selectors : List Selector}
    (h : Root kinds selectors) : Progress.start.run kinds = some .finished := by
  obtain ⟨inner, rfl, hs⟩ := h
  obtain ⟨spot, hspot, hrun⟩ := hs.run_eq 0
  have hstart : Progress.start.step .openBrace = some (.within 0 .key) := rfl
  simp [run_append, hstart, hrun, step_closeBrace hspot, close]

theorem Viable.run_eq {kinds : List TokenKind} (h : Viable kinds) :
    ∃ progress, Progress.start.run kinds = some progress := by
  obtain ⟨more, selectors, hroot⟩ := h
  have hrun := hroot.run_eq
  rw [run_append] at hrun
  obtain ⟨progress, hp, -⟩ := Option.bind_eq_some_iff.1 hrun
  exact ⟨progress, hp⟩

theorem Viable.of_append {front back : List TokenKind} (h : Viable (front ++ back)) :
    Viable front := by
  obtain ⟨more, selectors, hroot⟩ := h
  exact ⟨back ++ more, selectors, by rwa [← List.append_assoc]⟩

end Grammar

/-! ## Where siblings are due -/

/-- Tokens behind which siblings may stand, in an object that `outer` others enclose:
    whatever siblings come next, the pattern can be completed. -/
structure Reaches (outer : Nat) (front : List TokenKind) : Prop where
  complete : ∃ back, ∀ inner selectors, Siblings inner selectors →
    ∃ roots, Root (front ++ inner ++ back) roots
  run_eq : Progress.start.run front = some (.within outer .key)

theorem reaches_openBrace : Reaches 0 [.openBrace] where
  complete := ⟨[.closeBrace], fun inner selectors hs => ⟨selectors, inner, rfl, hs⟩⟩
  run_eq := rfl

namespace Reaches

variable {outer : Nat} {front : List TokenKind} (h : Reaches outer front)

include h

theorem count_eq : braceCount front = outer + 1 := by
  have := Progress.run_count h.run_eq
  simpa [Progress.count] using this.symm

theorem comma {kinds : List TokenKind} {s : Selector} (he : Expression kinds s) :
    Reaches outer (front ++ (kinds ++ [.comma])) where
  complete := by
    obtain ⟨back, hback⟩ := h.complete
    refine ⟨back, fun inner selectors hs => ?_⟩
    obtain ⟨roots, hroot⟩ := hback _ _ (.cons he hs)
    exact ⟨roots, by simpa using hroot⟩
  run_eq := by
    obtain ⟨spot, hspot, hrun⟩ := he.run_eq outer
    simp [Progress.run_append, h.run_eq, hrun, Progress.step_comma hspot]

theorem nested (key : String) :
    Reaches (outer + 1) (front ++ [.text key, .colon, .openBrace]) where
  complete := by
    obtain ⟨back, hback⟩ := h.complete
    refine ⟨.closeBrace :: back, fun inner selectors hs => ?_⟩
    obtain ⟨roots, hroot⟩ := hback _ _ (.last (.branch key hs))
    exact ⟨roots, by simpa using hroot⟩
  run_eq := by
    rw [Progress.run_append, h.run_eq]
    rfl

theorem viable_siblings {kinds : List TokenKind} {selectors : List Selector}
    (hs : Siblings kinds selectors) : Viable (front ++ kinds) := by
  obtain ⟨back, hback⟩ := h.complete
  exact ⟨back, hback kinds selectors hs⟩

theorem viable : Viable front := (h.viable_siblings .nil).of_append

theorem viable_expression {kinds : List TokenKind} {s : Selector} (he : Expression kinds s) :
    Viable (front ++ kinds) := h.viable_siblings (.last he)

theorem not_viable {kinds : List TokenKind}
    (hrun : (Progress.within outer .key).run kinds = none) : ¬Viable (front ++ kinds) := by
  intro hv
  obtain ⟨progress, hp⟩ := hv.run_eq
  rw [Progress.run_append, h.run_eq] at hp
  exact absurd (hrun.symm.trans hp) (by simp)

end Reaches

end FieldMask

import FieldMask.Proofs.Pattern.Reading
import FieldMask.Proofs.Pattern.Words

/-!
# How deep the builder recurs

Building an object needs the objects inside it, and only these are built by recursion.
How they are built is left open in reading, so reading can be a piece of work that asks
for the object inside whenever it comes to one, and goes on with the selectors it is
answered. If the builder answers, the work is the builder. If a builder answers that may
go down one level less, the work is a builder with a budget of levels, which gives up
when the budget is spent.

Whatever it is answered, the work asks only for objects with fewer tokens, at the next
depth and within the limit. So where words suffice to count the depths, the levels from
an object down to the limit are all that a budget has to pay for.

Results:
* `Job.work_onlyAsks`, `wellFounded_calls`: what the work asks for.
* `Job.run_work`: the work, answered by the builder, is the builder.
* `buildWithin_eq`: a budget that goes down to the limit is enough.
-/

namespace FieldMask

/-! ## Work that asks for objects -/

/-- An object that is to be built: its depth, and the tokens between its braces. -/
structure Job where
  depth : Nat
  tokens : List Token
  deriving DecidableEq, Repr

/-- Work that comes to an end, or asks for an object and goes on with its selectors. An error
    in the object ends the work. -/
inductive Work (α : Type) where
  | ends (outcome : Except PatternError α)
  | asks (job : Job) (resume : List Selector → Work α)

/-- Why building with a budget fails. -/
inductive Halt where
  /-- The pattern is refused. -/
  | refused (error : PatternError)
  /-- An object was asked for and no levels are left. -/
  | budgetSpent
  deriving DecidableEq, Repr

namespace Work

section Defs

variable {α β : Type}

/-- One piece of work after another. -/
def bind : Work α → (α → Work β) → Work β
  | ends (.ok a), next => next a
  | ends (.error error), _ => ends (.error error)
  | asks job resume, next => asks job fun children => (resume children).bind next

instance : Monad Work where
  pure a := ends (.ok a)
  bind := bind

/-- The work, with an error that ends it handled. -/
def handle (handler : PatternError → Work α) : Work α → Work α
  | ends (.ok a) => ends (.ok a)
  | ends (.error error) => handler error
  | asks job resume => asks job fun children => (resume children).handle handler

instance : MonadExcept PatternError Work where
  throw error := ends (.error error)
  tryCatch work handler := work.handle handler

/-- Asks for an object, for its selectors. -/
def build (job : Job) : Work (List Selector) := asks job pure

/-- What the work comes to, by the answers. -/
def run (answer : Job → Except Halt (List Selector)) : Work α → Except Halt α
  | ends outcome => outcome.mapError .refused
  | asks job resume => (answer job).bind fun children => (resume children).run answer

/-- With some answers the work asks for the object. -/
inductive Asks : Work α → Job → Prop
  | now {job : Job} {resume : List Selector → Work α} : Asks (asks job resume) job
  | later {job other : Job} {resume : List Selector → Work α} (children : List Selector)
      (h : Asks (resume children) job) : Asks (asks other resume) job

/-- Whatever it is answered, the work asks for such objects only. -/
def OnlyAsks (p : Job → Prop) (work : Work α) : Prop := ∀ job, work.Asks job → p job

end Defs

end Work

/-! ## The builder as work -/

/-- Asks for each object inside an object. -/
def Job.askInside (job : Job) : InnerBuilder Work job.tokens :=
  fun inner _ => Work.build ⟨Word.next job.depth, inner⟩

/-- Reading an object, as work. -/
def Job.work (limit : Nat) (job : Job) : Work (List Selector) :=
  readSiblingsWith limit (Word.next job.depth) [] job.tokens job.askInside

/-- Building the object calls for building the inner one, if the answers so far lead there. -/
def Calls (limit : Nat) (job inner : Job) : Prop := (job.work limit).Asks inner

/-- The builder with a budget: how many levels of objects inside one another it may go down. -/
def buildWithin (limit : Nat) : Nat → Job → Except Halt (List Selector)
  | 0, job => (job.work limit).run fun _ => .error .budgetSpent
  | budget + 1, job => (job.work limit).run (buildWithin limit budget)

/-- What the builder answers when it is asked for an object. -/
def builderAnswer (limit : Nat) (job : Job) : Except Halt (List Selector) :=
  (Word.buildObject limit job.depth job.tokens).mapError .refused

/-! ## Laws of work -/

namespace Work

section Laws

variable {α β : Type} {answer : Job → Except Halt (List Selector)} {p : Job → Prop}

@[simp] theorem run_build (job : Job) : (build job).run answer = answer job := by
  show (answer job).bind .ok = _
  cases answer job <;> rfl

@[simp] theorem run_bind (work : Work α) (next : α → Work β) :
    (work >>= next).run answer = (work.run answer).bind fun a => (next a).run answer := by
  induction work with
  | ends outcome => cases outcome <;> rfl
  | asks job resume ih =>
    show (answer job).bind (fun children => (resume children >>= next).run answer) =
      ((answer job).bind fun children => (resume children).run answer).bind _
    cases answer job with
    | error halt => rfl
    | ok children => exact ih children

theorem onlyAsks_ends (outcome : Except PatternError α) : (ends outcome).OnlyAsks p := by
  intro job h
  cases h

theorem onlyAsks_build {job : Job} (hp : p job) : (build job).OnlyAsks p := by
  intro other h
  cases h with
  | now => exact hp
  | later children h => exact onlyAsks_ends _ other h

theorem OnlyAsks.bind {work : Work α} {next : α → Work β} (hw : work.OnlyAsks p)
    (hn : ∀ a, (next a).OnlyAsks p) : (work >>= next).OnlyAsks p := by
  induction work with
  | ends outcome =>
    cases outcome with
    | ok a => exact hn a
    | error error => exact onlyAsks_ends _
  | asks other resume ih =>
    intro job h
    cases h with
    | now => exact hw other .now
    | later children h => exact ih children (fun job h => hw job (.later children h)) job h

theorem respects_onlyAsks (p : Job → Prop) :
    Respects fun α (work : Work α) (_ : Work α) => work.OnlyAsks p :=
  ⟨fun _ => onlyAsks_ends _, fun _ => onlyAsks_ends _, OnlyAsks.bind⟩

/-- Work comes to what a reader comes to, if what it asks for does. -/
theorem respects_run (answer : Job → Except Halt (List Selector)) :
    Respects fun α (work : Work α) (outcome : Except PatternError α) =>
      work.run answer = outcome.mapError .refused := by
  refine ⟨fun _ => rfl, fun _ => rfl, fun {α β work outcome next after} hw hn => ?_⟩
  rw [run_bind, hw]
  cases outcome with
  | error error => rfl
  | ok a => exact hn a

end Laws

end Work

/-! ## What the builder asks for -/

/-- An object that lies at the next depth, within the limit, and behind an opening brace. -/
structure Inside (limit : Nat) (job inner : Job) : Prop where
  depth_eq : inner.depth = Word.next job.depth
  depth_le : inner.depth ≤ limit
  within : Within inner.tokens job.tokens

theorem Job.work_onlyAsks (limit : Nat) (job : Job) :
    (job.work limit).OnlyAsks (Inside limit job) := by
  have hasks : Relates (fun α (work : Work α) (_ : Work α) => work.OnlyAsks (Inside limit job))
      limit job.tokens (Word.next job.depth) (Word.next job.depth) job.askInside job.askInside :=
    fun _ hw => ⟨rfl, fun hle => Work.onlyAsks_build ⟨rfl, hle, hw⟩⟩
  exact readSiblingsWith_related (Work.respects_onlyAsks _) [] hasks

/-- Where an object follows a key and a colon, the work asks for it first. -/
theorem Job.exists_work_eq_asks {limit depth : Nat} {key : String}
    {first colon opening closing : Token} {inner : List Token}
    (hh : BranchHead key first colon opening) (hd : Word.next depth ≤ limit)
    (he : Enclosed inner closing) (tail : List Token) :
    ∃ resume, Job.work limit ⟨depth, first :: colon :: opening :: (inner ++ closing :: tail)⟩ =
      .asks ⟨Word.next depth, inner⟩ resume := by
  have hobject : ∃ resume, readObjectWith limit (Word.next depth) colon
      (opening :: (inner ++ closing :: tail)) (fun inner _ => Work.build ⟨Word.next depth, inner⟩) =
        .asks ⟨Word.next depth, inner⟩ resume := by
    rw [readObjectWith, dif_pos hh.brace_eq, if_neg (Nat.not_lt_of_le hd),
      closeOffset?_append he.balanced he.brace_eq]
    simp only [List.take_left]
    exact ⟨_, rfl⟩
  obtain ⟨resume, hresume⟩ := hobject
  rw [Job.work, readSiblingsWith, readExpressionWith]
  simp only [hh.key_eq, hh.colon_eq]
  show ∃ resume, Work.bind (Work.bind (readObjectWith limit (Word.next depth) colon _
    fun inner _ => Work.build ⟨Word.next depth, inner⟩) _) _ = .asks _ resume
  rw [hresume]
  exact ⟨_, rfl⟩

theorem wellFounded_calls (limit : Nat) : WellFounded fun inner job => Calls limit job inner :=
  Subrelation.wf (fun {_ job} h => (job.work_onlyAsks limit _ h).within.length_lt)
    (measure fun job : Job => job.tokens.length).wf

/-! ## What the work comes to -/

/-- The work is the builder, if the answers within the limit are the builder's. -/
theorem Job.run_work {limit : Nat} {job : Job} {answer : Job → Except Halt (List Selector)}
    (h : ∀ inner, Inside limit job inner → answer inner = builderAnswer limit inner) :
    (job.work limit).run answer = builderAnswer limit job := by
  rw [builderAnswer, Word.buildObject]
  refine readSiblingsWith_related (Work.respects_run answer) [] fun inner hw => ⟨rfl, fun hle => ?_⟩
  exact (Work.run_build _).trans (h _ ⟨rfl, hle, hw⟩)

/-- The builder has no budget to spend. -/
theorem builderAnswer_ne_budgetSpent (limit : Nat) (job : Job) :
    builderAnswer limit job ≠ .error .budgetSpent := by
  rw [builderAnswer]
  cases Word.buildObject limit job.depth job.tokens with
  | ok selectors =>
    intro h
    contradiction
  | error error =>
    intro h
    have := Except.error.inj h
    contradiction

/-- By induction on the budget: one level further down, one level less is needed. -/
theorem buildWithin_eq {limit budget : Nat} {job : Job}
    (hs : Word.Suffice limit job.depth job.tokens) (h : limit ≤ job.depth + budget) :
    buildWithin limit budget job = builderAnswer limit job := by
  induction budget generalizing job with
  | zero =>
    rw [buildWithin]
    refine Job.run_work fun inner hi => ?_
    -- At the limit no object inside is asked for.
    have hnext := hi.depth_eq.trans (hs.next_eq hi.within)
    have := hi.depth_le
    omega
  | succ budget ih =>
    rw [buildWithin]
    refine Job.run_work fun inner hi => ?_
    have hnext := hi.depth_eq.trans (hs.next_eq hi.within)
    have hle := hi.depth_le
    exact ih (hnext ▸ hs.inside hi.within (hnext ▸ hle)) (by omega)

/-- The limit bounds the recursion. Every object that building another one calls for lies at
    the next depth, within the limit, and has fewer tokens, so the calls come to an end. The
    builder is the one that answers these calls itself. Where words suffice to count the
    depths, a builder that may go down only as many levels as there are from the depth of the
    object to the limit comes to the same, and its budget is never spent. -/
theorem buildObject_within_limit (limit : Nat) :
    (∀ job inner, Calls limit job inner → inner.depth = Word.next job.depth ∧
      inner.depth ≤ limit ∧ inner.tokens.length < job.tokens.length) ∧
    (WellFounded fun inner job => Calls limit job inner) ∧
    (∀ job, (job.work limit).run (builderAnswer limit) = builderAnswer limit job) ∧
    ∀ depth tokens, Word.Suffice limit depth tokens →
      buildWithin limit (limit - depth) ⟨depth, tokens⟩ =
        (Word.buildObject limit depth tokens).mapError .refused ∧
      buildWithin limit (limit - depth) ⟨depth, tokens⟩ ≠ .error .budgetSpent := by
  refine ⟨fun job inner h => ?_, wellFounded_calls limit, fun job => Job.run_work fun _ _ => rfl,
    fun depth tokens hs => ?_⟩
  · have hinside := job.work_onlyAsks limit inner h
    exact ⟨hinside.depth_eq, hinside.depth_le, hinside.within.length_lt⟩
  · have hwithin : buildWithin limit (limit - depth) ⟨depth, tokens⟩ = _ :=
      buildWithin_eq hs (by simp only; omega)
    refine ⟨hwithin, ?_⟩
    rw [hwithin]
    exact builderAnswer_ne_budgetSpent limit ⟨depth, tokens⟩

theorem buildObject_within_limit_nested :
    let inner : List Token := [⟨.text "b", ⟨3, 1⟩⟩, ⟨.colon, ⟨4, 1⟩⟩, ⟨.openBrace, ⟨5, 1⟩⟩,
      ⟨.closeBrace, ⟨6, 1⟩⟩]
    let tokens : List Token := ⟨.text "a", ⟨0, 1⟩⟩ :: ⟨.colon, ⟨1, 1⟩⟩ :: ⟨.openBrace, ⟨2, 1⟩⟩ ::
      (inner ++ [⟨.closeBrace, ⟨7, 1⟩⟩])
    Calls 3 ⟨1, tokens⟩ ⟨2, inner⟩ ∧ inner.length < tokens.length ∧ Word.Suffice 3 1 tokens ∧
    buildWithin 3 2 ⟨1, tokens⟩ = .ok [.branch "a" [.branch "b" []]] ∧
    buildWithin 3 1 ⟨1, tokens⟩ = .error .budgetSpent := by
  intro inner tokens
  have hone : Word.next 1 = 2 := Word.next_of_lt (Word.lt_size (by decide))
  have htwo : Word.next 2 = 3 := Word.next_of_lt (Word.lt_size (by decide))
  have hempty : Enclosed [] ⟨.closeBrace, ⟨6, 1⟩⟩ := ⟨balanced_nil, rfl⟩
  have henclosed : Enclosed inner ⟨.closeBrace, ⟨7, 1⟩⟩ :=
    ⟨(balanced_cons_iff rfl).2 ((balanced_cons_iff rfl).2 balanced_nil.braces), rfl⟩
  obtain ⟨outer, houter⟩ : ∃ resume, Job.work 3 ⟨1, tokens⟩ = .asks ⟨2, inner⟩ resume :=
    hone ▸ Job.exists_work_eq_asks ⟨rfl, rfl, rfl⟩ (hone ▸ by decide) henclosed []
  obtain ⟨deeper, hdeeper⟩ : ∃ resume, Job.work 3 ⟨2, inner⟩ = .asks ⟨3, []⟩ resume :=
    htwo ▸ Job.exists_work_eq_asks ⟨rfl, rfl, rfl⟩ (htwo ▸ by decide) hempty []
  have hcall : Calls 3 ⟨1, tokens⟩ ⟨2, inner⟩ := by
    rw [Calls, houter]
    exact .now
  have hwords : Word.Suffice 3 1 tokens :=
    .inl ⟨Word.lt_size (by decide), Word.lt_size (by decide)⟩
  have hok : buildObject 3 1 tokens = .ok [.branch "a" [.branch "b" []]] := by
    simp [tokens, inner, buildObject, closeOffset?, readSiblings_cons, readFirst,
      readExpression_def, readObject_cons, Except.bind, Except.map]
  obtain ⟨hcalls, -, -, hbuild⟩ := buildObject_within_limit 3
  obtain ⟨hwithin, -⟩ := hbuild 1 tokens hwords
  rw [Word.buildObject_eq hwords, hok] at hwithin
  refine ⟨hcall, (hcalls _ _ hcall).2.2, hwords, hwithin, ?_⟩
  rw [buildWithin, houter, Work.run, buildWithin, hdeeper]
  rfl

end FieldMask

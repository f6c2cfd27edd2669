import FieldMask.Filter.Request

/-!
# Events

Compiling and applying report what they do as events. A logged computation is
a value together with the events reported on the way to it, in order.

Results:
* `compileLogged_value`, `applyLogged_value` and their neighbours: reporting
  events does not change what is computed.
* `outcome_of_ok`, `outcome_of_error`: the event that compiling reports tells
  whether it succeeded.
-/

namespace FieldMask

/-- Something worth reporting. -/
inductive Event where
  /-- A request is about to be compiled under a limit that is not checked yet. -/
  | requested (maxDepth : Nat)
  /-- A pattern was compiled: its numbers of characters, tokens and root selectors. -/
  | compiled (characters tokens selectors : Nat)
  /-- A pattern was refused. -/
  | refused (error : PatternError)
  /-- A filter is about to be applied by copying. -/
  | applying (pattern : String)
  /-- A filter is about to be applied by moving. -/
  | moving (pattern : String)
  deriving DecidableEq, Repr

namespace Event

/-- The event in words. -/
def message : Event → String
  | requested _ => "compiling subobject pattern"
  | compiled _ _ _ => "compiled subobject pattern"
  | refused _ => "failed to compile subobject pattern"
  | applying pattern => "applying subobject filter " ++ pattern
  | moving pattern => "applying subobject filter " ++ pattern ++ " by value"

/-- What is reported beside the message. -/
def fields : Event → Object Json
  | requested maxDepth => [("max_depth", .ofNat maxDepth)]
  | compiled characters tokens selectors =>
    [("pattern_chars", .ofNat characters), ("tokens", .ofNat tokens),
      ("selectors", .ofNat selectors)]
  | refused error =>
    [("kind", .string error.fault.label), ("position", .ofNat error.span.position),
      ("length", .ofNat error.span.length)]
  | applying _ | moving _ => []

end Event

/-- A value and the events reported on the way to it. -/
structure Logged (α : Type) where
  events : List Event
  value : α

namespace Logged

/-- A value reached without an event. -/
def quiet {α : Type} (value : α) : Logged α := ⟨[], value⟩

/-- Reports one event. -/
def report (event : Event) : Logged Unit := ⟨[event], ()⟩

instance : Monad Logged where
  pure := quiet
  bind logged f := ⟨logged.events ++ (f logged.value).events, (f logged.value).value⟩

@[simp] theorem value_pure {α : Type} (value : α) : (pure value : Logged α).value = value := rfl

@[simp] theorem value_bind {α β : Type} (logged : Logged α) (f : α → Logged β) :
    (logged >>= f).value = (f logged.value).value := rfl

@[simp] theorem events_pure {α : Type} (value : α) : (pure value : Logged α).events = [] := rfl

@[simp] theorem events_bind {α β : Type} (logged : Logged α) (f : α → Logged β) :
    (logged >>= f).events = logged.events ++ (f logged.value).events := rfl

end Logged

namespace Compiler

/-- The event that compiling a pattern reports. -/
def outcome (compiler : Compiler) (pattern : String) : Event :=
  match tokenize pattern with
  | .error error => .refused error
  | .ok tokens =>
    match buildRoot compiler.maxDepth tokens with
    | .error error => .refused error
    | .ok selectors => .compiled pattern.length tokens.length selectors.length

/-- Compiles a pattern and reports how it went, as `PatternCompiler::compile` of `compiler`
    (lines 51–64) does. -/
def compileLogged (compiler : Compiler) (pattern : String) :
    Logged (Except PatternError Filter) :=
  ⟨[compiler.outcome pattern], compiler.compile pattern⟩

/-- Validates a pattern and reports how it went. -/
def validateLogged (compiler : Compiler) (pattern : String) : Logged (Except PatternError Unit) :=
  ⟨[compiler.outcome pattern], compiler.validate pattern⟩

@[simp] theorem compileLogged_value (compiler : Compiler) (pattern : String) :
    (compiler.compileLogged pattern).value = compiler.compile pattern := rfl

@[simp] theorem validateLogged_value (compiler : Compiler) (pattern : String) :
    (compiler.validateLogged pattern).value = compiler.validate pattern := rfl

/-- A pattern that is refused is reported with the error. -/
theorem outcome_of_error {compiler : Compiler} {pattern : String} {error : PatternError}
    (h : compiler.selectors pattern = .error error) :
    compiler.outcome pattern = .refused error := by
  unfold outcome
  cases ht : tokenize pattern with
  | error e =>
    rw [compiler.selectors_of_tokenize_error ht] at h
    obtain rfl := Except.error.inj h
    rfl
  | ok tokens =>
    rw [compiler.selectors_of_tokenize ht] at h
    simp [h]

/-- A pattern that compiles is reported with the number of its root selectors. -/
theorem outcome_of_ok {compiler : Compiler} {pattern : String} {selectors : List Selector}
    (h : compiler.selectors pattern = .ok selectors) :
    ∃ tokens, compiler.outcome pattern = .compiled pattern.length tokens selectors.length := by
  unfold outcome
  cases ht : tokenize pattern with
  | error e =>
    rw [compiler.selectors_of_tokenize_error ht] at h
    contradiction
  | ok tokens =>
    rw [compiler.selectors_of_tokenize ht] at h
    exact ⟨tokens.length, by simp [h]⟩

end Compiler

namespace Request

/-- Compiles a request, reporting first the limit asked for and then, if it is valid, how
    compiling went, as `SubobjectBuilder::compile` of `builder::core` (lines 63–68) does. -/
def compileLogged (request : Request) : Logged (Except RequestError Filter) := do
  Logged.report (.requested request.settings.maxDepth)
  match Compiler.ofSettings request.settings with
  | .error error => pure (.error (.settings error))
  | .ok compiler => do
    let compiled ← compiler.compileLogged request.pattern
    pure (compiled.mapError .pattern)

@[simp] theorem compileLogged_value (request : Request) :
    request.compileLogged.value = request.compile := by
  unfold compileLogged compile
  cases Compiler.ofSettings request.settings <;> rfl

end Request

namespace Filter

/-- Applies a filter by copying and reports it, as `CompiledFilter::apply` of `filter`
    (lines 51–54) does. -/
def applyLogged (filter : Filter) (value : Json) : Logged Json :=
  ⟨[.applying filter.pattern], filter.apply value⟩

/-- Applies a filter by moving and reports it, as `CompiledFilter::apply_owned` of `filter`
    (lines 58–61) does. -/
def applyMovingLogged (filter : Filter) (value : Json) : Logged Json :=
  ⟨[.moving filter.pattern], filter.applyMoving value⟩

/-- Applies a filter to data, and reports it once the data is turned into JSON, as
    `CompiledFilter::apply_serialize` of `filter` (lines 69–74) does. -/
def applySerializeLogged {α ε : Type} (serialize : α → Except ε Json) (filter : Filter)
    (data : α) : Logged (Except ε Json) :=
  match serialize data with
  | .error error => pure (.error error)
  | .ok value => do
    let result ← filter.applyMovingLogged value
    pure (.ok result)

@[simp] theorem applyLogged_value (filter : Filter) (value : Json) :
    (filter.applyLogged value).value = filter.apply value := rfl

@[simp] theorem applyMovingLogged_value (filter : Filter) (value : Json) :
    (filter.applyMovingLogged value).value = filter.applyMoving value := rfl

@[simp] theorem applySerializeLogged_value {α ε : Type} (serialize : α → Except ε Json)
    (filter : Filter) (data : α) :
    (filter.applySerializeLogged serialize data).value = filter.applySerialize serialize data := by
  unfold applySerializeLogged applySerialize applySerializeBy
  cases serialize data <;> rfl

end Filter

end FieldMask

import FieldMask.Filter.Compiler
import FieldMask.Pattern.Report

/-!
# Requests to compile a pattern

A request collects settings for a pattern step by step. They are checked only
when the pattern is compiled.
-/

namespace FieldMask

/-- A pattern and the settings to compile it under: `SubobjectBuilder` of `builder::core`
    (lines 29–32). -/
structure Request where
  pattern : String
  settings : Settings := {}
  deriving DecidableEq, Repr

/-- Why a request fails: `SubobjectError` of `builder::core` (lines 9–14). -/
inductive RequestError where
  | settings (error : SettingsError)
  | pattern (error : PatternError)
  deriving DecidableEq, Repr

/-- The cause in one line, as the error inside reports it. -/
def RequestError.message : RequestError → String
  | settings error => error.message
  | pattern error => error.summary

namespace Request

/-- Replaces all settings: `SubobjectBuilder::config` of `builder::core` (lines 45–48). -/
def withSettings (request : Request) (settings : Settings) : Request :=
  ⟨request.pattern, settings⟩

/-- Limits how deeply objects may nest: `SubobjectBuilder::max_depth` of `builder::core`
    (lines 52–55). -/
def withMaxDepth (request : Request) (maxDepth : Nat) : Request :=
  ⟨request.pattern, ⟨maxDepth⟩⟩

/-- Checks the settings, then compiles the pattern: `SubobjectBuilder::compile` of `builder::core`
    (lines 63–68). -/
def compile (request : Request) : Except RequestError Filter :=
  match Compiler.ofSettings request.settings with
  | .error error => .error (.settings error)
  | .ok compiler => (compiler.compile request.pattern).mapError .pattern

end Request

end FieldMask

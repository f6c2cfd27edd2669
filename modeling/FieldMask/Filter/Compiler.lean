import FieldMask.Filter.Basic
import FieldMask.Filter.Settings
import FieldMask.Pattern.Expression
import FieldMask.Pattern.Lexer

/-!
# Compiling patterns

A compiler turns a pattern into a filter: it reads the tokens and builds the
selectors. An error carries the pattern it is about.

Results:
* `Compiler.compile_eq_ok_iff`: a pattern compiles to a filter exactly if the
  filter has that pattern and the selectors the pattern stands for.
-/

namespace FieldMask

/-- A limit on the nesting of objects that leaves room for the root object: `PatternCompiler` of
    `compiler` (lines 17–19), whose configuration is valid. -/
structure Compiler where
  maxDepth : Nat
  positive : 1 ≤ maxDepth
  deriving DecidableEq

namespace Compiler

/-- The compiler with the default settings: `PatternCompiler::new` of `compiler` (lines 25–27). -/
def standard : Compiler := ⟨defaultMaxDepth, by decide⟩

instance : Inhabited Compiler := ⟨standard⟩

/-- The compiler with the given settings, if they are valid: `PatternCompiler::with_config` of
    `compiler` (lines 34–37). -/
def ofSettings (settings : Settings) : Except SettingsError Compiler :=
  if h : settings.Valid then .ok ⟨settings.maxDepth, h⟩ else .error .zeroDepth

/-- The selectors that a pattern stands for: `compile_selectors` of `compiler` (lines 75–87). -/
def selectors (compiler : Compiler) (pattern : String) : Except PatternError (List Selector) :=
  (tokenize pattern).bind (buildRoot compiler.maxDepth)

/-- The filter of a pattern: `PatternCompiler::compile` of `compiler` (lines 51–64). -/
def compile (compiler : Compiler) (pattern : String) : Except PatternError Filter :=
  match compiler.selectors pattern with
  | .ok selectors => .ok ⟨pattern, selectors⟩
  | .error error => .error (error.withPattern pattern)

/-- Whether a pattern compiles, and if not why: `PatternCompiler::validate` of `compiler`
    (lines 71–73). -/
def validate (compiler : Compiler) (pattern : String) : Except PatternError Unit :=
  (compiler.compile pattern).map fun _ => ()

/-- Settings make a compiler exactly if they pass validation, and its limit is theirs. -/
theorem ofSettings_eq_ok_iff {settings : Settings} {compiler : Compiler} :
    ofSettings settings = .ok compiler ↔
      settings.validate = .ok () ∧ compiler.maxDepth = settings.maxDepth := by
  unfold ofSettings Settings.validate
  split
  · constructor
    · intro h
      obtain rfl := Except.ok.inj h
      exact ⟨rfl, rfl⟩
    · rintro ⟨-, hm⟩
      obtain ⟨maxDepth, hpos⟩ := compiler
      cases hm
      rfl
  · simp

theorem selectors_of_tokenize (compiler : Compiler) {pattern : String} {tokens : List Token}
    (h : tokenize pattern = .ok tokens) :
    compiler.selectors pattern = buildRoot compiler.maxDepth tokens := by
  rw [selectors, h]
  rfl

theorem selectors_of_tokenize_error (compiler : Compiler) {pattern : String}
    {error : PatternError} (h : tokenize pattern = .error error) :
    compiler.selectors pattern = .error error := by
  rw [selectors, h]
  rfl

theorem compile_eq_ok_iff {compiler : Compiler} {pattern : String} {filter : Filter} :
    compiler.compile pattern = .ok filter ↔
      filter.pattern = pattern ∧ compiler.selectors pattern = .ok filter.selectors := by
  obtain ⟨p, ss⟩ := filter
  unfold compile
  cases compiler.selectors pattern with
  | error e => simp
  | ok selectors => simp; exact fun _ => eq_comm.trans (by simp [eq_comm])

theorem compile_eq_error_iff {compiler : Compiler} {pattern : String} {error : PatternError} :
    compiler.compile pattern = .error error ↔
      ∃ found, compiler.selectors pattern = .error found ∧ found.withPattern pattern = error := by
  unfold compile
  cases compiler.selectors pattern with
  | error found => simp
  | ok selectors => simp

end Compiler

/-- The filter of a pattern under the default settings: `compile` of `compiler` (lines 96–98). -/
def compile (pattern : String) : Except PatternError Filter :=
  Compiler.standard.compile pattern

end FieldMask

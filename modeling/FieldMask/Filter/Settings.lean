/-!
# Settings of the compiler

The one setting is how deeply the objects of a pattern may nest. The root
object has depth one, so a limit of zero would admit no pattern.
-/

namespace FieldMask

/-- How deeply objects may nest unless told otherwise: `DEFAULT_MAX_DEPTH` of `config` (line 4). -/
def defaultMaxDepth : Nat := 128

/-- Settings as they are asked for: `ParserConfig` of `config` (lines 18–21). -/
structure Settings where
  maxDepth : Nat := defaultMaxDepth
  deriving DecidableEq, Repr, Inhabited

/-- Why settings are refused: `ConfigurationError` of `config` (lines 11–14). -/
inductive SettingsError where
  | zeroDepth
  deriving DecidableEq, Repr

namespace SettingsError

/-- What is wrong with the settings. -/
def detail : SettingsError → String
  | zeroDepth => "max_depth must be at least 1"

/-- The cause in words. -/
def message (error : SettingsError) : String :=
  "Invalid configuration parameter: " ++ error.detail

end SettingsError

namespace Settings

/-- Whether some pattern could meet the settings. -/
def Valid (settings : Settings) : Prop := 1 ≤ settings.maxDepth

instance (settings : Settings) : Decidable settings.Valid := inferInstanceAs (Decidable (_ ≤ _))

/-- Refuses settings that no pattern could meet: `ParserConfig::validate` of `config`
    (lines 52–60). -/
def validate (settings : Settings) : Except SettingsError Unit :=
  if settings.Valid then .ok () else .error .zeroDepth

end Settings

end FieldMask

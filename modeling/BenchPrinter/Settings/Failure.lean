/-!
What can go wrong with settings. What exactly is wrong inside a document is not told.
-/

namespace BenchPrinter

inductive SettingsFailure where
  | notLoaded (path reason : String)
  | notSaved (path reason : String)
  | invalid (key reason : String)
  | noFolder (reason : String)
  | notJson
  | notToml
  | notWritableAsToml
  | unsupportedFormat (extension : String)
  | outOfRange (key value : String)
deriving DecidableEq

def SettingsFailure.message : SettingsFailure → String
  | notLoaded path reason => "Failed to load settings: " ++ path ++ ": " ++ reason
  | notSaved path reason => "Failed to save settings: " ++ path ++ ": " ++ reason
  | invalid key reason => "Invalid setting '" ++ key ++ "': " ++ reason
  | noFolder reason => "Config directory error: " ++ reason
  | notJson => "JSON error"
  | notToml => "TOML error"
  | notWritableAsToml => "TOML error"
  | unsupportedFormat extension => "Config error: Unsupported config format: " ++ extension
  | outOfRange key value => "Config error: Value out of range for '" ++ key ++ "': " ++ value

/-- Settings are prepared in two stages: the file is loaded, and then they are checked with the
overrides. -/
inductive PreparationFailure where
  | loading (failure : SettingsFailure)
  | overriding (failure : SettingsFailure)
deriving DecidableEq

namespace PreparationFailure

def cause : PreparationFailure → SettingsFailure
  | loading failure => failure
  | overriding failure => failure

/-- The first text that is shown. -/
def headline : PreparationFailure → String
  | loading _ => "Failed to load configuration"
  | overriding failure => failure.message

end PreparationFailure

end BenchPrinter

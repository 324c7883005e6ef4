import BenchPrinter.Document.Json.Reader
import BenchPrinter.Document.Json.Writer
import BenchPrinter.Document.Toml.Reader
import BenchPrinter.Document.Toml.Writer
import BenchPrinter.Files.Store
import BenchPrinter.Settings.Check
import BenchPrinter.Settings.Document
import BenchPrinter.Settings.Overrides

/-!
Settings in files. The extension of a file decides its format. Settings are checked after they are
read and before they are written.
-/

namespace BenchPrinter

inductive FileFormat where
  | json
  | toml
deriving DecidableEq

namespace FileFormat

/-- Extensions are in small letters. -/
def ofPath (path : String) : Except SettingsFailure FileFormat :=
  match FilePath.extension? path with
  | some "json" => .ok json
  | some "toml" => .ok toml
  | extension => .error (.unsupportedFormat (extension.getD ""))

end FileFormat

namespace Settings

def ofText (format : FileFormat) (text : String) : Except SettingsFailure Settings :=
  match format with
  | .json =>
      match (Json.read? text).bind (ofData? Json.dialect) with
      | some settings => .ok settings
      | none => .error .notJson
  | .toml =>
      match (Toml.read? text).bind (ofData? Toml.dialect) with
      | some settings => .ok settings
      | none => .error .notToml

def toText (format : FileFormat) (settings : Settings) : Except SettingsFailure String :=
  match format with
  | .json => .ok (Json.write .pretty settings.data)
  | .toml =>
      match Toml.write? settings.data with
      | some text => .ok text
      | none => .error .notWritableAsToml

/-- The format is looked at before the file is. -/
def load (files : Files) (path : String) : Except SettingsFailure Settings := do
  let format ← FileFormat.ofPath path
  match files.readText path with
  | .error fault => .error (.notLoaded path fault.message)
  | .ok text =>
      let settings ← ofText format text
      settings.check
      return settings

/-- Nothing is written unless everything before it succeeds. -/
def save (files : Files) (path : String) (settings : Settings) : Except SettingsFailure Files := do
  settings.check
  let format ← FileFormat.ofPath path
  let text ← settings.toText format
  match files.write path (Utf8.encode text) with
  | .error fault => .error (.notSaved path fault.message)
  | .ok files => return files

end Settings

/-- What the environment says about where the settings are. -/
structure Environment where
  settingsPath : Option String
  configHome : Option String
  home : Option String
deriving DecidableEq

namespace Environment

/-- The folder for settings must be absolute; otherwise it is a folder in the home folder. -/
def configFolder? (environment : Environment) : Option String :=
  match environment.configHome.filter FilePath.isAbsolute with
  | some folder => some folder
  | none =>
      (environment.home.filter fun folder => !folder.toList.isEmpty).map
        (FilePath.join · ".config")

/-- A path that is given in full is taken as it is, even an empty one. -/
def defaultPath (environment : Environment) : Except SettingsFailure String :=
  match environment.settingsPath with
  | some path => .ok path
  | none =>
      match environment.configFolder? with
      | some folder => .ok (FilePath.join (FilePath.join folder "marlinsim") "config.toml")
      | none => .error (.noFolder "no configuration directory on this platform")

end Environment

namespace Settings

/-- The default file counts only when it exists. -/
def loadDefault (files : Files) (environment : Environment) : Except SettingsFailure Settings :=
  match environment.defaultPath with
  | .ok path => if files.exists? path then load files path else .ok standard
  | .error _ => .ok standard

/-- A file that is named must be there. -/
def loadNamed (files : Files) (environment : Environment) :
    Option String → Except SettingsFailure Settings
  | some path => load files path
  | none => loadDefault files environment

/-- The settings for a run are those of a file with the overrides applied, and they are checked
again. -/
def prepare (files : Files) (environment : Environment) (path : Option String)
    (overrides : Overrides) : Except PreparationFailure Settings :=
  match loadNamed files environment path with
  | .error failure => .error (.loading failure)
  | .ok loaded =>
      match (overrides.apply loaded).check with
      | .ok () => .ok (overrides.apply loaded)
      | .error failure => .error (.overriding failure)

end Settings

end BenchPrinter

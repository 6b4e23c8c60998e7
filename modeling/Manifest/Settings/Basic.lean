import Manifest.Number.Binary
import Manifest.Call.Site

/-!
# Settings

The settings of an interpretation: the version of the language, the functions that are active at
the start, and the indentation of projected data. A list of functions that is not given leaves
every function of the library active.
-/

namespace Manifest

/-- The current version of the language. -/
def languageVersion : Double := .ofInt 1

/-- The settings of an interpretation. -/
structure Settings where
  version : Double
  /-- The functions active at the start, for calls that stand for a value. -/
  valueFunctions : Option (List String)
  /-- The functions active at the start, for calls that stand for a record. -/
  recordFunctions : Option (List String)
  indent : Int
deriving DecidableEq, Repr

namespace Settings

/-- The settings where nothing is set. -/
def standard : Settings := ⟨languageVersion, none, none, 2⟩

/-- The functions active at the start. -/
def selection (settings : Settings) : CallKind → Option (List String)
  | .value => settings.valueFunctions
  | .record => settings.recordFunctions

end Settings
end Manifest

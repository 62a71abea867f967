import EditableTemplate.Policy
import EditableTemplate.Settings.WholeNumber
import EditableTemplate.Text.LowerCase

/-!
# Settings

The settings that hold for a whole run: the policies, whether to report along the way, how much
detail to print, and how large a template file may be. `Settings.ofEnvironment` reads them from
environment variables, whose names are those of the settings after `BALSA_` in any letter case.
-/

namespace EditableTemplate

/-- The settings of a run. -/
structure Settings where
  /-- Whether nothing is reported along the way. -/
  quiet : Bool
  /-- Whether offsets and the places of errors are printed. -/
  detailed : Bool
  /-- The policies of templates that have none of their own. -/
  policy : Policy
  /-- The greatest size of a template file, in bytes. -/
  maxTemplateBytes : Int
  deriving DecidableEq, Repr

namespace Settings

/-- The settings unless something else is said. -/
def initial : Settings :=
  { quiet := false
    detailed := false
    policy := ⟨.permissive, .ignore⟩
    maxTemplateBytes := 1024 * 1024 }

/-- The names of the settings. -/
inductive Field
  /-- Whether nothing is reported. -/
  | beQuiet
  /-- Whether details are printed. -/
  | detailedOutput
  /-- The size limit. -/
  | maxTemplateBytes
  /-- The policy on disagreement. -/
  | mergePolicy
  /-- The policy on unknown overrides. -/
  | unknownOverrides
  deriving DecidableEq, Repr

namespace Field

/-- All names, in alphabetical order. -/
def all : List Field :=
  [.beQuiet, .detailedOutput, .maxTemplateBytes, .mergePolicy, .unknownOverrides]

/-- The word for a setting. -/
def name : Field → String
  | .beQuiet => "beQuiet"
  | .detailedOutput => "detailedOutput"
  | .maxTemplateBytes => "maxTemplateBytes"
  | .mergePolicy => "mergePolicy"
  | .unknownOverrides => "unknownOverrides"

/-- The environment variable of a setting, in lower case. -/
def variableName (field : Field) : String :=
  "balsa_" ++ field.name.toLower

end Field

/-- A truth value, in any letter case. -/
def readBool? (text : String) : Option Bool :=
  let word := text.toLower
  if ["true", "1", "yes", "on", "y", "t"].contains word then some true
  else if ["false", "0", "no", "off", "n", "f"].contains word then some false
  else none

/-- The settings after one of them is read from a text. -/
def assign? (settings : Settings) (field : Field) (text : String) : Option Settings :=
  match field with
  | .beQuiet => (readBool? text).map fun value => { settings with quiet := value }
  | .detailedOutput => (readBool? text).map fun value => { settings with detailed := value }
  | .maxTemplateBytes => (WholeNumber.read? text).map fun value =>
      { settings with maxTemplateBytes := value }
  | .mergePolicy => (MergePolicy.ofName? text).map fun value =>
      { settings with policy := { settings.policy with merge := value } }
  | .unknownOverrides => (UnknownPolicy.ofName? text).map fun value =>
      { settings with policy := { settings.policy with unknown := value } }

/-- The value of an environment variable, its name in lower case; of several the last one. -/
def lookup? (environment : List (String × String)) (name : String) : Option String :=
  (environment.reverse.find? fun (key, _) => key.toList.map Text.lower = name.toList).map Prod.snd

/-- The settings after the environment variable of one of them is read, and the names of those that
could not be read. -/
def assignField (environment : List (String × String)) (state : Settings × List Field)
    (field : Field) : Settings × List Field :=
  match lookup? environment field.variableName with
  | none => state
  | some text =>
    match state.1.assign? field text with
    | some settings => (settings, state.2)
    | none => (state.1, state.2 ++ [field])

/-- The settings that the environment gives, or the names of those that it gives wrongly. -/
def ofEnvironment (environment : List (String × String)) : Except (List Field) Settings :=
  let (settings, invalid) := Field.all.foldl (assignField environment) (initial, [])
  if invalid.isEmpty then .ok settings else .error invalid

end Settings

end EditableTemplate

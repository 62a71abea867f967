import EditableTemplate.Text.Quoted

/-!
# Options of the command line

An option either is a flag or takes the text that follows it. Every option has a long name, and
some have a short name of one letter as well. Asking for help or for the version is answered before
anything else is looked at.
-/

namespace EditableTemplate.CommandLine

/-- An option. -/
inductive Switch
  /-- To show the version. -/
  | version
  /-- To report nothing along the way. -/
  | quiet
  /-- To show offsets and the places of errors. -/
  | detailed
  /-- To show help. -/
  | help
  /-- To print the catalogue as JSON. -/
  | json
  /-- To override one variable. -/
  | assign
  /-- To read overrides from a file. -/
  | overrides
  /-- To write the output to a file. -/
  | output
  deriving DecidableEq, Repr

namespace Switch

/-- The name of an option after two hyphens. -/
def longName : Switch → String
  | .version => "--version"
  | .quiet => "--quiet"
  | .detailed => "--detailed"
  | .help => "--help"
  | .json => "--json"
  | .assign => "--set"
  | .overrides => "--overrides"
  | .output => "--output"

/-- The letter of an option after one hyphen. -/
def letter? : Switch → Option Char
  | .version => some 'V'
  | .quiet => some 'q'
  | _ => none

/-- The names of an option as help lists them. -/
def names : Switch → String
  | .version => "-V, --version"
  | .quiet => "--quiet, -q"
  | other => other.longName

/-- Whether an option takes a text. Those that do have no letter. -/
def takesText : Switch → Bool
  | .assign => true
  | .overrides => true
  | .output => true
  | _ => false

/-- What an option does, as help says it. -/
def description : Switch → String
  | .version => "Show the version and exit."
  | .quiet => "Suppress pipeline logging."
  | .detailed => "Show offsets and error locations in output."
  | .help => "Show this message and exit."
  | .json => "Print the catalogue as JSON."
  | .assign => "Override a variable."
  | .overrides => "JSON file of overrides."
  | .output => "Output file."

/-- Whether an option is answered before anything else. -/
def isEager (switch : Switch) : Bool :=
  switch = .help || switch = .version

end Switch

end EditableTemplate.CommandLine

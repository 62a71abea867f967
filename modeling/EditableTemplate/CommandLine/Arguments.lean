import EditableTemplate.CommandLine.Usage
import EditableTemplate.Text.Similarity

/-!
# Reading arguments

The arguments of a command line are options and positional arguments. An option is given by its
long name, perhaps with an equals sign and its text, or by its letter, several letters sharing one
hyphen. An option that takes a text and is not given it there takes the next argument, whatever that
is. Two hyphens alone end the options. Where options and positional arguments are not mixed, the
first positional argument ends the options as well. `Arguments.read` does all of this.
-/

namespace EditableTemplate.CommandLine

/-- An option as it is given, with its text if it takes one. -/
structure Given where
  /-- The option. -/
  switch : Switch
  /-- The text; a flag has none. -/
  text : Option String
  deriving DecidableEq, Repr

/-- What an argument that starts with a hyphen says. -/
inductive OptionArgument
  /-- It gives options. -/
  | given (options : List Given)
  /-- It gives an option whose text is the next argument. -/
  | pending (switch : Switch)
  deriving DecidableEq, Repr

/-- Arguments after reading. -/
structure Arguments where
  /-- The options, in the order in which they are given. -/
  given : List Given
  /-- The other arguments. -/
  positional : List String
  deriving DecidableEq, Repr

/-- The known names that are similar to a name, in alphabetical order. -/
def similarNames (name : String) (known : List String) : List String :=
  (known.filter (Text.isSimilar name)).mergeSort fun first second => first ≤ second

namespace OptionArgument

/-- The name and the text of an argument that may hold both. -/
def split (argument : String) : String × Option String :=
  match Assignments.split? argument.toList with
  | none => (argument, none)
  | some (name, text) => (String.ofList name, some (String.ofList text))

/-- What a long name with or without a text says. -/
def ofSwitch (switch : Switch) (text : Option String) : Except UsageFault OptionArgument :=
  if switch.takesText then
    match text with
    | some text => .ok (.given [⟨switch, some text⟩])
    | none => .ok (.pending switch)
  else
    match text with
    | some _ => .error (.textRefused switch)
    | none => .ok (.given [⟨switch, none⟩])

/-- The option that a letter gives. -/
def ofLetter (switches : List Switch) (letter : Char) : Except UsageFault Given :=
  match switches.find? (·.letter? = some letter) with
  | some switch => .ok ⟨switch, none⟩
  | none => .error (.unknownOption s!"-{letter}" [])

/-- What an argument that starts with a hyphen says. -/
def read (switches : List Switch) (argument : String) : Except UsageFault OptionArgument :=
  let (name, text) := split argument
  match switches.find? (·.longName = name) with
  | some switch => ofSwitch switch text
  | none =>
    match argument.toList with
    | '-' :: '-' :: _ =>
      .error (.unknownOption name (similarNames name (switches.map Switch.longName)))
    | letters => ((letters.drop 1).mapM (ofLetter switches)).map .given

/-- Whether an argument is read as options: it is more than a hyphen and starts with one. -/
def looksLike (argument : String) : Bool :=
  match argument.toList with
  | '-' :: _ :: _ => true
  | _ => false

end OptionArgument

namespace Arguments

/-- Arguments with more options before them. -/
def withOptions (options : List Given) (arguments : Arguments) : Arguments :=
  { arguments with given := options ++ arguments.given }

/-- Arguments with a positional argument before them. -/
def withPositional (argument : String) (arguments : Arguments) : Arguments :=
  { arguments with positional := argument :: arguments.positional }

/-- The options and the positional arguments of a command line. -/
def read (switches : List Switch) (mixed : Bool) : List String → Except UsageFault Arguments
  | [] => .ok ⟨[], []⟩
  | argument :: rest =>
    if argument = "--" then .ok ⟨[], rest⟩
    else if OptionArgument.looksLike argument then
      match OptionArgument.read switches argument, rest with
      | .error fault, _ => .error fault
      | .ok (.given options), rest => (read switches mixed rest).map (withOptions options)
      | .ok (.pending switch), [] => .error (.textMissing switch)
      | .ok (.pending switch), text :: rest =>
        (read switches mixed rest).map (withOptions [⟨switch, some text⟩])
    else if mixed then (read switches mixed rest).map (withPositional argument)
    else .ok ⟨[], argument :: rest⟩

/-- The texts given to an option, in order. -/
def texts (arguments : Arguments) (switch : Switch) : List String :=
  arguments.given.filterMap fun given => if given.switch = switch then given.text else none

/-- The text given to an option last. -/
def text? (arguments : Arguments) (switch : Switch) : Option String :=
  (arguments.texts switch).getLast?

/-- Whether an option is given. -/
def has (arguments : Arguments) (switch : Switch) : Bool :=
  arguments.given.any (·.switch = switch)

/-- The options that are given, each once, in the order in which they are first given. -/
def switches (arguments : Arguments) : List Switch :=
  (arguments.given.map Given.switch).eraseDups

/-- The first option that is answered before anything else. -/
def eager? (arguments : Arguments) : Option Switch :=
  arguments.switches.find? Switch.isEager

end Arguments

end EditableTemplate.CommandLine

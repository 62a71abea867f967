/-!
# Policies

Two questions are left to the user of a template: what happens if placeholders disagree about a
variable (`MergePolicy`), and what happens to an override for a variable that is not declared
(`UnknownPolicy`). Only the exact words for the stricter answers choose them.
-/

namespace EditableTemplate

/-- What happens if placeholders disagree about the label or the default of a variable. -/
inductive MergePolicy
  /-- The first label and the last default are taken. -/
  | permissive
  /-- The template fails. -/
  | strict
  deriving DecidableEq, Repr

/-- What happens to an override for a variable that is not declared. -/
inductive UnknownPolicy
  /-- It is dropped. -/
  | ignore
  /-- The overrides fail. -/
  | error
  deriving DecidableEq, Repr

/-- The policies under which a template is collected and resolved. -/
structure Policy where
  /-- What happens to disagreement. -/
  merge : MergePolicy
  /-- What happens to overrides that name no variable. -/
  unknown : UnknownPolicy
  deriving DecidableEq, Repr

namespace MergePolicy

/-- The word for a policy. -/
def name : MergePolicy → String
  | .permissive => "permissive"
  | .strict => "strict"

/-- The policy that a word names. -/
def ofName? : String → Option MergePolicy
  | "permissive" => some .permissive
  | "strict" => some .strict
  | _ => none

/-- The policy that a word means; a word that names none means the permissive one. -/
def ofWord (word : String) : MergePolicy :=
  (ofName? word).getD .permissive

end MergePolicy

namespace UnknownPolicy

/-- The word for a policy. -/
def name : UnknownPolicy → String
  | .ignore => "ignore"
  | .error => "error"

/-- The policy that a word names. -/
def ofName? : String → Option UnknownPolicy
  | "ignore" => some .ignore
  | "error" => some .error
  | _ => none

/-- The policy that a word means; a word that names none means to ignore. -/
def ofWord (word : String) : UnknownPolicy :=
  (ofName? word).getD .ignore

end UnknownPolicy

namespace Policy

/-- The policy of some words, an empty one leaving the given policy as it is. -/
def override (policy : Policy) (merge unknown : String) : Policy :=
  { merge := if merge = "" then policy.merge else MergePolicy.ofWord merge
    unknown := if unknown = "" then policy.unknown else UnknownPolicy.ofWord unknown }

end Policy

end EditableTemplate

import EditableTemplate.Proofs.Resolution.Solution
import EditableTemplate.Proofs.Spelling

/-!
# Values that can be written

A whole number with too many digits has no text. A template can not bring one in, since what it
spells is short enough to be read: every literal default that it spells can be written
(`Default.Spellable.writable`), and no step from there to the values of the variables makes a number
longer. If the overrides can be written, so can all values (`Resolution.HasValue.writable`).
-/

namespace EditableTemplate

/-- A value that can be written can be under another kind. -/
theorem Value.writable_of_retag? {value result : Value} {declared : Kind}
    (retagged : value.retag? declared = some result) (writable : value.writable = true) :
    result.writable = true := by
  cases result with
  | number amount =>
      obtain rfl := kind_of_retag? retagged
      cases value with
      | number _ =>
          cases retagged
          exact writable
      | string text => cases retagged
      | boolean truth => cases retagged
      | color text => cases retagged
  | string text => rfl
  | boolean truth => rfl
  | color text => rfl

/-- A value that can be written can be after a check. -/
theorem Value.writable_of_check {name : String} {value result : Value} {declared : Kind}
    (checked : value.check name declared = .ok result) (writable : value.writable = true) :
    result.writable = true :=
  writable_of_retag? (check_eq_ok_iff.mp checked) writable

theorem Datum.writable_of_wrap {datum : Datum} {value : Value} (wrapped : datum.wrap = .ok value)
    (writable : datum.writable = true) : value.writable = true := by
  cases datum with
  | typed value =>
      cases wrapped
      exact writable
  | boolean truth =>
      cases wrapped
      rfl
  | integer number =>
      cases wrapped
      exact writable
  | real number =>
      cases number with
      | finite number =>
          cases wrapped
          rfl
      | infinite negative => cases wrapped
      | nan => cases wrapped
  | text content =>
      cases wrapped
      rfl
  | none => cases wrapped
  | list items => cases wrapped
  | dict entries => cases wrapped

/-- A datum that can be written gives such a value. -/
theorem Datum.writable_of_check {name : String} {datum : Datum} {declared : Kind} {result : Value}
    (checked : datum.check name declared = .ok result) (writable : datum.writable = true) :
    result.writable = true := by
  unfold Datum.check at checked
  split at checked
  · rename_i value wrapped
    exact Value.writable_of_check checked (writable_of_wrap wrapped writable)
  · cases checked

/-! ## Defaults -/

/-- A literal default can be written. -/
def Default.Writable (default : Default) : Prop :=
  ∀ value, default = .literal value → value.writable = true

/-- A spellable default can be written. -/
theorem Default.Spellable.writable {default : Default} (spellable : default.Spellable) :
    default.Writable := by
  rintro value rfl
  cases spellable with
  | literal spellable =>
      cases spellable with
      | string text => rfl
      | number writable => exact writable
      | boolean truth => rfl
      | color text valid => rfl

/-! ## Values of variables -/

/-- The value of a variable can be written, if the entries can be spelled and the overrides can be
written. -/
theorem Resolution.HasValue.writable {catalogue : Catalogue} {overrides : Bindings Datum}
    (spellable : ∀ entry ∈ catalogue, entry.Spellable)
    (supplied : ∀ name datum, overrides.find? name = some datum → datum.writable = true)
    {name : String} {value : Value} (holds : HasValue catalogue overrides name value) :
    value.writable = true := by
  refine holds.invariant (fun value => value.writable = true) ?_ ?_ ?_
  · intro name entry given described default
    have member := Catalogue.mem_of_entryOf? described
    exact ((spellable entry member).default _ default).writable given rfl
  · exact fun name datum _ _ overridden fits =>
      Datum.writable_of_check fits (supplied name datum overridden)
  · exact fun _ _ _ _ writable fits => Value.writable_of_check fits writable

end EditableTemplate

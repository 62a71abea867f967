import EditableTemplate.Override.Parameters
import EditableTemplate.Proofs.Except
import EditableTemplate.Proofs.Resolution.Replacement

/-!
# Typed overrides and plain ones

A typed override is checked when it is made and a plain one when it is used. Where the kind that was
stated last for a name is the one of its variable, both checks come to the same
(`Parameters.check_of_value`), so the values, or the failure, are those of the plain data that were
given last (`Parameters.resolve_build`). A text is refused as a color when it is given exactly if
some catalogue refuses the plain text when it is used, and then every catalogue does that has a
color of the name, unless resolving fails there whatever is given (`Parameters.refusesColor_iff`).
-/

namespace EditableTemplate

/-- Any layers of providers come to the source they provide. -/
theorem OverrideSource.normalize_providers (layers : Nat) (source : OverrideSource) :
    (OverrideSource.provider^[layers] source).normalize = source.normalize := by
  induction layers generalizing source with
  | zero => rfl
  | succ layers ih => exact ih (.provider source)

namespace Parameters

variable {settings : List (Kind × String × Datum)} {parameters : Parameters} {kind : Kind}
  {name : String} {datum : Datum} {value : Value} {catalogue : Catalogue}

/-! ## One setting -/

/-- Any other kind than that of colors is the natural one of what it is stated for. -/
theorem check_of_tag (tagged : datum.tag kind = .ok value) (other : kind ≠ .color)
    (name : String) : value.kind = kind ∧ datum.check name kind = .ok value := by
  unfold Datum.tag at tagged
  split at tagged
  case h_2 => exact (other rfl).elim
  all_goals cases tagged
  all_goals exact ⟨rfl, rfl⟩

/-- The check of a plain datum gives the value that was made of it for the same kind. -/
theorem check_of_value (made : Parameters.value kind datum = .ok value) (name : String) :
    value.kind = kind ∧ datum.check name kind = .ok value := by
  unfold Parameters.value at made
  split at made
  · rename_i text
    split at made
    · rename_i color found
      cases made
      refine ⟨rfl, Value.check_eq_ok_iff.mpr ?_⟩
      rw [Value.retag?, found]
      rfl
    · cases made
  · cases made
  · rename_i other _
    exact check_of_tag (Except.mapError_eq_ok.mp made) other name

/-- A text is refused as a color when it is given if and only if it is refused when it is used. -/
theorem exists_set_color_error_iff {text : CodePoints} :
    (∃ fault, parameters.set .color name (.text text) = .error fault) ↔
      ∃ failure, (Datum.text text).check name .color = .error failure := by
  simp only [Parameters.set, Except.map_eq_error, Parameters.value, Datum.check, Datum.wrap,
    Value.check, Value.retag?]
  cases Color.ofText? text with
  | none => simp
  | some color => simp

/-! ## Rows of settings -/

/-- The data that names are given by a row of settings, the last one for each. -/
def plain (settings : List (Kind × String × Datum)) : Bindings Datum :=
  Bindings.ofList (settings.map fun setting => (setting.2.1, setting.2.2))

/-- The kinds that a row of settings states for names, the last one for each. -/
def stated (settings : List (Kind × String × Datum)) : Bindings Kind :=
  Bindings.ofList (settings.map fun setting => (setting.2.1, setting.1))

/-- The kind that is stated last for a variable is its kind. -/
def Suits (catalogue : Catalogue) (settings : List (Kind × String × Datum)) : Prop :=
  ∀ name entry kind, catalogue.entryOf? name = some entry →
    (stated settings).find? name = some kind → kind = entry.kind

/-- Typed overrides hold what was made of the data that names were given last. -/
structure Mirrors (values : Bindings Value) (kinds : Bindings Kind) (data : Bindings Datum) :
    Prop where
  names : values.names = data.names
  made : ∀ name value, values.find? name = some value → ∃ kind datum,
    kinds.find? name = some kind ∧ data.find? name = some datum ∧
      Parameters.value kind datum = .ok value

/-- One more setting keeps typed overrides and plain ones together. -/
theorem Mirrors.put {values : Bindings Value} {kinds : Bindings Kind} {data : Bindings Datum}
    (mirrors : Mirrors values kinds data) (made : Parameters.value kind datum = .ok value)
    (name : String) :
    Mirrors (values.put name value) (kinds.put name kind) (data.put name datum) where
  names := by rw [Bindings.names_put, Bindings.names_put, mirrors.names]
  made := by
    intro other result found
    rw [Bindings.find?_put] at found
    rw [Bindings.find?_put, Bindings.find?_put]
    split at found
    · cases found
      exact ⟨kind, datum, by simp [*], by simp [*], made⟩
    · obtain ⟨kind', datum', stated, given, made'⟩ := mirrors.made other result found
      exact ⟨kind', datum', by simp [*], by simp [*], made'⟩

/-- Every setting keeps typed overrides and plain ones together, and so does a row of settings. -/
theorem mirrors_foldlM {start : Parameters} {kinds : Bindings Kind} {data : Bindings Datum}
    (mirrors : Mirrors start.values kinds data)
    (built : settings.foldlM (fun parameters setting =>
      parameters.set setting.1 setting.2.1 setting.2.2) start = .ok parameters) :
    Mirrors parameters.values
      (settings.foldl (fun kinds setting => kinds.put setting.2.1 setting.1) kinds)
      (settings.foldl (fun data setting => data.put setting.2.1 setting.2.2) data) := by
  induction settings generalizing start kinds data with
  | nil =>
      cases built
      exact mirrors
  | cons setting rest ih =>
      obtain ⟨next, made, onward⟩ := Except.bind_eq_ok.mp built
      obtain ⟨value, stands, rfl⟩ := Except.map_eq_ok.mp made
      exact ih (mirrors.put stands setting.2.1) onward

/-- What settings build holds what was made of the data given last. -/
theorem mirrors_build (built : Parameters.build settings = .ok parameters) :
    Mirrors parameters.values (stated settings) (plain settings) := by
  have start : Mirrors Parameters.empty.values Bindings.empty Bindings.empty := ⟨rfl, nofun⟩
  have mirrors := mirrors_foldlM start built
  simpa only [stated, plain, Bindings.ofList, List.foldl_map] using mirrors

/-- One more setting is made after the others. -/
theorem build_concat (built : Parameters.build settings = .ok parameters) (kind : Kind)
    (name : String) (datum : Datum) :
    Parameters.build (settings ++ [(kind, name, datum)]) = parameters.set kind name datum := by
  unfold Parameters.build at built ⊢
  rw [List.foldlM_append, built]
  change (parameters.set kind name datum >>= pure) = _
  exact bind_pure _

theorem plain_concat (settings : List (Kind × String × Datum)) (kind : Kind) (name : String)
    (datum : Datum) :
    plain (settings ++ [(kind, name, datum)]) = (plain settings).put name datum := by
  simp [plain, Bindings.ofList]

/-- Both routes come to the same checks, if the kinds are those of the variables. -/
theorem checksAlike_of_build (built : Parameters.build settings = .ok parameters)
    (suits : Suits catalogue settings) (name : String) :
    Resolution.ChecksAlike catalogue (parameters.values.map .typed) (plain settings) name := by
  intro entry described
  have mirrors := mirrors_build built
  rw [Bindings.find?_map]
  cases found : parameters.values.find? name with
  | none =>
      have absent : (plain settings).find? name = none := by
        rw [Bindings.find?_eq_none_iff, ← mirrors.names]
        exact Bindings.find?_eq_none_iff.mp found
      rw [absent]
      rfl
  | some value =>
      obtain ⟨kind, datum, stated, given, made⟩ := mirrors.made name value found
      obtain ⟨same, checked⟩ := check_of_value made name
      have suited := suits name entry kind described stated
      have typed : (Datum.typed value).check name kind = .ok value := by
        rw [← same]
        exact value.check_self name
      rw [given, Option.map_some, Option.map_some, Option.map_some, ← suited, typed, checked]

/-- The name is that of a variable of the kind of colors. -/
def IsColor (catalogue : Catalogue) (name : String) : Prop :=
  ∃ entry, catalogue.entryOf? name = some entry ∧ entry.kind = .color

/-- If a text is given to a variable of the kind of colors after all other plain data, resolving
them finds that the variable has no color. -/
def RefusesColor (policy : UnknownPolicy) (catalogue : Catalogue)
    (settings : List (Kind × String × Datum)) (name : String) (text : CodePoints) : Prop :=
  IsColor catalogue name ∧ ∃ expected found shown, Resolution.resolve policy catalogue
    (.data (plain (settings ++ [(.color, name, .text text)]))) =
      .error (.mismatch name expected found shown)

/-- A text is refused when the data are resolved exactly if it is refused when it is given, unless
resolving fails whatever is given. -/
theorem refusesColor_iff (built : Parameters.build settings = .ok parameters)
    {policy : UnknownPolicy} {text : CodePoints} :
    RefusesColor policy catalogue settings name text ↔ IsColor catalogue name ∧
      (∃ fault, Parameters.build (settings ++ [(.color, name, .text text)]) = .error fault) ∧
      ¬Resolution.Blocked policy catalogue (plain settings) name := by
  refine and_congr_right fun isColor => ?_
  obtain ⟨entry, described, color⟩ := isColor
  rw [build_concat built, plain_concat, exists_set_color_error_iff, ← color]
  constructor
  · rintro ⟨expected, found, shown, failed⟩
    refine ⟨⟨_, Resolution.check_of_resolve_mismatch described failed⟩, ?_⟩
    -- a color in place of the text would not be refused
    rintro ⟨failure, blocked⟩
    cases failed.symm.trans (blocked (.text text))
    have fits : (Datum.typed (.color [])).check name entry.kind = .ok (.color []) := by
      rw [color]
      exact (Value.color []).check_self name
    cases fits.symm.trans (Resolution.check_of_resolve_mismatch described (blocked _))
  · rintro ⟨⟨failure, refused⟩, unblocked⟩
    have reached := (Resolution.blocked_or_refused policy (plain settings) described).resolve_left
      unblocked
    obtain ⟨found, shown, rfl⟩ := Datum.check_error refused
    exact ⟨_, found, shown, reached _ _ refused⟩

/-- A catalogue of one color without a default. -/
def oneColor (name : String) : Catalogue :=
  [⟨name, .color, none, none, 0⟩]

theorem eq_of_entryOf?_oneColor {other : String} {entry : Entry}
    (described : (oneColor name).entryOf? other = some entry) :
    entry = ⟨name, .color, none, none, 0⟩ :=
  List.mem_singleton.mp (Catalogue.mem_of_entryOf? described)

/-- Nothing but its own override is the matter with one color. -/
theorem not_blocked_oneColor (name : String) (overrides : Bindings Datum) :
    ¬Resolution.Blocked .ignore (oneColor name) overrides name := by
  rintro ⟨failure, blocked⟩
  have given : (overrides.put name (.typed (.color []))).find? name =
      some (.typed (.color [])) := by
    rw [Bindings.find?_put, if_pos rfl]
  have acyclic : (oneColor name).Acyclic := by
    intro other circle
    obtain ⟨_, ⟨⟨entry, described, refers⟩, _⟩, _⟩ := Relation.TransGen.head'_iff.mp circle
    rw [eq_of_entryOf?_oneColor described] at refers
    cases refers
  have fitting : Resolution.OverridesFit (oneColor name)
      (overrides.put name (.typed (.color []))) := by
    intro other entry datum described overridden
    have same := Catalogue.name_of_entryOf? described
    rw [eq_of_entryOf?_oneColor described] at same ⊢
    subst same
    cases given.symm.trans overridden
    exact ⟨_, (Value.color []).check_self name⟩
  have defaults : Resolution.DefaultsFit (oneColor name)
      (overrides.put name (.typed (.color []))) := by
    intro other entry described free
    have same := Catalogue.name_of_entryOf? described
    rw [eq_of_entryOf?_oneColor described] at same
    subst same
    cases given.symm.trans free
  obtain ⟨values, resolved⟩ :=
    Resolution.resolveWith_ignore_isOk_iff.mpr ⟨acyclic, fitting, defaults⟩
  cases resolved.symm.trans (blocked (.typed (.color [])))

/-- **Typed overrides and plain ones.** Of a row of settings that all succeed, the typed overrides
come to the values or to the failure that the plain data come to, behind any number of providers,
if the kind that is stated last for each variable is its kind. One more text is refused as a color
exactly if some catalogue refuses the plain text for a color, and then every catalogue does that has
a color of the name, unless resolving fails whatever is given for it. -/
theorem resolve_build (built : Parameters.build settings = .ok parameters) :
    (∀ policy catalogue, Suits catalogue settings → ∀ layers,
      Resolution.resolve policy catalogue
          (OverrideSource.provider^[layers] (.parameters parameters)) =
        Resolution.resolve policy catalogue (.data (plain settings))) ∧
    (∀ name text,
      (∃ fault, Parameters.build (settings ++ [(.color, name, .text text)]) = .error fault) ↔
        ∃ policy catalogue, RefusesColor policy catalogue settings name text) ∧
    ∀ policy catalogue name text, RefusesColor policy catalogue settings name text ↔
      IsColor catalogue name ∧
      (∃ fault, Parameters.build (settings ++ [(.color, name, .text text)]) = .error fault) ∧
      ¬Resolution.Blocked policy catalogue (plain settings) name := by
  refine ⟨?_, ?_, fun _ _ _ _ => refusesColor_iff built⟩
  · intro policy catalogue suits layers
    have alike := checksAlike_of_build built suits
    have names : (parameters.values.map Datum.typed).names = (plain settings).names := by
      rw [Bindings.names_map, (mirrors_build built).names]
    rw [Resolution.resolve, OverrideSource.normalize_providers]
    exact Resolution.resolveWith_eq_of_checksAlike names alike
  · intro name text
    constructor
    · intro refused
      have isColor : IsColor (oneColor name) name := ⟨⟨name, .color, none, none, 0⟩, ?_, rfl⟩
      · exact ⟨.ignore, oneColor name,
          (refusesColor_iff built).mpr ⟨isColor, refused, not_blocked_oneColor name _⟩⟩
      · simp [Catalogue.entryOf?, oneColor]
    · rintro ⟨policy, catalogue, refused⟩
      exact ((refusesColor_iff built).mp refused).2.1

/-- A color, and a string that takes its value. -/
def shadeCatalogue : Catalogue :=
  [⟨"shade", .color, none, none, 0⟩, ⟨"heading", .string, none, some (.reference "shade"), 0⟩]

/-- A name that is set twice, by different kinds, and one that no variable has. -/
def shadeSettings : List (Kind × String × Datum) :=
  [(.number, "shade", .integer 5), (.boolean, "draft", .boolean true),
    (.color, "shade", .text " #FFF ")]

/-- The typed overrides that come of it. -/
def shadeParameters : Parameters :=
  ⟨(Bindings.empty.put "shade" (.color "#FFF")).put "draft" (.boolean true)⟩

/-- The color is used behind two providers as its text would be, and a text that is none would have
been refused there as it is here. -/
theorem resolve_shadeSettings :
    Parameters.build shadeSettings = .ok shadeParameters ∧
      Suits shadeCatalogue shadeSettings ∧
      Resolution.resolve .error shadeCatalogue
          (.provider (.provider (.parameters shadeParameters))) =
        Resolution.resolve .error shadeCatalogue (.data (plain shadeSettings)) ∧
      ∃ expected found shown, Resolution.resolve .ignore shadeCatalogue
          (.data (plain (shadeSettings ++ [(.color, "shade", .text "blurple")]))) =
        .error (.mismatch "shade" expected found shown) := by
  have built : Parameters.build shadeSettings = .ok shadeParameters := by rfl
  have suits : Suits shadeCatalogue shadeSettings := by
    intro name entry kind described last
    rcases List.mem_cons.mp (Catalogue.mem_of_entryOf? described) with same | same
    · subst same
      obtain rfl : "shade" = name := Catalogue.name_of_entryOf? described
      exact (Option.some.inj last).symm
    · obtain rfl := List.mem_singleton.mp same
      obtain rfl : "heading" = name := Catalogue.name_of_entryOf? described
      cases last
  have unblocked : ¬Resolution.Blocked .ignore shadeCatalogue (plain shadeSettings) "shade" := by
    rintro ⟨failure, blocked⟩
    have resolved : Resolution.resolve .ignore shadeCatalogue
        (.data ((plain shadeSettings).put "shade" (.text "red"))) =
          .ok ((Bindings.empty.put "shade" (.color "red")).put "heading" (.string "red")) := by
      with_unfolding_all rfl
    cases resolved.symm.trans (blocked _)
  obtain ⟨alike, _, refused⟩ := resolve_build built
  have refuses := (refused .ignore shadeCatalogue "shade" "blurple").mpr
    ⟨⟨_, rfl, rfl⟩, ⟨_, rfl⟩, unblocked⟩
  exact ⟨built, suits, alike .error shadeCatalogue suits 2, refuses.2⟩

end Parameters

end EditableTemplate

import EditableTemplate.Proofs.Catalogue.Soundness
import EditableTemplate.Proofs.Resolution.Solution
import EditableTemplate.Rendering

/-!
# How far an override reaches

A variable that is not overridden takes its value from the one that its default refers to. Along
such steps an override is felt, and nowhere else: under two rows of overrides that differ in one
name only, every variable from which no chain of these steps leads to that name has the same value
(`Resolution.find?_eq_of_not_reaches`). An override in between cuts a chain. So the two outputs of a
document differ only at the placeholders of variables that reach the name
(`Document.overrides_reach_along_defaults`).
-/

namespace EditableTemplate

open Relation

/-! ## Values -/

namespace Resolution

variable {catalogue : Catalogue} {overrides overrides' : Bindings Datum} {policy : UnknownPolicy}
  {name changed : String}

/-- The value of a variable is that of another one: it is not overridden, and its default refers to
the other. -/
def TakesFrom (catalogue : Catalogue) (overrides : Bindings Datum) (name target : String) : Prop :=
  overrides.find? name = none ∧ catalogue.RefersTo name target

/-- A chain of steps, perhaps of none, leads from a variable to another one. -/
def Reaches (catalogue : Catalogue) (overrides : Bindings Datum) : String → String → Prop :=
  ReflTransGen (TakesFrom catalogue overrides)

/-- Every override but that of one name is the same. -/
def AgreeExcept (changed : String) (overrides overrides' : Bindings Datum) : Prop :=
  ∀ name, name ≠ changed → overrides.find? name = overrides'.find? name

theorem AgreeExcept.symm (agree : AgreeExcept changed overrides overrides') :
    AgreeExcept changed overrides' overrides :=
  fun name other => (agree name other).symm

/-- Whether a chain leads to a name does not depend on the override of that name. -/
theorem Reaches.of_agree (agree : AgreeExcept changed overrides overrides')
    (reaches : Reaches catalogue overrides name changed) :
    Reaches catalogue overrides' name changed := by
  induction reaches using ReflTransGen.head_induction_on with
  | refl => exact .refl
  | @head name next step _ ih =>
      -- where the chain meets the name for the first time it may end
      by_cases same : name = changed
      · rw [same]
        exact .refl
      · obtain ⟨free, refers⟩ := step
        rw [agree name same] at free
        exact .head ⟨free, refers⟩ ih

/-- The value of a variable that does not reach a name does not depend on the override of it. -/
theorem HasValue.of_agree (agree : AgreeExcept changed overrides overrides') {value : Value}
    (apart : ¬Reaches catalogue overrides name changed)
    (holds : HasValue catalogue overrides name value) :
    HasValue catalogue overrides' name value := by
  have other : ∀ {name}, ¬Reaches catalogue overrides name changed → name ≠ changed := by
    rintro name apart rfl
    exact apart .refl
  induction holds with
  | override described overridden fits =>
      rw [agree _ (other apart)] at overridden
      exact .override described overridden fits
  | literal described free default fits =>
      rw [agree _ (other apart)] at free
      exact .literal described free default fits
  | reference described free default known fits ih =>
      have refers : catalogue.RefersTo _ _ :=
        ⟨⟨_, described, default⟩, Catalogue.exists_entryOf?_iff.mp known.exists_entry⟩
      have onward := ih fun reaches => apart (.head ⟨free, refers⟩ reaches)
      rw [agree _ (other apart)] at free
      exact .reference described free default onward fits

/-- An override cuts every chain that passes through its variable. -/
theorem not_reaches_of_overridden {datum : Datum} (overridden : overrides.find? name = some datum)
    (other : name ≠ changed) : ¬Reaches catalogue overrides name changed := by
  intro reaches
  rcases reaches.cases_head with same | ⟨_, step, _⟩
  · exact other same
  · cases overridden.symm.trans step.1

/-- A variable from which the overridden one is not reached keeps its value. -/
theorem find?_eq_of_not_reaches {source source' : OverrideSource}
    (normal : source.normalize = .ok overrides) (normal' : source'.normalize = .ok overrides')
    (agree : AgreeExcept changed overrides overrides') {values values' : Bindings Value}
    (resolved : resolve policy catalogue source = .ok values)
    (resolved' : resolve policy catalogue source' = .ok values')
    (apart : ¬Reaches catalogue overrides name changed) :
    values.find? name = values'.find? name := by
  rw [resolve, normal] at resolved
  rw [resolve, normal'] at resolved'
  have apart' : ¬Reaches catalogue overrides' name changed :=
    fun reaches => apart (reaches.of_agree agree.symm)
  apply Option.ext
  intro value
  rw [find?_eq_some_iff_hasValue resolved, find?_eq_some_iff_hasValue resolved']
  exact ⟨.of_agree agree apart, .of_agree agree.symm apart'⟩

end Resolution

/-! ## Output -/

/-- The variable whose value a node emits. -/
def Node.emitted? : Node → Option String
  | .text _ _ => none
  | .placeholder expression _ _ => expression.emitted?

/-- Only the value of the variable that it emits matters to a node. -/
theorem Node.render_congr {values values' : Bindings Value} {node : Node}
    (same : ∀ name, node.emitted? = some name → values.find? name = values'.find? name) :
    node.render values = node.render values' := by
  cases node with
  | text content offset => rfl
  | placeholder expression offset stop =>
      unfold emitted? at same
      simp only [render]
      cases emitted : expression.emitted? with
      | none => rfl
      | some name => simp only [Bindings.renderName, same name emitted]

namespace Document

variable {document : Document} {catalogue : Catalogue} {policy : Policy}

/-- The output is that of the nodes, one after another. -/
theorem render_eq_ok {values : Bindings Value} {output : CodePoints} :
    document.render values = .ok output ↔
      ∃ parts, document.nodes.mapM (Node.render values) = .ok parts ∧ output = parts.flatten := by
  rw [render, Except.bind_eq_ok]
  constructor
  · rintro ⟨parts, ran, whole⟩
    exact ⟨parts, ran, (Except.ok.inj whole).symm⟩
  · rintro ⟨parts, ran, rfl⟩
    exact ⟨parts, ran, rfl⟩

/-- Rendering with overrides is rendering by the values they resolve to. -/
theorem renderWith_of_resolve {source : OverrideSource} {values : Bindings Value}
    (collected : Catalogue.collect policy.merge document = .ok catalogue)
    (resolved : Resolution.resolve policy.unknown catalogue source = .ok values) :
    document.renderWith policy source = document.render values := by
  have whole : document.resolve policy source = .ok values :=
    Except.bind_eq_ok.mpr ⟨catalogue, collected, resolved⟩
  rw [renderWith, whole]

/-- **How far an override reaches.** Let a document be collected and resolved under two rows of
overrides that differ at one name only. Every variable from which no chain of defaults leads to the
name, through variables that are not overridden, has the same value both times. Where there is an
output both times, only the nodes that emit the variables with such a chain may differ in it. Which
ones these are does not depend on the override that differs. -/
theorem overrides_reach_along_defaults (policy : Policy) {source source' : OverrideSource}
    {overrides overrides' : Bindings Datum} {changed : String} {values values' : Bindings Value}
    (collected : Catalogue.collect policy.merge document = .ok catalogue)
    (normal : source.normalize = .ok overrides) (normal' : source'.normalize = .ok overrides')
    (agree : Resolution.AgreeExcept changed overrides overrides')
    (resolved : Resolution.resolve policy.unknown catalogue source = .ok values)
    (resolved' : Resolution.resolve policy.unknown catalogue source' = .ok values') :
    (∀ name, Resolution.Reaches catalogue overrides name changed ↔
      Resolution.Reaches catalogue overrides' name changed) ∧
    (∀ entry ∈ catalogue, ¬Resolution.Reaches catalogue overrides entry.name changed →
      ∃ value, values.find? entry.name = some value ∧ values'.find? entry.name = some value) ∧
    ∀ output output', document.renderWith policy source = .ok output →
      document.renderWith policy source' = .ok output' →
      ∃ parts parts', output = parts.flatten ∧ output' = parts'.flatten ∧
        List.Forall₂ (fun node part => node.render values = .ok part) document.nodes parts ∧
        List.Forall₂ (fun node part => node.render values' = .ok part) document.nodes parts' ∧
        ∀ (index : Nat) (node : Node), document.nodes[index]? = some node →
          (∀ name, node.emitted? = some name →
            ¬Resolution.Reaches catalogue overrides name changed) →
          ∃ part, parts[index]? = some part ∧ parts'[index]? = some part := by
  have apart : ∀ name, ¬Resolution.Reaches catalogue overrides name changed →
      values.find? name = values'.find? name :=
    fun _ => Resolution.find?_eq_of_not_reaches normal normal' agree resolved resolved'
  refine ⟨fun _ => ⟨.of_agree agree, .of_agree agree.symm⟩, ?_, ?_⟩
  · intro entry member unreached
    rw [Resolution.resolve, normal] at resolved
    obtain ⟨value, found⟩ := Bindings.mem_names_iff.mp
      ((Resolution.mem_names_resolveWith_iff resolved).mpr ⟨entry, member, rfl⟩)
    refine ⟨value, found, ?_⟩
    rw [← apart entry.name unreached]
    exact found
  · intro output output' rendered rendered'
    rw [renderWith_of_resolve collected resolved, render_eq_ok] at rendered
    rw [renderWith_of_resolve collected resolved', render_eq_ok] at rendered'
    obtain ⟨parts, ran, rfl⟩ := rendered
    obtain ⟨parts', ran', rfl⟩ := rendered'
    refine ⟨parts, parts', rfl, rfl, Except.mapM_eq_ok.mp ran, Except.mapM_eq_ok.mp ran', ?_⟩
    intro index node listed untouched
    obtain ⟨part, placed, gives⟩ := Except.getElem?_of_mapM ran listed
    obtain ⟨part', placed', gives'⟩ := Except.getElem?_of_mapM ran' listed
    have same := Node.render_congr fun name emitted => apart name (untouched name emitted)
    rw [gives, gives'] at same
    obtain rfl := Except.ok.inj same
    exact ⟨part, placed, placed'⟩

/-- A document with a chain of defaults: the footer takes the title, which takes the base. -/
def chainDocument : Document :=
  ⟨"", [.placeholder (.editable "footer" none none (some (.reference "title"))) 0 20,
    .placeholder (.editable "title" none none (some (.reference "base"))) 20 40,
    .placeholder (.editable "base" none none (some (.literal (.string "x")))) 40 60]⟩

/-- The catalogue of that document. -/
def chainCatalogue : Catalogue :=
  [⟨"footer", .string, none, some (.reference "title"), 0⟩,
    ⟨"title", .string, none, some (.reference "base"), 20⟩,
    ⟨"base", .string, none, some (.literal (.string "x")), 40⟩]

/-- An override of the footer alone. -/
def footerOverride : Bindings Datum :=
  Bindings.ofList [("footer", .text "f")]

/-- An override of the base as well. -/
def footerAndBaseOverride : Bindings Datum :=
  Bindings.ofList [("footer", .text "f"), ("base", .text "y")]

/-- The values under either of them, given that of the base. -/
def chainValues (base : CodePoints) : Bindings Value :=
  Bindings.ofList [("base", .string base), ("title", .string base), ("footer", .string "f")]

/-- The override of the footer cuts it off from the base; the title takes the new value. -/
theorem footer_apart_from_base :
    Catalogue.collect .permissive chainDocument = .ok chainCatalogue ∧
      Resolution.AgreeExcept "base" footerOverride footerAndBaseOverride ∧
      Resolution.resolve .ignore chainCatalogue (.data footerOverride) = .ok (chainValues "x") ∧
      Resolution.resolve .ignore chainCatalogue (.data footerAndBaseOverride) =
        .ok (chainValues "y") ∧
      ∃ value, (chainValues "x").find? "footer" = some value ∧
        (chainValues "y").find? "footer" = some value := by
  have collected : Catalogue.collect .permissive chainDocument = .ok chainCatalogue := by
    with_unfolding_all rfl
  have agree : Resolution.AgreeExcept "base" footerOverride footerAndBaseOverride := by
    intro name other
    have apart : "base" ≠ name := fun same => other same.symm
    rw [footerOverride, footerAndBaseOverride, Bindings.find?_ofList, Bindings.find?_ofList]
    exact (if_neg apart).symm
  have resolved : Resolution.resolve .ignore chainCatalogue (.data footerOverride) =
      .ok (chainValues "x") := by with_unfolding_all rfl
  have resolved' : Resolution.resolve .ignore chainCatalogue (.data footerAndBaseOverride) =
      .ok (chainValues "y") := by with_unfolding_all rfl
  have overridden : footerOverride.find? "footer" = some (.text "f") := rfl
  have cut : ¬Resolution.Reaches chainCatalogue footerOverride "footer" "base" :=
    Resolution.not_reaches_of_overridden overridden (by decide)
  refine ⟨collected, agree, resolved, resolved', ?_⟩
  exact (overrides_reach_along_defaults ⟨.permissive, .ignore⟩ collected rfl rfl agree resolved
    resolved').2.1 ⟨"footer", .string, none, some (.reference "title"), 0⟩
    List.mem_cons_self cut

end Document

end EditableTemplate

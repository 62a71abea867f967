import EditableTemplate.Proofs.Catalogue.Conflict
import EditableTemplate.Proofs.Catalogue.Merge
import EditableTemplate.Proofs.Dependency.Path
import Mathlib.Algebra.Order.Ring.Nat
import Mathlib.Data.List.Nodup
import Mathlib.Data.Nat.SuccPred

/-!
# The circle that is reported

A variable has one default at most that counts, so there is one way to follow the defaults from a
variable (`Document.follow`). It ends, or it comes back to a variable that it has passed and goes
round from there on. The failure of a document with a circle does not depend on how the dependencies
are walked: it lists the variables that the way from the first variable without an end goes round
(`Document.FirstCircle`), and not those that only lead there
(`Catalogue.collect_reports_first_circle`).
-/

namespace EditableTemplate

open Relation

namespace Document

variable {document : Document} {name root target : String} {members : List String}

/-- The variable that the default of a variable refers to. -/
def target? (document : Document) (name : String) : Option String :=
  (document.default? name).bind Default.target?

/-- The variable to which a count of references between defaults leads from a variable. -/
def follow (document : Document) (name : String) : Nat → Option String
  | 0 => some name
  | count + 1 => (document.follow name count).bind document.target?

/-- The defaults can be followed from a variable for ever. -/
def Endless (document : Document) (name : String) : Prop :=
  ∀ count, document.follow name count ≠ none

/-- The first time that following the defaults comes back to a variable: after `again` references it
is at the variable where it was after `first`. -/
structure Repeats (document : Document) (name : String) (first again : Nat) : Prop where
  earlier : first < again
  back : document.follow name again = document.follow name first
  distinct : ∀ i j, i < j → j < again → document.follow name i ≠ document.follow name j

/-- The defaults are followed from the first variable from which this never ends, up to the first
variable that repeats. The members are the variables from that one on. -/
def FirstCircle (document : Document) (members : List String) : Prop :=
  ∃ before root after first again, document.introduced = before ++ root :: after ∧
    (∀ name ∈ before, ¬document.Endless name) ∧ document.Endless root ∧
    document.Repeats root first again ∧
    members.map some = (List.range' first (again - first)).map (document.follow root)

theorem target?_eq_some_iff :
    document.target? name = some target ↔ document.RefersTo name target := by
  rw [target?, RefersTo, Option.bind_eq_some_iff]
  constructor
  · rintro ⟨default, given, targets⟩
    cases default with
    | literal value => cases targets
    | reference other =>
        obtain rfl := Option.some.inj targets
        exact given
  · intro given
    exact ⟨_, given, rfl⟩

/-- Following the defaults in two stretches is following them in one. -/
theorem follow_add (document : Document) (name : String) (count more : Nat) :
    document.follow name (count + more) =
      (document.follow name count).bind fun other => document.follow other more := by
  induction more with
  | zero => cases document.follow name count <;> rfl
  | succ more ih => rw [← Nat.add_assoc, follow, ih, Option.bind_assoc]; rfl

theorem follow_one_add (document : Document) (name : String) (count : Nat) :
    document.follow name (count + 1) =
      (document.target? name).bind fun other => document.follow other count := by
  rw [Nat.add_comm, follow_add]
  rfl

/-- A chain of references is what following the defaults passes. -/
theorem follow_of_isChain {names : List String} (chain : names.IsChain document.RefersTo)
    (starts : names.head? = some root) {index : Nat} (inside : index < names.length) :
    document.follow root index = names[index]? := by
  induction names generalizing root index with
  | nil => cases starts
  | cons first rest ih =>
      obtain rfl := Option.some.inj starts
      cases index with
      | zero => rfl
      | succ index =>
          rw [List.length_cons, Nat.succ_lt_succ_iff] at inside
          obtain ⟨second, rest, rfl⟩ := List.exists_cons_of_length_pos (Nat.zero_lt_of_lt inside)
          obtain ⟨refers, chain⟩ := List.isChain_cons_cons.mp chain
          rw [follow_one_add, target?_eq_some_iff.mpr refers, Option.bind_some,
            ih chain rfl inside]
          rfl

/-- If every chain of references from a variable ends, following the defaults does. -/
theorem not_endless_of_acc
    (ends : Acc (fun target name => document.RefersTo name target) name) :
    ¬document.Endless name := by
  induction ends with
  | intro name _ ih =>
      intro endless
      cases next : document.target? name with
      | none => exact endless 1 (by rw [follow_one_add, next]; rfl)
      | some target =>
          refine ih target (target?_eq_some_iff.mp next) fun count ended => endless (count + 1) ?_
          rw [follow_one_add, next, Option.bind_some, ended]

/-- Following the defaults from where they come back goes round. -/
theorem follow_mul {count : Nat} (around : document.follow name count = some name) (times : Nat) :
    document.follow name (times * count) = some name := by
  induction times with
  | zero => rw [Nat.zero_mul]; rfl
  | succ times ih => rw [Nat.succ_mul, follow_add, ih, Option.bind_some, around]

namespace Repeats

variable {first again : Nat}

/-- From a variable of the circle the way leads around to it. -/
theorem follow_around (repeats : document.Repeats root first again) {index : Nat}
    (low : first ≤ index) (high : index < again)
    (reached : document.follow root index = some name) :
    document.follow name (again - first) = some name := by
  have ahead : document.follow name (again - index) = document.follow root again := by
    rw [← Nat.add_sub_cancel' high.le, follow_add, reached, Option.bind_some,
      Nat.add_sub_cancel_left]
  have behind := follow_add document root first (index - first)
  rw [Nat.add_sub_cancel' low, reached, ← repeats.back, ← ahead] at behind
  have parts : again - first = (again - index) + (index - first) := by omega
  rw [parts, follow_add]
  exact behind.symm

/-- A way that comes back never ends. -/
theorem endless (repeats : document.Repeats root first again)
    (reached : document.follow root first = some name) : document.Endless root := by
  intro count ended
  have around := follow_mul (repeats.follow_around le_rfl repeats.earlier reached) count
  -- the way goes round so often that it is longer than the one that ended
  have longer : count ≤ first + count * (again - first) := by
    have := Nat.le_mul_of_pos_right count (Nat.sub_pos_of_lt repeats.earlier)
    omega
  have whole := follow_add document root first (count * (again - first))
  rw [reached, Option.bind_some, around, ← Nat.add_sub_cancel' longer, follow_add, ended] at whole
  cases whole

/-- Before it repeats the way passes no variable twice. -/
theorem eq_of_follow_eq (repeats : document.Repeats root first again) {i j : Nat}
    (inside : i < again) (inside' : j < again)
    (same : document.follow root i = document.follow root j) : i = j := by
  by_contra other
  rcases Nat.lt_or_gt_of_ne other with less | more
  · exact repeats.distinct i j less inside' same
  · exact repeats.distinct j i more inside same.symm

/-- Of two first times that a way comes back none is before the other. -/
theorem not_lt {first' again' : Nat} (repeats : document.Repeats root first again)
    (repeats' : document.Repeats root first' again') : ¬again < again' := by
  intro less
  have before := repeats'.eq_of_follow_eq less (repeats.earlier.trans less) repeats.back
  exact repeats.earlier.ne' before

/-- A way repeats at one place only. -/
theorem unique {first' again' : Nat} (repeats : document.Repeats root first again)
    (repeats' : document.Repeats root first' again') : first = first' ∧ again = again' := by
  obtain rfl : again = again' :=
    Nat.le_antisymm (Nat.le_of_not_lt (repeats'.not_lt repeats))
      (Nat.le_of_not_lt (repeats.not_lt repeats'))
  exact ⟨repeats.eq_of_follow_eq repeats.earlier repeats'.earlier
    (repeats.back.symm.trans repeats'.back), rfl⟩

end Repeats

/-- A way of one reference at least leads along references. -/
theorem transGen_of_follow {count : Nat} (positive : 0 < count)
    (reached : document.follow name count = some target) :
    TransGen document.RefersTo name target := by
  obtain ⟨count, rfl⟩ := Nat.exists_eq_add_of_lt positive
  rw [Nat.zero_add] at reached
  induction count generalizing target with
  | zero => exact .single (target?_eq_some_iff.mp reached)
  | succ count ih =>
      obtain ⟨before, earlier, last⟩ := Option.bind_eq_some_iff.mp reached
      exact .tail (ih (Nat.succ_pos _) earlier) (target?_eq_some_iff.mp last)

namespace FirstCircle

/-- Every member of a circle is passed between its start and the return to it. -/
theorem exists_follow_of_mem {first again : Nat} (member : name ∈ members)
    (segment : members.map some = (List.range' first (again - first)).map (document.follow root)) :
    ∃ index, first ≤ index ∧ index < again ∧ document.follow root index = some name := by
  have listed : some name ∈ (List.range' first (again - first)).map (document.follow root) := by
    rw [← segment]
    exact List.mem_map_of_mem member
  obtain ⟨index, inside, reached⟩ := List.mem_map.mp listed
  rw [List.mem_range'_1] at inside
  exact ⟨index, inside.1, by omega, reached⟩

/-- Every member of the circle leads back to itself. -/
theorem transGen (circle : document.FirstCircle members) (member : name ∈ members) :
    TransGen document.RefersTo name name := by
  obtain ⟨_, root, _, first, again, _, _, _, repeats, segment⟩ := circle
  obtain ⟨index, low, high, reached⟩ := exists_follow_of_mem member segment
  exact transGen_of_follow (Nat.sub_pos_of_lt repeats.earlier)
    (repeats.follow_around low high reached)

/-- No member of the circle is listed twice. -/
theorem nodup (circle : document.FirstCircle members) : members.Nodup := by
  obtain ⟨_, root, _, first, again, _, _, _, repeats, segment⟩ := circle
  have distinct : (members.map some).Nodup := by
    rw [segment]
    refine List.Nodup.map_on ?_ (List.nodup_range' _)
    intro i low j low' same
    rw [List.mem_range'_1] at low low'
    exact repeats.eq_of_follow_eq (by omega) (by omega) same
  exact distinct.of_map

/-- A variable whose default is the variable itself makes up its circle alone. -/
theorem eq_singleton (circle : document.FirstCircle members) (member : name ∈ members)
    (itself : document.RefersTo name name) : members = [name] := by
  obtain ⟨_, root, _, first, again, _, _, _, repeats, segment⟩ := circle
  obtain ⟨index, low, high, reached⟩ := exists_follow_of_mem member segment
  have next : document.follow root (index + 1) = document.follow root index := by
    rw [follow, reached, Option.bind_some, target?_eq_some_iff.mpr itself]
  have last : index + 1 = again := by
    by_contra other
    exact Nat.succ_ne_self index (repeats.eq_of_follow_eq (by omega) high next)
  subst last
  obtain rfl := repeats.eq_of_follow_eq repeats.earlier high (repeats.back.symm.trans next)
  rw [Nat.add_sub_cancel_left, List.range'_one, List.map_singleton, reached] at segment
  exact List.map_injective_iff.mpr (Option.some_injective _) segment

/-- The first name in a row with a property does not depend on how the row is divided. -/
theorem root_unique {property : String → Prop} {names before after before' after' : List String}
    {root root' : String} (parts : names = before ++ root :: after)
    (parts' : names = before' ++ root' :: after') (none : ∀ name ∈ before, ¬property name)
    (none' : ∀ name ∈ before', ¬property name) (holds : property root) (holds' : property root') :
    root = root' := by
  classical
  have found : names.find? (fun name => decide (property name)) = some root :=
    List.find?_eq_some_iff_append.mpr
      ⟨decide_eq_true holds, before, after, parts, fun name member => by simp [none name member]⟩
  have found' : names.find? (fun name => decide (property name)) = some root' :=
    List.find?_eq_some_iff_append.mpr
      ⟨decide_eq_true holds', before', after', parts', fun name member => by
        simp [none' name member]⟩
  exact Option.some.inj (found.symm.trans found')

/-- There is one first circle at most. -/
theorem unique {members' : List String} (circle : document.FirstCircle members)
    (circle' : document.FirstCircle members') : members = members' := by
  obtain ⟨before, root, after, first, again, parts, none, endless, repeats, segment⟩ := circle
  obtain ⟨before', root', after', first', again', parts', none', endless', repeats', segment'⟩ :=
    circle'
  obtain rfl := root_unique parts parts' none none' endless endless'
  obtain ⟨rfl, rfl⟩ := repeats.unique repeats'
  exact List.map_injective_iff.mpr (Option.some_injective _) (segment.trans segment'.symm)

end FirstCircle

/-- The way along distinct variables to a circle repeats where the circle begins. -/
theorem repeats_of_way {lead : List String} {first last : String}
    (starts : (lead ++ members).head? = some root) (distinct : (lead ++ members).Nodup)
    (chain : (lead ++ members).IsChain document.RefersTo) (head : members.head? = some first)
    (final : members.getLast? = some last) (closes : document.RefersTo last first) :
    ∃ again, document.Repeats root lead.length again ∧
      document.follow root lead.length = some first ∧
      members.map some =
        (List.range' lead.length (again - lead.length)).map (document.follow root) := by
  have passes : ∀ index, index < (lead ++ members).length →
      document.follow root index = (lead ++ members)[index]? :=
    fun _ inside => follow_of_isChain chain starts inside
  have total : (lead ++ members).length = lead.length + members.length := List.length_append
  have nonempty : 0 < members.length := by
    rw [List.length_pos_iff]
    intro empty
    rw [empty] at head
    cases head
  have begins : document.follow root lead.length = some first := by
    rw [passes _ (by omega), List.getElem?_append_right le_rfl, Nat.sub_self,
      ← List.head?_eq_getElem?, head]
  have ends : document.follow root (lead.length + members.length - 1) = some last := by
    rw [passes _ (by omega), ← total, ← List.getLast?_eq_getElem?, List.getLast?_append, final]
    rfl
  refine ⟨lead.length + members.length, ⟨by omega, ?_, ?_⟩, begins, ?_⟩
  · have step : lead.length + members.length = lead.length + members.length - 1 + 1 := by omega
    rw [step, follow, ends, begins, Option.bind_some, target?_eq_some_iff.mpr closes]
  · intro i j less inside same
    rw [passes i (by omega), passes j (by omega)] at same
    exact less.ne ((List.getElem?_inj (by omega) distinct).mp same)
  · rw [Nat.add_sub_cancel_left]
    refine List.ext_getElem (by simp) fun index left right => ?_
    rw [List.length_map] at left
    rw [List.getElem_map, List.getElem_map, List.getElem_range', Nat.one_mul,
      passes _ (by omega), List.getElem?_append_right (Nat.le_add_right _ _),
      Nat.add_sub_cancel_left, List.getElem?_eq_getElem left]

end Document

namespace Catalogue

variable {policy : MergePolicy} {document : Document} {members : List String}

/-- The way to a circle between drafts is followed in the document. -/
theorem firstCircle_of_way {drafts : Bindings Draft} {tried rest lead : List String} {root : String}
    (gathered : Draft.gather policy document.mentions = .ok drafts) (whole : ¬document.Dangles)
    (parts : (Draft.graph drafts).names = tried ++ root :: rest)
    (ends : ∀ name ∈ tried, (Draft.graph drafts).Ends name)
    (way : (Draft.graph drafts).IsWayTo root lead members) : document.FirstCircle members := by
  have found : Draft.Gathered document drafts := (Draft.find?_of_gather gathered).1
  obtain ⟨first, last, head, final, closes⟩ := way.circle.closes
  have chain : (lead ++ members).IsChain document.RefersTo :=
    way.chain.imp fun _ _ => found.depends_iff.mp
  obtain ⟨again, repeats, reached, segment⟩ := Document.repeats_of_way way.starts way.distinct
    chain head final (found.depends_iff.mp closes)
  refine ⟨tried, root, rest, _, again, ?_, ?_, repeats.endless reached, repeats, segment⟩
  · rw [Document.introduced, ← Draft.names_gather gathered, ← Draft.names_graph, parts]
  · intro name member
    have acc := ends name member
    rw [DependencyGraph.Ends, found.links_eq whole] at acc
    exact Document.not_endless_of_acc acc

/-- A document whose mentions can be merged, in which nothing dangles, is reported to have its first
circle if it has any. -/
theorem exists_firstCircle (merges : document.Merges policy) (whole : ¬document.Dangles)
    (circular : document.Circular) :
    ∃ members, collect policy document = .error (.cycle members) ∧
      document.FirstCircle members := by
  obtain ⟨drafts, gathered⟩ := Draft.exists_gather_of_merges merges
  have found : Draft.Gathered document drafts := (Draft.find?_of_gather gathered).1
  cases scheduled : (Draft.graph drafts).schedule with
  | ok order =>
      have acyclic := DependencyGraph.schedule_isOk_iff_acyclic.mp ⟨order, scheduled⟩
      exact ((found.acyclic_iff whole).mp acyclic circular).elim
  | error failure =>
      obtain ⟨tried, root, rest, lead, members, rfl, parts, ends, way⟩ :=
        DependencyGraph.exists_way_of_schedule scheduled
      refine ⟨members, ?_, firstCircle_of_way gathered whole parts ends way⟩
      rcases found.outcome_checkReferences with ⟨_, checked⟩ | ⟨dangles, _⟩
      · simp only [collect, gathered, checked, scheduled, bind, Except.bind]
      · exact (whole dangles).elim

/-- A circle is reported only where the mentions merge, no name is unknown and references go
round. -/
theorem circular_of_collect (failed : collect policy document = .error (.cycle members)) :
    document.Merges policy ∧ ¬document.Dangles ∧ document.Circular := by
  have other : ¬(Failure.cycle members).IsConflict := nofun
  obtain ⟨merges, permitted⟩ := (collect_eq_error_iff other).mp failed
  have outcome := outcome_collect document
  rw [permitted] at outcome
  cases outcome with
  | circle _ whole circular => exact ⟨merges, whole, circular⟩

/-- **The circle that is reported.** Let the mentions of a document be such that they can be merged,
let nothing dangle, and let the defaults go round in a circle. Then collecting fails with a circle.
It is the one that is found by following the defaults from the first variable from which this never
ends, up to the first variable that repeats. Its members are distinct and each leads around to
itself, so no variable that only leads to the circle is among them, and a variable whose default is
the variable itself is the only member. -/
theorem collect_reports_first_circle (merges : document.Merges policy) (whole : ¬document.Dangles)
    (circular : document.Circular) :
    ∃ members, collect policy document = .error (.cycle members) ∧
      document.FirstCircle members ∧ (∀ other, document.FirstCircle other → other = members) ∧
      members.Nodup ∧ (∀ name ∈ members, TransGen document.RefersTo name name) ∧
      ∀ name ∈ members, document.RefersTo name name → members = [name] := by
  obtain ⟨members, failed, circle⟩ := exists_firstCircle merges whole circular
  refine ⟨members, failed, circle, fun other circle' => circle'.unique circle, circle.nodup,
    fun name member => circle.transGen member, fun name member => circle.eq_singleton member⟩

/-- A document in which a heading refers to a title, and a note to a mood, a mood to a tone and a
tone to an accent. What the accent refers to is left open; an echo refers to itself. -/
def ringDocument (last : String) : Document :=
  ⟨"", [
    .placeholder (.editable "heading" none none (some (.reference "title"))) 0 10,
    .placeholder (.editable "note" none none (some (.reference "mood"))) 10 20,
    .placeholder (.editable "echo" none none (some (.reference "echo"))) 20 30,
    .placeholder (.editable "tone" none none (some (.reference "accent"))) 30 40,
    .placeholder (.editable "mood" none none (some (.reference "tone"))) 40 50,
    .placeholder (.declaration "accent" .color (some (.reference last))) 50 60,
    .placeholder (.declaration "title" .string (some (.literal (.string "Dear")))) 60 70]⟩

theorem collect_ringDocument_mood : collect .strict (ringDocument "mood") =
    .error (.cycle ["mood", "tone", "accent"]) := by with_unfolding_all rfl

theorem collect_ringDocument_accent : collect .strict (ringDocument "accent") =
    .error (.cycle ["accent"]) := by with_unfolding_all rfl

/-- The note is the first variable from which the defaults lead to a circle: one of three variables,
or the accent alone. -/
theorem reports_ringDocument :
    (ringDocument "mood").FirstCircle ["mood", "tone", "accent"] ∧
      TransGen (ringDocument "mood").RefersTo "tone" "tone" ∧
      (ringDocument "accent").FirstCircle ["accent"] ∧
      ∀ members, (ringDocument "accent").FirstCircle members → members = ["accent"] := by
  obtain ⟨merges, whole, circular⟩ := circular_of_collect collect_ringDocument_mood
  obtain ⟨members, failed, circle, _, _, around, _⟩ :=
    collect_reports_first_circle merges whole circular
  cases collect_ringDocument_mood.symm.trans failed
  obtain ⟨merges, whole, circular⟩ := circular_of_collect collect_ringDocument_accent
  obtain ⟨members, failed, circle', only, _⟩ :=
    collect_reports_first_circle merges whole circular
  cases collect_ringDocument_accent.symm.trans failed
  exact ⟨circle, around "tone" (by simp), circle', only⟩

end Catalogue

end EditableTemplate

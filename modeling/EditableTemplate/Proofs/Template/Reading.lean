import EditableTemplate.Proofs.Except
import EditableTemplate.Proofs.Template.Phrase

/-!
# What the readers accept

Each reader of the grammar is matched with a construct: it succeeds exactly if the lexemes that it
is given start with the leaves of one, and it leaves what follows them. A metadata pair is read if
its key is new, and what it says is then added to the description (`PairPhrase.readPair_eq_ok`).
-/

namespace EditableTemplate

/-- A name is read where a row starts with one. -/
theorem readName_eq_ok {absent : SyntaxFault} {left rest : List Lexeme} {word : String} :
    readName absent left = .ok (word, rest) ↔ left = .name word :: rest := by
  fun_cases readName absent left with
  | case1 found tail => simp
  | case2 left other =>
      constructor
      · rintro ⟨⟩
      · rintro rfl
        exact (other _ _ rfl).elim

theorem readMark_eq_ok {mark : Mark} {absent : SyntaxFault} {left rest : List Lexeme} :
    readMark mark absent left = .ok rest ↔ left = .mark mark :: rest := by
  fun_cases readMark mark absent left with
  | case1 tail => simp
  | case2 found tail different => simp [different]
  | case3 left other =>
      constructor
      · rintro ⟨⟩
      · rintro rfl
        exact (other _ _ rfl).elim

theorem afterMark?_eq_some_iff {mark : Mark} {left rest : List Lexeme} :
    afterMark? mark left = some rest ↔ left = .mark mark :: rest := by
  fun_cases afterMark? mark left with
  | case1 tail => simp
  | case2 found tail different => simp [different]
  | case3 left other =>
      constructor
      · rintro ⟨⟩
      · rintro rfl
        exact (other _ _ rfl).elim

/-- A word stands for the kind whose name it is. -/
theorem Kind.ofName?_eq_some_iff {word : String} {kind : Kind} :
    ofName? word = some kind ↔ word = kind.name := by
  constructor
  · intro found
    simpa [eq_comm] using List.find?_some found
  · rintro rfl
    exact ofName?_name kind

/-- A kind is read where a row starts with its name. -/
theorem readKind_eq_ok {left rest : List Lexeme} {kind : Kind} :
    readKind left = .ok (kind, rest) ↔ left = .name kind.name :: rest := by
  fun_cases readKind left with
  | case1 word tail found known =>
      rw [Kind.ofName?_eq_some_iff] at known
      subst known
      simp [Kind.name_injective.eq_iff]
  | case2 word tail unknown =>
      constructor
      · rintro ⟨⟩
      · rintro ⟨⟩
        cases unknown.symm.trans (Kind.ofName?_name kind)
  | case3 left other =>
      constructor
      · rintro ⟨⟩
      · rintro rfl
        exact (other _ _ rfl).elim

theorem readLabel_eq_ok {left rest : List Lexeme} {label : String} :
    readLabel left = .ok (label, rest) ↔ left = .string label :: rest := by
  fun_cases readLabel left with
  | case1 found tail => simp
  | case2 left other =>
      constructor
      · rintro ⟨⟩
      · rintro rfl
        exact (other _ _ rfl).elim

/-- A default is read from the leaves of a value phrase, as what the phrase denotes. -/
theorem readDefault_eq_ok {left rest : List Lexeme} {default : Default} :
    readDefault left = .ok (default, rest) ↔
      ∃ value : ValuePhrase, left = value.lexemes ++ rest ∧ value.Denotes default := by
  constructor
  · intro read
    revert read
    fun_cases readDefault left with
    | case1 text tail =>
        rintro ⟨⟩
        exact ⟨.string text, rfl, .string text⟩
    | case2 literal tail number converts =>
        rintro ⟨⟩
        exact ⟨.number literal, rfl, .number converts⟩
    | case3 => rintro ⟨⟩
    | case4 value tail =>
        rintro ⟨⟩
        exact ⟨.boolean value, rfl, .boolean value⟩
    | case5 tail =>
        intro read
        obtain ⟨⟨name, after⟩, found, ⟨⟩⟩ := Except.map_eq_ok.mp read
        rw [readName_eq_ok.mp found]
        exact ⟨.reference name, rfl, .reference name⟩
    | case6 => rintro ⟨⟩
  · rintro ⟨value, rfl, denotes⟩
    cases denotes with
    | string text => rfl
    | number converts =>
        simp only [ValuePhrase.lexemes, List.singleton_append, readDefault, converts]
    | boolean value => rfl
    | reference name => rfl

theorem MetadataKey.ofName?_eq_some_iff {word : String} {key : MetadataKey} :
    ofName? word = some key ↔ word = key.name := by
  constructor
  · intro found
    simpa [eq_comm] using List.find?_some found
  · rintro rfl
    cases key <;> decide

/-- A key is read where a row starts with its name, if it was not seen before. -/
theorem readKey_eq_ok {seen : List MetadataKey} {left rest : List Lexeme} {key : MetadataKey} :
    readKey seen left = .ok (key, rest) ↔ left = .name key.name :: rest ∧ key ∉ seen := by
  fun_cases readKey seen left with
  | case1 word tail unknown =>
      constructor
      · rintro ⟨⟩
      · rintro ⟨⟨⟩, _⟩
        cases unknown.symm.trans (MetadataKey.ofName?_eq_some_iff.mpr rfl)
  | case2 word tail found known repeated =>
      constructor
      · rintro ⟨⟩
      · rintro ⟨⟨⟩, fresh⟩
        obtain rfl := Option.some.inj (known.symm.trans (MetadataKey.ofName?_eq_some_iff.mpr rfl))
        exact (fresh repeated).elim
  | case3 word tail found known fresh =>
      constructor
      · rintro ⟨⟩
        rw [MetadataKey.ofName?_eq_some_iff] at known
        exact ⟨by rw [known], fresh⟩
      · rintro ⟨⟨⟩, _⟩
        obtain rfl := Option.some.inj (known.symm.trans (MetadataKey.ofName?_eq_some_iff.mpr rfl))
        rfl
  | case4 left other =>
      constructor
      · rintro ⟨⟩
      · rintro ⟨rfl, _⟩
        exact (other _ _ rfl).elim

/-- A kind is read where a row starts with its name and no other kind was given. -/
theorem readAgreeingKind_eq_ok {name : String} {given : Option Kind} {left rest : List Lexeme}
    {kind : Kind} :
    readAgreeingKind name given left = .ok (kind, rest) ↔
      left = .name kind.name :: rest ∧ ∀ first ∈ given, first = kind := by
  rw [← readKind_eq_ok]
  fun_cases readAgreeingKind name given left with
  | case1 _ fault failed => simp [failed]
  | case2 found tail read => simp [read]
  | case3 found tail read => simp_all
  | case4 found tail read first different =>
      simp only [reduceCtorEq, read, Except.ok.injEq, Prod.mk.injEq, Option.mem_def,
        Option.some.injEq, forall_eq', false_iff]
      rintro ⟨⟨rfl, _⟩, same⟩
      exact different same

namespace PairPhrase

/-- What a pair says is added to a description. A kind has to agree with the one that is there. -/
inductive Adds (description : Description) : PairPhrase → Description → Prop
  | kind {said : Kind} (agrees : ∀ first ∈ description.kind, first = said) :
      Adds description (.kind said)
        { description with kind := some said, keys := .kind :: description.keys }
  | label (said : String) :
      Adds description (.label said)
        { description with label := some said, keys := .label :: description.keys }
  | default {value : ValuePhrase} {said : Default} (denotes : value.Denotes said) :
      Adds description (.default value)
        { description with default := some said, keys := .default :: description.keys }

variable {name : String} {description extended : Description} {left rest : List Lexeme}

/-- The content of a pair is read where a row starts with its leaves and the pair can be added. -/
theorem readContent_eq_ok {key : MetadataKey} :
    readContent name description key left = .ok (extended, rest) ↔
      ∃ pair : PairPhrase, pair.key = key ∧ left = pair.content ++ rest ∧
        Adds description pair extended := by
  constructor
  · intro read
    cases key with
    | kind =>
        obtain ⟨⟨kind, rest⟩, found, ⟨⟩⟩ := Except.map_eq_ok.mp read
        obtain ⟨same, agrees⟩ := readAgreeingKind_eq_ok.mp found
        exact ⟨.kind kind, rfl, same, .kind agrees⟩
    | label =>
        obtain ⟨⟨text, rest⟩, found, ⟨⟩⟩ := Except.map_eq_ok.mp read
        exact ⟨.label text, rfl, readLabel_eq_ok.mp found, .label text⟩
    | default =>
        obtain ⟨⟨given, rest⟩, found, ⟨⟩⟩ := Except.map_eq_ok.mp read
        obtain ⟨value, same, denotes⟩ := readDefault_eq_ok.mp found
        exact ⟨.default value, rfl, same, .default denotes⟩
  · rintro ⟨pair, rfl, rfl, adds⟩
    cases adds with
    | kind agrees =>
        exact Except.map_eq_ok.mpr ⟨(_, rest), readAgreeingKind_eq_ok.mpr ⟨rfl, agrees⟩, rfl⟩
    | label said => rfl
    | default denotes =>
        exact Except.map_eq_ok.mpr ⟨(_, rest), readDefault_eq_ok.mpr ⟨_, rfl, denotes⟩, rfl⟩

/-- A pair is read where a row starts with its leaves, its key is new, and it can be added. -/
theorem readPair_eq_ok :
    readPair name description left = .ok (extended, rest) ↔
      ∃ pair : PairPhrase, .mark .comma :: left = pair.lexemes ++ rest ∧
        pair.key ∉ description.keys ∧ Adds description pair extended := by
  constructor
  · intro read
    obtain ⟨⟨key, afterKey⟩, foundKey, onward⟩ := Except.bind_eq_ok.mp read
    obtain ⟨content, foundMark, ending⟩ := Except.bind_eq_ok.mp onward
    obtain ⟨rfl, fresh⟩ := readKey_eq_ok.mp foundKey
    obtain rfl := readMark_eq_ok.mp foundMark
    obtain ⟨pair, rfl, rfl, adds⟩ := readContent_eq_ok.mp ending
    exact ⟨pair, rfl, fresh, adds⟩
  · rintro ⟨pair, same, fresh, adds⟩
    obtain rfl := (List.cons.inj same).2
    change readPair name description
      (.name pair.key.name :: .mark .colon :: (pair.content ++ rest)) = _
    rw [readPair_name fresh]
    exact readContent_eq_ok.mpr ⟨pair, rfl, rfl, adds⟩

end PairPhrase

/-- A kind that may be absent is read where a row starts with it, or with no colon. -/
theorem readOptionalKind_eq_ok {left rest : List Lexeme} {kind : Option Kind} :
    readOptionalKind left = .ok (kind, rest) ↔
      left = kind.elim [] (fun given => [.mark .colon, .name given.name]) ++ rest ∧
        (kind = none → afterMark? .colon rest = none) := by
  cases colon : afterMark? .colon left with
  | none =>
      rw [readOptionalKind, colon]
      cases kind with
      | none =>
          constructor
          · rintro ⟨⟩
            exact ⟨rfl, fun _ => colon⟩
          · rintro ⟨rfl, _⟩
            rfl
      | some kind =>
          constructor
          · rintro ⟨⟩
          · rintro ⟨rfl, _⟩
            cases colon
  | some tail =>
      obtain rfl := afterMark?_eq_some_iff.mp colon
      rw [readOptionalKind, colon]
      cases kind with
      | none =>
          constructor
          · intro read
            obtain ⟨_, _, ⟨⟩⟩ := Except.map_eq_ok.mp read
          · rintro ⟨rfl, missing⟩
            cases colon.symm.trans (missing rfl)
      | some kind =>
          constructor
          · intro read
            obtain ⟨⟨_, _⟩, found, ⟨⟩⟩ := Except.map_eq_ok.mp read
            rw [readKind_eq_ok.mp found]
            refine ⟨rfl, ?_⟩
            rintro ⟨⟩
          · rintro ⟨same, _⟩
            exact Except.map_eq_ok.mpr
              ⟨(kind, rest), readKind_eq_ok.mpr (List.cons.inj same).2, rfl⟩

end EditableTemplate

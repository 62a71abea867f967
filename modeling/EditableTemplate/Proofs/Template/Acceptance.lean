import EditableTemplate.Proofs.Template.Reading
import Mathlib.Data.List.Nodup

/-!
# What the parser accepts

The parser accepts the rows of lexemes of the proper phrases and no others, and it returns what they
denote (`Expression.parse_exact`). The metadata pairs carry the proof. A description that describes
the pairs before is extended by the next pair, if they are proper together, to one that describes
them all (`PairPhrase.Adds.described`, `PairPhrase.exists_adds`), and so to the end
(`PairPhrase.readPairs_eq_ok`).
-/

namespace EditableTemplate

namespace PairPhrase

variable {name : String} {description extended : Description} {left : List Lexeme}

/-- A description says what pairs say, and keeps their keys. -/
structure Described (given : Option Kind) (pairs : List PairPhrase) (description : Description) :
    Prop where
  say : Say given pairs description.kind description.label description.default
  keys : description.keys = (pairs.map key).reverse

variable {given : Option Kind} {before pairs : List PairPhrase} {pair : PairPhrase}

/-- One description at most says what pairs say and keeps their keys. -/
theorem Described.unique {first second : Description} (left : Described given pairs first)
    (right : Described given pairs second) : first = second := by
  obtain ⟨say, keys⟩ := left
  obtain ⟨say', keys'⟩ := right
  have kinds : first.kind = second.kind :=
    Option.ext fun said => (say.kind said).trans (say'.kind said).symm
  have labels : first.label = second.label :=
    Option.ext fun said => (say.label said).trans (say'.label said).symm
  have defaults : first.default = second.default :=
    Option.ext fun said => (say.default said).trans (say'.default said).symm
  cases first
  cases second
  simp_all

theorem described_nil (given : Option Kind) :
    Described given [] ⟨given, none, none, []⟩ where
  say :=
    { kind := fun said => by simp
      label := fun said => by simp
      default := fun said => by simp }
  keys := rfl

theorem proper_nil (given : Option Kind) : Proper given [] where
  distinct := List.nodup_nil
  agrees := fun _ member => nomatch member
  converts := fun _ member => nomatch member

/-- Pairs in front of proper ones are proper. -/
theorem Proper.of_append {after : List PairPhrase} (proper : Proper given (before ++ after)) :
    Proper given before where
  distinct := by
    have distinct := proper.distinct
    rw [List.map_append] at distinct
    exact (List.nodup_append.mp distinct).1
  agrees := fun kind member => proper.agrees kind (List.mem_append_left _ member)
  converts := fun value member => proper.converts value (List.mem_append_left _ member)

/-- The keys that are kept are those of the pairs. -/
theorem Described.mem_keys_iff (described : Described given before description)
    {key' : MetadataKey} : key' ∈ description.keys ↔ ∃ other ∈ before, other.key = key' := by
  rw [described.keys, List.mem_reverse, List.mem_map]

/-- The kind that is there is the one after the name, until a pair gives one. -/
theorem Described.kind_eq (described : Described given before description)
    (fresh : .kind ∉ description.keys) : description.kind = given := by
  refine Option.ext fun said => (described.say.kind said).trans ⟨?_, .inl⟩
  rintro (same | member)
  · exact same
  · exact (fresh (described.mem_keys_iff.mpr ⟨_, member, rfl⟩)).elim

/-- A pair with a new key keeps the keys distinct. -/
theorem Described.distinct_concat (described : Described given before description)
    (proper : Proper given before) (fresh : pair.key ∉ description.keys) :
    ((before ++ [pair]).map key).Nodup := by
  rw [List.map_append, List.map_singleton, List.nodup_append]
  refine ⟨proper.distinct, List.pairwise_singleton _ _, ?_⟩
  intro first member second last same
  obtain ⟨other, listed, rfl⟩ := List.mem_map.mp member
  exact fresh (described.mem_keys_iff.mpr
    ⟨other, listed, same.trans (List.mem_singleton.mp last)⟩)

/-- What the key of the last pair stands for is said by that pair alone. -/
theorem eq_last {other : PairPhrase} (distinct : ((before ++ [pair]).map key).Nodup)
    (member : other ∈ before ++ [pair]) (same : other.key = pair.key) : other = pair :=
  List.inj_on_of_nodup_map distinct member (by simp) same

/-- A pair with a new key that can be added keeps the pairs proper. -/
theorem Adds.proper (adds : Adds description pair extended) (proper : Proper given before)
    (described : Described given before description) (fresh : pair.key ∉ description.keys) :
    Proper given (before ++ [pair]) := by
  have distinct := described.distinct_concat proper fresh
  cases adds with
  | kind agrees =>
      rw [described.kind_eq fresh] at agrees
      refine ⟨distinct, ?_, ?_⟩
      · intro kind member
        cases eq_last distinct member rfl
        exact agrees
      · intro value member
        exact proper.converts value (by simpa using member)
  | label said =>
      refine ⟨distinct, ?_, ?_⟩
      · intro kind member
        exact proper.agrees kind (by simpa using member)
      · intro value member
        exact proper.converts value (by simpa using member)
  | default denotes =>
      refine ⟨distinct, ?_, ?_⟩
      · intro kind member
        exact proper.agrees kind (by simpa using member)
      · intro value member
        cases eq_last distinct member rfl
        exact ValuePhrase.exists_denotes_iff.mp ⟨_, denotes⟩

/-- What is described together with a pair that adds to it is what the pairs say together. -/
theorem Adds.say (adds : Adds description pair extended) (proper : Proper given before)
    (described : Described given before description) (fresh : pair.key ∉ description.keys) :
    Say given (before ++ [pair]) extended.kind extended.label extended.default := by
  have distinct := described.distinct_concat proper fresh
  have say := described.say
  cases adds with
  | kind agrees =>
      rw [described.kind_eq fresh] at agrees
      refine ⟨?_, fun text => by simpa using say.label text,
        fun default => by simpa using say.default default⟩
      intro kind
      constructor
      · rintro ⟨⟩
        exact .inr (by simp)
      · rintro (same | member)
        · rw [agrees kind same]
        · cases eq_last distinct member rfl
          rfl
  | label said =>
      refine ⟨fun kind => by simpa using say.kind kind, ?_,
        fun default => by simpa using say.default default⟩
      intro text
      constructor
      · rintro ⟨⟩
        simp
      · intro member
        cases eq_last distinct member rfl
        rfl
  | default denotes =>
      refine ⟨fun kind => by simpa using say.kind kind,
        fun text => by simpa using say.label text, ?_⟩
      intro default
      constructor
      · rintro ⟨⟩
        exact ⟨_, by simp, denotes⟩
      · rintro ⟨value, member, denotes'⟩
        cases eq_last distinct member rfl
        rw [denotes.unique denotes']

/-- A pair that adds to the description of the pairs before it is a proper one, and the result
describes all of them. -/
theorem Adds.described (adds : Adds description pair extended) (proper : Proper given before)
    (described : Described given before description) (fresh : pair.key ∉ description.keys) :
    Proper given (before ++ [pair]) ∧ Described given (before ++ [pair]) extended := by
  refine ⟨adds.proper proper described fresh, adds.say proper described fresh, ?_⟩
  have keys : extended.keys = pair.key :: description.keys := by
    cases adds <;> rfl
  simp [keys, described.keys]

/-- A proper pair can be added to the description of the pairs before it. -/
theorem exists_adds (proper : Proper given (before ++ [pair]))
    (described : Described given before description) :
    pair.key ∉ description.keys ∧ ∃ extended, Adds description pair extended := by
  have fresh : pair.key ∉ description.keys := by
    intro seen
    obtain ⟨other, member, same⟩ := described.mem_keys_iff.mp seen
    have distinct := proper.distinct
    rw [List.map_append, List.nodup_append] at distinct
    exact distinct.2.2 _ (List.mem_map_of_mem member) _ (by simp) same
  have last : pair ∈ before ++ [pair] := by simp
  refine ⟨fresh, ?_⟩
  cases pair with
  | kind said =>
      have agrees : ∀ first ∈ description.kind, first = said := by
        rw [described.kind_eq fresh]
        exact proper.agrees said last
      exact ⟨_, .kind agrees⟩
  | label said => exact ⟨_, .label said⟩
  | default value =>
      obtain ⟨said, denotes⟩ := ValuePhrase.exists_denotes_iff.mpr (proper.converts value last)
      exact ⟨_, .default denotes⟩

/-- **All pairs.** From the description of the pairs before, the pairs up to the end are read
exactly if all together are proper, and then the result describes all. -/
theorem readPairs_eq_ok (proper : Proper given before)
    (described : Described given before description) :
    readPairs name description left = .ok (extended, []) ↔
      ∃ pairs : List PairPhrase, left = pairs.flatMap lexemes ∧
        Proper given (before ++ pairs) ∧ Described given (before ++ pairs) extended := by
  induction description, left using readPairs.induct name generalizing before with
  | case1 description rest fault failed =>
      rw [readPairs]
      constructor
      · intro read
        split at read
        · cases read
        · rename_i found
          cases found.symm.trans failed
      · rintro ⟨pairs, same, whole, _⟩
        -- the first of proper pairs would have been read
        cases pairs with
        | nil => cases same
        | cons pair more =>
            rw [List.append_cons] at whole
            obtain ⟨fresh, result, adds⟩ := exists_adds whole.of_append described
            cases failed.symm.trans (readPair_eq_ok.mpr ⟨pair, same, fresh, adds⟩)
  | case2 description rest next after read ih =>
      obtain ⟨pair, same, fresh, adds⟩ := readPair_eq_ok.mp read
      obtain ⟨proper', described'⟩ := adds.described proper described fresh
      have onward : readPairs name description (.mark .comma :: rest) =
          readPairs name next after := by
        rw [readPairs]
        split
        · rename_i failed
          cases failed.symm.trans read
        · rename_i found
          cases found.symm.trans read
          rfl
      rw [onward, ih proper' described', same]
      constructor
      · rintro ⟨more, rfl, whole, result⟩
        rw [← List.append_cons] at whole result
        exact ⟨pair :: more, rfl, whole, result⟩
      · rintro ⟨pairs, same', whole, result⟩
        cases pairs with
        | nil => cases same'
        | cons pair' more =>
            obtain ⟨rfl, rfl⟩ := append_inj same'
            rw [List.append_cons] at whole result
            exact ⟨more, rfl, whole, result⟩
  | case3 description left other =>
      have stays : readPairs name description left = .ok (description, left) := by
        rw [readPairs]
        exact other
      rw [stays]
      constructor
      · rintro ⟨⟩
        exact ⟨[], rfl, by rwa [List.append_nil], by rwa [List.append_nil]⟩
      · rintro ⟨pairs, rfl, _, result⟩
        cases pairs with
        | nil =>
            rw [List.append_nil] at result
            rw [described.unique result]
            rfl
        | cons pair more => exact (other _ rfl).elim

end PairPhrase

namespace Phrase

variable {left : List Lexeme} {expression : Expression}

/-- A declaration is read from the leaves of a proper phrase, as what the phrase denotes. -/
theorem readDeclaration_eq_ok :
    readDeclaration left = .ok (expression, []) ↔
      ∃ phrase : Phrase, .mark .atSign :: left = phrase.lexemes ∧ phrase.Proper ∧
        phrase.Denotes expression := by
  constructor
  · intro read
    obtain ⟨⟨name, afterName⟩, foundName, typed⟩ := Except.bind_eq_ok.mp read
    obtain ⟨afterColon, foundMark, named⟩ := Except.bind_eq_ok.mp typed
    obtain ⟨⟨kind, afterKind⟩, foundKind, ending⟩ := Except.bind_eq_ok.mp named
    obtain rfl := readName_eq_ok.mp foundName
    obtain rfl := readMark_eq_ok.mp foundMark
    obtain rfl := readKind_eq_ok.mp foundKind
    cases equals : afterMark? .equals afterKind with
    | none =>
        simp only [equals] at ending
        cases ending
        exact ⟨.declaration name kind none, rfl, nofun, denotes_declaration name kind⟩
    | some rest =>
        obtain rfl := afterMark?_eq_some_iff.mp equals
        simp only [equals] at ending
        obtain ⟨⟨said, after⟩, foundDefault, ⟨⟩⟩ := Except.bind_eq_ok.mp ending
        obtain ⟨value, same, denotes⟩ := readDefault_eq_ok.mp foundDefault
        rw [List.append_nil] at same
        refine ⟨.declaration name kind (some value), by rw [same]; rfl, ?_,
          denotes_declaration_default denotes name kind⟩
        rintro _ ⟨⟩
        exact ValuePhrase.exists_denotes_iff.mp ⟨_, denotes⟩
  · rintro ⟨phrase, same, proper, denotes⟩
    cases denotes with
    | reference name => cases same
    | editable say => cases same
    | @declaration name kind value default denotes =>
        obtain rfl := (List.cons.inj same).2
        rw [readDeclaration]
        change Except.bind (readKind (.name kind.name :: _)) _ = _
        rw [readKind_name]
        cases value with
        | none =>
            have missing : default = none := by
              refine Option.eq_none_iff_forall_ne_some.mpr fun said given => ?_
              obtain ⟨_, absent, _⟩ := (denotes said).mp given
              cases absent
            rw [missing]
            rfl
        | some value =>
            obtain ⟨said, meant⟩ := ValuePhrase.exists_denotes_iff.mpr (proper value rfl)
            have given := (denotes said).mpr ⟨value, rfl, meant⟩
            have read : readDefault value.lexemes = .ok (said, []) :=
              readDefault_eq_ok.mpr ⟨value, (List.append_nil _).symm, meant⟩
            change Except.bind (readDefault value.lexemes) _ = _
            rw [read, given]
            rfl

/-- A reference is read from the leaves of a proper phrase, as what the phrase denotes. -/
theorem readReference_eq_ok :
    readReference left = .ok (expression, []) ↔
      ∃ phrase : Phrase, .mark .dollar :: left = phrase.lexemes ∧ phrase.Proper ∧
        phrase.Denotes expression := by
  constructor
  · intro read
    obtain ⟨⟨name, rest⟩, foundName, ending⟩ := Except.bind_eq_ok.mp read
    obtain rfl := readName_eq_ok.mp foundName
    cases rest with
    | nil =>
        cases ending
        exact ⟨.reference name, rfl, trivial, .reference name⟩
    | cons lexeme rest => cases ending
  · rintro ⟨phrase, same, _, denotes⟩
    cases denotes with
    | declaration denotes => cases same
    | reference name =>
        obtain rfl := (List.cons.inj same).2
        rfl
    | editable say => cases same

/-- An editable reference is read from the leaves of a proper phrase, as what the phrase denotes. -/
theorem readEditable_eq_ok :
    readEditable left = .ok (expression, []) ↔
      ∃ name kind pairs, left = (editable name kind pairs).lexemes ∧
        (editable name kind pairs).Proper ∧ (editable name kind pairs).Denotes expression := by
  constructor
  · intro read
    obtain ⟨⟨name, afterName⟩, foundName, described⟩ := Except.bind_eq_ok.mp read
    obtain ⟨⟨kind, afterKind⟩, foundKind, ending⟩ := Except.bind_eq_ok.mp described
    obtain ⟨⟨description, rest⟩, foundPairs, ⟨⟩⟩ := Except.bind_eq_ok.mp ending
    obtain rfl := readName_eq_ok.mp foundName
    obtain ⟨rfl, _⟩ := readOptionalKind_eq_ok.mp foundKind
    obtain ⟨pairs, rfl, proper, described⟩ :=
      (PairPhrase.readPairs_eq_ok (PairPhrase.proper_nil kind)
        (PairPhrase.described_nil kind)).mp foundPairs
    exact ⟨name, kind, pairs, rfl, proper, .editable described.say⟩
  · rintro ⟨name, kind, pairs, rfl, proper, denotes⟩
    cases denotes with
    | @editable _ _ final _ label default say =>
        have described : PairPhrase.Described kind pairs
            ⟨final, label, default, (pairs.map PairPhrase.key).reverse⟩ := ⟨say, rfl⟩
        have kindRead := readOptionalKind_eq_ok.mpr
          ⟨rfl, fun _ : kind = none => PairPhrase.afterMark?_flatMap pairs⟩
        have pairsRead : readPairs name ⟨kind, none, none, []⟩
            (pairs.flatMap PairPhrase.lexemes) = .ok (⟨final, label, default, _⟩, []) :=
          (PairPhrase.readPairs_eq_ok (PairPhrase.proper_nil kind)
            (PairPhrase.described_nil kind)).mpr ⟨pairs, rfl, proper, described⟩
        exact Except.bind_eq_ok.mpr ⟨_, rfl, Except.bind_eq_ok.mpr ⟨_, kindRead,
          Except.bind_eq_ok.mpr ⟨_, pairsRead, rfl⟩⟩⟩

/-- **Every expression.** A row of lexemes is read to its end as an expression exactly if it is the
row of a proper phrase that denotes the expression. -/
theorem ofLexemes_eq_ok :
    Expression.ofLexemes left = .ok expression ↔
      ∃ phrase : Phrase, left = phrase.lexemes ∧ phrase.Proper ∧ phrase.Denotes expression := by
  have whole : Expression.ofLexemes left = .ok expression ↔
      readExpression left = .ok (expression, []) := by
    constructor
    · intro read
      obtain ⟨⟨found, rest⟩, first, last⟩ := Except.bind_eq_ok.mp read
      cases rest with
      | nil =>
          cases last
          exact first
      | cons next rest => cases last
    · intro read
      exact Except.bind_eq_ok.mpr ⟨_, read, rfl⟩
  rw [whole]
  fun_cases readExpression left with
  | case1 rest => exact readDeclaration_eq_ok
  | case2 rest => exact readReference_eq_ok
  | case3 left noDeclaration noReference =>
      rw [readEditable_eq_ok]
      constructor
      · rintro ⟨name, kind, pairs, same⟩
        exact ⟨_, same⟩
      · rintro ⟨phrase, rfl, meaning⟩
        cases phrase with
        | declaration name kind value => exact (noDeclaration _ rfl).elim
        | reference name => exact (noReference _ rfl).elim
        | editable name kind pairs => exact ⟨name, kind, pairs, rfl, meaning⟩

end Phrase

/-- Proper pairs say something. -/
theorem PairPhrase.exists_described {given : Option Kind} {pairs : List PairPhrase}
    (proper : Proper given pairs) : ∃ description, Described given pairs description := by
  induction pairs using List.reverseRecOn with
  | nil => exact ⟨_, described_nil given⟩
  | append_singleton before pair ih =>
      obtain ⟨description, described⟩ := ih proper.of_append
      obtain ⟨fresh, extended, adds⟩ := exists_adds proper described
      exact ⟨extended, (adds.described proper.of_append described fresh).2⟩

/-- A proper phrase denotes an expression. -/
theorem Phrase.exists_denotes {phrase : Phrase} (proper : phrase.Proper) :
    ∃ expression, phrase.Denotes expression := by
  cases phrase with
  | declaration name kind value =>
      cases value with
      | none => exact ⟨_, denotes_declaration name kind⟩
      | some value =>
          obtain ⟨said, meant⟩ := ValuePhrase.exists_denotes_iff.mpr (proper value rfl)
          exact ⟨_, denotes_declaration_default meant name kind⟩
  | reference name => exact ⟨.reference name, .reference name⟩
  | editable name kind pairs =>
      obtain ⟨description, described⟩ := PairPhrase.exists_described proper
      exact ⟨_, .editable described.say⟩

namespace Expression

/-- A content with tokens is parsed as its lexemes are. -/
theorem parse_eq_ok {content : String} {position : Int} {row : TokenRow} {expression : Expression}
    (tokenized : TokenRow.tokenize content position = .ok row) :
    parse content position = .ok expression ↔ ofLexemes row.lexemes = .ok expression := by
  rw [parse, tokenized]
  change (if row.tokens.isEmpty then _ else _) = _ ↔ _
  by_cases empty : row.tokens.isEmpty
  · have none : row.lexemes = [] := by
      rw [TokenRow.lexemes, List.isEmpty_iff.mp empty, List.map_nil]
    rw [if_pos empty, none]
    constructor <;> rintro ⟨⟩
  · rw [if_neg empty]
    cases read : ofLexemes row.lexemes with
    | error fault => constructor <;> rintro ⟨⟩
    | ok found => simp [pure, Except.pure]

/-- **What the parser accepts.** Of a content that has tokens, the parser makes an expression
exactly if the tokens are the leaves of a proper phrase. It makes the expression that the phrase
denotes, and no other phrase has these leaves. -/
theorem parse_exact {content : String} {position : Int} {row : TokenRow}
    (tokenized : TokenRow.tokenize content position = .ok row) :
    ((∃ expression, parse content position = .ok expression) ↔
      ∃ phrase : Phrase, phrase.lexemes = row.lexemes ∧ phrase.Proper) ∧
    (∀ expression, parse content position = .ok expression ↔
      ∃ phrase : Phrase, phrase.lexemes = row.lexemes ∧ phrase.Proper ∧
        phrase.Denotes expression) ∧
    ∀ first second : Phrase, first.lexemes = row.lexemes → second.lexemes = row.lexemes →
      first = second := by
  have parsed : ∀ expression, parse content position = .ok expression ↔
      ∃ phrase : Phrase, phrase.lexemes = row.lexemes ∧ phrase.Proper ∧
        phrase.Denotes expression := by
    intro expression
    rw [parse_eq_ok tokenized, Phrase.ofLexemes_eq_ok]
    simp only [eq_comm]
  refine ⟨?_, parsed, fun _ _ left right => Phrase.lexemes_injective (left.trans right.symm)⟩
  constructor
  · rintro ⟨expression, read⟩
    obtain ⟨phrase, same, proper, _⟩ := (parsed expression).mp read
    exact ⟨phrase, same, proper⟩
  · rintro ⟨phrase, same, proper⟩
    obtain ⟨expression, denotes⟩ := Phrase.exists_denotes proper
    exact ⟨expression, (parsed expression).mpr ⟨phrase, same, proper, denotes⟩⟩

/-- A content whose pairs give the kind again, after the default. -/
def thoroughContent : String :=
  "size: number, defaultValue: -7, type: number, friendlyName: \"Size\""

/-- The phrase that it is. -/
def thoroughPhrase : Phrase :=
  .editable "size" (some .number)
    [.default (.number ⟨true, ['7'], [], none⟩), .kind .number, .label "Size"]

theorem parse_thoroughContent :
    ∃ row, TokenRow.tokenize thoroughContent 4 = .ok row ∧
      thoroughPhrase.lexemes = row.lexemes ∧
      parse thoroughContent 4 =
        .ok (.editable "size" (some .number) (some "Size")
          (some (.literal (.number (.integer (-7)))))) := by
  have read : (TokenRow.tokenize thoroughContent 4).map TokenRow.lexemes =
      .ok thoroughPhrase.lexemes := by with_unfolding_all rfl
  obtain ⟨row, tokenized, same⟩ := Except.map_eq_ok.mp read
  have leaves : thoroughPhrase.lexemes = row.lexemes := same.symm
  have converts : NumberLiteral.value? ⟨true, ['7'], [], none⟩ = some (.integer (-7)) := by decide
  have proper : thoroughPhrase.Proper := by
    refine ⟨by decide, ?_, ?_⟩
    · intro kind member first given
      obtain rfl : kind = .number := by simpa using member
      exact (Option.some.inj given).symm
    · intro value member
      obtain rfl : value = .number ⟨true, ['7'], [], none⟩ := by simpa using member
      exact ⟨_, converts⟩
  have denotes : thoroughPhrase.Denotes (.editable "size" (some .number) (some "Size")
      (some (.literal (.number (.integer (-7)))))) := by
    refine .editable ⟨?_, ?_, ?_⟩
    · intro said
      simp [eq_comm]
    · intro said
      simp [eq_comm]
    · intro said
      constructor
      · rintro ⟨⟩
        exact ⟨_, by simp, .number converts⟩
      · rintro ⟨value, member, meant⟩
        obtain rfl : value = .number ⟨true, ['7'], [], none⟩ := by simpa using member
        rw [(ValuePhrase.Denotes.number converts).unique meant]
  exact ⟨row, tokenized, leaves,
    ((parse_exact tokenized).2.1 _).mpr ⟨thoroughPhrase, leaves, proper, denotes⟩⟩

end Expression

end EditableTemplate

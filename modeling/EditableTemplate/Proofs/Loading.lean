import EditableTemplate.Loading
import EditableTemplate.Proofs.Except

/-!
# What is loaded

A text is loaded from a file that is within the limit and holds UTF-8 (`Folder.loadText_eq_ok`), and
a template from a text that the grammar accepts (`Template.load_eq_ok`).
-/

namespace EditableTemplate

variable {folder : Folder}

/-- A text is loaded from a file that is there, is not too long and is encoded well. -/
theorem Folder.loadText_eq_ok {limit : Int} {path : Path} {text : String} :
    folder.loadText limit path = .ok text ↔
      ∃ content, folder.look path = .ok (.bytes content) ∧ ¬limit < content.length ∧
        Utf8.readText content = .ok text := by
  constructor
  · intro ran
    obtain ⟨found, seen, onward⟩ := Except.bind_eq_ok.mp ran
    rw [Except.mapError_eq_ok] at seen
    split at onward
    · cases onward
    · rename_i within
      obtain ⟨content, held, decoded⟩ := Except.bind_eq_ok.mp onward
      rw [Except.mapError_eq_ok] at held decoded
      rw [Folder.read, seen] at held
      cases found with
      | folder => cases held
      | bytes bytes =>
          cases held
          exact ⟨content, seen, within, decoded⟩
  · intro ⟨content, seen, within, decoded⟩
    have held : folder.read path = .ok content := by
      rw [Folder.read, seen]
      rfl
    rw [loadText, seen, held]
    simp only [Except.mapError, bind, Except.bind, FileContent.size, if_neg within, decoded]

/-- A template is loaded from a text that can be parsed, with the policy given. -/
theorem Template.load_eq_ok {settings : Settings} {policy : Policy} {name : String}
    {template : Template} :
    load settings policy folder name = .ok template ↔
      ∃ source, folder.loadText settings.maxTemplateBytes (Path.ofString name) = .ok source ∧
        Document.parse source = .ok template.document ∧ template.policy = policy := by
  constructor
  · intro ran
    obtain ⟨source, loaded, made⟩ := Except.bind_eq_ok.mp ran
    obtain ⟨document, parsed, rfl⟩ := Except.map_eq_ok.mp (Except.mapError_eq_ok.mp made)
    exact ⟨source, loaded, parsed, rfl⟩
  · intro ⟨source, loaded, parsed, same⟩
    rw [load, loaded]
    simp only [bind, Except.bind, ofText, parsed, ← same]
    rfl

end EditableTemplate

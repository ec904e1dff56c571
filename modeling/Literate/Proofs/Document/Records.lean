import Literate.Document.Basic
import Literate.Document.Codec
import Literate.Document.Reading
import Literate.Proofs.Validation.Acceptance

namespace Literate

/-- A field that may be left out, and then stands for its default. -/
def Fields.Gives {α : Type} (fields : Fields) (name : Text) (default : α)
    (records : Value → α → Prop) (a : α) : Prop :=
  match fields.get? name with
  | some v => records v a
  | none => a = default

/-- A list of values that record one element each. -/
def Value.Lists {α : Type} (records : Value → α → Prop) (v : Value) (as : List α) : Prop :=
  ∃ vs, v = .list vs ∧ List.Forall₂ records vs as

def Value.IsText (v : Value) (s : Text) : Prop := v = .text s

/-- The line may be given as anything that counts as an integer. -/
inductive Position.Records : Value → Position → Prop where
  | record {fields : Fields} {file : Text} {line : Value} {n : Nat} (named : file ≠ [])
    (counted : 1 ≤ n) (filed : fields.get? "file_path" = some (.text file))
    (lined : fields.get? "line" = some line) (read : Checked.integer line = .ok (n : Int)) :
    Records (.object fields) ⟨⟨file, named⟩, n, counted⟩

inductive Part.Records : Value → Part → Prop where
  | literal {fields : Fields} {s : Text} (kind : fields.get? "kind" = some (.text "literal"))
    (text : fields.get? "text" = some (.text s)) : Records (.object fields) (.literal s)
  | reference {fields : Fields} {target indent : Text} (nonblank : Text.isBlank target = false)
    (kind : fields.get? "kind" = some (.text "reference"))
    (aimed : fields.get? "target" = some (.text target))
    (indented : fields.Gives "indent" [] Value.IsText indent) :
    Records (.object fields) (.reference ⟨target, nonblank⟩ indent)

inductive Chunk.Records : Value → Chunk → Prop where
  | narrative {fields : Fields} {s : Text} (kind : fields.get? "kind" = some (.text "narrative"))
    (text : fields.Gives "text" [] Value.IsText s) : Records (.object fields) (.narrative s)
  | definition {fields : Fields} {name : Text} {place : Value} {position : Position}
    {parts : List Part} (nonblank : Text.isBlank name = false)
    (kind : fields.get? "kind" = some (.text "definition"))
    (named : fields.get? "name" = some (.text name))
    (placed : fields.get? "position" = some place) (located : Position.Records place position)
    (body : fields.Gives "parts" [] (Value.Lists Part.Records) parts) :
    Records (.object fields) (.definition ⟨⟨name, nonblank⟩, position, parts⟩)

def Document.Records : Value → List Chunk → Prop := Value.Lists Chunk.Records

open Checked

variable {v : Value} {fields : Fields}

theorem optional_eq_ok_iff_gives {α : Type} {name : Text} {default a : α}
    {check : Value → Checked α} {records : Value → α → Prop}
    (h : ∀ v a, check v = .ok a ↔ records v a) :
    optional fields name default check = .ok a ↔ fields.Gives name default records a := by
  rw [optional_eq_ok_iff, Fields.Gives]
  cases fields.get? name <;> simp [h]

theorem text_eq_ok_iff_isText (v : Value) (s : Text) : text v = .ok s ↔ v.IsText s :=
  text_eq_ok_iff

theorem Name.check_eq_ok_iff {subject : Text} {n : Name} :
    Name.check subject v = .ok n ↔ v = .text n.text := by
  rw [Name.check, bind_eq_ok_iff]
  constructor
  · rintro ⟨s, hs, h⟩
    obtain ⟨rfl, -⟩ := textOf_eq_ok_iff.1 hs
    split at h
    · next n' hn =>
      cases h
      rw [Name.text_of_ofText? hn]
    · simp at h
  · rintro rfl
    refine ⟨n.text, textOf_eq_ok_iff.2 ⟨rfl, ?_, by simp⟩, by rw [Name.ofText?_text]⟩
    have hne : n.text ≠ [] := fun h => by simpa [h, Text.isBlank] using n.nonblank
    exact List.length_pos_iff.2 hne

namespace Position

theorem checkFile_eq_ok_iff {file : FileName} :
    checkFile v = .ok file ↔ v = .text file.val := by
  rw [checkFile, bind_eq_ok_iff]
  constructor
  · rintro ⟨s, hs, h⟩
    obtain ⟨rfl, -⟩ := textOf_eq_ok_iff.1 hs
    split at h
    · cases h
      rfl
    · simp at h
  · rintro rfl
    refine ⟨file.val, textOf_eq_ok_iff.2 ⟨rfl, ?_, by simp⟩, by rw [dif_pos file.property]⟩
    exact List.length_pos_iff.2 file.property

theorem check_eq_ok_iff {p : Position} : check v = .ok p ↔ Records v p := by
  rw [check, bind_eq_ok_iff]
  simp only [record_eq_ok_iff, bind_eq_ok_iff, both_eq_ok_iff, required_eq_ok_iff,
    checkFile_eq_ok_iff, natFrom_eq_ok_iff]
  constructor
  · rintro ⟨fields, rfl, ⟨file, line⟩, ⟨⟨_, hfile, rfl⟩, _, hline, hread⟩, h⟩
    cases h
    exact .record file.property line.property hfile hline hread
  · rintro ⟨named, counted, hfile, hline, hread⟩
    exact ⟨_, rfl, (⟨_, named⟩, ⟨_, counted⟩), ⟨⟨_, hfile, rfl⟩, _, hline, hread⟩, rfl⟩

end Position

namespace Part

theorem checkLiteral_eq_ok_iff {p : Part} :
    checkLiteral (.object fields) = .ok p ↔ kind "literal" fields = .ok () ∧
      ∃ s, fields.get? "text" = some (.text s) ∧ p = .literal s := by
  simp only [checkLiteral, record, bind_eq_ok_iff, both_eq_ok_iff, required_eq_ok_iff,
    text_eq_ok_iff]
  constructor
  · rintro ⟨_, hfields, ⟨_, s⟩, ⟨hkind, _, hs, rfl⟩, h⟩
    cases hfields
    cases h
    exact ⟨hkind, s, hs, rfl⟩
  · rintro ⟨hkind, s, hs, rfl⟩
    exact ⟨fields, rfl, ((), s), ⟨hkind, _, hs, rfl⟩, rfl⟩

theorem checkReference_eq_ok_iff {p : Part} :
    checkReference (.object fields) = .ok p ↔ kind "reference" fields = .ok () ∧
      ∃ target indent, fields.get? "target" = some (.text target.text) ∧
        fields.Gives "indent" [] Value.IsText indent ∧ p = .reference target indent := by
  simp only [checkReference, record, bind_eq_ok_iff, both_eq_ok_iff, required_eq_ok_iff,
    Name.check_eq_ok_iff, optional_eq_ok_iff_gives text_eq_ok_iff_isText]
  constructor
  · rintro ⟨_, hfields, ⟨_, target, indent⟩, ⟨hkind, ⟨_, htarget, rfl⟩, hindent⟩, h⟩
    cases hfields
    cases h
    exact ⟨hkind, target, indent, htarget, hindent, rfl⟩
  · rintro ⟨hkind, target, indent, htarget, hindent, rfl⟩
    exact ⟨fields, rfl, ((), target, indent), ⟨hkind, ⟨_, htarget, rfl⟩, hindent⟩, rfl⟩

theorem check_eq_ok_iff {p : Part} : check v = .ok p ↔ Records v p := by
  rw [check, tagged_pair_eq_ok_iff (by decide)]
  constructor
  · -- each alternative checks the kind again by which it was chosen
    rintro ⟨fields, rfl, ⟨hkind, h⟩ | ⟨hkind, h⟩⟩
    · obtain ⟨-, s, hs, rfl⟩ := checkLiteral_eq_ok_iff.1 h
      exact .literal hkind hs
    · obtain ⟨-, target, indent, htarget, hindent, rfl⟩ := checkReference_eq_ok_iff.1 h
      exact .reference target.nonblank hkind htarget hindent
  · intro h
    cases h with
    | @literal fields s kind text =>
      refine ⟨fields, rfl, .inl ⟨kind, checkLiteral_eq_ok_iff.2 ⟨?_, s, text, rfl⟩⟩⟩
      exact kind_eq_ok_iff.2 (.inl kind)
    | @reference fields target indent nonblank kind aimed indented =>
      refine ⟨fields, rfl, .inr ⟨kind, checkReference_eq_ok_iff.2
        ⟨?_, ⟨target, nonblank⟩, indent, aimed, indented, rfl⟩⟩⟩
      exact kind_eq_ok_iff.2 (.inl kind)

end Part

theorem lists_iff {α : Type} {check : Value → Checked α} {records : Value → α → Prop}
    (h : ∀ v a, check v = .ok a ↔ records v a) {vs : List Value} {as : List α} :
    items check 0 vs = .ok as ↔ Value.Lists records (.list vs) as := by
  simp only [items_eq_ok_iff, h, Value.Lists, Value.list.injEq, exists_eq_left']

namespace Definition

theorem checkParts_eq_ok_iff (v : Value) (parts : List Part) :
    checkParts v = .ok parts ↔ Value.Lists Part.Records v parts := by
  cases v with
  | list vs => exact lists_iff fun _ _ => Part.check_eq_ok_iff
  | _ => simp [checkParts, Value.Lists]

theorem check_eq_ok_iff {d : Definition} :
    check (.object fields) = .ok d ↔ kind "definition" fields = .ok () ∧
      fields.get? "name" = some (.text d.name.text) ∧
      (∃ place, fields.get? "position" = some place ∧ Position.Records place d.position) ∧
      fields.Gives "parts" [] (Value.Lists Part.Records) d.parts := by
  simp only [check, record, bind_eq_ok_iff, both_eq_ok_iff, required_eq_ok_iff,
    Name.check_eq_ok_iff, Position.check_eq_ok_iff, optional_eq_ok_iff_gives checkParts_eq_ok_iff]
  constructor
  · rintro ⟨_, hfields, ⟨_, name, position, parts⟩, ⟨hkind, ⟨_, hname, rfl⟩, hposition, hparts⟩, h⟩
    cases hfields
    cases h
    exact ⟨hkind, hname, hposition, hparts⟩
  · rintro ⟨hkind, hname, hposition, hparts⟩
    exact ⟨fields, rfl, ((), d.name, d.position, d.parts),
      ⟨hkind, ⟨_, hname, rfl⟩, hposition, hparts⟩, rfl⟩

end Definition

namespace Chunk

theorem checkNarrative_eq_ok_iff {c : Chunk} :
    checkNarrative (.object fields) = .ok c ↔ kind "narrative" fields = .ok () ∧
      ∃ s, fields.Gives "text" [] Value.IsText s ∧ c = .narrative s := by
  simp only [checkNarrative, record, bind_eq_ok_iff, both_eq_ok_iff,
    optional_eq_ok_iff_gives text_eq_ok_iff_isText]
  constructor
  · rintro ⟨_, hfields, ⟨_, s⟩, ⟨hkind, hs⟩, h⟩
    cases hfields
    cases h
    exact ⟨hkind, s, hs, rfl⟩
  · rintro ⟨hkind, s, hs, rfl⟩
    exact ⟨fields, rfl, ((), s), ⟨hkind, hs⟩, rfl⟩

theorem check_eq_ok_iff {c : Chunk} : check v = .ok c ↔ Records v c := by
  rw [check, tagged_pair_eq_ok_iff (by decide)]
  constructor
  · rintro ⟨fields, rfl, ⟨hkind, h⟩ | ⟨hkind, h⟩⟩
    · obtain ⟨-, s, hs, rfl⟩ := checkNarrative_eq_ok_iff.1 h
      exact .narrative hkind hs
    · obtain ⟨d, hd, rfl⟩ := map_eq_ok_iff.1 h
      obtain ⟨-, hname, ⟨place, hplace, hposition⟩, hparts⟩ := Definition.check_eq_ok_iff.1 hd
      exact .definition d.name.nonblank hkind hname hplace hposition hparts
  · intro h
    cases h with
    | @narrative fields s kind text =>
      refine ⟨fields, rfl, .inl ⟨kind, checkNarrative_eq_ok_iff.2 ⟨?_, s, text, rfl⟩⟩⟩
      exact kind_eq_ok_iff.2 (.inl kind)
    | @definition fields name place position parts nonblank kind named placed located body =>
      refine ⟨fields, rfl, .inr ⟨kind, map_eq_ok_iff.2 ⟨_, Definition.check_eq_ok_iff.2
        ⟨?_, named, ⟨place, placed, located⟩, body⟩, rfl⟩⟩⟩
      exact kind_eq_ok_iff.2 (.inl kind)

end Chunk

theorem Document.check_eq_ok_iff {chunks : List Chunk} :
    Document.check v = .ok chunks ↔ Document.Records v chunks := by
  cases v with
  | list vs => exact lists_iff fun _ _ => Chunk.check_eq_ok_iff
  | _ => simp [Document.check, Document.Records, Value.Lists]

theorem Position.records_toValue (p : Position) : Records p.toValue p :=
  .record p.file.property p.line_pos rfl rfl rfl

theorem Part.records_toValue (p : Part) : Records (p.toValue Empty.elim) p := by
  cases p with
  | literal s => exact .literal rfl rfl
  | reference target indent => exact .reference target.nonblank rfl rfl rfl
  | foreign x => exact x.elim

theorem Value.lists_map {α : Type} {records : Value → α → Prop} {write : α → Value}
    (h : ∀ a, records (write a) a) (as : List α) : Value.Lists records (.list (as.map write)) as :=
  ⟨_, rfl, List.forall₂_map_left_iff.2 (List.forall₂_same.2 fun a _ => h a)⟩

theorem Chunk.records_toValue (c : Chunk) : Records (c.toValue Empty.elim) c := by
  cases c with
  | narrative s => exact .narrative rfl rfl
  | definition d =>
    exact .definition d.name.nonblank rfl rfl rfl d.position.records_toValue
      (Value.lists_map Part.records_toValue d.parts)
  | foreign x => exact x.elim

theorem Document.check_toValue (chunks : List Chunk) :
    Document.check (Document.toValue chunks) = .ok chunks :=
  Document.check_eq_ok_iff.2 (Value.lists_map Chunk.records_toValue chunks)

/-- The names, the place and the line of a definition are not left empty. -/
structure Definition.Sound (d : Definition) : Prop where
  named : Text.isBlank d.name.text = false
  filed : d.position.file.val ≠ []
  counted : 1 ≤ d.position.line
  aimed : ∀ target indent, .reference target indent ∈ d.parts → Text.isBlank target.text = false

theorem Definition.sound (d : Definition) : d.Sound :=
  ⟨d.name.nonblank, d.position.file.property, d.position.line_pos, fun t _ _ => t.nonblank⟩

/-- A value is accepted as the document that it records, and as no other; written again, that
document is accepted as itself, and so is every document that was read from text. -/
theorem Document.accepted_roundTrip (v : Value) (chunks : List Chunk) :
    (Document.check v = .ok chunks ↔ Document.Records v chunks) ∧
    (Document.check v = .ok chunks →
      Document.check (Document.toValue chunks) = .ok chunks ∧
        ∀ d ∈ Document.definitions chunks, d.Sound) ∧
    ∀ file text, Document.parse file text = .ok chunks →
      Document.check (Document.toValue chunks) = .ok chunks :=
  ⟨Document.check_eq_ok_iff,
    fun _ => ⟨Document.check_toValue chunks, fun d _ => d.sound⟩,
    fun _ _ _ => Document.check_toValue chunks⟩

def laxRecords : Value :=
  .list [.object [("kind", .text "narrative"), ("line", .null)],
    .object [("position", .object [("line", .text " +0_3.0"), ("file_path", .text "doc")]),
      ("name", .text " A "), ("kind", .text "definition"),
      ("parts", .list [.object [("target", .text "B"), ("kind", .text "reference")]])]]

def laxChunks : List Chunk := [.narrative [], .definition (.after 2 " A " [.to "B" []])]

theorem laxRecords_roundTrip : Document.check laxRecords = .ok laxChunks ∧
    Document.check (Document.toValue laxChunks) = .ok laxChunks := by
  have hrecords : Document.Records laxRecords laxChunks := by
    refine ⟨_, rfl, .cons (.narrative rfl rfl) (.cons ?_ .nil)⟩
    refine .definition (by decide) rfl rfl rfl (.record (by decide) (by decide) rfl rfl rfl) ?_
    exact ⟨_, rfl, .cons (.reference (by decide) rfl rfl rfl) .nil⟩
  have haccepted := (Document.accepted_roundTrip laxRecords laxChunks).1.2 hrecords
  exact ⟨haccepted, ((Document.accepted_roundTrip laxRecords laxChunks).2.1 haccepted).1⟩

end Literate

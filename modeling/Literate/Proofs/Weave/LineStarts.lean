import Literate.Document.Basic
import Literate.Weave.Reporting
import Mathlib.Data.List.Basic
import Mathlib.Data.List.Induction

namespace Literate.Weave

variable {s t : Text} {parts : List Part} {p : Part} {d : Definition} {seen : List Text}

/-- What is written behind the text begins a line. -/
def AtLineStart (s : Text) : Prop := s = [] ∨ s.getLast? = some '\n'

instance (s : Text) : Decidable (AtLineStart s) := inferInstanceAs (Decidable (_ ∨ _))

theorem atLineStart_ended (s : Text) : AtLineStart (s ++ "\n") :=
  .inr (List.getLast?_append_of_ne_nil _ (by decide))

theorem atLineStart_append_of_ne_nil (h : t ≠ []) :
    AtLineStart (s ++ t) ↔ t.getLast? = some '\n' := by
  simp [AtLineStart, List.getLast?_append_of_ne_nil _ h, h]

theorem AtLineStart.append_iff (h : AtLineStart s) : AtLineStart (s ++ t) ↔ AtLineStart t := by
  cases t with
  | nil =>
    rw [List.append_nil]
    exact iff_of_true h (.inl rfl)
  | cons c t =>
    rw [atLineStart_append_of_ne_nil (List.cons_ne_nil c t)]
    simp [AtLineStart]

/-- The last literal with a text has no line end, and only empty literals follow it. -/
inductive EndsWithinLine : List Part → Prop where
  | literal (front : List Part) {s : Text} (text : s ≠ []) (unended : s.getLast? ≠ some '\n') :
    EndsWithinLine (front ++ [.literal s])
  | empty {front : List Part} (within : EndsWithinLine front) :
    EndsWithinLine (front ++ [.literal []])

/-- An empty literal is the last part, behind others that end within a line. -/
def HidesOpenLine (parts : List Part) : Prop :=
  ∃ front, parts = front ++ [.literal []] ∧ EndsWithinLine front

theorem not_endsWithinLine_nil : ¬EndsWithinLine [] := by
  intro h
  generalize hnil : ([] : List Part) = parts at h
  cases h <;> simp at hnil

theorem endsWithinLine_concat_iff : EndsWithinLine (parts ++ [p]) ↔
    (∃ s, p = .literal s ∧ s ≠ [] ∧ s.getLast? ≠ some '\n') ∨
      p = .literal [] ∧ EndsWithinLine parts := by
  constructor
  · intro h
    generalize hall : parts ++ [p] = all at h
    cases h with
    | @literal front s text unended =>
      obtain ⟨-, hlast⟩ := List.append_inj' hall rfl
      exact .inl ⟨s, List.singleton_inj.1 hlast, text, unended⟩
    | empty within =>
      obtain ⟨rfl, hlast⟩ := List.append_inj' hall rfl
      exact .inr ⟨List.singleton_inj.1 hlast, within⟩
  · rintro (⟨s, rfl, text, unended⟩ | ⟨rfl, within⟩)
    · exact .literal parts text unended
    · exact .empty within

theorem hidesOpenLine_concat_iff :
    HidesOpenLine (parts ++ [p]) ↔ p = .literal [] ∧ EndsWithinLine parts := by
  constructor
  · rintro ⟨front, hall, within⟩
    obtain ⟨rfl, hlast⟩ := List.append_inj' hall rfl
    exact ⟨List.singleton_inj.1 hlast, within⟩
  · rintro ⟨rfl, within⟩
    exact ⟨parts, rfl, within⟩

/-- A part is empty, or it ends its line, or it is a literal without a line end. -/
theorem markdownPart_cases (p : Part) :
    p = .literal [] ∨ (markdownPart p ≠ [] ∧ (markdownPart p).getLast? = some '\n') ∨
      ∃ s, p = .literal s ∧ s ≠ [] ∧ s.getLast? ≠ some '\n' := by
  cases p with
  | literal s =>
    by_cases hs : s = []
    · exact .inl (by rw [hs])
    by_cases hended : s.getLast? = some '\n'
    · exact .inr (.inl ⟨hs, hended⟩)
    · exact .inr (.inr ⟨s, rfl, hs, hended⟩)
  | reference target indent =>
    exact .inr (.inl ⟨List.append_ne_nil_of_right_ne_nil _ (by decide),
      List.getLast?_append_of_ne_nil _ (by decide)⟩)
  | foreign x => exact x.elim

theorem atLineStart_parts (parts : List Part) :
    AtLineStart (parts.flatMap markdownPart) ↔ ¬EndsWithinLine parts := by
  induction parts using List.reverseRecOn with
  | nil => exact iff_of_true (.inl rfl) not_endsWithinLine_nil
  | append_singleton parts p ih =>
    rw [List.flatMap_append, List.flatMap_singleton, endsWithinLine_concat_iff]
    obtain rfl | ⟨hne, hended⟩ | ⟨s, rfl, hne, hunended⟩ := markdownPart_cases p
    · -- an empty literal changes nothing
      simpa [markdownPart] using ih
    · rw [atLineStart_append_of_ne_nil hne]
      refine iff_of_true hended ?_
      rintro (⟨s, rfl, -, hunended⟩ | ⟨rfl, -⟩)
      · exact hunended hended
      · exact hne rfl
    · rw [markdownPart, atLineStart_append_of_ne_nil hne]
      exact iff_of_false hunended (not_not_intro (.inl ⟨s, rfl, hne, hunended⟩))

theorem atLineStart_markdownBody (parts : List Part) :
    AtLineStart (markdownBody parts) ↔ ¬HidesOpenLine parts := by
  obtain rfl | ⟨parts, p, rfl⟩ := List.eq_nil_or_concat parts
  · exact iff_of_true (.inl rfl) fun ⟨front, hnil, _⟩ => by simp at hnil
  rw [List.concat_eq_append, hidesOpenLine_concat_iff]
  have hbody : markdownBody (parts ++ [p]) =
      parts.flatMap markdownPart ++ (markdownPart p ++ missingLineEnd (markdownPart p)) := by
    simp [markdownBody]
  rw [hbody]
  obtain rfl | ⟨hne, hended⟩ | ⟨s, rfl, hne, hunended⟩ := markdownPart_cases p
  · simpa [markdownPart, missingLineEnd] using atLineStart_parts parts
  · have hnone : missingLineEnd (markdownPart p) = [] := by simp [missingLineEnd, hended]
    rw [hnone, List.append_nil, atLineStart_append_of_ne_nil hne]
    exact iff_of_true hended fun ⟨hempty, _⟩ => hne (by rw [hempty]; rfl)
  · have hone : missingLineEnd (markdownPart (.literal s)) = ['\n'] := by
      simp [missingLineEnd, markdownPart, hne, hunended]
    rw [hone, ← List.append_assoc]
    exact iff_of_true (atLineStart_ended _) fun ⟨hempty, _⟩ => hne (Part.literal.inj hempty)

theorem markdownFrom_append (language : Text) (seen : List Text) (front back : List Chunk) :
    markdownFrom language seen (front ++ back) = markdownFrom language seen front ++
      markdownFrom language (((Document.definitions front).map Definition.key).reverse ++ seen)
        back := by
  induction front generalizing seen with
  | nil => rfl
  | cons c front ih =>
    cases c with
    | narrative line =>
      have hnone : Document.definitions (.narrative line :: front) = Document.definitions front :=
        rfl
      simp [markdownFrom, ih, hnone]
    | definition d =>
      have hsome : Document.definitions (.definition d :: front) =
          d :: Document.definitions front := rfl
      simp [markdownFrom, ih, hsome]
    | foreign x => exact x.elim

theorem atLineStart_markdownFrom (language : Text) (seen : List Text) (chunks : List Chunk) :
    AtLineStart (markdownFrom language seen chunks) := by
  induction chunks generalizing seen with
  | nil => exact .inl rfl
  | cons c cs ih =>
    cases c with
    | narrative line => exact (atLineStart_ended line).append_iff.2 (ih seen)
    | definition d => exact (atLineStart_ended _).append_iff.2 (ih _)
    | foreign x => exact x.elim

/-- In the Markdown of a document every opening fence begins a line, and the closing one of a
definition does so exactly if its body does not hide an open line. A line end follows on every
closing fence, and what is written is empty or ends with one. -/
theorem fences_at_line_starts (extension : Text) :
    (∀ chunks : List Chunk, ∃ md, (markdownTraced extension chunks).result = .ok md ∧
      AtLineStart md) ∧
    ∀ (front back : List Chunk) (d : Definition), ∃ md before code after,
      (markdownTraced extension (front ++ .definition d :: back)).result = .ok md ∧
      md = before ++ (fenceMark ++ languageOf extension ++ "\n" ++
        (code ++ (fenceMark ++ "\n" ++ after))) ∧
      before = markdown extension front ∧
      code = markdownHeader (decide (d.key ∉ (Document.definitions front).map Definition.key)) d ++
        markdownBody d.parts ∧
      AtLineStart before ∧
      (AtLineStart (before ++ (fenceMark ++ languageOf extension ++ "\n" ++ code)) ↔
        ¬HidesOpenLine d.parts) := by
  refine ⟨fun chunks => ⟨_, result_markdownTraced extension chunks,
    atLineStart_markdownFrom _ _ _⟩, fun front back d => ?_⟩
  have hbefore : AtLineStart (markdown extension front) := atLineStart_markdownFrom _ _ _
  refine ⟨_, markdown extension front, _, markdownFrom (languageOf extension)
    (d.key :: (((Document.definitions front).map Definition.key).reverse ++ [])) back,
    result_markdownTraced extension _, ?_, rfl, rfl, hbefore, ?_⟩
  · rw [markdown, markdownFrom_append, markdownFrom, markdownDefinition]
    simp [markdown]
  · -- the opening fence and the header end their lines, so that only the body can leave one open
    have hheader : AtLineStart (fenceMark ++ languageOf extension ++ "\n" ++ markdownHeader
        (decide (d.key ∉ (Document.definitions front).map Definition.key)) d) := by
      rw [markdownHeader, ← List.append_assoc]
      exact atLineStart_ended _
    rw [hbefore.append_iff, ← List.append_assoc, hheader.append_iff, atLineStart_markdownBody]

def pieced : Definition := .after 0 "a" [.literal "x", .literal []]

/-- The closing fence stands on the line of the literal. -/
theorem closing_fence_within_line :
    ∃ md before, (markdownTraced ".c" [Chunk.definition pieced]).result = .ok md ∧
      md = before ++ (fenceMark ++ "\n") ∧ before = "\x60\x60\x60c\n<< a >>=\nx" ∧
      ¬AtLineStart before ∧ HidesOpenLine pieced.parts := by
  have hhides : HidesOpenLine pieced.parts :=
    ⟨[.literal "x"], rfl, .literal [] (by decide) (by decide)⟩
  exact ⟨_, _, result_markdownTraced ".c" _, by decide, rfl, by decide, hhides⟩

end Literate.Weave

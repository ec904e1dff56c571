import Literate.Document.Reading
import Literate.Proofs.Document.Readable

namespace Literate.Document

open Text
open Checked (map_eq_ok_iff)

variable {file : FileName} {passed : Nat} {line n indent : Text} {ls rest body closing : List Text}
  {parts : List Part} {chunks : List Chunk}

/-- A header, where `n` stands in the place of the name. -/
def IsHeader (line n : Text) : Prop := trim line = "<<" ++ n ++ ">>="

def IsEndLine (line : Text) : Prop := trim line = "@"

/-- A mark around `n`, alone on its line but for spaces and tabs. -/
structure IsReference (line indent n : Text) : Prop where
  marked : ∃ trail : Text, line = indent ++ ("<<" ++ n ++ ">>") ++ trail ∧
    ∀ c ∈ trail, c = ' ' ∨ c = '\t'
  indented : ∀ c ∈ indent, c = ' ' ∨ c = '\t'
  nonblank : isBlank n = false
  noHeader : ∀ m, ¬IsHeader line m

def HasBlankName (line : Text) : Prop := ∃ n, IsHeader line n ∧ isBlank n = true

theorem header?_iff : header? line = some n ↔ IsHeader line n := header?_eq_some_iff

theorem header?_eq_none_iff : header? line = none ↔ ∀ n, ¬IsHeader line n := by
  simp [Option.eq_none_iff_forall_ne_some, header?_iff]

theorem isEnd_iff : isEnd line = true ↔ IsEndLine line := by
  simp [isEnd, IsEndLine]

theorem isIndentChar_iff {c : Char} : isIndentChar c = true ↔ c = ' ' ∨ c = '\t' := by
  simp [isIndentChar]

theorem ofText?_trim_eq_none_iff : Name.ofText? (trim n) = none ↔ isBlank n = true := by
  simp [Name.ofText?]

theorem ofText?_trim_eq_some_iff {name : Name} :
    Name.ofText? (trim n) = some name ↔ name.text = trim n :=
  ⟨Name.text_of_ofText?, fun h => by rw [← h, Name.ofText?_text]⟩

theorem reference?_iff {target : Name} (hh : header? line = none) :
    reference? line = some (target, indent) ↔
      ∃ n, IsReference line indent n ∧ target.text = trim n := by
  constructor
  · intro h
    simp only [reference?, Option.bind_eq_bind, Option.bind_eq_some_iff] at h
    obtain ⟨rest, hrest, n, hn, target', htarget, he⟩ := h
    obtain ⟨rfl, rfl⟩ := Prod.mk.inj (Option.some.inj he)
    have htext := Name.text_of_ofText? htarget
    have hblank : isBlank n = false := by
      rw [← isBlank_trim, ← htext]
      exact target'.nonblank
    -- only spaces and tabs are dropped behind the closing mark
    obtain ⟨trail, hsplit, htrail⟩ :=
      exists_dropEndWhile_append isIndentChar (line.dropWhile isIndentChar)
    refine ⟨n, ⟨⟨trail, ?_, fun c hc => isIndentChar_iff.1 (htrail c hc)⟩,
      fun c hc => isIndentChar_iff.1 (List.mem_takeWhile_imp hc), hblank,
      header?_eq_none_iff.1 hh⟩, htext⟩
    rw [afterPrefix?_eq_some hrest, beforeSuffix?_eq_some hn] at hsplit
    calc line = line.takeWhile isIndentChar ++ line.dropWhile isIndentChar :=
          (List.takeWhile_append_dropWhile).symm
      _ = line.takeWhile isIndentChar ++ ("<<" ++ n ++ ">>") ++ trail := by
          rw [hsplit]
          simp
  · rintro ⟨n, ⟨⟨trail, rfl, htrail⟩, hindent, -, -⟩, htext⟩
    rw [reference?_marked (fun c hc => isIndentChar_iff.2 (hindent c hc))
      fun c hc => isIndentChar_iff.2 (htrail c hc), ofText?_trim_eq_some_iff.2 htext]
    rfl

/-- A line of a body and the part that it spells. -/
inductive BodyLine : Text → Part → Prop where
  | reference {line indent n : Text} {target : Name} (isReference : IsReference line indent n)
      (named : target.text = trim n) (noEnd : ¬IsEndLine line) :
      BodyLine line (.reference target indent)
  | literal {line : Text} (noHeader : ∀ n, ¬IsHeader line n) (noEnd : ¬IsEndLine line)
      (noReference : ∀ indent n, ¬IsReference line indent n) :
      BodyLine line (.literal (line ++ "\n"))

/-- What comes between a body and the rest of the lines: an end line, or nothing where the rest
begins with a header or is over. -/
inductive Closes : List Text → List Text → Prop where
  | ending {line : Text} {rest : List Text} (isEnd : IsEndLine line) : Closes [line] rest
  | header {line n : Text} {rest : List Text} (isHeader : IsHeader line n) :
      Closes [] (line :: rest)
  | finish : Closes [] []

/-- The lines behind `passed` ones spell the chunks: a line outside of definitions is prose, and a
definition is a header, the lines of its body and what closes it. -/
inductive Spells (file : FileName) : Nat → List Text → List Chunk → Prop where
  | nil {passed : Nat} : Spells file passed [] []
  | narrative {passed : Nat} {line : Text} {rest : List Text} {chunks : List Chunk}
      (noHeader : ∀ n, ¬IsHeader line n) (later : Spells file (passed + 1) rest chunks) :
      Spells file passed (line :: rest) (.narrative line :: chunks)
  | definition {passed : Nat} {header n : Text} {name : Name} {body closing rest : List Text}
      {parts : List Part} {chunks : List Chunk} (isHeader : IsHeader header n)
      (named : name.text = trim n) (isBody : List.Forall₂ BodyLine body parts)
      (closes : Closes closing rest)
      (later : Spells file (passed + 1 + body.length + closing.length) rest chunks) :
      Spells file passed (header :: (body ++ closing ++ rest))
        (.definition ⟨name, ⟨file, passed + 1, Nat.succ_pos _⟩, parts⟩ :: chunks)

theorem header?_of_isEndLine (h : IsEndLine line) : header? line = none := by
  unfold header?
  rw [h]
  rfl

theorem bodyLine_iff {part : Part} :
    BodyLine line part ↔ (header? line = none ∧ isEnd line = false) ∧ bodyPart line = part := by
  constructor
  · rintro (⟨isReference, named, noEnd⟩ | ⟨noHeader, noEnd, noReference⟩)
    · have hh := header?_eq_none_iff.2 isReference.noHeader
      refine ⟨⟨hh, Bool.eq_false_iff.2 fun he => noEnd (isEnd_iff.1 he)⟩, ?_⟩
      rw [bodyPart, (reference?_iff hh).2 ⟨_, isReference, named⟩]
    · have hh := header?_eq_none_iff.2 noHeader
      refine ⟨⟨hh, Bool.eq_false_iff.2 fun he => noEnd (isEnd_iff.1 he)⟩, ?_⟩
      cases hr : reference? line with
      | none =>
        rw [bodyPart, hr]
        rfl
      | some r =>
        obtain ⟨n, hn, -⟩ := (reference?_iff hh).1 hr
        exact absurd hn (noReference _ n)
  · rintro ⟨⟨hh, he⟩, rfl⟩
    have noEnd : ¬IsEndLine line := fun h => by simp [isEnd_iff.2 h] at he
    unfold bodyPart
    cases hr : reference? line with
    | some r =>
      obtain ⟨n, hn, named⟩ := (reference?_iff hh).1 hr
      exact .reference hn named noEnd
    | none =>
      refine .literal (header?_eq_none_iff.1 hh) noEnd fun indent n hn => ?_
      -- a reference that is marked and not blank has a name, so that the reader would have taken it
      obtain ⟨name, hname⟩ : ∃ name, Name.ofText? (trim n) = some name := by
        rw [← Option.ne_none_iff_exists', ne_eq, ofText?_trim_eq_none_iff, hn.nonblank]
        simp
      have hsome := (reference?_iff hh).2 ⟨n, hn, ofText?_trim_eq_some_iff.1 hname⟩
      simp [hr] at hsome

/-- Behind a header, the lines divide into a body, what closes it and the rest. -/
theorem exists_body (ls : List Text) : ∃ body parts closing rest,
    ls = body ++ closing ++ rest ∧ List.Forall₂ BodyLine body parts ∧ Closes closing rest := by
  induction ls with
  | nil => exact ⟨[], [], [], [], rfl, .nil, .finish⟩
  | cons line ls ih =>
    cases hh : header? line with
    | some n => exact ⟨[], [], [], line :: ls, rfl, .nil, .header (header?_iff.1 hh)⟩
    | none =>
      cases he : isEnd line with
      | true => exact ⟨[], [], [line], ls, rfl, .nil, .ending (isEnd_iff.1 he)⟩
      | false =>
        obtain ⟨body, parts, closing, rest, rfl, hbody, hcloses⟩ := ih
        have hline : BodyLine line (bodyPart line) := bodyLine_iff.2 ⟨⟨hh, he⟩, rfl⟩
        exact ⟨line :: body, _, closing, rest, rfl, .cons hline hbody, hcloses⟩

theorem readLines_bodyLines (h : List.Forall₂ BodyLine body parts) (q : Pending) :
    readLines file passed (some q) (body ++ rest) =
      readLines file (passed + body.length) (some { q with parts := q.parts ++ parts }) rest := by
  have hlines : (∀ l ∈ body, header? l = none ∧ isEnd l = false) ∧ body.map bodyPart = parts := by
    induction h with
    | nil => exact ⟨by simp, rfl⟩
    | cons hline _ ih =>
      obtain ⟨hplain, rfl⟩ := bodyLine_iff.1 hline
      exact ⟨List.forall_mem_cons.2 ⟨hplain, ih.1⟩, by rw [List.map_cons, ih.2]⟩
  rw [readLines_body hlines.1, hlines.2]

theorem Closes.readLines_eq (h : Closes closing rest) (p : Pending) :
    readLines file passed (some p) (closing ++ rest) =
      (readLines file (passed + closing.length) none rest).map (p.close :: ·) := by
  cases h with
  | @ending line rest isEndLine =>
    have hstep : ReadStep file passed (some p) line [p.close] none :=
      .ending (header?_of_isEndLine isEndLine) (isEnd_iff.2 isEndLine)
    exact hstep.readLines_cons
  | @header line n rest isHeader =>
    have hh := header?_iff.2 isHeader
    rw [List.nil_append, List.length_nil, Nat.add_zero]
    cases hn : Name.ofText? (trim n) with
    | none => rw [readLines_of_blank hh hn, readLines_of_blank hh hn]; rfl
    | some name =>
      have hopen (pending : Option Pending) : ReadStep file passed pending line (closed pending)
          (some ⟨name, ⟨file, passed + 1, Nat.succ_pos _⟩, []⟩) := .header hh hn
      rw [(hopen _).readLines_cons, (hopen _).readLines_cons]
      cases readLines file (passed + 1) _ rest <;> rfl
  | finish => rfl

theorem readLines_definition {name : Name} (isHeader : IsHeader line n)
    (named : name.text = trim n) (isBody : List.Forall₂ BodyLine body parts)
    (closes : Closes closing rest) :
    readLines file passed none (line :: (body ++ closing ++ rest)) =
      (readLines file (passed + 1 + body.length + closing.length) none rest).map
        (.definition ⟨name, ⟨file, passed + 1, Nat.succ_pos _⟩, parts⟩ :: ·) := by
  have hopen : ReadStep file passed none line []
      (some ⟨name, ⟨file, passed + 1, Nat.succ_pos _⟩, []⟩) :=
    .header (header?_iff.2 isHeader) (ofText?_trim_eq_some_iff.2 named)
  rw [hopen.readLines_cons, map_nil_append, List.append_assoc, readLines_bodyLines isBody,
    closes.readLines_eq]
  rfl

theorem Spells.readLines_eq (h : Spells file passed ls chunks) :
    readLines file passed none ls = .ok chunks := by
  induction h with
  | nil => rfl
  | @narrative passed line rest chunks noHeader _ ih =>
    have hstep : ReadStep file passed none line [.narrative line] none :=
      .narrative (header?_eq_none_iff.2 noHeader)
    rw [hstep.readLines_cons, ih]
    rfl
  | definition isHeader named isBody closes _ ih =>
    rw [readLines_definition isHeader named isBody closes, ih]
    rfl

theorem spells_of_readLines (h : readLines file passed none ls = .ok chunks) :
    Spells file passed ls chunks := by
  -- a definition takes several lines at once
  induction hn : ls.length using Nat.strong_induction_on generalizing ls passed chunks with
  | _ m ih =>
    cases ls with
    | nil =>
      cases h
      exact .nil
    | cons line ls =>
      cases hh : header? line with
      | none =>
        have hstep : ReadStep file passed none line [.narrative line] none := .narrative hh
        rw [hstep.readLines_cons] at h
        obtain ⟨later, hlater, rfl⟩ := map_eq_ok_iff.1 h
        exact .narrative (header?_eq_none_iff.1 hh) (ih _ (hn ▸ Nat.lt_succ_self _) hlater rfl)
      | some n =>
        cases hname : Name.ofText? (trim n) with
        | none => simp [readLines_of_blank hh hname] at h
        | some name =>
          obtain ⟨body, parts, closing, rest, rfl, hbody, hcloses⟩ := exists_body ls
          have isHeader := header?_iff.1 hh
          have named := ofText?_trim_eq_some_iff.1 hname
          rw [readLines_definition isHeader named hbody hcloses] at h
          obtain ⟨later, hlater, rfl⟩ := map_eq_ok_iff.1 h
          refine .definition isHeader named hbody hcloses (ih _ ?_ hlater rfl)
          rw [← hn]
          simp only [List.length_cons, List.length_append]
          omega

theorem ReadStep.not_hasBlankName {pending pending' : Option Pending} {done : List Chunk}
    (h : ReadStep file passed pending line done pending') : ¬HasBlankName line := by
  rintro ⟨n, isHeader, blank⟩
  have hh := header?_iff.2 isHeader
  cases h with
  | header isHeader' named =>
    rw [hh, Option.some.injEq] at isHeader'
    subst isHeader'
    simp [ofText?_trim_eq_none_iff.2 blank] at named
  | narrative noHeader => simp [hh] at noHeader
  | ending noHeader => simp [hh] at noHeader
  | body noHeader => simp [hh] at noHeader

/-- Reading fails at the first header with a blank name, whatever is being read there. -/
theorem readLines_eq_error_iff {pending : Option Pending} {e : BlankHeader} :
    readLines file passed pending ls = .error e ↔
      ∃ front line back, ls = front ++ line :: back ∧ (∀ l ∈ front, ¬HasBlankName l) ∧
        HasBlankName line ∧ e = ⟨passed + front.length + 1⟩ := by
  induction ls generalizing passed pending with
  | nil => simp [readLines]
  | cons line ls ih =>
    -- the line in hand is read and a later one is blamed, or it is the first bad header
    obtain ⟨done, pending', hstep⟩ | ⟨n, hh, hn⟩ := readStep_or_blank file passed pending line
    · rw [hstep.readLines_cons, map_eq_error_iff, ih]
      constructor
      · rintro ⟨front, bad, back, rfl, hfront, hbad, rfl⟩
        refine ⟨line :: front, bad, back, rfl, ?_, hbad, ?_⟩
        · exact List.forall_mem_cons.2 ⟨hstep.not_hasBlankName, hfront⟩
        · rw [List.length_cons, Nat.add_assoc passed 1, Nat.add_comm 1]
      · rintro ⟨front, bad, back, hsplit, hfront, hbad, rfl⟩
        cases front with
        | nil =>
          obtain ⟨rfl, rfl⟩ := List.cons.inj hsplit
          exact absurd hbad hstep.not_hasBlankName
        | cons first front =>
          obtain ⟨rfl, rfl⟩ := List.cons.inj hsplit
          refine ⟨front, bad, back, rfl, (List.forall_mem_cons.1 hfront).2, hbad, ?_⟩
          rw [List.length_cons, Nat.add_assoc passed 1, Nat.add_comm 1]
    · have hbad : HasBlankName line := ⟨n, header?_iff.1 hh, ofText?_trim_eq_none_iff.1 hn⟩
      rw [readLines_of_blank hh hn, Except.error.injEq]
      constructor
      · rintro rfl
        exact ⟨[], line, ls, rfl, by simp, hbad, rfl⟩
      · rintro ⟨front, bad, back, hsplit, hfront, -, rfl⟩
        cases front with
        | nil => rfl
        | cons first front =>
          obtain ⟨rfl, rfl⟩ := List.cons.inj hsplit
          exact absurd hbad (hfront _ List.mem_cons_self)

/-- A text in a named file is read unless some header has a blank name, and then the first such
line is reported. What is read is what the lines spell, and the lines are all of the text. -/
theorem read_exactly_spelled (file : FileName) (text : Text) :
    (∀ fault, (read (.text text) (.text file.val)).result = .error fault ↔
      ∃ front line back, sourceLines text = front ++ line :: back ∧
        (∀ l ∈ front, ¬HasBlankName l) ∧ HasBlankName line ∧
        fault = .blankHeader (.text file.val) (front.length + 1)) ∧
      (∀ chunks, (read (.text text) (.text file.val)).result = .ok chunks ↔
        Spells file 0 (sourceLines text) chunks) ∧
      (∀ l ∈ sourceLines text, '\n' ∉ l) ∧
      endedLines (sourceLines text) = ended (unixNewlines text) := by
  refine ⟨fun fault => ?_, fun chunks => ?_, fun l hl => newline_not_mem_sourceLines hl,
    endedLines_sourceLines text⟩
  · rw [result_read]
    constructor
    · intro h
      cases hp : parse file text with
      | ok chunks => simp [hp, Except.mapError] at h
      | error e =>
        obtain ⟨front, line, back, hsplit, hfront, hbad, rfl⟩ := readLines_eq_error_iff.1 hp
        refine ⟨front, line, back, hsplit, hfront, hbad, ?_⟩
        rw [hp, Except.mapError, Except.error.injEq, Nat.zero_add] at h
        exact h.symm
    · rintro ⟨front, line, back, hsplit, hfront, hbad, rfl⟩
      have hp : parse file text = .error ⟨0 + front.length + 1⟩ :=
        readLines_eq_error_iff.2 ⟨front, line, back, hsplit, hfront, hbad, rfl⟩
      rw [hp, Nat.zero_add]
      rfl
  · have hok : (parse file text).mapError (fun b => Fault.blankHeader (.text file.val) b.line) =
        .ok chunks ↔ parse file text = .ok chunks := by
      cases parse file text <;> simp [Except.mapError]
    rw [result_read, hok]
    exact ⟨spells_of_readLines, Spells.readLines_eq⟩

example : parse docFile "<< a >>=\n<<>>\n@\n<<\t>>=\n<<>>=\n" = .error ⟨4⟩ := by decide

end Literate.Document

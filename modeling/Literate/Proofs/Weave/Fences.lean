import Literate.Markup.Segment
import Literate.Proofs.Document.Grammar
import Literate.Proofs.Document.RoundTrip
import Literate.Proofs.Markup.Blocks
import Literate.Weave.Page
import Literate.Weave.Reporting

namespace Literate

open Document Text

variable {file : FileName} {passed : Nat} {line : Text} {ls : List Text} {chunks : List Chunk}

inductive Chunk.OnLines : Chunk → Prop where
  | narrative {line : Text} (oneLine : '\n' ∉ line) : OnLines (.narrative line)
  | definition {d : Definition} (oneLine : '\n' ∉ d.key) (body : ∀ p ∈ d.parts, p.OnLine) :
      OnLines (.definition d)

namespace Document

theorem BodyLine.onLine {part : Part} (h : BodyLine line part) (hline : '\n' ∉ line) :
    part.OnLine := by
  cases h with
  | @reference indent n target isReference named noEnd =>
    refine .reference (fun hkey => hline ?_)
      fun c hc => isIndentChar_iff.2 (isReference.indented c hc)
    obtain ⟨trail, rfl, -⟩ := isReference.marked
    have hn : '\n' ∈ n := mem_of_mem_trim (named ▸ mem_of_mem_trim hkey)
    simp [hn]
  | literal => exact .literal hline

theorem IsHeader.newline_notMem {n : Text} {name : Name} (h : IsHeader line n)
    (named : name.text = trim n) (hline : '\n' ∉ line) : '\n' ∉ name.key := by
  intro hkey
  have hn : '\n' ∈ n := mem_of_mem_trim (named ▸ mem_of_mem_trim hkey)
  refine hline (mem_of_mem_trim ?_)
  rw [h]
  simp [hn]

theorem onLine_of_bodyLines {body : List Text} {parts : List Part}
    (h : List.Forall₂ BodyLine body parts) (hbody : ∀ l ∈ body, '\n' ∉ l) :
    ∀ p ∈ parts, p.OnLine := by
  induction h with
  | nil => simp
  | cons hline _ ih =>
    obtain ⟨hfirst, hrest⟩ := List.forall_mem_cons.1 hbody
    exact List.forall_mem_cons.2 ⟨hline.onLine hfirst, ih hrest⟩

theorem Spells.onLines (h : Spells file passed ls chunks) (hls : ∀ l ∈ ls, '\n' ∉ l) :
    ∀ c ∈ chunks, c.OnLines := by
  induction h with
  | nil => simp
  | narrative noHeader later ih =>
    obtain ⟨hline, hrest⟩ := List.forall_mem_cons.1 hls
    exact List.forall_mem_cons.2 ⟨.narrative hline, ih hrest⟩
  | definition isHeader named isBody closes later ih =>
    -- the lines of the body are between the header and what closes the definition
    obtain ⟨hheader, hlines⟩ := List.forall_mem_cons.1 hls
    refine List.forall_mem_cons.2 ⟨.definition (isHeader.newline_notMem named hheader) ?_,
      ih fun l hl => hlines l (List.mem_append_right _ hl)⟩
    exact onLine_of_bodyLines isBody fun l hl =>
      hlines l (List.mem_append_left _ (List.mem_append_left _ hl))

theorem onLines_of_parse {text : Text} (h : parse file text = .ok chunks) :
    ∀ c ∈ chunks, c.OnLines :=
  (spells_of_readLines h).onLines fun _ hl => newline_not_mem_sourceLines hl

end Document

theorem newline_notMem_markedName {n : Name} (h : '\n' ∉ n.key) : '\n' ∉ markedName n := by
  simpa [markedName] using h

theorem Part.OnLine.newline_notMem_line {p : Part} (h : p.OnLine) : '\n' ∉ p.line := by
  cases h with
  | literal oneLine => simpa [Part.line] using oneLine
  | reference oneLine blank =>
    intro hn
    obtain hn | hn := List.mem_append.1 hn
    · exact absurd (blank _ hn) (by decide)
    · exact newline_notMem_markedName oneLine hn

namespace Weave

variable {language : Text} {seen : List Text} {d : Definition} {first : Bool}

/-- The lines of a definition between its fences. -/
def codeLines (first : Bool) (d : Definition) : List Text :=
  (markedName d.name ++ operator first) :: d.parts.map Part.line

/-- The lines of a document when the keys of `seen` have been defined already; a language may go on
over several lines. -/
def markdownLines (language : Text) (seen : List Text) : List Chunk → List Text
  | [] => []
  | .narrative line :: cs => line :: markdownLines language seen cs
  | .definition d :: cs =>
    lines (fenceMark ++ language) ++ (codeLines (decide (d.key ∉ seen)) d ++
      fenceMark :: markdownLines language (d.key :: seen) cs)

theorem markdownLines_append (language : Text) (seen : List Text) (front back : List Chunk) :
    markdownLines language seen (front ++ back) = markdownLines language seen front ++
      markdownLines language (((definitions front).map Definition.key).reverse ++ seen) back := by
  induction front generalizing seen with
  | nil => rfl
  | cons c front ih =>
    cases c with
    | narrative line =>
      have hnone : definitions (.narrative line :: front) = definitions front := rfl
      simp [markdownLines, ih, hnone]
    | definition d =>
      have hsome : definitions (.definition d :: front) = d :: definitions front := rfl
      simp [markdownLines, ih, hsome]
    | foreign x => exact x.elim

theorem markdownBody_eq {parts : List Part} (h : ∀ p ∈ parts, p.OnLine) :
    markdownBody parts = endedLines (parts.map Part.line) := by
  -- what was read ends its last line, so that none is added before the closing fence
  have hended : missingLineEnd ((parts.getLast?.map markdownPart).getD []) = [] := by
    cases hlast : parts.getLast? with
    | none => rfl
    | some p => simp [missingLineEnd, (h p (List.mem_of_getLast? hlast)).markdownPart_eq]
  rw [markdownBody, flatMap_markdownPart h, hended, List.append_nil]

theorem markdownHeader_append_body (h : ∀ p ∈ d.parts, p.OnLine) :
    markdownHeader first d ++ markdownBody d.parts = endedLines (codeLines first d) := by
  rw [markdownBody_eq h]
  cases first <;> simp [markdownHeader, codeLines, endedLines, markedName, operator, Definition.key]

theorem markdownFrom_eq {chunks : List Chunk} (h : ∀ c ∈ chunks, c.OnLines) :
    markdownFrom language seen chunks = endedLines (markdownLines language seen chunks) := by
  induction chunks generalizing seen with
  | nil => rfl
  | cons c cs ih =>
    obtain ⟨hc, hcs⟩ := List.forall_mem_cons.1 h
    cases hc with
    | narrative oneLine =>
      rw [markdownFrom, markdownLines, ih hcs]
      simp [endedLines]
    | @definition d oneLine body =>
      have hopening : endedLines (lines (fenceMark ++ language)) = fenceMark ++ language ++ "\n" :=
        endedLines_splitOn _
      have hcode : endedLines (codeLines (decide (d.key ∉ seen)) d) =
          markdownHeader (decide (d.key ∉ seen)) d ++ markdownBody d.parts :=
        (markdownHeader_append_body body).symm
      have hclosing (ls : List Text) : endedLines (fenceMark :: ls) =
          fenceMark ++ "\n" ++ endedLines ls := rfl
      rw [markdownFrom, markdownLines, endedLines_append, endedLines_append, hopening, hcode,
        hclosing, ← ih hcs, markdownDefinition]
      simp only [List.append_assoc]

theorem newline_notMem_codeLines (oneLine : '\n' ∉ d.key) (body : ∀ p ∈ d.parts, p.OnLine) :
    ∀ l ∈ codeLines first d, '\n' ∉ l := by
  refine List.forall_mem_cons.2 ⟨fun hn => ?_, fun l hl => ?_⟩
  · obtain hn | hn := List.mem_append.1 hn
    · exact newline_notMem_markedName oneLine hn
    · cases first <;> exact absurd hn (by decide)
  · obtain ⟨p, hp, rfl⟩ := List.mem_map.1 hl
    exact (body p hp).newline_notMem_line

theorem newline_notMem_markdownLines {chunks : List Chunk} (h : ∀ c ∈ chunks, c.OnLines) :
    ∀ l ∈ markdownLines language seen chunks, '\n' ∉ l := by
  induction chunks generalizing seen with
  | nil => simp [markdownLines]
  | cons c cs ih =>
    obtain ⟨hc, hcs⟩ := List.forall_mem_cons.1 h
    cases hc with
    | narrative oneLine => exact List.forall_mem_cons.2 ⟨oneLine, ih hcs⟩
    | definition oneLine body =>
      intro l hl
      obtain hl | hl := List.mem_append.1 hl
      · exact fun hn => (of_mem_splitOn hl _ hn).2 rfl
      obtain hl | hl := List.mem_append.1 hl
      · exact newline_notMem_codeLines oneLine body l hl
      obtain rfl | hl := List.mem_cons.1 hl
      · decide
      · exact ih hcs l hl

theorem lines_markdown {extension : Text} {chunks : List Chunk} (h : ∀ c ∈ chunks, c.OnLines) :
    lines (markdown extension chunks) = markdownLines (languageOf extension) [] chunks ++ [[]] := by
  rw [markdown, markdownFrom_eq h, lines_endedLines (newline_notMem_markdownLines h)]

open Markup

/-- A line of code that a reader takes for the end of a fence. -/
def looksClosing : Part → Bool
  | .literal s => closesFence fenceMark s
  | .reference _ _ => false

def HoldsFence (d : Definition) : Prop := ∃ p ∈ d.parts, looksClosing p = true

instance (d : Definition) : Decidable (HoldsFence d) :=
  inferInstanceAs (Decidable (∃ p ∈ d.parts, looksClosing p = true))

theorem closesFence_of_cons {c : Char} {s : Text} (htrim : trim line = c :: s) (hc : c ≠ '\x60') :
    closesFence fenceMark line = false := by
  rw [closesFence, htrim]
  simp [startsWith, fenceMark, List.replicate, List.isPrefixOf_cons_cons, Ne.symm hc]

theorem closesFence_header (n : Name) (first : Bool) :
    closesFence fenceMark (markedName n ++ operator first) = false := by
  obtain ⟨s, hs⟩ : ∃ s : Text, markedName n ++ operator first = '<' :: (s ++ ['=']) := by
    cases first
    · exact ⟨"< " ++ n.key ++ " >>+", by simp [markedName, operator]⟩
    · exact ⟨"< " ++ n.key ++ " >>", by simp [markedName, operator]⟩
  have htrim : trim ('<' :: (s ++ ['='])) = '<' :: (s ++ ['=']) :=
    trim_cons_concat (by decide) (by decide)
  rw [hs]
  exact closesFence_of_cons htrim (by decide)

theorem closesFence_reference {target : Name} {indent : Text}
    (blank : ∀ c ∈ indent, isIndentChar c = true) :
    closesFence fenceMark (referenceLine target indent) = false :=
  closesFence_of_cons ((trim_referenceLine blank).trans (markedName_eq_cons_concat target))
    (by decide)

theorem closesFence_line {p : Part} (h : p.OnLine) :
    closesFence fenceMark p.line = looksClosing p := by
  cases h with
  | @literal line oneLine =>
    have htrim : trim (line ++ ['\n']) = trim line := trim_append_blank (by decide)
    simp [Part.line, looksClosing, closesFence, htrim]
  | reference oneLine blank => exact closesFence_reference blank

/-- Headers and references are never taken for the end of a fence. -/
theorem codeLines_open_iff (body : ∀ p ∈ d.parts, p.OnLine) :
    (∀ l ∈ codeLines first d, closesFence fenceMark l = false) ↔ ¬HoldsFence d := by
  have hparts : (∀ l ∈ d.parts.map Part.line, closesFence fenceMark l = false) ↔
      ∀ p ∈ d.parts, looksClosing p = false := by
    rw [List.forall_mem_map]
    exact forall₂_congr fun p hp => by rw [closesFence_line (body p hp)]
  have hheader : closesFence fenceMark (markedName d.name ++ operator first) = false :=
    closesFence_header d.name first
  rw [codeLines, List.forall_mem_cons, hparts, HoldsFence]
  simp [hheader]

theorem takeWhile_eq_iff {p : Text → Bool} {front back : List Text} {l : Text} (hl : p l = false) :
    (front ++ l :: back).takeWhile p = front ↔ ∀ x ∈ front, p x = true := by
  constructor
  · intro h x hx
    rw [← h] at hx
    exact List.mem_takeWhile_imp hx
  · intro h
    rw [List.takeWhile_append_of_pos h, List.takeWhile_cons_of_neg (by simp [hl]), List.append_nil]

theorem closesFence_fenceMark : closesFence fenceMark fenceMark = true := by decide

/-- What a reader takes for the name of the language. -/
def shownLanguage (language : Text) : Text :=
  (language.dropWhile isIndentChar).takeWhile fun c => c != '\x60' && !isBlankChar c

theorem fence?_opening (h : language.head? ≠ some '\x60') :
    fence? (fenceMark ++ language) = some (fenceMark, shownLanguage language) := by
  have hstart : trimStart (fenceMark ++ language) = '\x60' :: '\x60' :: '\x60' :: language :=
    List.dropWhile_cons_of_neg (by decide)
  have hmark : ('\x60' :: '\x60' :: '\x60' :: language).takeWhile (· == '\x60') = fenceMark := by
    cases language with
    | nil => rfl
    | cons c s =>
      have hc : c ≠ '\x60' := by simpa using h
      simp [fenceMark, hc]
  rw [fence?, hstart]
  simp only [true_or, if_true, hmark]
  rfl

/-- In the Markdown of a document that was read, the code of every definition stands between two
fences, and the first line behind the opening one that closes a fence is its own closing one unless
the body holds another. Then a reader of Markdown shows the header and the body as code, and goes on
behind the closing fence. -/
theorem block_ends_at_own_fence (file : FileName) (text extension : Text) (front back : List Chunk)
    (d : Definition) (h : parse file text = .ok (front ++ .definition d :: back)) :
    ∃ md code after, (markdownTraced extension (front ++ .definition d :: back)).result = .ok md ∧
      code = codeLines (decide (d.key ∉ (definitions front).map Definition.key)) d ∧
      lines md = markdownLines (languageOf extension) [] front ++
        (lines (fenceMark ++ languageOf extension) ++ (code ++ fenceMark :: after)) ∧
      ((code ++ fenceMark :: after).takeWhile (fun l => !closesFence fenceMark l) = code ↔
        ¬HoldsFence d) ∧
      (¬HoldsFence d → (languageOf extension).head? ≠ some '\x60' →
        segments ((fenceMark ++ languageOf extension) :: (code ++ fenceMark :: after)) =
          ⟨(fenceMark ++ languageOf extension) :: (code ++ [fenceMark]),
            .fence (shownLanguage (languageOf extension)) code⟩ :: segments after) := by
  have hlines := onLines_of_parse h
  have hbody : ∀ p ∈ d.parts, p.OnLine := by
    cases hlines _ (List.mem_append_right _ List.mem_cons_self) with
    | definition oneLine body => exact body
  refine ⟨_, _, markdownLines (languageOf extension)
    (d.key :: (((definitions front).map Definition.key).reverse ++ [])) back ++ [[]],
    result_markdownTraced extension _, rfl, ?_, ?_, fun hfence htick => ?_⟩
  · -- what is written is cut at the definition, and its lines are those of its parts
    rw [lines_markdown hlines, markdownLines_append, markdownLines]
    simp
  · rw [takeWhile_eq_iff (by simp [closesFence_fenceMark])]
    simpa only [Bool.not_eq_true'] using codeLines_open_iff hbody
  · exact segments_fence (fence?_opening htick) ((codeLines_open_iff hbody).2 hfence)
      closesFence_fenceMark

def fenced : Text :=
  "Prose.\n<< list >>=\nx\x60\x60\x60y\n ~~~\n  << step >> \n@\n<< list >>=\nmore"

def fencedList : Definition :=
  .after 1 "list" [.literal "x\x60\x60\x60y\n", .literal " ~~~\n", .to "step" "  "]

def fencedMore : Definition := .after 6 "list" [.literal "more\n"]

theorem fenced_block_ends :
    parse docFile fenced =
      .ok ([.narrative "Prose."] ++ .definition fencedList :: [.definition fencedMore]) ∧
    ¬HoldsFence fencedList ∧
    ∃ after, segments ((fenceMark ++ "md") :: (codeLines true fencedList ++ fenceMark :: after)) =
      ⟨(fenceMark ++ "md") :: (codeLines true fencedList ++ [fenceMark]),
        .fence "md" (codeLines true fencedList)⟩ :: segments after := by
  have hparse : parse docFile fenced =
      .ok ([.narrative "Prose."] ++ .definition fencedList :: [.definition fencedMore]) := by decide
  have hfence : ¬HoldsFence fencedList := by decide
  obtain ⟨md, code, after, -, rfl, -, -, hshown⟩ :=
    block_ends_at_own_fence docFile fenced ".md" _ _ _ hparse
  exact ⟨hparse, hfence, after, hshown hfence (by decide)⟩

def ticked : Definition := .after 0 "*" [.literal "\x60\x60\x60\n"]

/-- The line of ticks is taken for the end of the block, and the closing fence for the beginning of
another block. -/
theorem ticked_block_cut :
    parse docFile "<< * >>=\n\x60\x60\x60\n@\n" = .ok ([] ++ .definition ticked :: []) ∧
    ∃ md, (markdownTraced ".py" [Chunk.definition ticked]).result = .ok md ∧
      lines md = (fenceMark ++ "py") :: (codeLines true ticked ++ fenceMark :: [[]]) ∧
      (codeLines true ticked ++ fenceMark :: [[]]).takeWhile (fun l => !closesFence fenceMark l) ≠
        codeLines true ticked ∧
      (segments (lines md)).map Segment.lines =
        [[fenceMark ++ "py", "<< * >>=", fenceMark], [fenceMark, []]] := by
  refine ⟨by decide, _, result_markdownTraced ".py" _, ?_, ?_, ?_⟩
  · decide
  · decide
  · decide

end Weave

end Literate

import Literate.Proofs.Document.Readable
import Literate.Weave.Reporting

namespace Literate

open Document Text

variable {file : FileName}

/-- A line of prose, or a header, the body as Markdown shows it and a line that ends it. -/
def Chunk.source : Chunk → Text
  | .narrative s => s ++ "\n"
  | .definition d =>
    headerLine d.name ++ "\n" ++ d.parts.flatMap Weave.markdownPart ++ endLine ++ "\n"

def Document.source (chunks : List Chunk) : Text := chunks.flatMap Chunk.source

def Part.line : Part → Text
  | .literal s => s.dropLast
  | .reference target indent => referenceLine target indent

def Chunk.lines : Chunk → List Text
  | .narrative s => [s]
  | .definition d => headerLine d.name :: (d.parts.map Part.line ++ [endLine])

/-- A part that is shown on one line. -/
inductive Part.OnLine : Part → Prop where
  | literal {line : Text} (oneLine : '\n' ∉ line) : OnLine (.literal (line ++ ['\n']))
  | reference {target : Name} {indent : Text} (oneLine : '\n' ∉ target.key)
      (blank : ∀ c ∈ indent, isIndentChar c = true) : OnLine (.reference target indent)

theorem Part.OnLine.markdownPart_eq {p : Part} (h : p.OnLine) :
    Weave.markdownPart p = p.line ++ ['\n'] := by
  cases h with
  | literal oneLine => simp [Part.line, Weave.markdownPart]
  | reference oneLine blank => simp [Part.line, Weave.markdownPart, referenceLine, markedName]

theorem flatMap_markdownPart {parts : List Part} (h : ∀ p ∈ parts, p.OnLine) :
    parts.flatMap Weave.markdownPart = endedLines (parts.map Part.line) := by
  rw [endedLines, List.flatMap_map]
  exact List.flatMap_congr fun p hp => (h p hp).markdownPart_eq

theorem Part.Readable.onLine {p : Part} (h : p.Readable) : p.OnLine := by
  cases h with
  | literal plain => exact .literal plain.1
  | reference plain trimmed blank => exact .reference (trimmed.key ▸ plain.1) blank

theorem plain_referenceLine {target : Name} {indent : Text} (plain : Plain target.text)
    (trimmed : target.Trimmed) (blank : ∀ c ∈ indent, isIndentChar c = true) :
    Plain (referenceLine target indent) := by
  rw [referenceLine, markedName, trimmed.key]
  exact (Plain.of_indent blank).append ((Plain.append (by decide) plain).append (by decide))

theorem Part.Readable.plain_line {p : Part} (h : p.Readable) : Plain p.line := by
  cases h with
  | literal plain => simpa [Part.line] using plain
  | reference plain trimmed blank => exact plain_referenceLine plain trimmed blank

theorem Chunk.Readable.plain_lines {c : Chunk} (h : c.Readable file) : ∀ l ∈ c.lines, Plain l := by
  cases h with
  | narrative plain => simpa [Chunk.lines] using plain
  | @definition d hd =>
    intro l hl
    obtain rfl | hl := List.mem_cons.1 hl
    · exact (Plain.append (by decide) hd.plain).append (by decide)
    · obtain hl | hl := List.mem_append.1 hl
      · obtain ⟨p, hp, rfl⟩ := List.mem_map.1 hl
        exact (hd.body p hp).plain_line
      · rw [List.mem_singleton.1 hl]
        decide

theorem Chunk.Readable.source_eq {c : Chunk} (h : c.Readable file) :
    c.source = endedLines c.lines := by
  cases h with
  | narrative => simp [Chunk.source, Chunk.lines, endedLines]
  | @definition d hd =>
    have hlines : (Chunk.definition d).lines =
        [headerLine d.name] ++ d.parts.map Part.line ++ [endLine] := rfl
    rw [Chunk.source, flatMap_markdownPart fun p hp => (hd.body p hp).onLine, hlines,
      endedLines_append, endedLines_append]
    simp [endedLines]

theorem source_eq_endedLines {chunks : List Chunk} (h : ∀ c ∈ chunks, c.Readable file) :
    source chunks = endedLines (chunks.flatMap Chunk.lines) := by
  rw [source, endedLines, List.flatMap_assoc]
  exact List.flatMap_congr fun c hc => (h c hc).source_eq

theorem sourceLines_source {chunks : List Chunk} (h : ∀ c ∈ chunks, c.Readable file) :
    sourceLines (source chunks) = chunks.flatMap Chunk.lines := by
  rw [source_eq_endedLines h]
  refine sourceLines_endedLines fun l hl => ?_
  obtain ⟨c, hc, hl⟩ := List.mem_flatMap.1 hl
  exact (h c hc).plain_lines l hl

/-- The chunk as it is read when `passed` lines come before it. -/
def Chunk.placedAfter (passed : Nat) : Chunk → Chunk
  | .narrative s => .narrative s
  | .definition d => .definition ⟨d.name, ⟨d.position.file, passed + 1, Nat.succ_pos _⟩, d.parts⟩

def Document.numbered (passed : Nat) : List Chunk → List Chunk
  | [] => []
  | c :: cs => c.placedAfter passed :: numbered (passed + c.lines.length) cs

theorem Part.Readable.bodyPart_line {p : Part} (h : p.Readable) :
    (header? p.line = none ∧ isEnd p.line = false) ∧ bodyPart p.line = p := by
  cases h with
  | @literal line plain noHeader noEnd noReference =>
    have hline : (Part.literal (line ++ ['\n'])).line = line := by simp [Part.line]
    rw [hline]
    exact ⟨⟨noHeader, noEnd⟩, by simp [bodyPart, noReference]⟩
  | reference plain trimmed blank =>
    refine ⟨⟨header?_referenceLine blank, isEnd_referenceLine blank⟩, ?_⟩
    simp [Part.line, bodyPart, reference?_referenceLine trimmed blank]

theorem readLines_parts {parts : List Part} (h : ∀ p ∈ parts, p.Readable) (passed : Nat)
    (q : Pending) (rest : List Text) :
    readLines file passed (some q) (parts.map Part.line ++ rest) =
      readLines file (passed + parts.length) (some { q with parts := q.parts ++ parts }) rest := by
  have hbody : ∀ l ∈ parts.map Part.line, header? l = none ∧ isEnd l = false := by
    intro l hl
    obtain ⟨p, hp, rfl⟩ := List.mem_map.1 hl
    exact (h p hp).bodyPart_line.1
  have hparts : (parts.map Part.line).map bodyPart = parts := by
    rw [List.map_map]
    exact (List.map_congr_left fun p hp => (h p hp).bodyPart_line.2).trans (List.map_id _)
  rw [readLines_body hbody, hparts, List.length_map]

theorem readLines_lines {c : Chunk} (h : c.Readable file) (passed : Nat) (rest : List Text) :
    readLines file passed none (c.lines ++ rest) =
      (readLines file (passed + c.lines.length) none rest).map (c.placedAfter passed :: ·) := by
  cases h with
  | @narrative line plain noHeader =>
    have hstep : ReadStep file passed none line [.narrative line] none := .narrative noHeader
    exact hstep.readLines_cons
  | @definition d hd =>
    have hlines : (Chunk.definition d).lines ++ rest =
        headerLine d.name :: (d.parts.map Part.line ++ endLine :: rest) := by simp [Chunk.lines]
    have hlength : (Chunk.definition d).lines.length = 1 + d.parts.length + 1 := by
      simp [Chunk.lines]
      omega
    have hopen : ReadStep file passed none (headerLine d.name) []
        (some ⟨d.name, ⟨file, passed + 1, Nat.succ_pos _⟩, []⟩) :=
      .header (header?_headerLine d.name) (ofText?_trim_spaced hd.trimmed)
    have hend (passed : Nat) (q : Pending) :
        ReadStep file passed (some q) endLine [q.close] none :=
      .ending header?_endLine isEnd_endLine
    have hplaced : (Chunk.definition d).placedAfter passed =
        Pending.close ⟨d.name, ⟨file, passed + 1, Nat.succ_pos _⟩, d.parts⟩ := by
      simp [Chunk.placedAfter, Pending.close, hd.file]
    -- the header, the body and the end are read one after the other
    have hpassed : passed + (1 + d.parts.length + 1) = passed + 1 + d.parts.length + 1 := by omega
    rw [hlines, hopen.readLines_cons, map_nil_append, readLines_parts hd.body,
      (hend _ _).readLines_cons, hlength, hplaced, hpassed]
    rfl

/-- The chunks of a written document are read back, each on its own line. -/
theorem readLines_flatMap_lines {chunks : List Chunk} (h : ∀ c ∈ chunks, c.Readable file)
    (passed : Nat) :
    readLines file passed none (chunks.flatMap Chunk.lines) = .ok (numbered passed chunks) := by
  induction chunks generalizing passed with
  | nil => rfl
  | cons c chunks ih =>
    rw [List.flatMap_cons, readLines_lines (h c List.mem_cons_self),
      ih fun c hc => h c (List.mem_cons_of_mem _ hc)]
    rfl

theorem parse_source {chunks : List Chunk} (h : ∀ c ∈ chunks, c.Readable file) :
    parse file (source chunks) = .ok (numbered 0 chunks) := by
  rw [parse, sourceLines_source h, readLines_flatMap_lines h]

/-- The chunk as if it began its file: two chunks that agree so differ in their line at most. -/
def Chunk.unnumbered (c : Chunk) : Chunk := c.placedAfter 0

theorem unnumbered_placedAfter (c : Chunk) (passed : Nat) :
    (c.placedAfter passed).unnumbered = c.unnumbered := by
  cases c with
  | narrative s => rfl
  | definition d => rfl
  | foreign x => exact x.elim

theorem map_unnumbered_numbered (chunks : List Chunk) (passed : Nat) :
    (numbered passed chunks).map Chunk.unnumbered = chunks.map Chunk.unnumbered := by
  induction chunks generalizing passed with
  | nil => rfl
  | cons c chunks ih =>
    rw [numbered, List.map_cons, List.map_cons, unnumbered_placedAfter, ih]

theorem readable_of_mem_definitions {chunks : List Chunk} {d : Definition}
    (h : ∀ c ∈ chunks, c.Readable file) (hd : d ∈ definitions chunks) : d.Readable file := by
  obtain ⟨c, hc, hcd⟩ := List.mem_filterMap.1 hd
  cases h c hc with
  | narrative => simp [Chunk.definition?] at hcd
  | definition hd =>
    rw [Chunk.definition?, Option.some.injEq] at hcd
    exact hcd ▸ hd

/-- Writing out what was read and reading it again changes nothing but the lines on which the
definitions start. Every name that a header defines can be referred to, at any indentation and
between any two parts of a body. -/
theorem parse_source_of_parse (file : FileName) (text : Text) (chunks : List Chunk)
    (htext : NoLoneReturn text) (h : parse file text = .ok chunks) :
    (∃ again, parse file (source chunks) = .ok again ∧
        again.map Chunk.unnumbered = chunks.map Chunk.unnumbered) ∧
      ∀ d ∈ definitions chunks, ∀ e ∈ definitions chunks, ∀ front back : List Part,
        e.parts = front ++ back → ∀ indent : Text, (∀ c ∈ indent, isIndentChar c = true) →
          parse file
              (source [.definition (e.withParts (front ++ .reference d.name indent :: back))]) =
            .ok [.definition ⟨e.name, ⟨file, 1, Nat.le_refl 1⟩,
              front ++ .reference d.name indent :: back⟩] := by
  have hread : ∀ c ∈ chunks, c.Readable file := readable_of_parse htext h
  refine ⟨⟨_, parse_source hread, map_unnumbered_numbered chunks 0⟩, ?_⟩
  intro d hd e he front back hsplit indent hindent
  obtain ⟨dplain, dtrimmed, -, -⟩ := readable_of_mem_definitions hread hd
  obtain ⟨eplain, etrimmed, efile, ebody⟩ := readable_of_mem_definitions hread he
  -- a reference to a definition of the same text is readable wherever it is put
  have hbody : ∀ p ∈ front ++ .reference d.name indent :: back, p.Readable := by
    intro p hp
    obtain hp | hp := List.mem_append.1 hp
    · exact ebody p (hsplit ▸ List.mem_append_left _ hp)
    · obtain rfl | hp := List.mem_cons.1 hp
      · exact .reference dplain dtrimmed hindent
      · exact ebody p (hsplit ▸ List.mem_append_right _ hp)
  have hedited : ∀ c ∈ [Chunk.definition (e.withParts (front ++ .reference d.name indent :: back))],
      c.Readable file := by
    intro c hc
    rw [List.mem_singleton.1 hc]
    exact .definition ⟨eplain, etrimmed, efile, hbody⟩
  rw [parse_source hedited]
  simp only [numbered, Chunk.placedAfter, Definition.withParts, efile]

def knotty : Text :=
  "\r\n\t<< a >> b >>= \r\n  x << a >>\n  <<a >> b>> \n<<<<>>>=\n @ \n@\n\n"

def knottyPart : Part := .literal "  x << a >>\n"

def knottyChunks : List Chunk :=
  [.narrative "", .definition (.after 1 "a >> b" [knottyPart, .to "a >> b" "  "]),
    .definition (.after 4 "<<>" []), .narrative "@", .narrative ""]

theorem knotty_roundTrip : NoLoneReturn knotty ∧ parse docFile knotty = .ok knottyChunks ∧
    (∃ again, parse docFile (source knottyChunks) = .ok again ∧
      again.map Chunk.unnumbered = knottyChunks.map Chunk.unnumbered) ∧
    parse docFile (source [.definition
        (.after 1 "a >> b" [knottyPart, .to "<<>" ['\t'], .to "a >> b" "  "])]) =
      .ok [.definition (.after 0 "a >> b" [knottyPart, .to "<<>" ['\t'], .to "a >> b" "  "])] := by
  have hreturn : NoLoneReturn knotty := by decide
  have hparse : parse docFile knotty = .ok knottyChunks := by decide
  obtain ⟨hagain, hrefer⟩ := parse_source_of_parse docFile knotty knottyChunks hreturn hparse
  have hbracket : .after 4 "<<>" [] ∈ definitions knottyChunks := by
    simp [definitions, knottyChunks, Chunk.definition?]
  have hmacro : .after 1 "a >> b" [knottyPart, .to "a >> b" "  "] ∈ definitions knottyChunks := by
    simp [definitions, knottyChunks, Chunk.definition?]
  have htab : ∀ c ∈ ['\t'], isIndentChar c = true := List.forall_mem_singleton.2 rfl
  have hbetween := hrefer _ hbracket _ hmacro [knottyPart] [.to "a >> b" "  "] rfl ['\t'] htab
  exact ⟨hreturn, hparse, hagain, hbetween⟩

end Literate

import Literate.Document.Reading
import Literate.Proofs.Document.LineKinds
import Literate.Proofs.Document.SourceLines
import Literate.Proofs.Validation.Acceptance

namespace Literate

open Document Text
open Checked (map_eq_ok_iff)

namespace Document

/-- What a line does to the definition in hand, and the chunks that it completes. -/
inductive ReadStep (file : FileName) (passed : Nat) :
    Option Pending → Text → List Chunk → Option Pending → Prop where
  | header {pending : Option Pending} {line inner : Text} {name : Name}
      (isHeader : header? line = some inner) (named : Name.ofText? (trim inner) = some name) :
      ReadStep file passed pending line (closed pending)
        (some ⟨name, ⟨file, passed + 1, Nat.succ_pos _⟩, []⟩)
  | narrative {line : Text} (noHeader : header? line = none) :
      ReadStep file passed none line [.narrative line] none
  | ending {p : Pending} {line : Text} (noHeader : header? line = none)
      (isEnd : isEnd line = true) : ReadStep file passed (some p) line [p.close] none
  | body {p : Pending} {line : Text} (noHeader : header? line = none)
      (noEnd : isEnd line = false) :
      ReadStep file passed (some p) line [] (some (p.add (bodyPart line)))

variable {file : FileName} {passed : Nat} {pending pending' : Option Pending} {line : Text}
  {rest : List Text} {done chunks : List Chunk}

theorem ReadStep.readLines_cons (h : ReadStep file passed pending line done pending') :
    readLines file passed pending (line :: rest) =
      (readLines file (passed + 1) pending' rest).map (done ++ ·) := by
  cases h with
  | header isHeader named => simp only [readLines, isHeader, named]
  | narrative noHeader => simp only [readLines, noHeader, List.singleton_append]
  | ending noHeader isEnd => simp only [readLines, noHeader, isEnd, if_true, List.singleton_append]
  | body noHeader noEnd =>
    simp only [readLines, noHeader, noEnd, Bool.false_eq_true, if_false, List.nil_append]
    cases readLines file (passed + 1) _ rest <;> rfl

theorem map_eq_error_iff {f : List Chunk → List Chunk} {r : Except BlankHeader (List Chunk)}
    {e : BlankHeader} : r.map f = .error e ↔ r = .error e := by
  cases r <;> simp [Except.map]

theorem readStep_or_blank (file : FileName) (passed : Nat) (pending : Option Pending)
    (line : Text) :
    (∃ done pending', ReadStep file passed pending line done pending') ∨
      ∃ inner, header? line = some inner ∧ Name.ofText? (trim inner) = none := by
  cases hh : header? line with
  | some inner =>
    cases hn : Name.ofText? (trim inner) with
    | some name => exact .inl ⟨_, _, .header hh hn⟩
    | none => exact .inr ⟨inner, rfl, hn⟩
  | none =>
    cases pending with
    | none => exact .inl ⟨_, _, .narrative hh⟩
    | some p =>
      cases he : isEnd line with
      | true => exact .inl ⟨_, _, .ending hh he⟩
      | false => exact .inl ⟨_, _, .body hh he⟩

theorem readLines_of_blank {inner : Text} (hh : header? line = some inner)
    (hn : Name.ofText? (trim inner) = none) :
    readLines file passed pending (line :: rest) = .error ⟨passed + 1⟩ := by
  simp only [readLines, hh, hn]

theorem exists_readStep (h : readLines file passed pending (line :: rest) = .ok chunks) :
    ∃ done pending' later, ReadStep file passed pending line done pending' ∧
      readLines file (passed + 1) pending' rest = .ok later ∧ chunks = done ++ later := by
  obtain ⟨done, pending', hstep⟩ | ⟨inner, hh, hn⟩ := readStep_or_blank file passed pending line
  · rw [hstep.readLines_cons, map_eq_ok_iff] at h
    obtain ⟨later, hlater, rfl⟩ := h
    exact ⟨done, pending', later, hstep, hlater, rfl⟩
  · simp [readLines_of_blank hh hn] at h

theorem map_nil_append (r : Except BlankHeader (List Chunk)) : r.map ([] ++ ·) = r := by
  cases r <;> rfl

theorem readLines_body {body : List Text}
    (h : ∀ l ∈ body, header? l = none ∧ isEnd l = false) (passed : Nat) (q : Pending)
    (rest : List Text) :
    readLines file passed (some q) (body ++ rest) =
      readLines file (passed + body.length)
        (some { q with parts := q.parts ++ body.map bodyPart }) rest := by
  induction body generalizing passed q with
  | nil => simp
  | cons line body ih =>
    obtain ⟨noHeader, noEnd⟩ := h line List.mem_cons_self
    have hstep : ReadStep file passed (some q) line [] (some (q.add (bodyPart line))) :=
      .body noHeader noEnd
    rw [List.cons_append, hstep.readLines_cons, map_nil_append,
      ih fun l hl => h l (List.mem_cons_of_mem _ hl), List.length_cons, Nat.add_assoc,
      Nat.add_comm 1]
    simp [Pending.add]

end Document

/-- A body line that is no header, no end and no reference, or a reference as it is read. -/
inductive Part.Readable : Part → Prop where
  | literal {line : Text} (plain : Plain line) (noHeader : header? line = none)
      (noEnd : isEnd line = false) (noReference : reference? line = none) :
      Readable (.literal (line ++ ['\n']))
  | reference {target : Name} {indent : Text} (plain : Plain target.text)
      (trimmed : target.Trimmed) (blank : ∀ c ∈ indent, isIndentChar c = true) :
      Readable (.reference target indent)

structure Definition.Readable (file : FileName) (d : Definition) : Prop where
  plain : Plain d.name.text
  trimmed : d.name.Trimmed
  file : d.position.file = file
  body : ∀ p ∈ d.parts, p.Readable

inductive Chunk.Readable (file : FileName) : Chunk → Prop where
  | narrative {line : Text} (plain : Plain line) (noHeader : header? line = none) :
      Readable file (.narrative line)
  | definition {d : Definition} (h : d.Readable file) : Readable file (.definition d)

theorem readable_bodyPart {line : Text} (h : Plain line) (hh : header? line = none)
    (he : isEnd line = false) : (bodyPart line).Readable := by
  unfold bodyPart
  cases hr : reference? line with
  | none => exact .literal h hh he hr
  | some r =>
    obtain ⟨target, indent⟩ := r
    obtain ⟨hindent, htrim, hsub⟩ := of_reference?_eq_some hr
    exact .reference (h.of_subset hsub) htrim hindent

namespace Document

variable {file : FileName} {passed : Nat} {pending pending' : Option Pending} {line : Text}
  {done chunks : List Chunk}

theorem ReadStep.readable (h : ReadStep file passed pending line done pending')
    (hline : Plain line) (hp : ∀ c ∈ closed pending, c.Readable file) :
    (∀ c ∈ done, c.Readable file) ∧ ∀ c ∈ closed pending', c.Readable file := by
  cases h with
  | @header _ _ inner name isHeader named =>
    refine ⟨hp, ?_⟩
    have htext := Name.text_of_ofText? named
    have hplain : Plain name.text :=
      hline.of_subset fun c hc => mem_of_header?_eq_some isHeader c (htext ▸ hc)
    have htrim : name.Trimmed := by rw [Name.Trimmed, htext, trim_trim]
    intro c hc
    rw [List.mem_singleton.1 hc]
    exact .definition ⟨hplain, htrim, rfl, fun p hp => absurd hp List.not_mem_nil⟩
  | narrative noHeader => simpa [closed] using Chunk.Readable.narrative hline noHeader
  | ending noHeader isEnd => exact ⟨hp, by simp [closed]⟩
  | @body p _ noHeader noEnd =>
    obtain ⟨plain, trimmed, hfile, hbody⟩ : Definition.Readable file
        ⟨p.name, p.position, p.parts⟩ := by
      cases hp p.close (by simp [closed]) with
      | definition h => exact h
    have hadd : (p.add (bodyPart line)).close.Readable file := by
      refine .definition ⟨plain, trimmed, hfile, fun part hmem => ?_⟩
      obtain hmem | hmem := List.mem_append.1 hmem
      · exact hbody part hmem
      · rw [List.mem_singleton.1 hmem]
        exact readable_bodyPart hline noHeader noEnd
    simpa [closed] using hadd

theorem readable_of_readLines {ls : List Text}
    (h : readLines file passed pending ls = .ok chunks) (hls : ∀ l ∈ ls, Plain l)
    (hp : ∀ c ∈ closed pending, c.Readable file) : ∀ c ∈ chunks, c.Readable file := by
  -- the definition in hand is kept readable as if each line were the last
  induction ls generalizing passed pending chunks with
  | nil =>
    cases h
    exact hp
  | cons line rest ih =>
    obtain ⟨done, pending', later, hstep, hlater, rfl⟩ := exists_readStep h
    obtain ⟨hdone, hp'⟩ := hstep.readable (hls line List.mem_cons_self) hp
    have hrest := ih hlater (fun l hl => hls l (List.mem_cons_of_mem _ hl)) hp'
    intro c hc
    exact (List.mem_append.1 hc).elim (hdone c) (hrest c)

theorem readable_of_parse {text : Text} (htext : NoLoneReturn text)
    (h : parse file text = .ok chunks) : ∀ c ∈ chunks, c.Readable file :=
  readable_of_readLines h (fun _ hl => plain_of_mem_sourceLines htext hl) (by simp [closed])

end Document

end Literate

import Literate.Proofs.Document.Grammar

namespace Literate

namespace Text

variable {s : Text} {c : Char}

theorem unixNewlines_cons (h : c = '\r' → s.head? ≠ some '\n') :
    unixNewlines (c :: s) = c :: unixNewlines s := by
  rw [unixNewlines]
  rintro rest rfl rfl
  exact h rfl rfl

theorem unixNewlines_append (h : s.getLast? ≠ some '\r') (t : Text) :
    unixNewlines (s ++ t) = unixNewlines s ++ unixNewlines t := by
  fun_induction unixNewlines s with
  | case1 => rfl
  | case2 s ih =>
    have hs : s.getLast? ≠ some '\r' := by
      cases s with
      | nil => simp
      | cons d s => simpa using h
    rw [List.cons_append, List.cons_append, unixNewlines, ih hs, List.cons_append]
  | case3 c s hne ih =>
    cases s with
    | nil =>
      have hc : c ≠ '\r' := by simpa using h
      exact unixNewlines_cons fun hr => absurd hr hc
    | cons d s =>
      have hs : (d :: s).getLast? ≠ some '\r' := by simpa using h
      have hd : c = '\r' → (d :: s ++ t).head? ≠ some '\n' := by
        intro hr hfeed
        exact hne s hr (by rw [Option.some.inj hfeed])
      rw [List.cons_append, unixNewlines_cons hd, ih hs, List.cons_append]

theorem getLast?_unixNewlines (h : s.getLast? = some '\n') :
    (unixNewlines s).getLast? = some '\n' := by
  fun_induction unixNewlines s with
  | case1 => exact h
  | case2 s ih =>
    cases s with
    | nil => rfl
    | cons d s =>
      have hs : (d :: s).getLast? = some '\n' := by simpa using h
      rw [List.getLast?_cons, ih hs]
      rfl
  | case3 c s hne ih =>
    cases s with
    | nil => exact h
    | cons d s =>
      have hs : (d :: s).getLast? = some '\n' := by simpa using h
      rw [List.getLast?_cons, ih hs]
      rfl

end Text

def Position.lowered (n : Nat) (p : Position) : Position :=
  ⟨p.file, p.line + n, Nat.le_add_right_of_le p.line_pos⟩

def Chunk.lowered (n : Nat) : Chunk → Chunk
  | .narrative s => .narrative s
  | .definition d => .definition { d with position := d.position.lowered n }

namespace Document

open Text

variable {file : FileName} {passed n : Nat} {pending pending' : Option Pending} {line : Text}
  {ls front back : List Text} {done chunks : List Chunk} {s t : Text}

def Pending.lowered (n : Nat) (p : Pending) : Pending :=
  { p with position := p.position.lowered n }

def BlankHeader.lowered (n : Nat) (b : BlankHeader) : BlankHeader := ⟨b.line + n⟩

theorem map_lowered_closed (n : Nat) (pending : Option Pending) :
    (closed pending).map (Chunk.lowered n) = closed (pending.map (Pending.lowered n)) := by
  cases pending <;> rfl

theorem ReadStep.lowered (h : ReadStep file passed pending line done pending') (n : Nat) :
    ReadStep file (passed + n) (pending.map (Pending.lowered n)) line
      (done.map (Chunk.lowered n)) (pending'.map (Pending.lowered n)) := by
  cases h with
  | @header _ _ inner name isHeader named =>
    have hplace : Pending.lowered n ⟨name, ⟨file, passed + 1, Nat.succ_pos _⟩, []⟩ =
        ⟨name, ⟨file, passed + n + 1, Nat.succ_pos _⟩, []⟩ := by
      simp only [Pending.lowered, Position.lowered, Nat.add_right_comm]
    rw [map_lowered_closed, Option.map_some, hplace]
    exact .header isHeader named
  | narrative noHeader => exact .narrative noHeader
  | ending noHeader isEnd => exact .ending noHeader isEnd
  | body noHeader noEnd => exact .body noHeader noEnd

theorem readLines_lowered (file : FileName) (passed n : Nat) (pending : Option Pending)
    (ls : List Text) :
    readLines file (passed + n) (pending.map (Pending.lowered n)) ls =
      ((readLines file passed pending ls).mapError (BlankHeader.lowered n)).map
        (List.map (Chunk.lowered n)) := by
  induction ls generalizing passed pending with
  | nil => exact congrArg Except.ok (map_lowered_closed n pending).symm
  | cons line ls ih =>
    obtain ⟨done, pending', hstep⟩ | ⟨inner, hh, hn⟩ := readStep_or_blank file passed pending line
    · rw [(hstep.lowered n).readLines_cons, hstep.readLines_cons, Nat.add_right_comm, ih]
      cases readLines file (passed + 1) pending' ls with
      | error e => rfl
      | ok later => simp [Except.map, Except.mapError]
    · rw [readLines_of_blank hh hn, readLines_of_blank hh hn, Nat.add_right_comm]
      rfl

/-- Several lines, each of which takes its step. -/
inductive ReadRun (file : FileName) :
    Nat → Option Pending → List Text → List Chunk → Option Pending → Prop where
  | nil {passed : Nat} {pending : Option Pending} : ReadRun file passed pending [] [] pending
  | cons {passed : Nat} {pending pending' pending'' : Option Pending} {line : Text}
      {ls : List Text} {done later : List Chunk}
      (step : ReadStep file passed pending line done pending')
      (rest : ReadRun file (passed + 1) pending' ls later pending'') :
      ReadRun file passed pending (line :: ls) (done ++ later) pending''

theorem ReadRun.readLines_append (h : ReadRun file passed pending front done pending')
    (back : List Text) :
    readLines file passed pending (front ++ back) =
      (readLines file (passed + front.length) pending' back).map (done ++ ·) := by
  induction h with
  | nil => exact (map_nil_append _).symm
  | @cons passed _ _ pending'' line ls done later step rest ih =>
    rw [List.cons_append, step.readLines_cons, ih, List.length_cons, Nat.add_assoc passed 1,
      Nat.add_comm 1]
    cases readLines file (passed + (ls.length + 1)) pending'' back <;> simp [Except.map]

theorem exists_readRun (h : readLines file passed pending ls = .ok chunks) :
    ∃ done pending', ReadRun file passed pending ls done pending' ∧
      chunks = done ++ closed pending' := by
  induction ls generalizing passed pending chunks with
  | nil =>
    cases h
    exact ⟨[], pending, .nil, rfl⟩
  | cons line ls ih =>
    obtain ⟨done, pending', later, hstep, hlater, rfl⟩ := exists_readStep h
    obtain ⟨done', pending'', hrun, rfl⟩ := ih hlater
    exact ⟨done ++ done', pending'', .cons hstep hrun, (List.append_assoc ..).symm⟩

/-- A definition that is still open at the end was open at the start and nothing closed it, or it
has its header among the lines and no other header or end line behind that. -/
theorem ReadRun.exists_open {p : Pending} (h : ReadRun file passed pending ls done (some p)) :
    (pending.isSome = true ∧ ∀ l ∈ ls, header? l = none ∧ isEnd l = false) ∨
      ∃ front header inner back, ls = front ++ header :: back ∧ header? header = some inner ∧
        ∀ l ∈ back, header? l = none ∧ isEnd l = false := by
  generalize hlast : some p = last at h
  induction h with
  | nil =>
    subst hlast
    exact .inl ⟨rfl, by simp⟩
  | @cons _ _ _ _ line ls _ _ step rest ih =>
    obtain ⟨hopen, hplain⟩ | ⟨front, header, inner, back, rfl, hheader, hback⟩ := ih hlast
    · cases step with
      | header isHeader named => exact .inr ⟨[], line, _, ls, rfl, isHeader, hplain⟩
      | narrative => cases hopen
      | ending => cases hopen
      | body noHeader noEnd =>
        exact .inl ⟨rfl, List.forall_mem_cons.2 ⟨⟨noHeader, noEnd⟩, hplain⟩⟩
    · exact .inr ⟨line :: front, header, inner, back, rfl, hheader, hback⟩

/-- Behind the last header, if there is one, comes an end line. -/
def EndsOutside (ls : List Text) : Prop :=
  ∀ front header n back, ls = front ++ header :: back → IsHeader header n →
    (∀ l ∈ back, ∀ m, ¬IsHeader l m) → ∃ l ∈ back, IsEndLine l

theorem ReadRun.pending_eq_none (h : ReadRun file passed none ls done pending)
    (hend : EndsOutside ls) : pending = none := by
  cases pending with
  | none => rfl
  | some p =>
    obtain ⟨hopen, -⟩ | ⟨front, header, n, back, hsplit, hheader, hback⟩ := h.exists_open
    · cases hopen
    · have hlast : ∀ l ∈ back, ∀ m, ¬IsHeader l m := fun l hl =>
        header?_eq_none_iff.1 (hback l hl).1
      obtain ⟨l, hl, hended⟩ := hend front header n back hsplit (header?_iff.1 hheader) hlast
      exact absurd (isEnd_iff.2 hended) (Bool.eq_false_iff.1 (hback l hl).2)

theorem eq_of_endedLines_eq {ls ms : List Text} (hls : ∀ l ∈ ls, '\n' ∉ l)
    (hms : ∀ l ∈ ms, '\n' ∉ l) (h : endedLines ls = endedLines ms) : ls = ms := by
  have hlines := congrArg lines h
  rw [lines_endedLines hls, lines_endedLines hms] at hlines
  exact List.append_cancel_right hlines

theorem ended_append (h : s = [] ∨ s.getLast? = some '\n') (t : Text) :
    ended (s ++ t) = s ++ ended t := by
  obtain rfl | hlast := h
  · rfl
  cases t with
  | nil => simp [ended, hlast]
  | cons c t =>
    have hmore : (s ++ c :: t).getLast? = (c :: t).getLast? :=
      List.getLast?_append_of_ne_nil _ (List.cons_ne_nil c t)
    unfold ended
    rw [hmore]
    simp only [List.append_eq_nil_iff, reduceCtorEq, and_false, false_or]
    split <;> simp

theorem sourceLines_append (h : s = [] ∨ s.getLast? = some '\n') (t : Text) :
    sourceLines (s ++ t) = sourceLines s ++ sourceLines t := by
  have hreturn : s.getLast? ≠ some '\r' := by
    obtain rfl | hlast := h
    · simp
    · simp [hlast]
  have hunix : unixNewlines s = [] ∨ (unixNewlines s).getLast? = some '\n' :=
    h.imp (fun hs => by rw [hs]; rfl) getLast?_unixNewlines
  have hended : ended (unixNewlines s) = unixNewlines s := if_pos hunix
  refine eq_of_endedLines_eq (fun l hl => newline_not_mem_sourceLines hl) (fun l hl => ?_) ?_
  · exact (List.mem_append.1 hl).elim newline_not_mem_sourceLines newline_not_mem_sourceLines
  · calc endedLines (sourceLines (s ++ t)) = ended (unixNewlines s ++ unixNewlines t) := by
          rw [endedLines_sourceLines, unixNewlines_append hreturn]
      _ = ended (unixNewlines s) ++ ended (unixNewlines t) := by
          rw [ended_append hunix, hended]
      _ = endedLines (sourceLines s ++ sourceLines t) := by
          rw [endedLines_append, endedLines_sourceLines, endedLines_sourceLines]

/-- Where nothing is left open, or what comes next closes it, the lines behind are read on their
own, as many lines further down as come before. -/
theorem readLines_append {p : List Chunk} (hfront : readLines file 0 none front = .ok p)
    (hcut : EndsOutside front ∨ Closes [] back) :
    readLines file 0 none (front ++ back) =
      ((readLines file 0 none back).mapError (BlankHeader.lowered front.length)).map
        fun later => p ++ later.map (Chunk.lowered front.length) := by
  obtain ⟨done, pending, hrun, rfl⟩ := exists_readRun hfront
  have hlowered : readLines file (0 + front.length) none back =
      ((readLines file 0 none back).mapError (BlankHeader.lowered front.length)).map
        (List.map (Chunk.lowered front.length)) :=
    readLines_lowered file 0 front.length none back
  have hback : readLines file (0 + front.length) pending back =
      (readLines file (0 + front.length) none back).map (closed pending ++ ·) := by
    obtain hend | hcloses := hcut
    · rw [hrun.pending_eq_none hend]
      exact (map_nil_append _).symm
    · cases pending with
      | none => exact (map_nil_append _).symm
      | some q => exact hcloses.readLines_eq q
  rw [hrun.readLines_append, hback, hlowered]
  cases readLines file 0 none back <;> simp [Except.map, Except.mapError]

theorem closes_sourceLines (h : t = [] ∨ ∃ header n rest, sourceLines t = header :: rest ∧
    IsHeader header n) : Closes [] (sourceLines t) := by
  obtain rfl | ⟨header, n, rest, hsplit, hheader⟩ := h
  · exact .finish
  · rw [hsplit]
    exact .header hheader

/-- Two texts are read one behind the other, where the first one is empty or ends with a line end,
and either leaves no definition open or is followed by nothing or by a header. The chunks are those
of the first and then those of the second, as many lines further down as the first one has. A
failure of the first is the failure of both, and otherwise a failure of the second is reported
further down as well. -/
theorem read_append (file : FileName) (s t : Text) (hend : s = [] ∨ s.getLast? = some '\n')
    (hcut : EndsOutside (sourceLines s) ∨ t = [] ∨
      ∃ header n rest, sourceLines t = header :: rest ∧ IsHeader header n) :
    let passed := (sourceLines s).length
    let first := (read (.text s) (.text file.val)).result
    let second := (read (.text t) (.text file.val)).result
    let both := (read (.text (s ++ t)) (.text file.val)).result
    (∀ front back, first = .ok front → second = .ok back →
      both = .ok (front ++ back.map (Chunk.lowered passed))) ∧
    (∀ fault, first = .error fault → both = .error fault) ∧
    ∀ front fault, first = .ok front → second = .error fault →
      ∃ line, fault = .blankHeader (.text file.val) line ∧
        both = .error (.blankHeader (.text file.val) (line + passed)) := by
  intro passed first second both
  have hboth : both = (readLines file 0 none (sourceLines s ++ sourceLines t)).mapError
      fun b => .blankHeader (.text file.val) b.line := by
    rw [← sourceLines_append hend]
    exact result_read file (s ++ t)
  have hfirst : first = (readLines file 0 none (sourceLines s)).mapError
      fun b => .blankHeader (.text file.val) b.line := result_read file s
  have hsecond : second = (readLines file 0 none (sourceLines t)).mapError
      fun b => .blankHeader (.text file.val) b.line := result_read file t
  rw [hboth, hfirst, hsecond]
  cases hs : readLines file 0 none (sourceLines s) with
  | error e =>
    -- the first header with a blank name is the same one
    obtain ⟨front, line, back, hsplit, hfront, hblank, rfl⟩ := readLines_eq_error_iff.1 hs
    have herror : readLines file 0 none (sourceLines s ++ sourceLines t) =
        .error ⟨0 + front.length + 1⟩ :=
      readLines_eq_error_iff.2 ⟨front, line, back ++ sourceLines t, by simp [hsplit], hfront,
        hblank, rfl⟩
    rw [herror]
    exact ⟨nofun, fun fault h => h, nofun⟩
  | ok front =>
    rw [readLines_append hs (hcut.imp_right closes_sourceLines)]
    refine ⟨?_, nofun, ?_⟩
    · rintro _ back ⟨⟩ hback
      cases ht : readLines file 0 none (sourceLines t) with
      | error e => simp [ht, Except.mapError] at hback
      | ok later =>
        obtain rfl : later = back := by simpa [ht, Except.mapError] using hback
        rfl
    · rintro _ fault ⟨⟩ hfault
      cases ht : readLines file 0 none (sourceLines t) with
      | error e =>
        rw [ht] at hfault
        exact ⟨e.line, (Except.error.inj hfault).symm, rfl⟩
      | ok later => simp [ht, Except.mapError] at hfault

theorem result_read_of_parse (h : parse file t = .ok chunks) :
    (read (.text t) (.text file.val)).result = .ok chunks := by
  rw [result_read, h]
  rfl

def upperHalf : Text := "a\r\n<< x >>=\n1\n"

def lowerHalf : Text := "<< y >>=\n\t<< x >>\n@\nend"

theorem read_halves : upperHalf.getLast? = some '\n' ∧
    (∃ header n rest, sourceLines lowerHalf = header :: rest ∧ IsHeader header n) ∧
    (read (.text (upperHalf ++ lowerHalf)) (.text docFile.val)).result =
      .ok [.narrative "a", .definition (.after 1 "x" [.literal "1\n"]),
        .definition (.after 3 "y" [.to "x" "\t"]), .narrative "end"] := by
  have hend : upperHalf.getLast? = some '\n' := by decide
  have hheader : ∃ header n rest, sourceLines lowerHalf = header :: rest ∧ IsHeader header n :=
    ⟨"<< y >>=", " y ", ["\t<< x >>", "@", "end"], by decide, header?_iff.1 (by decide)⟩
  have hupper : parse docFile upperHalf =
      .ok [.narrative "a", .definition (.after 1 "x" [.literal "1\n"])] := by decide
  have hlower : parse docFile lowerHalf =
      .ok [.definition (.after 0 "y" [.to "x" "\t"]), .narrative "end"] := by decide
  obtain ⟨hread, -, -⟩ :=
    read_append docFile upperHalf lowerHalf (.inr hend) (.inr (.inr hheader))
  exact ⟨hend, hheader, hread _ _ (result_read_of_parse hupper) (result_read_of_parse hlower)⟩

end Document

end Literate

import Literate.Proofs.Markup.Separation
import Mathlib.Data.List.ModifyLast

namespace Literate.Markup

open Text

variable {ls : List Text}

/-- How many of these lines a list takes and what its items are, when `items` have come before. -/
def listLoop (item? : Text → Option Text) (items : List Text) : List Text → Nat × List Text
  | [] => (0, items)
  | line :: rest =>
    match item? line with
    | some text => (listLoop item? (items ++ [text]) rest).map (· + 1) id
    | none =>
      if items ≠ [] ∧ continuesItem line then
        (listLoop item? (items.modifyLast (· ++ ' ' :: trim line)) rest).map (· + 1) id
      else (0, items)

/-- One round of the loop at a line: what it finds, and how many lines it passes. A quote and a list
are looked for from that line on. -/
def round (line : Text) (rest : List Text) : Content × Nat :=
  match fence? line with
  | some (mark, language) =>
    let code := rest.takeWhile fun l => !closesFence mark l
    (.fence language code, 1 + code.length + 1)
  | none =>
    if isBlank line then (.blank, 1)
    else
      match heading? line with
      | some (level, text) => (.heading level text, 1)
      | none =>
        if isRule line then (.rule, 1)
        else if (quote? line).isSome then
          let quoted := (line :: rest).takeWhile fun l => (quote? l).isSome
          (.quote (quoted.filterMap quote?), quoted.length)
        else if (bullet? line).isSome then
          let (passed, items) := listLoop bullet? [] (line :: rest)
          (.list false items, passed)
        else if (numbered? line).isSome then
          let (passed, items) := listLoop numbered? [] (line :: rest)
          (.list true items, passed)
        else (.prose line, 1)

theorem listLoop_eq (item? : Text → Option Text) (items : List Text) (item : Text)
    (rest : List Text) :
    listLoop item? (items ++ [item]) rest =
      ((listTail item? rest).1,
        items ++ (item ++ (listTail item? rest).2.1) :: (listTail item? rest).2.2) := by
  induction rest generalizing items item with
  | nil => simp [listLoop, listTail]
  | cons line rest ih =>
    rw [listLoop, listTail]
    cases hitem : item? line with
    | some text =>
      dsimp only
      rw [ih (items ++ [item]) text]
      simp
    | none =>
      by_cases hcontinues : continuesItem line = true
      · dsimp only
        rw [List.modifyLast_concat, ih items (item ++ ' ' :: trim line)]
        simp [hcontinues]
      · simp [hcontinues]

theorem listLoop_cons {item? : Text → Option Text} {line text : Text} (h : item? line = some text)
    (rest : List Text) :
    listLoop item? [] (line :: rest) =
      ((listTail item? rest).1 + 1,
        (text ++ (listTail item? rest).2.1) :: (listTail item? rest).2.2) := by
  have hloop := listLoop_eq item? [] text rest
  rw [List.nil_append] at hloop
  rw [listLoop, h]
  simp [hloop]

theorem round_eq (line : Text) (rest : List Text) :
    round line rest = ((startSegment line rest).1, (startSegment line rest).2 + 1) := by
  unfold round startSegment
  cases fence? line with
  | some f => simp [Nat.add_comm]
  | none =>
  by_cases hblank : isBlank line = true
  · simp [hblank]
  cases heading? line with
  | some f => simp [hblank]
  | none =>
  by_cases hrule : isRule line = true
  · simp [hblank, hrule]
  by_cases hquote : (quote? line).isSome = true
  · simp [hblank, hrule, hquote]
  cases hbullet : bullet? line with
  | some text => simp [hblank, hrule, hquote, listLoop_cons hbullet, listSegment]
  | none =>
  cases hnumbered : numbered? line with
  | some text => simp [hblank, hrule, hquote, listLoop_cons hnumbered, listSegment]
  | none => simp [hblank, hrule, hquote]

/-- The rounds from line `i` on, each with the lines that it passes, until there are no more. -/
inductive Rounds (ls : List Text) : Nat → List Segment → Prop where
  | done {i : Nat} (behind : ls.drop i = []) : Rounds ls i []
  | round {i : Nat} {line : Text} {rest : List Text} {ss : List Segment}
      (here : ls.drop i = line :: rest) (later : Rounds ls (i + (round line rest).2) ss) :
      Rounds ls i (⟨(ls.drop i).take (round line rest).2, (round line rest).1⟩ :: ss)

theorem segments_drop {i : Nat} {line : Text} {rest : List Text} (h : ls.drop i = line :: rest) :
    segments (ls.drop i) =
      ⟨(ls.drop i).take (round line rest).2, (round line rest).1⟩ ::
        segments (ls.drop (i + (round line rest).2)) := by
  rw [← List.drop_drop, h, segments_cons, round_eq]
  rfl

/-- The rounds end, and there is one way for them to go. -/
theorem rounds_iff {i : Nat} {ss : List Segment} : Rounds ls i ss ↔ ss = segments (ls.drop i) := by
  constructor
  · intro h
    induction h with
    | done behind =>
      rw [behind]
      rfl
    | round here later ih => rw [segments_drop here, ih]
  · rintro rfl
    -- a round passes the line it has come to, so that fewer are left
    induction hn : (ls.drop i).length using Nat.strongRecOn generalizing i with
    | ind n ih =>
    cases hdrop : ls.drop i with
    | nil => exact .done hdrop
    | cons line rest =>
      have hless : (ls.drop (i + (round line rest).2)).length < n := by
        rw [← hn, ← List.drop_drop, hdrop, round_eq, List.length_drop, List.length_cons]
        omega
      rw [← hdrop, segments_drop hdrop]
      exact .round hdrop (ih _ hless rfl)

/-- The rounds from line `i` on pass all lines from there on, and each of them passes some. -/
theorem Rounds.lines_eq {i : Nat} {ss : List Segment} (h : Rounds ls i ss) :
    ss.flatMap Segment.lines = ls.drop i ∧ ∀ s ∈ ss, s.lines ≠ [] := by
  induction h with
  | done behind => exact ⟨behind.symm, by simp⟩
  | @round i line rest ss here later ih =>
    obtain ⟨hlines, hnonempty⟩ := ih
    refine ⟨?_, List.forall_mem_cons.2 ⟨?_, hnonempty⟩⟩
    · rw [List.flatMap_cons, hlines, ← List.drop_drop]
      exact List.take_append_drop _ _
    · rw [here, round_eq]
      exact List.cons_ne_nil _ _

/-- A call ends when its loop gets behind the last line, and each call that it makes for the text of
a quote ends. -/
inductive Ends : Text → Prop where
  | intro {text : Text} {ss : List Segment} (loop : Rounds (lines (unixNewlines text)) 0 ss)
      (quotes : ∀ s ∈ ss, ∀ qs, s.content = .quote qs → Ends (joinLines qs)) : Ends text

theorem ends (text : Text) : Ends text := by
  induction hn : text.length using Nat.strongRecOn generalizing text with
  | ind n ih =>
  refine .intro (rounds_iff.2 rfl) fun s hs qs hq => ?_
  exact ih _ (hn ▸ quote_shorter hs hq) _ rfl

structure IsPlain (line : Text) : Prop where
  notBlank : isBlank line = false
  noFence : fence? line = none
  noHeading : heading? line = none
  noRule : isRule line = false
  noQuote : quote? line = none
  noBullet : bullet? line = none
  noNumber : numbered? line = none

def listItem? (ordered : Bool) : Text → Option Text := if ordered then numbered? else bullet?

/-- What a line starts, and how many of the lines behind belong to that. -/
inductive Starts (line : Text) (rest : List Text) : Content × Nat → Prop where
  | fence {mark language : Text} (fence : fence? line = some (mark, language)) :
      Starts line rest (.fence language (rest.takeWhile fun l => !closesFence mark l),
        (rest.takeWhile fun l => !closesFence mark l).length + 1)
  | blank (blank : isBlank line = true) : Starts line rest (.blank, 0)
  | heading {level : Nat} {text : Text} (heading : heading? line = some (level, text)) :
      Starts line rest (.heading level text, 0)
  | rule (rule : isRule line = true) : Starts line rest (.rule, 0)
  | quote (quote : (quote? line).isSome) :
      Starts line rest
        (.quote ((line :: rest.takeWhile fun l => (quote? l).isSome).filterMap quote?),
          (rest.takeWhile fun l => (quote? l).isSome).length)
  | list (ordered : Bool) {text : Text} (item : listItem? ordered line = some text) :
      Starts line rest (listSegment ordered (listItem? ordered) text rest)
  | plain (plain : IsPlain line) : Starts line rest (.prose line, 0)

theorem starts_startSegment (line : Text) (rest : List Text) :
    Starts line rest (startSegment line rest) := by
  unfold startSegment
  split
  · next hfence => exact .fence hfence
  next hfence =>
  split
  · next hblank => exact .blank hblank
  next hblank =>
  split
  · next hheading => exact .heading hheading
  next hheading =>
  split
  · next hrule => exact .rule hrule
  next hrule =>
  split
  · next hquote => exact .quote hquote
  next hquote =>
  split
  · next hbullet => exact .list false hbullet
  next hbullet =>
  split
  · next hnumbered => exact .list true hnumbered
  next hnumbered =>
  exact .plain ⟨by simpa using hblank, hfence, hheading, by simpa using hrule,
    by simpa using hquote, hbullet, hnumbered⟩

/-- A line that starts an item, and the lines that go on with it. -/
inductive ItemLines (item? : Text → Option Text) : List Text → Text → Prop where
  | intro {line text : Text} {more : List Text} (starts : item? line = some text)
      (goesOn : ∀ l ∈ more, item? l = none ∧ continuesItem l = true) :
      ItemLines item? (line :: more) (text ++ more.flatMap fun l => ' ' :: trim l)

/-- The lines in order belong to the blocks in order, each line to one, but for the blank lines
between blocks. A fence that is not shut goes on to the last line. -/
inductive Divided : List Text → List Block → Prop where
  | nil : Divided [] []
  | blank {line : Text} {ls : List Text} {bs : List Block} (blank : isBlank line = true)
      (later : Divided ls bs) : Divided (line :: ls) bs
  | paragraph {plain ls : List Text} {bs : List Block} (nonempty : plain ≠ [])
      (each : ∀ l ∈ plain, IsPlain l) (later : Divided ls bs) :
      Divided (plain ++ ls) (.paragraph (paragraphText plain) :: bs)
  | heading {line text : Text} {level : Nat} {ls : List Text} {bs : List Block}
      (heading : heading? line = some (level, text)) (later : Divided ls bs) :
      Divided (line :: ls) (.heading level text :: bs)
  | rule {line : Text} {ls : List Text} {bs : List Block} (rule : isRule line = true)
      (later : Divided ls bs) : Divided (line :: ls) (.rule :: bs)
  | quote {quoted ls : List Text} {bs : List Block} (nonempty : quoted ≠ [])
      (each : ∀ l ∈ quoted, (quote? l).isSome) (later : Divided ls bs) :
      Divided (quoted ++ ls) (.quote (blocks (joinLines (quoted.filterMap quote?))) :: bs)
  | list {ordered : Bool} {groups : List (List Text)} {items ls : List Text} {bs : List Block}
      (nonempty : items ≠ []) (each : List.Forall₂ (ItemLines (listItem? ordered)) groups items)
      (later : Divided ls bs) : Divided (groups.flatten ++ ls) (.list ordered items :: bs)
  | fence {opening mark language closing : Text} {code ls : List Text} {bs : List Block}
      (opened : fence? opening = some (mark, language))
      (inside : ∀ l ∈ code, closesFence mark l = false) (shut : closesFence mark closing = true)
      (later : Divided ls bs) :
      Divided (opening :: (code ++ closing :: ls)) (.code language code :: bs)
  | openFence {opening mark language : Text} {code : List Text}
      (opened : fence? opening = some (mark, language))
      (inside : ∀ l ∈ code, closesFence mark l = false) :
      Divided (opening :: code) [.code language code]

theorem exists_listTail (item? : Text → Option Text) (rest : List Text) :
    ∃ more groups, rest.take (listTail item? rest).1 = more ++ groups.flatten ∧
      (∀ l ∈ more, item? l = none ∧ continuesItem l = true) ∧
      (listTail item? rest).2.1 = (more.flatMap fun l => ' ' :: trim l) ∧
      List.Forall₂ (ItemLines item?) groups (listTail item? rest).2.2 := by
  induction rest with
  | nil => exact ⟨[], [], rfl, by simp, rfl, .nil⟩
  | cons line rest ih =>
    obtain ⟨more, groups, htake, hmore, htext, hitems⟩ := ih
    rw [listTail]
    cases hitem : item? line with
    | some text =>
      dsimp only
      rw [List.take_succ_cons, htake, htext]
      exact ⟨[], (line :: more) :: groups, rfl, by simp, rfl, .cons (.intro hitem hmore) hitems⟩
    | none =>
      dsimp only
      split
      · next hcontinues =>
        rw [List.take_succ_cons, htake, htext]
        exact ⟨line :: more, groups, rfl, List.forall_mem_cons.2 ⟨⟨hitem, hcontinues⟩, hmore⟩, rfl,
          hitems⟩
      · exact ⟨[], [], rfl, by simp, rfl, .nil⟩

def lineBlocks (ls : List Text) : List Block := gather [] ((segments ls).map Segment.piece)

section Segments

variable {line : Text} {rest : List Text}

theorem divided_fence {mark language : Text} (h : fence? line = some (mark, language))
    (later : ∀ more, Divided (rest.drop more) (lineBlocks (rest.drop more))) :
    Divided (line :: rest) (.code language (rest.takeWhile fun l => !closesFence mark l) ::
      lineBlocks (rest.drop ((rest.takeWhile fun l => !closesFence mark l).length + 1))) := by
  have hinside : ∀ l ∈ rest.takeWhile (fun l => !closesFence mark l), closesFence mark l = false :=
    fun l hl => by simpa using List.all_eq_true.1 List.all_takeWhile l hl
  have hsplit := List.takeWhile_append_dropWhile (p := fun l => !closesFence mark l) (l := rest)
  generalize rest.takeWhile (fun l => !closesFence mark l) = code at hinside hsplit ⊢
  cases hrest : rest.dropWhile (fun l => !closesFence mark l) with
  | nil =>
    rw [hrest, List.append_nil] at hsplit
    rw [← hsplit, List.drop_of_length_le (Nat.le_succ _)]
    exact .openFence h hinside
  | cons closing after =>
    have hshut : closesFence mark closing = true := by
      have := List.head_dropWhile_not (fun l => !closesFence mark l) (l := rest) (by simp [hrest])
      simpa [hrest] using this
    rw [hrest] at hsplit
    have hlater := later (code.length + 1)
    rw [← hsplit, List.drop_length_add_append, List.drop_one, List.tail_cons] at hlater ⊢
    exact .fence h hinside hshut hlater

theorem divided_quote (h : (quote? line).isSome)
    (later : ∀ more, Divided (rest.drop more) (lineBlocks (rest.drop more))) :
    Divided (line :: rest)
      (.quote (blocks (joinLines
          ((line :: rest.takeWhile fun l => (quote? l).isSome).filterMap quote?))) ::
        lineBlocks (rest.drop (rest.takeWhile fun l => (quote? l).isSome).length)) := by
  have heach : ∀ l ∈ rest.takeWhile (fun l => (quote? l).isSome), (quote? l).isSome :=
    List.all_eq_true.1 List.all_takeWhile
  have hsplit := List.takeWhile_append_dropWhile (p := fun l => (quote? l).isSome) (l := rest)
  generalize rest.takeWhile (fun l => (quote? l).isSome) = quoted at heach hsplit ⊢
  have hlater := later quoted.length
  rw [← hsplit, List.drop_left] at hlater ⊢
  exact .quote (List.cons_ne_nil _ _) (List.forall_mem_cons.2 ⟨h, heach⟩) hlater

theorem divided_list {ordered : Bool} {text : Text} (h : listItem? ordered line = some text)
    (later : ∀ more, Divided (rest.drop more) (lineBlocks (rest.drop more))) :
    Divided (line :: rest)
      (.list ordered ((text ++ (listTail (listItem? ordered) rest).2.1) ::
          (listTail (listItem? ordered) rest).2.2) ::
        lineBlocks (rest.drop (listTail (listItem? ordered) rest).1)) := by
  obtain ⟨more, groups, htake, hmore, htext, hitems⟩ := exists_listTail (listItem? ordered) rest
  have hlines : line :: rest = ((line :: more) :: groups).flatten ++
      rest.drop (listTail (listItem? ordered) rest).1 := by
    rw [List.flatten_cons, List.cons_append, ← htake, List.cons_append, List.take_append_drop]
  rw [hlines, htext]
  exact .list (List.cons_ne_nil _ _) (.cons (.intro h hmore) hitems) (later _)

end Segments

theorem divided_afterParagraph {pending ls : List Text} {bs : List Block}
    (hpending : ∀ l ∈ pending, IsPlain l) (h : Divided ls bs) :
    Divided (pending ++ ls) (paragraph pending ++ bs) := by
  cases pending with
  | nil => exact h
  | cons l pending => exact .paragraph (List.cons_ne_nil l pending) hpending h

/-- What is gathered from the segments of lines, and from plain lines before them, divides those
lines. -/
theorem divided_gather {pending : List Text} (hpending : ∀ l ∈ pending, IsPlain l)
    (ls : List Text) :
    Divided (pending ++ ls) (gather pending ((segments ls).map Segment.piece)) := by
  -- each segment leaves fewer lines
  induction hn : ls.length using Nat.strongRecOn generalizing ls pending with
  | ind n ih =>
  cases ls with
  | nil =>
    have h := divided_afterParagraph hpending .nil
    rw [List.append_nil] at h ⊢
    simpa [segments, segmentsFrom, gather] using h
  | cons line rest =>
  have later (more : Nat) : Divided (rest.drop more) (lineBlocks (rest.drop more)) :=
    ih _ (by rw [← hn, List.length_drop, List.length_cons]; omega) (List.forall_mem_nil _) _ rfl
  have hstarts := starts_startSegment line rest
  rw [segments_cons, List.map_cons]
  generalize startSegment line rest = start at hstarts ⊢
  cases hstarts with
  | fence h => exact divided_afterParagraph hpending (divided_fence h later)
  | blank h => exact divided_afterParagraph hpending (.blank h (later 0))
  | heading h => exact divided_afterParagraph hpending (.heading h (later 0))
  | rule h => exact divided_afterParagraph hpending (.rule h (later 0))
  | quote h => exact divided_afterParagraph hpending (divided_quote h later)
  | list ordered h => exact divided_afterParagraph hpending (divided_list h later)
  | plain h =>
    have hall : ∀ l ∈ pending ++ [line], IsPlain l := by
      simpa [or_imp, forall_and, h] using hpending
    rw [List.append_cons]
    exact ih rest.length (by simp [← hn]) hall _ rfl

/-- The rounds of the loop pass the lines of a text one after the other, each round at least one and
none of them twice. The lines belong to the blocks of the text in order, but for blank lines between
blocks. The text of a quote is shorter than the text it stands in, so that every call ends, also
where a fence is not shut. -/
theorem rounds_cover_lines (text : Text) :
    (∀ ss, Rounds (lines (unixNewlines text)) 0 ss ↔
      ss = segments (lines (unixNewlines text))) ∧
    (∀ s ∈ segments (lines (unixNewlines text)), s.lines ≠ []) ∧
    (segments (lines (unixNewlines text))).flatMap Segment.lines = lines (unixNewlines text) ∧
    Divided (lines (unixNewlines text)) (blocks text) ∧
    (∀ s ∈ segments (lines (unixNewlines text)), ∀ qs, s.content = .quote qs →
      (joinLines qs).length < text.length) ∧
    Ends text := by
  have hrounds : Rounds (lines (unixNewlines text)) 0 (segments (lines (unixNewlines text))) :=
    rounds_iff.2 rfl
  obtain ⟨hlines, hnonempty⟩ := hrounds.lines_eq
  refine ⟨fun ss => rounds_iff, hnonempty, hlines, ?_, fun s hs qs hq => quote_shorter hs hq,
    ends text⟩
  rw [blocks_eq]
  exact divided_gather (List.forall_mem_nil _) _

def mixed : Text := "one\ntwo\n\n>> in\n* a\n  b\n\x60\x60\x60 md\n\nopen"

theorem rounds_cover_mixed :
    (segments (lines (unixNewlines mixed))).flatMap Segment.lines = lines (unixNewlines mixed) ∧
    (segments (lines (unixNewlines mixed))).length = 6 ∧ (blocks mixed).length = 4 ∧
    Divided (lines (unixNewlines mixed)) (blocks mixed) ∧
    (∃ s ∈ segments (lines (unixNewlines mixed)), s.content = .quote ["> in"]) ∧
    (joinLines ["> in"]).length < mixed.length ∧ Ends mixed := by
  obtain ⟨-, -, hlines, hdivided, hshorter, hends⟩ := rounds_cover_lines mixed
  have hquote : ⟨[">> in"], .quote ["> in"]⟩ ∈ segments (lines (unixNewlines mixed)) :=
    List.mem_of_getElem? (i := 3) rfl
  have hblocks : (blocks mixed).length = 4 := by rw [blocks]; decide
  exact ⟨hlines, by decide, hblocks, hdivided, ⟨_, hquote, rfl⟩, hshorter _ hquote _ rfl, hends⟩

end Literate.Markup

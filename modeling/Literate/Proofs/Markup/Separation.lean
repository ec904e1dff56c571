import Literate.Markup.Block
import Literate.Proofs.Document.Composition
import Literate.Proofs.Markup.Blocks

namespace Literate

namespace Text

theorem splitOn_append_separator (sep : Char) (s t : Text) :
    splitOn sep (s ++ sep :: t) = splitOn sep s ++ splitOn sep t := by
  fun_induction splitOn sep s with
  | case1 => simp [splitOn]
  | case2 s ih =>
    rw [List.cons_append, splitOn, if_pos rfl, ih, List.cons_append]
  | case3 c s hc hs => exact absurd hs (splitOn_ne_nil sep s)
  | case4 c s hc p ps hs ih =>
    rw [List.cons_append, splitOn, if_neg hc, ih, hs]
    rfl

theorem lines_around_blank {s : Text} (h : s.getLast? ≠ some '\r') (t : Text) :
    lines (unixNewlines (s ++ "\n\n" ++ t)) =
      lines (unixNewlines s) ++ [] :: lines (unixNewlines t) := by
  have hunix : unixNewlines (s ++ "\n\n" ++ t) =
      unixNewlines s ++ '\n' :: ([] ++ '\n' :: unixNewlines t) := by
    rw [List.append_assoc, unixNewlines_append h]
    rfl
  rw [hunix, lines, splitOn_append_separator, splitOn_append_separator]
  rfl

theorem joinLines_singleton (l : Text) : joinLines [l] = l := by
  rw [joinLines, join, List.intercalate_singleton]

theorem joinLines_cons_cons (l m : Text) (ms : List Text) :
    joinLines (l :: m :: ms) = l ++ "\n" ++ joinLines (m :: ms) := List.intercalate_cons_cons

theorem joinLines_append {ls ms : List Text} (hls : ls ≠ []) (hms : ms ≠ []) :
    joinLines (ls ++ ms) = joinLines ls ++ "\n" ++ joinLines ms := by
  obtain ⟨m, ms, rfl⟩ := List.exists_cons_of_ne_nil hms
  induction ls with
  | nil => exact absurd rfl hls
  | cons l ls ih =>
    cases ls with
    | nil =>
      rw [joinLines_singleton]
      exact joinLines_cons_cons l m ms
    | cons l' ls =>
      have hrest : joinLines (l' :: (ls ++ m :: ms)) =
          joinLines (l' :: ls) ++ "\n" ++ joinLines (m :: ms) := ih (List.cons_ne_nil _ _)
      rw [List.cons_append, List.cons_append, joinLines_cons_cons, joinLines_cons_cons, hrest]
      simp only [List.append_assoc]

end Text

namespace Markup

open Text

variable {line : Text} {rest front back : List Text}

/-- A fence is shut by the line behind its code. -/
def Segment.isShut (s : Segment) : Bool :=
  match s.content, s.lines with
  | .fence _ code, opening :: rest =>
    (fence? opening).any fun f => (rest.drop code.length).any (closesFence f.1)
  | _, _ => true

/-- Every fence of a text is shut by one of its lines. -/
def FencesShut (text : Text) : Prop :=
  ∀ s ∈ segments (lines (unixNewlines text)), s.isShut = true

instance (text : Text) : Decidable (FencesShut text) :=
  inferInstanceAs (Decidable (∀ s ∈ segments (lines (unixNewlines text)), s.isShut = true))

theorem length_lt_of_isShut {language : Text} {code : List Text}
    (h : (⟨line :: rest.take (code.length + 1), .fence language code⟩ : Segment).isShut = true) :
    code.length < rest.length := by
  by_contra hlength
  have hnone : (rest.take (code.length + 1)).drop code.length = [] := by
    rw [List.drop_eq_nil_iff, List.length_take]
    omega
  simp [Segment.isShut, hnone] at h

theorem takeWhile_append_stop {α : Type} {p : α → Bool} {x : α} (hx : p x = false)
    (xs ys : List α) : (xs ++ x :: ys).takeWhile p = xs.takeWhile p := by
  rw [List.takeWhile_append, List.takeWhile_cons_of_neg (by simp [hx]), List.append_nil]
  split
  · next hall => exact ((List.takeWhile_prefix p).eq_of_length hall).symm
  · rfl

theorem listTail_append (item? : Text → Option Text) (hitem : item? [] = none)
    (rest back : List Text) :
    listTail item? (rest ++ [] :: back) = listTail item? rest ∧
      (listTail item? rest).1 ≤ rest.length := by
  induction rest with
  | nil =>
    refine ⟨?_, Nat.le_refl 0⟩
    have hcontinues : continuesItem [] = false := rfl
    simp [listTail, hitem, hcontinues]
  | cons line rest ih =>
    obtain ⟨hsame, hlength⟩ := ih
    refine ⟨by rw [List.cons_append, listTail, hsame, listTail], ?_⟩
    rw [listTail]
    dsimp only
    split
    · exact Nat.succ_le_succ hlength
    · split
      · exact Nat.succ_le_succ hlength
      · exact Nat.zero_le _

/-- What a line starts ends before a blank line, unless it is a fence that is not shut by then. -/
theorem startSegment_append
    (h : (⟨line :: rest.take (startSegment line rest).2, (startSegment line rest).1⟩ :
      Segment).isShut = true) (back : List Text) :
    startSegment line (rest ++ [] :: back) = startSegment line rest ∧
      (startSegment line rest).2 ≤ rest.length := by
  -- the kinds of blocks in the order in which they are tried; only what takes lines can see `back`
  cases hfence : fence? line with
  | some f =>
    have hstart (ls : List Text) : startSegment line ls =
        (.fence f.2 (ls.takeWhile fun l => !closesFence f.1 l),
          (ls.takeWhile fun l => !closesFence f.1 l).length + 1) := by
      simp only [startSegment, hfence]
    rw [hstart] at h
    have hlength := length_lt_of_isShut h
    -- the fence was closed, so that the blank line behind `rest` is not in the code
    have hcode : (rest ++ [] :: back).takeWhile (fun l => !closesFence f.1 l) =
        rest.takeWhile fun l => !closesFence f.1 l := by
      rw [List.takeWhile_append, if_neg hlength.ne]
    exact ⟨by rw [hstart, hstart, hcode], by rw [hstart]; exact hlength⟩
  | none =>
  by_cases hblank : isBlank line = true
  · simp [startSegment, hfence, hblank]
  cases hheading : heading? line with
  | some f => simp [startSegment, hfence, hblank, hheading]
  | none =>
  by_cases hrule : isRule line = true
  · simp [startSegment, hfence, hblank, hheading, hrule]
  by_cases hquote : (quote? line).isSome = true
  · have hstop : (rest ++ [] :: back).takeWhile (fun l => (quote? l).isSome) =
        rest.takeWhile fun l => (quote? l).isSome := takeWhile_append_stop rfl _ _
    have hlength := (List.takeWhile_sublist (l := rest) fun l => (quote? l).isSome).length_le
    simp [startSegment, hfence, hblank, hheading, hrule, hquote, hstop, hlength]
  cases hbullet : bullet? line with
  | some text =>
    obtain ⟨hsame, hlength⟩ := listTail_append bullet? rfl rest back
    simp [startSegment, hfence, hblank, hheading, hrule, hquote, hbullet, listSegment, hsame,
      hlength]
  | none =>
  cases hnumbered : numbered? line with
  | some text =>
    obtain ⟨hsame, hlength⟩ := listTail_append numbered? rfl rest back
    simp [startSegment, hfence, hblank, hheading, hrule, hquote, hbullet, hnumbered, listSegment,
      hsame, hlength]
  | none =>
    simp [startSegment, hfence, hblank, hheading, hrule, hquote, hbullet, hnumbered]

theorem segments_append (h : ∀ s ∈ segments front, s.isShut = true) (back : List Text) :
    segments (front ++ [] :: back) =
      segments front ++ ⟨[[]], .blank⟩ :: segments back := by
  -- each segment leaves fewer lines
  induction hn : front.length using Nat.strongRecOn generalizing front with
  | ind n ih =>
  cases front with
  | nil => exact segments_cons [] back
  | cons line rest =>
    rw [segments_cons, List.forall_mem_cons] at h
    obtain ⟨hstart, hlength⟩ := startSegment_append h.1 back
    have hshorter : (rest.drop (startSegment line rest).2).length < n := by
      rw [← hn, List.length_drop, List.length_cons]
      omega
    rw [List.cons_append, segments_cons, segments_cons, hstart,
      List.take_append_of_le_length hlength, List.drop_append_of_le_length hlength,
      ih _ hshorter h.2 rfl, List.cons_append]

def Segment.piece (s : Segment) : Piece :=
  match s.content with
  | .blank => .gap
  | .prose line => .prose line
  | .heading level t => .block (.heading level t)
  | .rule => .block .rule
  | .list ordered items => .block (.list ordered items)
  | .fence language code => .block (.code language code)
  | .quote qs => .block (.quote (blocks (joinLines qs)))

theorem blocks_eq (text : Text) :
    blocks text = gather [] ((segments (lines (unixNewlines text))).map Segment.piece) := by
  rw [blocks]
  refine congrArg (gather []) ((List.map_congr_left fun s _ => ?_).trans List.attach_map_val)
  obtain ⟨⟨_, content⟩, _⟩ := s
  cases content <;> rfl

theorem gather_append_gap (pending : List Text) (ps qs : List Piece) :
    gather pending (ps ++ .gap :: qs) = gather pending ps ++ gather [] qs := by
  induction ps generalizing pending with
  | nil => rfl
  | cons p ps ih =>
    cases p with
    | gap => simp [gather, ih]
    | prose line => exact ih _
    | block b => simp [gather, ih]

theorem blocks_append {a : Text} (hend : a.getLast? ≠ some '\r') (hshut : FencesShut a) (b : Text) :
    blocks (a ++ "\n\n" ++ b) = blocks a ++ blocks b := by
  rw [blocks_eq, lines_around_blank hend, segments_append hshut, List.map_append, List.map_cons,
    blocks_eq a, blocks_eq b]
  exact gather_append_gap _ _ _

theorem htmlEach_append (bs cs : List Block) :
    htmlEach (bs ++ cs) = htmlEach bs ++ htmlEach cs := by
  induction bs with
  | nil => rfl
  | cons b bs ih => rw [List.cons_append, htmlEach, htmlEach, ih, List.cons_append]

theorem element_ne_nil (tag content : Text) : element tag content ≠ [] :=
  List.append_ne_nil_of_right_ne_nil _ (by decide)

theorem Block.html_ne_nil (b : Block) : b.html ≠ [] := by
  cases b with
  | paragraph | heading => exact element_ne_nil _ _
  | rule => exact List.cons_ne_nil _ _
  | quote | list | code => exact List.append_ne_nil_of_right_ne_nil _ (by decide)

theorem htmlEach_ne_nil {bs : List Block} (h : bs ≠ []) : htmlEach bs ≠ [] := by
  obtain ⟨b, bs, rfl⟩ := List.exists_cons_of_ne_nil h
  exact List.cons_ne_nil _ _

theorem joinLines_htmlEach_eq_nil {bs : List Block} : joinLines (htmlEach bs) = [] ↔ bs = [] := by
  refine ⟨fun h => ?_, fun h => by rw [h]; rfl⟩
  match bs with
  | [] => rfl
  | [b] =>
    exact absurd ((joinLines_singleton b.html).symm.trans h) b.html_ne_nil
  | b :: b' :: bs =>
    rw [htmlEach, htmlEach, joinLines_cons_cons] at h
    simp at h

/-- Two texts with a blank line between them are rendered one under the other, if the first does not
leave a fence open. -/
theorem blank_line_separates (a b : Text) (hend : a.getLast? ≠ some '\r') (hshut : FencesShut a) :
    blocks (a ++ "\n\n" ++ b) = blocks a ++ blocks b ∧
    proseHtml (a ++ "\n\n" ++ b) =
      if proseHtml a = [] then proseHtml b
      else if proseHtml b = [] then proseHtml a
      else proseHtml a ++ "\n" ++ proseHtml b := by
  have hblocks := blocks_append hend hshut b
  refine ⟨hblocks, ?_⟩
  simp only [proseHtml, hblocks, htmlEach_append, joinLines_htmlEach_eq_nil]
  split
  · next ha => rw [ha, htmlEach, List.nil_append]
  split
  · next hb => rw [hb, htmlEach, List.append_nil]
  · next ha hb => exact joinLines_append (htmlEach_ne_nil ha) (htmlEach_ne_nil hb)

def leftSide : Text :=
  "* one\n  more\n~~~ md\n# code\n\n- code\n~~~~\n> \x60\x60\x60\n> quoted\ntail"

def rightSide : Text := "  on\n1. first\n\x60\x60\x60\nopen"

theorem blank_line_separates_sides :
    leftSide.getLast? ≠ some '\r' ∧ FencesShut leftSide ∧ ¬FencesShut rightSide ∧
    (blocks leftSide).length = 4 ∧ (blocks rightSide).length = 3 ∧
    blocks (leftSide ++ "\n\n" ++ rightSide) = blocks leftSide ++ blocks rightSide ∧
    proseHtml (leftSide ++ "\n\n" ++ rightSide) =
      proseHtml leftSide ++ "\n" ++ proseHtml rightSide := by
  have hend : leftSide.getLast? ≠ some '\r' := by decide
  have hshut : FencesShut leftSide := by decide
  have hleft : (blocks leftSide).length = 4 := by rw [blocks]; decide
  have hright : (blocks rightSide).length = 3 := by rw [blocks]; decide
  have hshown {text : Text} (h : (blocks text).length ≠ 0) : proseHtml text ≠ [] :=
    fun hnil => h (congrArg List.length (joinLines_htmlEach_eq_nil.1 hnil))
  obtain ⟨hblocks, hhtml⟩ := blank_line_separates leftSide rightSide hend hshut
  rw [if_neg (hshown (by omega)), if_neg (hshown (by omega))] at hhtml
  exact ⟨hend, hshut, by decide, hleft, hright, hblocks, hhtml⟩

end Markup

end Literate

import Literate.Markup.Inline
import Literate.Markup.Segment

namespace Literate.Markup

inductive Block where
  | paragraph (text : Text)
  | heading (level : Nat) (text : Text)
  | rule
  | quote (inner : List Block)
  | list (ordered : Bool) (items : List Text)
  | code (language : Text) (lines : List Text)

/-- The number of characters of lines with their line ends. -/
def size : List Text → Nat
  | [] => 0
  | l :: ls => l.length + 1 + size ls

theorem size_splitOn (s : Text) : size (Text.splitOn '\n' s) = s.length + 1 := by
  induction s with
  | nil => rfl
  | cons c s ih =>
    unfold Text.splitOn
    split
    · simp [size] at ih ⊢
      omega
    · split
      · next h => exact absurd h (Text.splitOn_ne_nil _ _)
      · next p ps h =>
        rw [h] at ih
        simp [size] at ih ⊢
        omega

theorem length_joinLines_lt_size {lines : List Text} (h : lines ≠ []) :
    (Text.joinLines lines).length < size lines := by
  induction lines with
  | nil => exact absurd rfl h
  | cons l ls ih =>
    cases ls with
    | nil => simp [Text.joinLines, Text.join, List.intercalate, size]
    | cons l' ls =>
      have := ih (by simp)
      simp [Text.joinLines, Text.join, List.intercalate, size] at this ⊢
      omega

theorem quote?_length_lt {line text : Text} (h : quote? line = some text) :
    text.length < line.length := by
  have hu : ∀ s, unindented? line = some s → s.length ≤ line.length := by
    intro s hs
    simp only [unindented?] at hs
    split at hs
    · cases hs
      exact (List.dropWhile_sublist _).length_le
    · cases hs
  simp only [quote?, Option.bind_eq_bind, Option.bind_eq_some_iff] at h
  obtain ⟨s, hs, ht⟩ := h
  have := hu s hs
  split at ht
  · split at ht <;> (cases ht; simp at this ⊢; omega)
  · cases ht
    simp at this ⊢
    omega
  · cases ht

theorem size_filterMap_quote?_lt {lines : List Text} (hne : lines ≠ [])
    (h : ∀ l ∈ lines, (quote? l).isSome) : size (lines.filterMap quote?) < size lines := by
  induction lines with
  | nil => exact absurd rfl hne
  | cons l ls ih =>
    obtain ⟨t, ht⟩ := Option.isSome_iff_exists.1 (h l (by simp))
    have hl := quote?_length_lt ht
    cases ls with
    | nil => simp [size, ht]; omega
    | cons l' ls =>
      have := ih (by simp) fun x hx => h x (List.mem_cons_of_mem _ hx)
      rw [List.filterMap_cons_some ht]
      simp only [size] at this ⊢
      omega

theorem startSegment_quote {line : Text} {rest qs : List Text} {n : Nat}
    (h : startSegment line rest = (.quote qs, n)) :
    qs ≠ [] ∧ size qs < size (line :: rest.take n) := by
  unfold startSegment at h
  split at h
  · cases h
  split at h
  · cases h
  split at h
  · cases h
  split at h
  · cases h
  split at h
  · next hq =>
    simp only [Prod.mk.injEq, Content.quote.injEq] at h
    obtain ⟨rfl, rfl⟩ := h
    have htake : rest.take ((line :: rest.takeWhile fun l => (quote? l).isSome).length - 1) =
        rest.takeWhile fun l => (quote? l).isSome := by
      simp only [List.length_cons, Nat.add_sub_cancel]
      exact (List.prefix_iff_eq_take.1 (List.takeWhile_prefix _)).symm
    rw [htake]
    refine ⟨?_, size_filterMap_quote?_lt (by simp) ?_⟩
    · obtain ⟨t, ht⟩ := Option.isSome_iff_exists.1 hq
      simp [ht]
    · intro l hl
      rcases List.mem_cons.1 hl with rfl | hl
      · exact hq
      · exact List.all_eq_true.1 List.all_takeWhile l hl
  · split at h
    · cases h
    split at h
    · cases h
    · cases h

theorem size_cons (line : Text) (rest : List Text) :
    size (line :: rest) = line.length + 1 + size rest := by
  simp [size]

theorem size_take_le (n : Nat) (lines : List Text) : size (lines.take n) ≤ size lines := by
  induction lines generalizing n with
  | nil => simp
  | cons l ls ih =>
    cases n with
    | zero => simp [size]
    | succ n =>
      have := ih n
      rw [List.take_succ_cons, size_cons, size_cons]
      omega

theorem size_le_of_mem_segmentsFrom {s : Segment} {lines : List Text} {skip : Nat}
    (h : s ∈ segmentsFrom skip lines) : size s.lines ≤ size lines := by
  induction lines generalizing skip with
  | nil => simp [segmentsFrom] at h
  | cons line rest ih =>
    rw [size_cons]
    rw [segmentsFrom] at h
    split at h
    · have := ih h
      omega
    · rcases List.mem_cons.1 h with rfl | h
      · have := size_take_le (startSegment line rest).2 rest
        rw [size_cons]
        omega
      · have := ih h
        omega

theorem size_quote_lt {s : Segment} {lines qs : List Text} {skip : Nat}
    (h : s ∈ segmentsFrom skip lines) (hq : s.content = .quote qs) :
    qs ≠ [] ∧ size qs < size s.lines := by
  induction lines generalizing skip with
  | nil => simp [segmentsFrom] at h
  | cons line rest ih =>
    rw [segmentsFrom] at h
    split at h
    · exact ih h
    · rcases List.mem_cons.1 h with rfl | h
      · exact startSegment_quote (Prod.ext hq rfl)
      · exact ih h

/-- The text of a quote is shorter than the text that the quote stands in. -/
theorem quote_shorter {s : Segment} {text : Text} {qs : List Text}
    (h : s ∈ segments (Text.lines (Text.unixNewlines text))) (hq : s.content = .quote qs) :
    (Text.joinLines qs).length < text.length := by
  have h1 := size_quote_lt h hq
  have h2 := size_le_of_mem_segmentsFrom h
  have h3 := length_joinLines_lt_size h1.1
  have h4 := Text.unixNewlines_length_le text
  rw [Text.lines, size_splitOn] at h2
  omega

/-- What a segment contributes: the end of a paragraph, a line of one, or a block. -/
inductive Piece where
  | gap
  | prose (line : Text)
  | block (b : Block)

def paragraphText (lines : List Text) : Text := Text.join [' '] (lines.map Text.trim)

def paragraph (lines : List Text) : List Block :=
  if lines.isEmpty then [] else [.paragraph (paragraphText lines)]

/-- The blocks of pieces, when `pending` are the lines of an open paragraph. -/
def gather (pending : List Text) : List Piece → List Block
  | [] => paragraph pending
  | .gap :: ps => paragraph pending ++ gather [] ps
  | .prose line :: ps => gather (pending ++ [line]) ps
  | .block b :: ps => paragraph pending ++ b :: gather [] ps

/-- The blocks of a text. -/
def blocks (text : Text) : List Block :=
  gather [] <| (segments (Text.lines (Text.unixNewlines text))).attach.map fun ⟨s, _h⟩ =>
    match _hc : s.content with
    | .blank => .gap
    | .prose line => .prose line
    | .heading level t => .block (.heading level t)
    | .rule => .block .rule
    | .list ordered items => .block (.list ordered items)
    | .fence language code => .block (.code language code)
    | .quote qs => .block (.quote (blocks (Text.joinLines qs)))
termination_by text.length
decreasing_by exact quote_shorter _h _hc

def listItem (item : Text) : Text := element "li" (inlineHtml item) ++ "\n"

def listElement (ordered : Bool) (items : List Text) : Text :=
  let tag : Text := if ordered then "ol" else "ul"
  "<" ++ tag ++ ">\n" ++ items.flatMap listItem ++ "</" ++ tag ++ ">"

def languageAttribute (language : Text) : Text :=
  if language.isEmpty then [] else " class=\"language-" ++ escape language ++ "\""

def codeBlock (language : Text) (lines : List Text) : Text :=
  "<pre><code" ++ languageAttribute language ++ ">" ++ escapeContent (Text.joinLines lines) ++
    "</code></pre>"

mutual

def Block.html : Block → Text
  | .paragraph s => element "p" (inlineHtml s)
  | .heading level s => element ('h' :: Text.ofNat level) (inlineHtml s)
  | .rule => "<hr>"
  | .quote inner => "<blockquote>\n" ++ Text.joinLines (htmlEach inner) ++ "\n</blockquote>"
  | .list ordered items => listElement ordered items
  | .code language lines => codeBlock language lines

def htmlEach : List Block → List Text
  | [] => []
  | b :: bs => b.html :: htmlEach bs

end

/-- The blocks of a text, one under the other. -/
def proseHtml (text : Text) : Text := Text.joinLines (htmlEach (blocks text))

end Literate.Markup

import Literate.Markup.Block
import Mathlib.Data.Option.Basic

namespace Literate.Markup

theorem mem_gather {pending : List Text} {ps : List Piece} {b : Block} (h : b ∈ gather pending ps) :
    (∃ text, b = .paragraph text) ∨ .block b ∈ ps := by
  have hparagraph : ∀ lines, b ∈ paragraph lines → ∃ text, b = .paragraph text := by
    intro lines hb
    unfold paragraph at hb
    split at hb
    · simp at hb
    · exact ⟨_, List.mem_singleton.1 hb⟩
  induction ps generalizing pending with
  | nil => exact .inl (hparagraph _ h)
  | cons p ps ih =>
    cases p with
    | gap =>
      rcases List.mem_append.1 h with h | h
      · exact .inl (hparagraph _ h)
      · exact (ih h).imp_right (List.mem_cons_of_mem _)
    | prose line => exact (ih h).imp_right (List.mem_cons_of_mem _)
    | block b' =>
      rcases List.mem_append.1 h with h | h
      · exact .inl (hparagraph _ h)
      · rcases List.mem_cons.1 h with rfl | h
        · exact .inr List.mem_cons_self
        · exact (ih h).imp_right (List.mem_cons_of_mem _)

theorem heading?_level {line text : Text} {level : Nat} (h : heading? line = some (level, text)) :
    1 ≤ level ∧ level ≤ 6 := by
  simp only [heading?, Option.bind_eq_bind, Option.bind_eq_some_iff] at h
  obtain ⟨inner, -, _, hlevel, rest, -, heq⟩ := h
  have hsame : (inner.takeWhile (· == '#')).length = level :=
    (Prod.mk.inj (Option.some.inj heq)).1
  unfold guard at hlevel
  split at hlevel
  · next hbounds => exact hsame ▸ hbounds
  · cases hlevel

theorem startSegment_heading {line text : Text} {rest : List Text} {level n : Nat}
    (h : startSegment line rest = (.heading level text, n)) : 1 ≤ level ∧ level ≤ 6 := by
  unfold startSegment at h
  split at h
  · cases h
  split at h
  · cases h
  split at h
  · next hheading =>
    obtain ⟨hcontent, -⟩ := Prod.mk.inj h
    obtain ⟨rfl, rfl⟩ := Content.heading.inj hcontent
    exact heading?_level hheading
  split at h
  · cases h
  split at h
  · cases h
  split at h
  · cases h
  split at h
  · cases h
  · cases h

theorem heading_of_mem_segmentsFrom {s : Segment} {lines : List Text} {skip level : Nat}
    {text : Text} (h : s ∈ segmentsFrom skip lines) (hs : s.content = .heading level text) :
    1 ≤ level ∧ level ≤ 6 := by
  induction lines generalizing skip with
  | nil => simp [segmentsFrom] at h
  | cons line rest ih =>
    rw [segmentsFrom] at h
    split at h
    · exact ih h
    · rcases List.mem_cons.1 h with rfl | h
      · exact startSegment_heading (Prod.ext hs rfl)
      · exact ih h

theorem segmentsFrom_eq (skip : Nat) (lines : List Text) :
    segmentsFrom skip lines = segments (lines.drop skip) := by
  induction lines generalizing skip with
  | nil => rw [List.drop_nil, segments, segmentsFrom, segmentsFrom]
  | cons line rest ih =>
    cases skip with
    | zero => rfl
    | succ skip =>
      rw [segmentsFrom, if_pos skip.succ_pos, ih, Nat.add_sub_cancel, List.drop_succ_cons]

theorem segments_cons (line : Text) (rest : List Text) :
    segments (line :: rest) =
      ⟨line :: rest.take (startSegment line rest).2, (startSegment line rest).1⟩ ::
        segments (rest.drop (startSegment line rest).2) := by
  rw [segments, segmentsFrom, if_neg (Nat.lt_irrefl 0)]
  dsimp only
  rw [segmentsFrom_eq]

theorem segments_fence {opening mark language closing : Text} {code after : List Text}
    (h : fence? opening = some (mark, language))
    (hcode : ∀ l ∈ code, closesFence mark l = false) (hclosing : closesFence mark closing = true) :
    segments (opening :: (code ++ closing :: after)) =
      ⟨opening :: (code ++ [closing]), .fence language code⟩ :: segments after := by
  have htake : (code ++ closing :: after).takeWhile (fun l => !closesFence mark l) = code := by
    rw [List.takeWhile_append_of_pos (by simpa using hcode),
      List.takeWhile_cons_of_neg (by simpa using hclosing), List.append_nil]
  have hstart : startSegment opening (code ++ closing :: after) =
      (.fence language code, code.length + 1) := by
    simp only [startSegment, h, htake]
  have hsplit : code ++ closing :: after = (code ++ [closing]) ++ after := by simp
  have hlength : (code ++ [closing]).length = code.length + 1 := by simp
  rw [segments_cons, hstart, hsplit, ← hlength, List.take_left, List.drop_left]

/-- What holds of every kind of block, and of a quote whenever it holds of the blocks in it, holds
of all blocks of a text. -/
theorem forall_mem_blocks {P : Block → Prop} (paragraph : ∀ text, P (.paragraph text))
    (heading : ∀ level text, 1 ≤ level → level ≤ 6 → P (.heading level text)) (rule : P .rule)
    (quote : ∀ inner, (∀ b ∈ inner, P b) → P (.quote inner))
    (list : ∀ ordered items, P (.list ordered items))
    (code : ∀ language lines, P (.code language lines)) (text : Text) :
    ∀ b ∈ blocks text, P b := by
  -- a quote holds the blocks of a shorter text
  induction hn : text.length using Nat.strongRecOn generalizing text with
  | ind n ih =>
  intro b hb
  rw [blocks] at hb
  rcases mem_gather hb with ⟨text, rfl⟩ | hb
  · exact paragraph text
  · obtain ⟨⟨s, hs⟩, -, hpiece⟩ := List.mem_map.1 hb
    dsimp only at hpiece
    split at hpiece
    · cases hpiece
    · cases hpiece
    · next level t hcontent =>
      obtain rfl := Piece.block.inj hpiece
      obtain ⟨hlow, hhigh⟩ := heading_of_mem_segmentsFrom hs hcontent
      exact heading level t hlow hhigh
    · obtain rfl := Piece.block.inj hpiece
      exact rule
    · obtain rfl := Piece.block.inj hpiece
      exact list _ _
    · obtain rfl := Piece.block.inj hpiece
      exact code _ _
    · next qs hcontent =>
      obtain rfl := Piece.block.inj hpiece
      exact quote _ (ih _ (hn ▸ quote_shorter hs hcontent) _ rfl)

end Literate.Markup

import Literate.Markup.Inline
import Literate.Proofs.Markup.Rules
import Mathlib.Tactic.SplitIfs

namespace Literate.Markup

variable {a b code content rest s : Text} {n skip : Nat}

def ticks (n : Nat) : Text := List.replicate n tick

@[simp] theorem length_ticks (n : Nat) : (ticks n).length = n := List.length_replicate

theorem takeWhile_ticks_append (n : Nat) (h : ∀ c ∈ s.head?, c ≠ tick) :
    (ticks n ++ s).takeWhile (· == tick) = ticks n := by
  have hticks : ∀ c ∈ ticks n, (c == tick) = true := fun c hc => by
    rw [List.eq_of_mem_replicate hc]
    exact beq_self_eq_true tick
  rw [List.takeWhile_append_of_pos hticks]
  cases s with
  | nil => simp
  | cons c s =>
    have hc : (c == tick) = false := beq_false_of_ne (h c rfl)
    simp [hc]

theorem shortest_append {stop : Text → Bool} (hne : content ≠ []) (hline : '\n' ∉ content)
    (hinside : ∀ c ∈ content, ∀ s, stop (c :: s) = false) (hstop : stop rest = true) :
    shortest stop (content ++ rest) = some content := by
  induction content with
  | nil => exact absurd rfl hne
  | cons c content ih =>
    obtain ⟨hc, hline⟩ := not_or.1 (List.mem_cons.not.1 hline)
    rw [List.cons_append, shortest, if_neg (Ne.symm hc)]
    cases content with
    | nil => rw [List.nil_append, if_pos hstop]
    | cons d content =>
      have hopen : stop (d :: content ++ rest) = false := hinside d (by simp) _
      rw [List.cons_append] at hopen ih ⊢
      rw [if_neg (by simp [hopen]),
        ih (by simp) hline fun e he => hinside e (List.mem_cons_of_mem c he)]
      rfl

theorem line_of_shortest {stop : Text → Bool} (h : shortest stop s = some content) :
    content ≠ [] ∧ '\n' ∉ content := by
  induction s generalizing content with
  | nil => simp [shortest] at h
  | cons c s ih =>
    rw [shortest] at h
    split_ifs at h with hc hstop
    · cases h
      exact ⟨by simp, by simpa using Ne.symm hc⟩
    · obtain ⟨content, hcontent, rfl⟩ := Option.map_eq_some_iff.1 h
      exact ⟨by simp, by simpa using ⟨Ne.symm hc, (ih hcontent).2⟩⟩

theorem codeSpan?_ticks (hn : 1 ≤ n) (hne : code ≠ []) (hticks : tick ∉ code)
    (hline : '\n' ∉ code) (b : Text) :
    codeSpan? (ticks n ++ (code ++ (ticks n ++ b))) = some (code, code.length + 2 * n) := by
  obtain ⟨m, rfl⟩ : ∃ m, n = m + 1 := ⟨n - 1, by omega⟩
  -- the run of ticks is the mark and no longer, so the first length to be tried is that of the mark
  have hhead : ∀ c ∈ (code ++ (ticks (m + 1) ++ b)).head?, c ≠ tick := by
    obtain ⟨d, code, rfl⟩ := List.exists_cons_of_ne_nil hne
    rintro c hc rfl
    cases hc
    exact hticks List.mem_cons_self
  have hinside : ∀ c ∈ code, ∀ s, Text.startsWith (ticks (m + 1)) (c :: s) = false := by
    intro c hc s
    have hother : tick ≠ c := fun heq => hticks (heq ▸ hc)
    have hbegin : ¬ ticks (m + 1) <+: c :: s := by
      rw [ticks, List.replicate_succ, List.cons_prefix_cons]
      exact fun h => hother h.1
    exact Bool.eq_false_iff.2 fun h => hbegin (List.isPrefixOf_iff_prefix.1 h)
  have hstop : Text.startsWith (ticks (m + 1)) (ticks (m + 1) ++ b) = true := by
    simp [Text.startsWith]
  have hcontent := shortest_append hne hline hinside hstop
  have hdrop : (ticks (m + 1) ++ (code ++ (ticks (m + 1) ++ b))).drop (m + 1) =
      code ++ (ticks (m + 1) ++ b) :=
    List.drop_left' (length_ticks _)
  rw [codeSpan?, takeWhile_ticks_append _ hhead, length_ticks, List.range_succ,
    List.reverse_append, List.reverse_singleton, List.singleton_append]
  simp only [List.findSome?_cons, hdrop]
  rw [show List.replicate (m + 1) tick = ticks (m + 1) from rfl, hcontent]
  rfl

theorem codeSpan?_of_ne {c : Char} (h : c ≠ tick) (s : Text) : codeSpan? (c :: s) = none := by
  have hrun : (c :: s).takeWhile (· == tick) = [] :=
    List.takeWhile_cons_of_neg (by simpa using h)
  rw [codeSpan?, hrun]
  rfl

theorem ticks_append_drop {k : Nat} (h : k ≤ (s.takeWhile (· == tick)).length) :
    ticks k ++ s.drop k = s := by
  have hrun : s.takeWhile (· == tick) = ticks (s.takeWhile (· == tick)).length :=
    List.eq_replicate_of_mem fun c hc => by simpa using List.mem_takeWhile_imp hc
  have htake : s.take k = ticks k := by
    have hs : s.takeWhile (· == tick) ++ s.dropWhile (· == tick) = s :=
      List.takeWhile_append_dropWhile
    conv_lhs => rw [← hs]
    rw [List.take_append_of_le_length h, hrun, ticks, List.take_replicate, min_eq_left h]
    rfl
  rw [← htake, List.take_append_drop]

theorem codeSpan?_eq_some (h : codeSpan? s = some (code, n)) :
    ∃ k rest, 1 ≤ k ∧ (code ≠ [] ∧ '\n' ∉ code) ∧
      s = ticks k ++ (code ++ (ticks k ++ rest)) ∧ n = code.length + 2 * k := by
  unfold codeSpan? at h
  dsimp only at h
  obtain ⟨k, hk, h⟩ := List.exists_of_findSome?_eq_some h
  obtain ⟨content, hcontent, heq⟩ := Option.map_eq_some_iff.1 h
  cases heq
  have hlt : k < (s.takeWhile (· == tick)).length := by simpa using hk
  obtain ⟨behind, hsplit, hclosed⟩ := shortest_eq_some hcontent
  obtain ⟨rest, rfl⟩ := List.isPrefixOf_iff_prefix.1 hclosed
  refine ⟨k + 1, rest, by omega, line_of_shortest hcontent, ?_, rfl⟩
  have hmark := ticks_append_drop (Nat.succ_le_of_lt hlt)
  rw [Nat.succ_eq_add_one, hsplit] at hmark
  exact hmark.symm

theorem spans_skip (skip : Nat) (s : Text) : spans skip s = spans 0 (s.drop skip) := by
  induction s generalizing skip with
  | nil => simp [spans]
  | cons c s ih =>
    cases skip with
    | zero => rfl
    | succ skip =>
      rw [spans, if_pos (Nat.succ_pos skip), Nat.add_sub_cancel, ih]
      rfl

theorem spans_append (ha : tick ∉ a) (s : Text) :
    spans 0 (a ++ s) = (a ++ (spans 0 s).1, (spans 0 s).2) := by
  induction a with
  | nil => rfl
  | cons c a ih =>
    obtain ⟨hc, ha⟩ := not_or.1 (List.mem_cons.not.1 ha)
    rw [List.cons_append, spans, if_neg (Nat.lt_irrefl 0), codeSpan?_of_ne (Ne.symm hc)]
    simp only [ih ha, List.cons_append]

theorem spans_of_codeSpan? {k : Nat} (hk : 1 ≤ k)
    (h : codeSpan? (ticks k ++ (code ++ (ticks k ++ rest))) =
      some (code, code.length + 2 * k)) :
    spans 0 (ticks k ++ (code ++ (ticks k ++ rest))) =
      ([], (code, (spans 0 rest).1) :: (spans 0 rest).2) := by
  obtain ⟨m, rfl⟩ : ∃ m, k = m + 1 := ⟨k - 1, by omega⟩
  have hcons : ticks (m + 1) ++ (code ++ (ticks (m + 1) ++ rest)) =
      tick :: (ticks m ++ (code ++ (ticks (m + 1) ++ rest))) := rfl
  have hdrop : (ticks m ++ (code ++ (ticks (m + 1) ++ rest))).drop
      (code.length + 2 * (m + 1) - 1) = rest := by
    have hlength : code.length + 2 * (m + 1) - 1 = (ticks m ++ (code ++ ticks (m + 1))).length := by
      simp only [List.length_append, length_ticks]
      omega
    rw [← List.append_assoc code, ← List.append_assoc (ticks m), hlength]
    exact List.drop_left
  rw [hcons] at h ⊢
  rw [spans, if_neg (Nat.lt_irrefl 0), h]
  dsimp only
  rw [spans_skip, hdrop]

/-- A code span with the length of its marks and the prose behind it. -/
structure CodeSpan where
  ticks : Nat
  code : Text
  after : Text
  ticks_pos : 1 ≤ ticks
  within_line : code ≠ [] ∧ '\n' ∉ code

namespace CodeSpan

def source (x : CodeSpan) : Text :=
  Markup.ticks x.ticks ++ x.code ++ Markup.ticks x.ticks ++ x.after

def html (x : CodeSpan) : Text := codeElement x.code ++ formatProse x.after

end CodeSpan

/-- Every line is cut into prose and code spans, and the cuts lose nothing. -/
theorem exists_codeSpans (s : Text) : ∃ xs : List CodeSpan,
    s = (spans 0 s).1 ++ xs.flatMap CodeSpan.source ∧
      (spans 0 s).2 = xs.map fun x => (x.code, x.after) := by
  -- a span takes several characters at once
  induction hlength : s.length using Nat.strong_induction_on generalizing s with
  | _ m ih =>
    subst hlength
    cases s with
    | nil => exact ⟨[], rfl, rfl⟩
    | cons c s =>
      cases hspan : codeSpan? (c :: s) with
      | none =>
        obtain ⟨xs, hs, hspans⟩ := ih s.length (by simp) s rfl
        refine ⟨xs, ?_, ?_⟩
        · rw [spans, if_neg (Nat.lt_irrefl 0), hspan]
          exact congrArg (c :: ·) hs
        · rw [spans, if_neg (Nat.lt_irrefl 0), hspan]
          exact hspans
      | some found =>
        obtain ⟨code, n⟩ := found
        obtain ⟨k, rest, hk, hcode, hs, rfl⟩ := codeSpan?_eq_some hspan
        have hshorter : rest.length < (c :: s).length := by
          rw [hs]
          simp only [List.length_append, length_ticks]
          omega
        obtain ⟨xs, hrest, hspans⟩ := ih rest.length hshorter rest rfl
        rw [hs] at hspan ⊢
        rw [spans_of_codeSpan? hk hspan]
        refine ⟨⟨k, code, (spans 0 rest).1, hk, hcode⟩ :: xs, ?_, ?_⟩
        · rw [List.flatMap_cons, CodeSpan.source]
          simp only [List.nil_append, List.append_assoc, ← hrest]
        · rw [List.map_cons, hspans]

theorem inlineHtml_of_notMem (ha : tick ∉ a) : inlineHtml a = formatProse a := by
  have hspans := spans_append ha []
  rw [List.append_nil] at hspans
  rw [inlineHtml, hspans]
  simp [spans]

/-- A code span between two marks of one length shows what stands in it, trimmed and escaped, and
nothing else; what stands in front of it and behind it is marked up on its own. So no link and no
emphasis goes from one side of a code span to the other or into it: a line is cut into prose and
code spans, and its HTML is put together from theirs. -/
theorem code_span_apart (n : Nat) (a code b : Text) (hn : 1 ≤ n) (ha : tick ∉ a)
    (hne : code ≠ []) (hticks : tick ∉ code) (hline : '\n' ∉ code) :
    inlineHtml (a ++ ticks n ++ code ++ ticks n ++ b) =
      inlineHtml a ++ "<code>" ++ escapeContent (Text.trim code) ++ "</code>" ++ inlineHtml b ∧
    ∀ line : Text, ∃ (prose : Text) (xs : List CodeSpan),
      line = prose ++ xs.flatMap CodeSpan.source ∧
        inlineHtml line = formatProse prose ++ xs.flatMap CodeSpan.html := by
  refine ⟨?_, fun line => ?_⟩
  · have hspans := spans_of_codeSpan? hn (codeSpan?_ticks hn hne hticks hline b)
    rw [inlineHtml_of_notMem ha]
    simp only [List.append_assoc]
    rw [inlineHtml, spans_append ha, hspans]
    simp [inlineHtml, codeElement, element]
  · obtain ⟨xs, hline, hspans⟩ := exists_codeSpans line
    refine ⟨(spans 0 line).1, xs, hline, ?_⟩
    rw [inlineHtml]
    dsimp only
    rw [hspans, List.flatMap_map]
    rfl

/-- Marks of emphasis on both sides of a span and in it, none of which finds another. -/
theorem code_span_apart_stars : 1 ≤ 2 ∧ tick ∉ ("*x _" : Text) ∧ tick ∉ (" y*_ < " : Text) ∧
    inlineHtml ("*x _" ++ ticks 2 ++ " y*_ < " ++ ticks 2 ++ "*z*_") =
      inlineHtml "*x _" ++ "<code>" ++ escapeContent (Text.trim " y*_ < ") ++ "</code>" ++
        inlineHtml "*z*_" ∧
    inlineHtml ("*x _" ++ ticks 2 ++ " y*_ < " ++ ticks 2 ++ "*z*_") =
      "*x _<code>y*_ &lt;</code><em>z</em>_" := by
  have hapart := (code_span_apart 2 "*x _" " y*_ < " "*z*_" (by decide) (by decide) (by decide)
    (by decide) (by decide)).1
  exact ⟨by decide, by decide, by decide, hapart, by rw [hapart]; decide +kernel⟩

end Literate.Markup

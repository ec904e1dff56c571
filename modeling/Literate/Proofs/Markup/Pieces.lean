import Literate.Markup.Inline
import Literate.Proofs.Markup.Rewriting
import Literate.Proofs.Text.Trim

namespace Literate.Markup

open Text

/-- What an escaped character can begin with an ampersand as. -/
def entities : List Text := ["&amp;", "&lt;", "&gt;", "&quot;", "&#x27;", "&#39;"]

def markupCharacters : List Char := ['<', '>', '&', '"', '\'']

def IsProse (a : Text) : Prop := (∃ c, c ∉ markupCharacters ∧ a = [c]) ∨ a ∈ entities

def linkStart : Text := "<a href=\""

def imageStart : Text := "<img src=\""

def altStart : Text := "\" alt=\""

def attributeEnd : Text := "\">"

def linkEnd : Text := "</a>"

/-- The parts of tags that have attributes, and the tags that have none. -/
def tagPieces : List Text :=
  [linkStart, imageStart, altStart, attributeEnd, linkEnd, "<strong>", "</strong>", "<em>", "</em>"]

def IsPiece (a : Text) : Prop := IsProse a ∨ a ∈ tagPieces

/-- The characters that the rules look for, but for the entities of brackets. -/
def delimiters : List Char := ['!', '[', ']', '(', ')', '*', '_']

variable {a s front rest mark : Text} {as : List Text} {c : Char}

theorem IsProse.isPiece (h : IsProse a) : IsPiece a := .inl h

theorem IsPiece.singleton_or_mem (h : IsPiece a) :
    (∃ c, c ∉ markupCharacters ∧ a = [c]) ∨ a ∈ entities ++ tagPieces := by
  rcases h with (h | h) | h
  · exact .inl h
  · exact .inr (List.mem_append_left _ h)
  · exact .inr (List.mem_append_right _ h)

theorem IsPiece.ne_nil (h : IsPiece a) : a ≠ [] := by
  rcases h.singleton_or_mem with ⟨c, -, rfl⟩ | h
  · simp
  · have hne : ∀ a ∈ entities ++ tagPieces, a ≠ [] := by decide
    exact hne a h

theorem IsPiece.eq_of_mem_delimiters (h : IsPiece a) (hc : c ∈ delimiters) (hmem : c ∈ a) :
    a = [c] := by
  rcases h.singleton_or_mem with ⟨d, -, rfl⟩ | h
  · rw [List.mem_singleton.1 hmem]
  · have hnone : ∀ a ∈ entities ++ tagPieces, ∀ c ∈ a, c ∉ delimiters := by decide
    exact absurd hc (hnone a h c hmem)

/-- The characters at which a rule fires, and the bracket that begins a tag, begin a piece. -/
def heads : List Char := '&' :: '<' :: delimiters

theorem IsPiece.notMem_tail (h : IsPiece a) (hc : c ∈ heads) : c ∉ a.tail := by
  rcases h.singleton_or_mem with ⟨d, -, rfl⟩ | h
  · simp
  · have hnone : ∀ a ∈ entities ++ tagPieces, ∀ c ∈ a.tail, c ∉ heads := by decide
    exact fun hmem => hnone a h c hmem hc

theorem isProse_escapeChar (c : Char) : IsProse (escapeChar c) := by
  have hentities : ∀ a ∈ (["&amp;", "&lt;", "&gt;", "&quot;", "&#x27;"] : List Text),
      a ∈ entities := by decide
  unfold escapeChar escapeContentChar
  split_ifs with h1 h2 h3 h4 h5
  iterate 5 exact .inr (hentities _ (by simp))
  exact .inl ⟨c, by simp [markupCharacters, h1, h2, h3, h4, h5], rfl⟩

theorem isProse_escapeContentChar (c : Char) (h : c ≠ '"') (h' : c ≠ '\'') :
    IsProse (escapeContentChar c) := by
  have hsame : escapeChar c = escapeContentChar c := by rw [escapeChar, if_neg h, if_neg h']
  exact hsame ▸ isProse_escapeChar c

theorem ne_bracket_of_mem_escapeContent (h : c ∈ escapeContent s) : c ≠ '<' ∧ c ≠ '>' := by
  obtain ⟨d, -, hc⟩ := List.mem_flatMap.1 h
  have hentities : ∀ e ∈ (["&amp;", "&lt;", "&gt;"] : List Text), ∀ c ∈ e, c ≠ '<' ∧ c ≠ '>' := by
    decide
  unfold escapeContentChar at hc
  split_ifs at hc with hamp hlt hgt
  · exact hentities _ (by simp) c hc
  · exact hentities _ (by simp) c hc
  · exact hentities _ (by simp) c hc
  · rw [List.mem_singleton.1 hc]
    exact ⟨hlt, hgt⟩

def escapes : List (Char × Text) :=
  [('&', "&amp;"), ('<', "&lt;"), ('>', "&gt;"), ('"', "&quot;"), ('\'', "&#x27;")]

theorem escapeChar_cases (c : Char) :
    (c, escapeChar c) ∈ escapes ∨ c ≠ '&' ∧ escapeChar c = [c] := by
  unfold escapeChar escapeContentChar
  split_ifs with h1 h2 h3 h4 h5
  iterate 5
    subst c
    exact .inl (by simp [escapes])
  exact .inr ⟨h3, rfl⟩

theorem escapeChar_append_inj {c d : Char} {s t : Text}
    (h : escapeChar c ++ s = escapeChar d ++ t) : c = d ∧ s = t := by
  have hfree : ∀ p ∈ escapes, ∀ q ∈ escapes, p.2 <+: q.2 ∨ q.2 <+: p.2 → p = q := by decide
  have hhead : ∀ p ∈ escapes, p.2.head? = some '&' := by decide
  rcases escapeChar_cases c with hc | ⟨hc, hc'⟩
  · rcases escapeChar_cases d with hd | ⟨hd, hd'⟩
    · have hbegins : escapeChar c <+: escapeChar d ∨ escapeChar d <+: escapeChar c :=
        List.prefix_or_prefix_of_prefix ⟨s, h⟩ (List.prefix_append _ t)
      obtain ⟨rfl, -⟩ := Prod.mk.inj (hfree _ hc _ hd hbegins)
      exact ⟨rfl, List.append_cancel_left h⟩
    · obtain ⟨e, he⟩ := List.head?_eq_some_iff.1 (hhead _ hc)
      rw [hd', show escapeChar c = '&' :: e from he] at h
      exact absurd (List.cons.inj h).1.symm hd
  · rcases escapeChar_cases d with hd | ⟨hd, hd'⟩
    · obtain ⟨e, he⟩ := List.head?_eq_some_iff.1 (hhead _ hd)
      rw [hc', show escapeChar d = '&' :: e from he] at h
      exact absurd (List.cons.inj h).1 hc
    · rw [hc', hd'] at h
      exact List.cons.inj h

theorem escape_injective : Function.Injective escape := by
  intro s t h
  induction s generalizing t with
  | nil =>
    cases t with
    | nil => rfl
    | cons d t =>
      have hnil := (List.append_eq_nil_iff.1 (h.symm : escapeChar d ++ escape t = [])).1
      exact absurd hnil (isProse_escapeChar d).isPiece.ne_nil
  | cons c s ih =>
    cases t with
    | nil =>
      have hnil := (List.append_eq_nil_iff.1 (h : escapeChar c ++ escape s = [])).1
      exact absurd hnil (isProse_escapeChar c).isPiece.ne_nil
    | cons d t =>
      obtain ⟨rfl, hst⟩ :=
        escapeChar_append_inj (h : escapeChar c ++ escape s = escapeChar d ++ escape t)
      rw [ih hst]

def chars (s : Text) : List Text := s.map fun c => [c]

@[simp] theorem flatten_chars (s : Text) : (chars s).flatten = s := by
  induction s with
  | nil => rfl
  | cons c s ih => exact congrArg (c :: ·) ih

theorem eq_nil_of_flatten_eq_nil (has : ∀ a ∈ as, IsPiece a) (h : as.flatten = []) : as = [] := by
  cases as with
  | nil => rfl
  | cons a as =>
    rw [List.flatten_cons, List.append_eq_nil_iff] at h
    exact absurd h.1 (has a List.mem_cons_self).ne_nil

theorem exists_delimiter (front : Text) (has : ∀ a ∈ as, IsPiece a) (hc : c ∈ delimiters)
    (h : as.flatten = front ++ c :: rest) : ∃ earlier later,
      as = earlier ++ [c] :: later ∧ earlier.flatten = front ∧ later.flatten = rest := by
  have hheads : c ∈ heads := List.mem_cons_of_mem _ (List.mem_cons_of_mem _ hc)
  obtain ⟨earlier, a, later, rfl, hfront, hrest⟩ :=
    flatten_eq_append_cons (fun a ha => (has a ha).notMem_tail hheads) h
  have hpiece : IsPiece (c :: a) := has _ (by simp)
  obtain rfl : a = [] := by simpa using hpiece.eq_of_mem_delimiters hc List.mem_cons_self
  exact ⟨earlier, later, rfl, hfront, hrest⟩

def longHeads : List Char := ['&', '<', '"']

theorem exists_after_chars (mark : Text) (has : ∀ a ∈ as, IsPiece a)
    (hmark : ∀ c ∈ mark, c ∉ longHeads) (h : as.flatten = mark ++ rest) :
    ∃ later, as = chars mark ++ later ∧ later.flatten = rest := by
  have hheads : ∀ a ∈ entities ++ tagPieces, ∀ c ∈ a.head?, c ∈ longHeads := by decide
  induction mark generalizing as with
  | nil => exact ⟨as, rfl, h⟩
  | cons c mark ih =>
    obtain ⟨hc, hbehind⟩ := List.forall_mem_cons.1 hmark
    cases as with
    | nil => simp at h
    | cons a as =>
      obtain ⟨ha, hpieces⟩ := List.forall_mem_cons.1 has
      rcases ha.singleton_or_mem with ⟨d, -, rfl⟩ | hlong
      · obtain ⟨rfl, hlater⟩ := List.cons.inj h
        obtain ⟨later, rfl, hrest⟩ := ih hpieces hbehind hlater
        exact ⟨later, rfl, hrest⟩
      · obtain ⟨d, a, rfl⟩ := List.exists_cons_of_ne_nil ha.ne_nil
        obtain rfl : d = c := (List.cons.inj h).1
        exact absurd (hheads _ hlong d rfl) hc

theorem notMem_longHeads (hc : c ∈ delimiters) : c ∉ longHeads :=
  (by decide : ∀ c ∈ delimiters, c ∉ longHeads) c hc

theorem exists_around_delimiters (mark : Text) (has : ∀ a ∈ as, IsPiece a)
    (hmark : ∀ c ∈ mark, c ∈ delimiters) (hne : mark ≠ [])
    (h : as.flatten = front ++ (mark ++ rest)) : ∃ earlier later,
      as = earlier ++ (chars mark ++ later) ∧ earlier.flatten = front ∧ later.flatten = rest := by
  obtain ⟨c, mark, rfl⟩ := List.exists_cons_of_ne_nil hne
  obtain ⟨hc, hmark⟩ := List.forall_mem_cons.1 hmark
  obtain ⟨earlier, later, rfl, hearlier, hlater⟩ := exists_delimiter front has hc h
  obtain ⟨rest, rfl, hrest⟩ := exists_after_chars mark (fun a ha => has a (by simp [ha]))
    (fun c hc => notMem_longHeads (hmark c hc)) hlater
  exact ⟨earlier, rest, rfl, hearlier, hrest⟩

/-- Blank characters at both ends are left out. -/
structure Trims (as shown : List Text) : Prop where
  split : ∃ front back, as = front ++ (shown ++ back) ∧
    ∀ a ∈ front ++ back, ∃ c, isBlankChar c = true ∧ a = [c]

theorem IsPiece.blank_or (h : IsPiece a) : (∃ c, isBlankChar c = true ∧ a = [c]) ∨
    (∀ c ∈ a.head?, isBlankChar c = false) ∧ ∀ c ∈ a.getLast?, isBlankChar c = false := by
  rcases h.singleton_or_mem with ⟨d, -, rfl⟩ | h
  · cases hd : isBlankChar d with
    | true => exact .inl ⟨d, hd, rfl⟩
    | false => exact .inr ⟨by simp [hd], by simp [hd]⟩
  · have hends : ∀ a ∈ entities ++ tagPieces, (∀ c ∈ a.head?, isBlankChar c = false) ∧
        ∀ c ∈ a.getLast?, isBlankChar c = false := by decide
    exact .inr (hends a h)

theorem exists_trimStart_flatten (has : ∀ a ∈ as, IsPiece a) : ∃ front shown,
    as = front ++ shown ∧ (∀ a ∈ front, ∃ c, isBlankChar c = true ∧ a = [c]) ∧
      trimStart as.flatten = shown.flatten := by
  induction as with
  | nil => exact ⟨[], [], rfl, by simp, rfl⟩
  | cons a as ih =>
    have ha := has a List.mem_cons_self
    rcases ha.blank_or with ⟨c, hc, rfl⟩ | ⟨hhead, -⟩
    · obtain ⟨front, shown, rfl, hfront, htrim⟩ := ih fun b hb => has b (List.mem_cons_of_mem _ hb)
      refine ⟨[c] :: front, shown, rfl, List.forall_mem_cons.2 ⟨⟨c, hc, rfl⟩, hfront⟩, ?_⟩
      rw [← htrim]
      exact List.dropWhile_cons_of_pos hc
    · refine ⟨[], a :: as, rfl, by simp, ?_⟩
      obtain ⟨c, a, rfl⟩ := List.exists_cons_of_ne_nil ha.ne_nil
      have hc : isBlankChar c = false := hhead c rfl
      exact List.dropWhile_cons_of_neg (by simp [hc])

theorem exists_trimEnd_flatten (has : ∀ a ∈ as, IsPiece a) : ∃ shown back,
    as = shown ++ back ∧ (∀ a ∈ back, ∃ c, isBlankChar c = true ∧ a = [c]) ∧
      trimEnd as.flatten = shown.flatten := by
  induction as using List.reverseRecOn with
  | nil => exact ⟨[], [], rfl, by simp, rfl⟩
  | append_singleton as a ih =>
    have ha : IsPiece a := has a (by simp)
    rcases ha.blank_or with ⟨c, hc, rfl⟩ | ⟨-, hlast⟩
    · obtain ⟨shown, back, rfl, hback, htrim⟩ := ih fun b hb => has b (List.mem_append_left _ hb)
      refine ⟨shown, back ++ [[c]], by simp, ?_, ?_⟩
      · intro b hb
        rcases List.mem_append.1 hb with hb | hb
        · exact hback b hb
        · exact ⟨c, hc, List.mem_singleton.1 hb⟩
      · rw [← htrim, List.flatten_append]
        exact dropEndWhile_append_of_all (by simpa using hc)
    · refine ⟨as ++ [a], [], by simp, by simp, ?_⟩
      obtain ⟨b, c, hbc⟩ := List.eq_nil_or_concat a |>.resolve_left ha.ne_nil
      have hc : isBlankChar c = false := hlast c (by simp [hbc])
      rw [List.flatten_append, List.flatten_singleton, hbc, List.concat_eq_append,
        ← List.append_assoc]
      exact dropEndWhile_concat_of_neg (by simp [hc])

theorem exists_trims (has : ∀ a ∈ as, IsPiece a) :
    ∃ shown, Trims as shown ∧ trim as.flatten = shown.flatten := by
  obtain ⟨front, inner, rfl, hfront, hstart⟩ := exists_trimStart_flatten has
  obtain ⟨shown, back, rfl, hback, hend⟩ :=
    exists_trimEnd_flatten fun a ha => has a (List.mem_append_right _ ha)
  refine ⟨shown, ⟨front, back, rfl, ?_⟩, by rw [trim, hstart, hend]⟩
  intro a ha
  rcases List.mem_append.1 ha with ha | ha
  · exact hfront a ha
  · exact hback a ha

end Literate.Markup

import Literate.Document.Reading
import Mathlib.Data.List.Basic

namespace Literate.Text

variable {l s : Text} {sep : Char}

theorem splitOn_append_cons (h : sep ∉ l) :
    splitOn sep (l ++ sep :: s) = l :: splitOn sep s := by
  induction l with
  | nil => simp [splitOn]
  | cons c l ih =>
    have hc : c ≠ sep := fun hc => h (hc ▸ List.mem_cons_self)
    have hl : sep ∉ l := fun hl => h (List.mem_cons_of_mem _ hl)
    rw [List.cons_append, splitOn, if_neg hc, ih hl]

theorem of_mem_splitOn (h : l ∈ splitOn sep s) : ∀ c ∈ l, c ∈ s ∧ c ≠ sep := by
  fun_induction splitOn sep s generalizing l with
  | case1 => simp_all
  | case2 s ih =>
    intro d hd
    obtain rfl | hl := List.mem_cons.1 h
    · simp at hd
    · obtain ⟨hmem, hne⟩ := ih hl d hd
      exact ⟨List.mem_cons_of_mem _ hmem, hne⟩
  | case3 c s hc hs => exact absurd hs (splitOn_ne_nil sep s)
  | case4 c s hc p ps hs ih =>
    intro d hd
    obtain rfl | hl := List.mem_cons.1 h
    · obtain rfl | hd := List.mem_cons.1 hd
      · exact ⟨List.mem_cons_self, hc⟩
      · obtain ⟨hmem, hne⟩ := ih (hs ▸ List.mem_cons_self) d hd
        exact ⟨List.mem_cons_of_mem _ hmem, hne⟩
    · obtain ⟨hmem, hne⟩ := ih (hs ▸ List.mem_cons_of_mem _ hl) d hd
      exact ⟨List.mem_cons_of_mem _ hmem, hne⟩

theorem unixNewlines_eq_self (h : '\r' ∉ s) : unixNewlines s = s := by
  fun_induction unixNewlines s with
  | case1 => rfl
  | case2 s ih => simp at h
  | case3 c s hne ih => rw [ih fun hs => h (List.mem_cons_of_mem _ hs)]

/-- No carriage return stands on its own. -/
def NoLoneReturn (s : Text) : Prop := ∀ i, s[i]? = some '\r' → s[i + 1]? = some '\n'

instance (s : Text) : Decidable (NoLoneReturn s) :=
  decidable_of_iff (∀ i < s.length, s[i]? = some '\r' → s[i + 1]? = some '\n') <| by
    refine ⟨fun h i hi => h i ?_ hi, fun h i _ => h i⟩
    exact (List.getElem?_eq_some_iff.1 hi).1

theorem return_not_mem_unixNewlines (h : NoLoneReturn s) : '\r' ∉ unixNewlines s := by
  fun_induction unixNewlines s with
  | case1 => simp
  | case2 s ih =>
    have hs : NoLoneReturn s := fun i hi => h (i + 2) hi
    simpa using ih hs
  | case3 c s hne ih =>
    have hs : NoLoneReturn s := fun i hi => h (i + 1) hi
    have hc : c ≠ '\r' := by
      intro hc
      have hnext : s.head? = some '\n' := by simpa [List.head?_eq_getElem?] using h 0 (by simp [hc])
      obtain ⟨rest, hrest⟩ := List.head?_eq_some_iff.1 hnext
      exact hne rest hc hrest
    simpa [Ne.symm hc] using ih hs

end Literate.Text

namespace Literate.Document

open Text

/-- A line as it can stand in a text without lone carriage returns. -/
def Plain (l : Text) : Prop := '\n' ∉ l ∧ '\r' ∉ l

instance (l : Text) : Decidable (Plain l) := inferInstanceAs (Decidable (_ ∧ _))

theorem Plain.of_subset {s t : Text} (h : Plain t) (hsub : ∀ c ∈ s, c ∈ t) : Plain s :=
  ⟨fun hn => h.1 (hsub _ hn), fun hr => h.2 (hsub _ hr)⟩

theorem Plain.append {s t : Text} (hs : Plain s) (ht : Plain t) : Plain (s ++ t) :=
  ⟨fun h => (List.mem_append.1 h).elim hs.1 ht.1, fun h => (List.mem_append.1 h).elim hs.2 ht.2⟩

theorem Plain.of_indent {s : Text} (h : ∀ c ∈ s, isIndentChar c = true) : Plain s :=
  ⟨fun hn => absurd (h _ hn) (by decide), fun hr => absurd (h _ hr) (by decide)⟩

theorem mem_splitOn_of_mem_sourceLines {l text : Text} (hl : l ∈ sourceLines text) :
    l ∈ splitOn '\n' (unixNewlines text) := by
  unfold sourceLines at hl
  simp only at hl
  split at hl
  · exact (List.dropLast_subset _) hl
  · exact hl

theorem newline_not_mem_sourceLines {l text : Text} (hl : l ∈ sourceLines text) : '\n' ∉ l :=
  fun hn => (of_mem_splitOn (mem_splitOn_of_mem_sourceLines hl) _ hn).2 rfl

theorem plain_of_mem_sourceLines {l text : Text} (h : NoLoneReturn text)
    (hl : l ∈ sourceLines text) : Plain l := by
  refine ⟨newline_not_mem_sourceLines hl, fun hr => ?_⟩
  exact return_not_mem_unixNewlines h
    (of_mem_splitOn (mem_splitOn_of_mem_sourceLines hl) _ hr).1

/-- A text that ends each of the lines. -/
def endedLines (ls : List Text) : Text := ls.flatMap (· ++ ['\n'])

theorem endedLines_append (ls ms : List Text) :
    endedLines (ls ++ ms) = endedLines ls ++ endedLines ms :=
  List.flatMap_append

theorem endedLines_splitOn (s : Text) : endedLines (splitOn '\n' s) = s ++ ['\n'] := by
  fun_induction splitOn '\n' s with
  | case1 => rfl
  | case2 s ih =>
    rw [List.cons_append, ← ih]
    rfl
  | case3 c s hc hs => exact absurd hs (splitOn_ne_nil '\n' s)
  | case4 c s hc p ps hs ih =>
    rw [hs] at ih
    rw [List.cons_append, ← ih]
    rfl

/-- The text with its last line ended. -/
def ended (s : Text) : Text := if s = [] ∨ s.getLast? = some '\n' then s else s ++ ['\n']

theorem getLast?_endedLines {ls : List Text} (h : ls ≠ []) :
    (endedLines ls).getLast? = some '\n' := by
  obtain ⟨front, l, rfl⟩ := List.eq_nil_or_concat ls |>.resolve_left h
  rw [List.concat_eq_append, endedLines_append]
  simp [endedLines, ← List.append_assoc]

theorem endedLines_sourceLines (text : Text) :
    endedLines (sourceLines text) = ended (unixNewlines text) := by
  have hall : endedLines (lines (unixNewlines text)) = unixNewlines text ++ ['\n'] :=
    endedLines_splitOn _
  have hne : lines (unixNewlines text) ≠ [] := splitOn_ne_nil _ _
  have hsplit := List.dropLast_append_getLast hne
  set front := (lines (unixNewlines text)).dropLast
  set last := (lines (unixNewlines text)).getLast hne
  have hlast : (lines (unixNewlines text)).getLast? = some last :=
    List.getLast?_eq_some_getLast hne
  have htext : unixNewlines text = endedLines front ++ last := by
    rw [← hsplit, endedLines_append] at hall
    exact (List.append_left_inj ['\n']).1 (by simpa [endedLines] using hall.symm)
  have hsource : sourceLines text =
      if some last = some [] then front else lines (unixNewlines text) := by
    rw [← hlast]
    rfl
  -- the lines of the text end it once more; the last of them is left out if it is empty
  rw [hsource]
  by_cases h : last = []
  · -- a final line feed starts no line
    rw [h, List.append_nil] at htext
    have hended : unixNewlines text = [] ∨ (unixNewlines text).getLast? = some '\n' := by
      by_cases hfront : front = []
      · exact .inl (by rw [htext, hfront]; rfl)
      · exact .inr (by rw [htext, getLast?_endedLines hfront])
    rw [if_pos (by rw [h]), ended, if_pos hended, ← htext]
  · have hmem : last ∈ splitOn '\n' (unixNewlines text) := List.getLast_mem hne
    have hend : ¬(unixNewlines text = [] ∨ (unixNewlines text).getLast? = some '\n') := by
      rw [htext, List.getLast?_append_of_ne_nil _ h]
      rintro (hnil | hfeed)
      · exact h (List.append_eq_nil_iff.1 hnil).2
      · exact (of_mem_splitOn hmem _ (List.mem_of_getLast? hfeed)).2 rfl
    rw [if_neg (by simpa using h), ended, if_neg hend, hall]

theorem lines_endedLines {ls : List Text} (h : ∀ l ∈ ls, '\n' ∉ l) :
    lines (endedLines ls) = ls ++ [[]] := by
  induction ls with
  | nil => rfl
  | cons l ls ih =>
    have hsplit : endedLines (l :: ls) = l ++ '\n' :: endedLines ls := by simp [endedLines]
    have hls : ∀ l ∈ ls, '\n' ∉ l := fun l hl => h l (List.mem_cons_of_mem _ hl)
    rw [hsplit, lines, splitOn_append_cons (h l List.mem_cons_self), ← lines, ih hls,
      List.cons_append]

theorem sourceLines_endedLines {ls : List Text} (h : ∀ l ∈ ls, Plain l) :
    sourceLines (endedLines ls) = ls := by
  have hr : '\r' ∉ endedLines ls := by
    intro hr
    obtain ⟨l, hl, hc⟩ := List.mem_flatMap.1 hr
    have hrl : '\r' ∈ l := by simpa using hc
    exact (h l hl).2 hrl
  rw [sourceLines, unixNewlines_eq_self hr, lines_endedLines fun l hl => (h l hl).1]
  simp

end Literate.Document

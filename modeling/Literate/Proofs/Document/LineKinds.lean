import Literate.Document.Basic
import Literate.Document.Reading
import Literate.Proofs.Text.Trim

namespace Literate

namespace Document

open Text

variable {n target : Name} {indent line inner : Text}

def headerLine (n : Name) : Text := "<< " ++ n.text ++ " >>="

def endLine : Text := "@"

theorem trim_spaced (s : Text) : trim (" " ++ s ++ " ") = trim s :=
  trim_between (by decide) (by decide)

theorem ofText?_trim_spaced (h : n.Trimmed) :
    Name.ofText? (trim (" " ++ n.text ++ " ")) = some n := by
  rw [trim_spaced, h, Name.ofText?_text]

theorem header?_eq_some_iff : header? line = some inner ↔ trim line = "<<" ++ inner ++ ">>=" := by
  rw [header?, Option.bind_eq_bind, Option.bind_eq_some_iff]
  constructor
  · rintro ⟨rest, hrest, hinner⟩
    rw [afterPrefix?_eq_some hrest, beforeSuffix?_eq_some hinner, List.append_assoc]
  · intro h
    refine ⟨inner ++ ">>=", ?_, beforeSuffix?_append _ _⟩
    rw [h, List.append_assoc, afterPrefix?_append]

theorem header?_headerLine (n : Name) :
    header? (headerLine n) = some (" " ++ n.text ++ " ") := by
  have hends : headerLine n = '<' :: (("< " ++ n.text ++ " >>") ++ ['=']) := by simp [headerLine]
  have htrim : trim (headerLine n) = headerLine n := by
    rw [hends]
    exact trim_cons_concat (by decide) (by decide)
  rw [header?_eq_some_iff, htrim]
  simp [headerLine]

theorem header?_endLine : header? endLine = none := by decide

theorem isEnd_endLine : isEnd endLine = true := by decide

def markedName (n : Name) : Text := "<< " ++ n.key ++ " >>"

def referenceLine (target : Name) (indent : Text) : Text := indent ++ markedName target

theorem markedName_eq_cons_concat (n : Name) :
    markedName n = '<' :: (("< " ++ n.key ++ " >") ++ ['>']) := by
  simp [markedName]

theorem isBlankChar_of_isIndentChar {c : Char} (h : isIndentChar c = true) :
    isBlankChar c = true := by
  simp only [isIndentChar, Bool.or_eq_true, beq_iff_eq] at h
  obtain rfl | rfl := h <;> decide

theorem trim_referenceLine (hi : ∀ c ∈ indent, isIndentChar c = true) :
    trim (referenceLine target indent) = markedName target := by
  have hblank : isBlank indent = true :=
    isBlank_iff.2 fun c hc => isBlankChar_of_isIndentChar (hi c hc)
  rw [referenceLine, trim_blank_append hblank, markedName_eq_cons_concat]
  exact trim_cons_concat (by decide) (by decide)

theorem header?_referenceLine (hi : ∀ c ∈ indent, isIndentChar c = true) :
    header? (referenceLine target indent) = none := by
  cases hh : header? (referenceLine target indent) with
  | none => rfl
  | some inner =>
    -- the last character of a header is `=`
    rw [header?_eq_some_iff, trim_referenceLine hi] at hh
    have hlast : (markedName target).getLast? = some '=' := by
      have hends : ("<<" : Text) ++ inner ++ ">>=" = ("<<" ++ inner ++ ">>") ++ ['='] := by simp
      rw [hh, hends, List.getLast?_concat]
    rw [markedName_eq_cons_concat, ← List.cons_append, List.getLast?_concat] at hlast
    exact absurd hlast (by decide)

theorem isEnd_referenceLine (hi : ∀ c ∈ indent, isIndentChar c = true) :
    isEnd (referenceLine target indent) = false := by
  rw [isEnd, trim_referenceLine hi, markedName_eq_cons_concat]
  simp

theorem reference?_marked {trail : Text} (hi : ∀ c ∈ indent, isIndentChar c = true)
    (ht : ∀ c ∈ trail, isIndentChar c = true) :
    reference? (indent ++ ("<<" ++ inner ++ ">>") ++ trail) =
      (Name.ofText? (trim inner)).map (·, indent) := by
  have hmark : ¬isIndentChar '<' = true := by decide
  have hends : ("<<" : Text) ++ inner ++ ">>" = '<' :: ('<' :: (inner ++ ['>']) ++ ['>']) := by simp
  have htake : (indent ++ ("<<" ++ inner ++ ">>") ++ trail).takeWhile isIndentChar = indent := by
    rw [hends, List.append_assoc, List.takeWhile_append_of_pos hi, List.cons_append,
      List.takeWhile_cons_of_neg hmark, List.append_nil]
  have hdrop : (indent ++ ("<<" ++ inner ++ ">>") ++ trail).dropWhile isIndentChar =
      "<<" ++ inner ++ ">>" ++ trail := by
    rw [hends, List.append_assoc, List.dropWhile_append_of_pos hi, List.cons_append,
      List.dropWhile_cons_of_neg hmark]
  have hcore : dropEndWhile isIndentChar ("<<" ++ inner ++ ">>" ++ trail) =
      "<<" ++ (inner ++ ">>") := by
    rw [dropEndWhile_append_of_all ht, hends, ← List.cons_append,
      dropEndWhile_concat_of_neg (by decide)]
    simp
  rw [reference?, htake, hdrop, hcore, afterPrefix?_append]
  simp only [Option.bind_eq_bind, Option.bind_some, beforeSuffix?_append]
  cases Name.ofText? (trim inner) <;> rfl

theorem reference?_referenceLine (ht : target.Trimmed)
    (hi : ∀ c ∈ indent, isIndentChar c = true) :
    reference? (referenceLine target indent) = some (target, indent) := by
  have hsplit : referenceLine target indent =
      indent ++ ("<<" ++ (" " ++ target.text ++ " ") ++ ">>") ++ ([] : Text) := by
    simp [referenceLine, markedName, ht.key]
  rw [hsplit, reference?_marked hi (by simp), ofText?_trim_spaced ht]
  rfl

theorem of_reference?_eq_some (h : reference? line = some (target, indent)) :
    (∀ c ∈ indent, isIndentChar c = true) ∧ target.Trimmed ∧ ∀ c ∈ target.text, c ∈ line := by
  simp only [reference?, Option.bind_eq_bind, Option.bind_eq_some_iff] at h
  obtain ⟨rest, hrest, inner, hinner, n, hn, he⟩ := h
  obtain ⟨rfl, rfl⟩ := Prod.mk.inj (Option.some.inj he)
  have htext := Name.text_of_ofText? hn
  refine ⟨fun c hc => List.mem_takeWhile_imp hc, ?_, fun c hc => ?_⟩
  · rw [Name.Trimmed, htext, trim_trim]
  · have hinnerc : c ∈ inner := mem_of_mem_trim (htext ▸ hc)
    have hrestc : c ∈ rest := by
      rw [beforeSuffix?_eq_some hinner]
      exact List.mem_append_left _ hinnerc
    have hcore : c ∈ dropEndWhile isIndentChar (line.dropWhile isIndentChar) := by
      rw [afterPrefix?_eq_some hrest]
      exact List.mem_append_right _ hrestc
    exact (List.dropWhile_suffix isIndentChar).subset (mem_of_mem_dropEndWhile hcore)

theorem mem_of_header?_eq_some (h : header? line = some inner) :
    ∀ c ∈ trim inner, c ∈ line := by
  intro c hc
  apply mem_of_mem_trim
  rw [header?_eq_some_iff.1 h]
  exact List.mem_append_left _ (List.mem_append_right _ (mem_of_mem_trim hc))

end Document

end Literate

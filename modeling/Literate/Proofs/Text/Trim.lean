import Literate.Text.Basic
import Mathlib.Data.List.DropRight

namespace Literate.Text

variable {a b s : Text} {c : Char} {p : Char → Bool}

instance decidableForallMem (s : Text) (q : Char → Prop) [DecidablePred q] :
    Decidable (∀ c ∈ s, q c) := List.decidableBAll q s

instance decidableForallMemOption (o : Option Char) (q : Char → Prop) [DecidablePred q] :
    Decidable (∀ c ∈ o, q c) := Option.decidableForallMem o

theorem dropEndWhile_eq_rdropWhile (p : Char → Bool) (s : Text) :
    dropEndWhile p s = s.rdropWhile p := rfl

theorem dropEndWhile_append_of_all (h : ∀ c ∈ b, p c) :
    dropEndWhile p (s ++ b) = dropEndWhile p s := by
  have hb : ∀ c ∈ b.reverse, p c := fun c hc => h c (List.mem_reverse.1 hc)
  rw [dropEndWhile, dropEndWhile, List.reverse_append, List.dropWhile_append_of_pos hb]

theorem dropEndWhile_concat_of_neg (h : ¬p c) : dropEndWhile p (s ++ [c]) = s ++ [c] :=
  List.rdropWhile_concat_neg _ _ _ h

theorem exists_dropEndWhile_append (p : Char → Bool) (s : Text) :
    ∃ b, s = dropEndWhile p s ++ b ∧ ∀ c ∈ b, p c := by
  refine ⟨(s.reverse.takeWhile p).reverse, ?_, fun c hc => ?_⟩
  · rw [dropEndWhile, ← List.reverse_append, List.takeWhile_append_dropWhile, List.reverse_reverse]
  · exact List.mem_takeWhile_imp (List.mem_reverse.1 hc)

theorem mem_of_mem_dropEndWhile (h : c ∈ dropEndWhile p s) : c ∈ s :=
  (List.rdropWhile_prefix p s).subset h

theorem mem_of_mem_trim (h : c ∈ trim s) : c ∈ s :=
  (List.dropWhile_suffix _).subset (mem_of_mem_dropEndWhile h)

theorem isBlank_iff : isBlank s = true ↔ ∀ c ∈ s, isBlankChar c = true := by
  simp [isBlank]

theorem trim_append_blank (hb : isBlank b = true) : trim (s ++ b) = trim s := by
  rw [isBlank_iff] at hb
  unfold trim trimStart trimEnd
  rw [List.dropWhile_append]
  split
  case isTrue h =>
    rw [List.isEmpty_iff] at h
    rw [h, List.dropWhile_eq_nil_iff.2 hb]
  case isFalse => exact dropEndWhile_append_of_all hb

theorem trim_blank_append (ha : isBlank a = true) : trim (a ++ s) = trim s := by
  unfold trim trimStart
  rw [List.dropWhile_append_of_pos (isBlank_iff.1 ha)]

theorem trim_between (ha : isBlank a = true) (hb : isBlank b = true) :
    trim (a ++ s ++ b) = trim s := by
  rw [trim_append_blank hb, trim_blank_append ha]

theorem trim_eq_self (hhead : ∀ c ∈ s.head?, ¬isBlankChar c)
    (hlast : ∀ c ∈ s.getLast?, ¬isBlankChar c) : trim s = s := by
  have hstart : trimStart s = s := by
    cases s with
    | nil => rfl
    | cons c s => exact List.dropWhile_cons_of_neg (hhead c rfl)
  rw [trim, hstart, trimEnd, dropEndWhile_eq_rdropWhile, List.rdropWhile_eq_self_iff]
  intro hne
  exact hlast _ (List.getLast_mem_getLast? hne)

theorem trim_cons_concat {d : Char} (hc : ¬isBlankChar c) (hd : ¬isBlankChar d) :
    trim (c :: (s ++ [d])) = c :: (s ++ [d]) := by
  apply trim_eq_self
  · intro e he
    have hec : c = e := by simpa using he
    exact hec ▸ hc
  · intro e he
    rw [← List.cons_append, List.getLast?_concat] at he
    exact Option.some.inj he ▸ hd

theorem not_isBlankChar_head_trim (h : c ∈ (trim s).head?) : ¬isBlankChar c := by
  have hprefix : trim s <+: trimStart s := List.rdropWhile_prefix _ _
  obtain ⟨t, ht⟩ := hprefix
  obtain ⟨rest, hrest⟩ := List.head?_eq_some_iff.1 h
  rw [hrest, List.cons_append] at ht
  have hdrop := List.head?_dropWhile_not isBlankChar s
  rw [← trimStart, ← ht, List.head?_cons] at hdrop
  simpa using hdrop

theorem not_isBlankChar_getLast_trim (h : c ∈ (trim s).getLast?) : ¬isBlankChar c := by
  have hne : trim s ≠ [] := by
    intro h0
    simp [h0] at h
  have hlast : ¬isBlankChar ((trim s).getLast hne) :=
    List.rdropWhile_last_not isBlankChar (trimStart s) hne
  rwa [Option.some.inj ((List.getLast?_eq_some_getLast hne).symm.trans h)] at hlast

@[simp] theorem trim_trim (s : Text) : trim (trim s) = trim s :=
  trim_eq_self (fun _ h => not_isBlankChar_head_trim h) fun _ h => not_isBlankChar_getLast_trim h

@[simp] theorem isBlank_trim (s : Text) : isBlank (trim s) = isBlank s := by
  rw [Bool.eq_iff_iff, isBlank_iff, isBlank_iff]
  refine ⟨fun h => ?_, fun h c hc => h c (mem_of_mem_trim hc)⟩
  -- a text that starts with no blank is blank only if it is empty
  have hnil : trim s = [] := by
    cases ht : trim s with
    | nil => rfl
    | cons c rest =>
      have hhead : c ∈ (trim s).head? := by simp [ht]
      exact absurd (h c (by simp [ht])) (not_isBlankChar_head_trim hhead)
  have hstart : trimStart s = [] := by
    rw [trim, trimEnd, dropEndWhile_eq_rdropWhile, List.rdropWhile_eq_nil_iff] at hnil
    cases hs : trimStart s with
    | nil => rfl
    | cons c rest =>
      have hc : isBlankChar c = true := hnil c (by simp [hs])
      have hdrop := List.head?_dropWhile_not isBlankChar s
      rw [← trimStart, hs, List.head?_cons] at hdrop
      simp [hc] at hdrop
  exact List.dropWhile_eq_nil_iff.1 hstart

theorem trim_ne_nil_iff : trim s ≠ [] ↔ isBlank s = false := by
  rw [← Bool.not_eq_true, ne_eq, not_iff_not]
  constructor
  · intro h
    rw [← isBlank_trim, h]
    rfl
  · intro h
    have hnil := trim_blank_append (s := []) h
    rwa [List.append_nil] at hnil

theorem afterPrefix?_append (head s : Text) : afterPrefix? head (head ++ s) = some s := by
  simp [afterPrefix?, startsWith]

theorem beforeSuffix?_append (s tail : Text) : beforeSuffix? tail (s ++ tail) = some s := by
  simp [beforeSuffix?, endsWith]

theorem afterPrefix?_eq_some {head rest : Text} (h : afterPrefix? head s = some rest) :
    s = head ++ rest := by
  unfold afterPrefix? startsWith at h
  split at h
  case isTrue hp =>
    obtain ⟨t, rfl⟩ := List.isPrefixOf_iff_prefix.1 hp
    simp_all
  case isFalse => simp at h

theorem beforeSuffix?_eq_some {tail rest : Text} (h : beforeSuffix? tail s = some rest) :
    s = rest ++ tail := by
  unfold beforeSuffix? endsWith at h
  split at h
  case isTrue hp =>
    obtain ⟨t, rfl⟩ := List.isSuffixOf_iff_suffix.1 hp
    simp_all
  case isFalse => simp at h

end Literate.Text

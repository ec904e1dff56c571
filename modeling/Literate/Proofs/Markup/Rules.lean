import Literate.Markup.Inline
import Literate.Proofs.Text.Trim
import Mathlib.Data.Option.Basic

namespace Literate.Markup

open Text

variable {s label target given content mark tag : Text} {before : Option Char} {n : Nat}

theorem takeWhile_append_drop (p : Char → Bool) (s : Text) :
    s.takeWhile p ++ s.drop (s.takeWhile p).length = s :=
  List.prefix_iff_eq_append.1 (List.takeWhile_prefix p)

theorem labelled?_eq_some (h : labelled? s = some (label, target, n)) : ∃ rest,
    s = '[' :: (label ++ ']' :: '(' :: (target ++ ')' :: rest)) ∧ ']' ∉ label ∧
      (∀ c ∈ target, c ≠ ')' ∧ isBlankChar c = false) ∧
      n = label.length + target.length + 4 := by
  simp only [labelled?, Option.bind_eq_bind, Option.bind_eq_some_iff] at h
  obtain ⟨inner, hinner, outer, houter, rest, hrest, -, -, heq⟩ := h
  obtain ⟨rfl, rfl, rfl⟩ : _ = label ∧ _ = target ∧ _ = n := by simpa using heq
  refine ⟨rest, ?_, fun hc => ?_, fun c hc => ?_, rfl⟩
  · have hlabel := takeWhile_append_drop (· != ']') inner
    have htarget := takeWhile_append_drop (fun c => c != ')' && !isBlankChar c) outer
    rw [afterPrefix?_eq_some houter] at hlabel
    rw [afterPrefix?_eq_some hrest] at htarget
    rw [afterPrefix?_eq_some hinner]
    nth_rewrite 1 [← hlabel, ← htarget]
    rfl
  · simpa using List.mem_takeWhile_imp hc
  · simpa using List.mem_takeWhile_imp hc

theorem image_eq_some (h : image before s = some (given, n)) : ∃ label target rest,
    s = '!' :: '[' :: (label ++ ']' :: '(' :: (target ++ ')' :: rest)) ∧ ']' ∉ label ∧
      (∀ c ∈ target, c ≠ ')' ∧ isBlankChar c = false) ∧
      n = label.length + target.length + 5 ∧
      given = "<img src=\"" ++ target ++ "\" alt=\"" ++ trim label ++ "\">" := by
  simp only [image, Option.bind_eq_bind, Option.bind_eq_some_iff] at h
  obtain ⟨inner, hinner, ⟨label, target, m⟩, hlabelled, heq⟩ := h
  obtain ⟨rfl, rfl⟩ : _ = given ∧ m + 1 = n := by simpa using heq
  obtain ⟨rest, rfl, hlabel, htarget, rfl⟩ := labelled?_eq_some hlabelled
  exact ⟨label, target, rest, afterPrefix?_eq_some hinner, hlabel, htarget, rfl, by simp⟩

theorem link_eq_some (h : link before s = some (given, n)) : ∃ label target rest,
    s = '[' :: (label ++ ']' :: '(' :: (target ++ ')' :: rest)) ∧ ']' ∉ label ∧
      (∀ c ∈ target, c ≠ ')' ∧ isBlankChar c = false) ∧
      n = label.length + target.length + 4 ∧
      given = "<a href=\"" ++ target ++ "\">" ++ trim label ++ "</a>" := by
  simp only [link, Option.bind_eq_bind, Option.bind_eq_some_iff] at h
  obtain ⟨⟨label, target, m⟩, hlabelled, -, -, heq⟩ := h
  obtain ⟨rfl, rfl⟩ : _ = given ∧ m = n := by simpa using heq
  obtain ⟨rest, rfl, hlabel, htarget, rfl⟩ := labelled?_eq_some hlabelled
  exact ⟨label, target, rest, rfl, hlabel, htarget, rfl, by simp⟩

theorem isBlankChar_of_mem_addressRun {c : Char} (h : c ∈ addressRun s) :
    isBlankChar c = false := by
  have hc := List.mem_takeWhile_imp h
  simp only [Bool.and_eq_true, Bool.not_eq_true'] at hc
  exact hc.2

theorem addressRun_append_drop (s : Text) : addressRun s ++ s.drop (addressRun s).length = s :=
  takeWhile_append_drop _ s

theorem addressTail_spec (fuel : Nat) (s : Text) :
    addressTail fuel s <+: s ∧ ∀ c ∈ addressTail fuel s, isBlankChar c = false := by
  induction fuel generalizing s with
  | zero => simp [addressTail]
  | succ fuel ih =>
    unfold addressTail
    split
    case h_1 => simp
    case h_2 rest hs =>
      split
      case h_1 => simp
      case h_2 run hne =>
        obtain ⟨hbegins, hblank⟩ := ih (rest.drop (addressRun rest).length)
        constructor
        · rw [afterPrefix?_eq_some hs, List.append_assoc, List.prefix_append_right_inj]
          conv_rhs => rw [← addressRun_append_drop rest]
          rwa [List.prefix_append_right_inj]
        · intro c hc
          rw [List.mem_append, List.mem_append] at hc
          rcases hc with (hc | hc) | hc
          · revert c
            decide
          · exact isBlankChar_of_mem_addressRun hc
          · exact hblank c hc

theorem eq_of_closed_address {fuel : Nat} {rest : Text}
    (h : afterPrefix? "&gt;" ((s.drop (addressRun s).length).drop
      (addressTail fuel (s.drop (addressRun s).length)).length) = some rest) :
    s = addressRun s ++ (addressTail fuel (s.drop (addressRun s).length) ++ ("&gt;" ++ rest)) := by
  have htail := List.prefix_iff_eq_append.1
    (addressTail_spec fuel (s.drop (addressRun s).length)).1
  rw [afterPrefix?_eq_some h] at htail
  rw [htail, addressRun_append_drop]

/-- Every ampersand is an escaped one. -/
def Ampersands (s : Text) : Prop :=
  ∀ front rest, s = front ++ '&' :: rest → ("amp;" : Text) <+: rest

theorem Ampersands.append {t : Text} (hs : Ampersands s) (ht : Ampersands t) :
    Ampersands (s ++ t) := by
  intro front rest h
  rcases List.append_eq_append_iff.1 h with ⟨more, rfl, hmore⟩ | ⟨more, rfl, hmore⟩
  · exact ht more rest hmore
  · cases more with
    | nil => exact ht [] rest hmore.symm
    | cons c more =>
      obtain ⟨rfl, rfl⟩ := List.cons.inj hmore
      exact (hs front more rfl).trans (List.prefix_append _ _)

theorem ampersands_of_notMem (h : '&' ∉ s) : Ampersands s := by
  rintro front rest rfl
  exact absurd (List.mem_append_right _ List.mem_cons_self) h

theorem ampersands_addressRun (s : Text) : Ampersands (addressRun s) := by
  apply ampersands_of_notMem
  intro h
  have hc := List.mem_takeWhile_imp h
  simp at hc

theorem ampersands_escaped : Ampersands "&amp;" := by
  intro front rest h
  cases front with
  | nil => exact ⟨[], (List.cons.inj h).2⟩
  | cons c front =>
    have hrest : '&' ∉ ("&amp;" : Text).tail := by decide
    rw [h] at hrest
    exact absurd (List.mem_append_right _ List.mem_cons_self) hrest

theorem ampersands_addressTail (fuel : Nat) (s : Text) : Ampersands (addressTail fuel s) := by
  induction fuel generalizing s with
  | zero => exact ampersands_of_notMem (by simp [addressTail])
  | succ fuel ih =>
    unfold addressTail
    split
    case h_1 => exact ampersands_of_notMem (by simp)
    case h_2 rest hs =>
      split
      case h_1 => exact ampersands_of_notMem (by simp)
      case h_2 => exact (ampersands_escaped.append (ampersands_addressRun rest)).append (ih _)

/-- An address: it begins with the scheme, has no blanks, and has no bracket that closes it. -/
structure IsAddress (address : Text) : Prop where
  scheme : ("http" : Text) <+: address
  unbroken : ∀ c ∈ address, isBlankChar c = false
  unclosed : ∀ front rest : Text, address ≠ front ++ ("&gt;" ++ rest)

/-- An address between escaped angle brackets. -/
structure Addressed (s given : Text) (n : Nat) : Prop where
  split : ∃ address rest, s = "&lt;" ++ (address ++ ("&gt;" ++ rest)) ∧ IsAddress address ∧
    n = address.length + 8 ∧ given = "<a href=\"" ++ address ++ "\">" ++ address ++ "</a>"

theorem isAddress_of_scheme {scheme : Text} (fuel : Nat) (s : Text)
    (hscheme : scheme ∈ (["http://", "https://"] : List Text)) :
    IsAddress (scheme ++ addressRun s ++ addressTail fuel (s.drop (addressRun s).length)) := by
  have hplain : ∀ scheme ∈ (["http://", "https://"] : List Text), ("http" : Text) <+: scheme ∧
      '&' ∉ scheme ∧ ∀ c ∈ scheme, isBlankChar c = false := by decide
  obtain ⟨hhttp, hamp, hblank⟩ := hplain scheme hscheme
  constructor
  · rw [List.append_assoc]
    exact hhttp.trans (List.prefix_append _ _)
  · intro c hc
    rw [List.mem_append, List.mem_append] at hc
    rcases hc with (hc | hc) | hc
    · exact hblank c hc
    · exact isBlankChar_of_mem_addressRun hc
    · exact (addressTail_spec _ _).2 c hc
  · intro front rest h
    have hampersands := ((ampersands_of_notMem hamp).append (ampersands_addressRun s)).append
      (ampersands_addressTail fuel (s.drop (addressRun s).length))
    obtain ⟨more, hmore⟩ := hampersands front ("gt;" ++ rest) h
    exact absurd (List.cons.inj hmore).1 (by decide)

theorem addressed_of_scheme {scheme inner rest : Text} {fuel : Nat}
    (hs : s = "&lt;" ++ inner) (hbegins : startsWith scheme inner)
    (hscheme : scheme ∈ (["http://", "https://"] : List Text))
    (hrest : afterPrefix? "&gt;" (((inner.drop scheme.length).drop
      (addressRun (inner.drop scheme.length)).length).drop (addressTail fuel
        ((inner.drop scheme.length).drop (addressRun (inner.drop scheme.length)).length)).length) =
      some rest) :
    let behind := inner.drop scheme.length
    let address := scheme ++ addressRun behind ++
      addressTail fuel (behind.drop (addressRun behind).length)
    Addressed s ("<a href=\"" ++ address ++ "\">" ++ address ++ "</a>") (address.length + 8) := by
  obtain ⟨behind, rfl⟩ := List.isPrefixOf_iff_prefix.1 hbegins
  rw [List.drop_left] at hrest ⊢
  refine ⟨_, rest, ?_, isAddress_of_scheme fuel behind hscheme, rfl, rfl⟩
  rw [hs]
  nth_rewrite 1 [eq_of_closed_address hrest]
  simp

theorem autolink_eq_some (h : autolink before s = some (given, n)) : Addressed s given n := by
  simp only [autolink, Option.bind_eq_bind, Option.bind_eq_some_iff] at h
  obtain ⟨inner, hinner, h⟩ := h
  have hs := afterPrefix?_eq_some hinner
  split at h
  case isTrue hscheme =>
    simp only [Option.bind_some, Option.bind_eq_some_iff] at h
    obtain ⟨-, -, rest, hrest, heq⟩ := h
    obtain ⟨rfl, rfl⟩ := Prod.mk.inj (Option.some.inj heq)
    exact addressed_of_scheme hs hscheme (by simp) hrest
  case isFalse =>
    split at h
    case isTrue hscheme =>
      simp only [Option.bind_some, Option.bind_eq_some_iff] at h
      obtain ⟨-, -, rest, hrest, heq⟩ := h
      obtain ⟨rfl, rfl⟩ := Prod.mk.inj (Option.some.inj heq)
      exact addressed_of_scheme hs hscheme (by simp) hrest
    case isFalse => simp at h

theorem shortest_eq_some {stop : Text → Bool} (h : shortest stop s = some content) :
    ∃ rest, s = content ++ rest ∧ stop rest = true := by
  induction s generalizing content with
  | nil => simp [shortest] at h
  | cons c s ih =>
    rw [shortest] at h
    split at h
    case isTrue => simp at h
    case isFalse =>
      split at h
      case isTrue hstop =>
        cases h
        exact ⟨s, rfl, hstop⟩
      case isFalse =>
        obtain ⟨content, hcontent, rfl⟩ := Option.map_eq_some_iff.1 h
        obtain ⟨rest, rfl, hstop⟩ := ih hcontent
        exact ⟨rest, rfl, hstop⟩

/-- A text that begins with some content between two marks, which becomes an element. -/
structure Enclosed (mark tag s given : Text) (n : Nat) : Prop where
  split : ∃ content rest, s = mark ++ (content ++ (mark ++ rest)) ∧
    n = content.length + 2 * mark.length ∧ given = element tag content

theorem enclosed_of_shortest {stop : Text → Bool} {inner : Text}
    (hinner : afterPrefix? mark s = some inner) (hstop : ∀ r, stop r = true → startsWith mark r)
    (h : shortest stop inner = some content) :
    Enclosed mark tag s (element tag content) (content.length + 2 * mark.length) := by
  obtain ⟨after, rfl, hafter⟩ := shortest_eq_some h
  obtain ⟨rest, rfl⟩ := List.isPrefixOf_iff_prefix.1 (hstop after hafter)
  exact ⟨content, rest, afterPrefix?_eq_some hinner, rfl, rfl⟩

theorem starred_eq_some (h : starred tag mark before s = some (given, n)) :
    Enclosed mark tag s given n := by
  simp only [starred, Option.bind_eq_bind, Option.bind_eq_some_iff] at h
  obtain ⟨inner, hinner, content, hcontent, heq⟩ := h
  obtain ⟨rfl, rfl⟩ : _ = given ∧ _ = n := by simpa using heq
  exact enclosed_of_shortest hinner (fun r hr => hr) hcontent

theorem lowLined_eq_some (h : lowLined tag mark before s = some (given, n)) :
    Enclosed mark tag s given n := by
  simp only [lowLined, Option.bind_eq_bind, Option.bind_eq_some_iff] at h
  obtain ⟨-, -, inner, hinner, content, hcontent, heq⟩ := h
  obtain ⟨rfl, rfl⟩ : _ = given ∧ _ = n := by simpa using heq
  refine enclosed_of_shortest hinner (fun r hr => ?_) hcontent
  exact (Bool.and_eq_true_iff.1 hr).1

theorem strong_eq_some (h : strong before s = some (given, n)) :
    ∃ mark ∈ (["**", "__"] : List Text), Enclosed mark "strong" s given n := by
  rw [strong, Option.orElse_eq_orElse, Option.orElse_eq_or, Option.or_eq_some_iff] at h
  rcases h with h | ⟨-, h⟩
  · exact ⟨"**", by simp, starred_eq_some h⟩
  · exact ⟨"__", by simp, lowLined_eq_some h⟩

theorem emphasis_eq_some (h : emphasis before s = some (given, n)) :
    ∃ mark ∈ (["*", "_"] : List Text), Enclosed mark "em" s given n := by
  unfold emphasis at h
  split at h
  case isTrue => simp at h
  case isFalse =>
    rw [Option.orElse_eq_orElse, Option.orElse_eq_or, Option.or_eq_some_iff] at h
    rcases h with h | ⟨-, h⟩
    · exact ⟨"*", by simp, starred_eq_some h⟩
    · exact ⟨"_", by simp, lowLined_eq_some h⟩

end Literate.Markup

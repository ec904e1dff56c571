import Literate.Proofs.Text.Trim
import Literate.Proofs.Validation.Acceptance
import Literate.Settings.Basic
import Mathlib.Tactic.SplitIfs

namespace Literate

open Checked

/-- The value of a setting as it is shown. -/
def Settings.value (s : Settings) : Setting → Value
  | .rootName => .text s.rootName
  | .encoding => .text s.encoding
  | .fallbackComment => .text s.fallbackComment
  | .anchorFiller => .text s.anchorFiller
  | .highlightStyle => .text s.highlightStyle
  | .watchInterval => .float s.watchInterval
  | .recencyWindow => .float s.recencyWindow
  | .maxRetries => .int s.maxRetries
  | .retryDelay => .float s.retryDelay
  | .logLevel => .text s.logLevel.capitals
  | .logFormat => .text s.logFormat.name

namespace Setting

def levelNames : List Text := ["DEBUG", "INFO", "WARNING", "ERROR", "CRITICAL"]

def formatNames : List Text := ["json", "console"]

/-- What is not a number is neither above a bound nor below it, so the bounds let it through. -/
inductive Allows : Setting → Value → Prop where
  | rootName {s : Text} (nonempty : s ≠ []) (trimmed : Text.trim s = s) : Allows rootName (.text s)
  | encoding (s : Text) : Allows encoding (.text s)
  | fallbackComment {s : Text} (nonempty : s ≠ []) : Allows fallbackComment (.text s)
  | anchorFiller {c : Char} (nonblank : Text.isBlankChar c = false) :
    Allows anchorFiller (.text [c])
  | highlightStyle (s : Text) : Allows highlightStyle (.text s)
  | watchInterval {x : Float} (most : ¬ Float.ofNat 60 < x) (positive : ¬ x ≤ 0.0) :
    Allows watchInterval (.float x)
  | recencyWindow {x : Float} (most : ¬ Float.ofNat 600 < x) (positive : ¬ x ≤ 0.0) :
    Allows recencyWindow (.float x)
  | maxRetries {n : Int} (least : 0 ≤ n) (most : n ≤ 10) : Allows maxRetries (.int n)
  | retryDelay {x : Float} (most : ¬ Float.ofNat 5 < x) (nonnegative : ¬ x < 0.0) :
    Allows retryDelay (.float x)
  | logLevel {s : Text} (named : s ∈ levelNames) : Allows logLevel (.text s)
  | logFormat {s : Text} (named : s ∈ formatNames) : Allows logFormat (.text s)

variable {v : Value} {k : Setting} {f : Settings → Settings}

theorem checkRootName_eq_ok_iff {t : Text} :
    checkRootName v = .ok t ↔ ∃ s, v = .text s ∧ Text.isBlank s = false ∧ t = Text.trim s := by
  rw [checkRootName, bind_eq_ok_iff]
  constructor
  · rintro ⟨s, hs, h⟩
    split_ifs at h with hblank
    · simp at h
    · cases h
      exact ⟨s, (textOf_eq_ok_iff.1 hs).1, by simpa using hblank, rfl⟩
  · rintro ⟨s, rfl, hblank, rfl⟩
    have hne : s ≠ [] := fun h => by simp [h, Text.isBlank] at hblank
    refine ⟨s, textOf_eq_ok_iff.2 ⟨rfl, List.length_pos_iff.2 hne, by simp⟩, ?_⟩
    simp [hblank]

theorem checkFiller_eq_ok_iff {t : Text} :
    checkFiller v = .ok t ↔ ∃ c, v = .text [c] ∧ Text.isBlankChar c = false ∧ t = [c] := by
  rw [checkFiller, bind_eq_ok_iff]
  constructor
  · rintro ⟨s, hs, h⟩
    obtain ⟨rfl, hleast, hmost⟩ := textOf_eq_ok_iff.1 hs
    obtain ⟨c, rfl⟩ := List.length_eq_one_iff.1 (Nat.le_antisymm (hmost 1 rfl) hleast)
    split_ifs at h with hblank
    · simp at h
    · cases h
      exact ⟨c, rfl, by simpa [Text.isBlank] using hblank, rfl⟩
  · rintro ⟨c, rfl, hblank, rfl⟩
    refine ⟨[c], textOf_eq_ok_iff.2 ⟨rfl, le_rfl, by simp⟩, ?_⟩
    simp [Text.isBlank, hblank]

theorem positiveUpTo_eq_ok_iff {most : Nat} {x : Float} :
    positiveUpTo most v = .ok x ↔ number v = .ok x ∧ ¬ Float.ofNat most < x ∧ ¬ x ≤ 0.0 := by
  rw [positiveUpTo, bounded_eq_ok_iff]
  constructor
  · rintro ⟨x, hx, hmost, hpositive, rfl⟩
    exact ⟨hx, hmost, hpositive⟩
  · rintro ⟨hx, hmost, hpositive⟩
    exact ⟨x, hx, hmost, hpositive, rfl⟩

theorem fromZeroUpTo_eq_ok_iff {most : Nat} {x : Float} :
    fromZeroUpTo most v = .ok x ↔ number v = .ok x ∧ ¬ Float.ofNat most < x ∧ ¬ x < 0.0 := by
  rw [fromZeroUpTo, bounded_eq_ok_iff]
  constructor
  · rintro ⟨x, hx, hmost, hnonnegative, rfl⟩
    exact ⟨hx, hmost, hnonnegative⟩
  · rintro ⟨hx, hmost, hnonnegative⟩
    exact ⟨x, hx, hmost, hnonnegative, rfl⟩

theorem retries_eq_ok_iff {n : Nat} : retries v = .ok n ↔ integer v = .ok (n : Int) ∧ n ≤ 10 := by
  rw [retries, bounded_eq_ok_iff]
  constructor
  · rintro ⟨i, hi, hmost, hleast, rfl⟩
    have hnat : (i.toNat : Int) = i := Int.toNat_of_nonneg (Int.not_lt.1 hleast)
    exact ⟨by rw [hi, hnat], by omega⟩
  · rintro ⟨hi, hn⟩
    exact ⟨n, hi, by omega, by omega, Int.toNat_natCast n⟩

theorem checkLevel_eq_ok_iff {l : Level} :
    checkLevel v = .ok l ↔ ∃ s, v = .text s ∧ Level.ofCapitals? s = some l := by
  rw [checkLevel, text_bind_eq_ok_iff]
  refine exists_congr fun s => and_congr_right fun _ => ?_
  cases Level.ofCapitals? s with
  | none => simp
  | some l => simp

theorem checkFormat_eq_ok_iff {form : LogFormat} :
    checkFormat v = .ok form ↔ ∃ s, v = .text s ∧ LogFormat.ofText? s = some form := by
  rw [checkFormat, text_bind_eq_ok_iff]
  refine exists_congr fun s => and_congr_right fun _ => ?_
  cases LogFormat.ofText? s with
  | none => simp
  | some l => simp

theorem map_capitals_all : Level.all.map Level.capitals = levelNames := by decide

theorem map_name_all : LogFormat.all.map LogFormat.name = formatNames := by decide

theorem ofCapitals?_capitals (l : Level) : Level.ofCapitals? l.capitals = some l := by
  cases l <;> decide

theorem ofText?_name (form : LogFormat) : LogFormat.ofText? form.name = some form := by
  cases form <;> decide +kernel

theorem mem_levelNames {s : Text} : s ∈ levelNames ↔ ∃ l : Level, l.capitals = s := by
  rw [← map_capitals_all, List.mem_map]
  exact exists_congr fun l => and_iff_right (by cases l <;> decide)

theorem mem_formatNames {s : Text} : s ∈ formatNames ↔ ∃ form : LogFormat, form.name = s := by
  rw [← map_name_all, List.mem_map]
  exact exists_congr fun form => and_iff_right (by cases form <;> decide)

theorem allows_change (h : k.change v = .ok f) (s : Settings) : k.Allows ((f s).value k) := by
  cases k
  all_goals
    obtain ⟨x, hx, rfl⟩ := map_eq_ok_iff.1 h
  case rootName =>
    obtain ⟨t, -, hblank, rfl⟩ := checkRootName_eq_ok_iff.1 hx
    exact .rootName (Text.trim_ne_nil_iff.2 hblank) (Text.trim_trim t)
  case encoding => exact .encoding x
  case fallbackComment =>
    obtain ⟨-, hleast, -⟩ := textOf_eq_ok_iff.1 hx
    exact .fallbackComment (List.length_pos_iff.1 hleast)
  case anchorFiller =>
    obtain ⟨c, -, hblank, rfl⟩ := checkFiller_eq_ok_iff.1 hx
    exact .anchorFiller hblank
  case highlightStyle => exact .highlightStyle x
  case watchInterval =>
    obtain ⟨-, hmost, hpositive⟩ := positiveUpTo_eq_ok_iff.1 hx
    exact .watchInterval hmost hpositive
  case recencyWindow =>
    obtain ⟨-, hmost, hpositive⟩ := positiveUpTo_eq_ok_iff.1 hx
    exact .recencyWindow hmost hpositive
  case maxRetries =>
    obtain ⟨-, hmost⟩ := retries_eq_ok_iff.1 hx
    exact .maxRetries (Int.natCast_nonneg x) (by exact_mod_cast hmost)
  case retryDelay =>
    obtain ⟨-, hmost, hnonnegative⟩ := fromZeroUpTo_eq_ok_iff.1 hx
    exact .retryDelay hmost hnonnegative
  case logLevel => exact .logLevel (mem_levelNames.2 ⟨x, rfl⟩)
  case logFormat => exact .logFormat (mem_formatNames.2 ⟨x, rfl⟩)

theorem value_change_of_ne (h : k.change v = .ok f) (s : Settings) {k' : Setting} (hne : k' ≠ k) :
    (f s).value k' = s.value k' := by
  -- each change is an update of one field
  cases k
  all_goals
    obtain ⟨x, -, rfl⟩ := map_eq_ok_iff.1 h
    cases k'
    all_goals first | rfl | exact absurd rfl hne

theorem exists_change (h : k.Allows v) : ∃ f, k.change v = .ok f ∧ ∀ s, (f s).value k = v := by
  cases h with
  | @rootName s nonempty trimmed =>
    have hblank : Text.isBlank s = false := Text.trim_ne_nil_iff.1 (by rwa [trimmed])
    have hcheck : checkRootName (.text s) = .ok s :=
      checkRootName_eq_ok_iff.2 ⟨s, rfl, hblank, trimmed.symm⟩
    exact ⟨_, map_eq_ok_iff.2 ⟨s, hcheck, rfl⟩, fun _ => rfl⟩
  | encoding s => exact ⟨_, rfl, fun _ => rfl⟩
  | @fallbackComment s nonempty =>
    have hcheck : textOf 1 none (.text s) = .ok s :=
      textOf_eq_ok_iff.2 ⟨rfl, List.length_pos_iff.2 nonempty, by simp⟩
    exact ⟨_, map_eq_ok_iff.2 ⟨s, hcheck, rfl⟩, fun _ => rfl⟩
  | @anchorFiller c nonblank =>
    have hcheck : checkFiller (.text [c]) = .ok [c] :=
      checkFiller_eq_ok_iff.2 ⟨c, rfl, nonblank, rfl⟩
    exact ⟨_, map_eq_ok_iff.2 ⟨[c], hcheck, rfl⟩, fun _ => rfl⟩
  | highlightStyle s => exact ⟨_, rfl, fun _ => rfl⟩
  | @watchInterval x most positive =>
    have hcheck : positiveUpTo 60 (.float x) = .ok x :=
      positiveUpTo_eq_ok_iff.2 ⟨rfl, most, positive⟩
    exact ⟨_, map_eq_ok_iff.2 ⟨x, hcheck, rfl⟩, fun _ => rfl⟩
  | @recencyWindow x most positive =>
    have hcheck : positiveUpTo 600 (.float x) = .ok x :=
      positiveUpTo_eq_ok_iff.2 ⟨rfl, most, positive⟩
    exact ⟨_, map_eq_ok_iff.2 ⟨x, hcheck, rfl⟩, fun _ => rfl⟩
  -- numbers of retries are natural, and the entry is an integer
  | @maxRetries n least most =>
    obtain ⟨n, rfl⟩ := Int.eq_ofNat_of_zero_le least
    have hcheck : retries (.int n) = .ok n := retries_eq_ok_iff.2 ⟨rfl, by exact_mod_cast most⟩
    exact ⟨_, map_eq_ok_iff.2 ⟨n, hcheck, rfl⟩, fun _ => rfl⟩
  | @retryDelay x most nonnegative =>
    have hcheck : fromZeroUpTo 5 (.float x) = .ok x :=
      fromZeroUpTo_eq_ok_iff.2 ⟨rfl, most, nonnegative⟩
    exact ⟨_, map_eq_ok_iff.2 ⟨x, hcheck, rfl⟩, fun _ => rfl⟩
  | @logLevel s named =>
    obtain ⟨l, rfl⟩ := mem_levelNames.1 named
    have hcheck := checkLevel_eq_ok_iff.2 ⟨_, rfl, ofCapitals?_capitals l⟩
    exact ⟨_, map_eq_ok_iff.2 ⟨l, hcheck, rfl⟩, fun _ => rfl⟩
  | @logFormat s named =>
    obtain ⟨form, rfl⟩ := mem_formatNames.1 named
    have hcheck := checkFormat_eq_ok_iff.2 ⟨_, rfl, ofText?_name form⟩
    exact ⟨_, map_eq_ok_iff.2 ⟨form, hcheck, rfl⟩, fun _ => rfl⟩

end Setting

theorem Settings.ext_value {s s' : Settings} (h : ∀ k, s.value k = s'.value k) : s = s' := by
  have hlevel : s.logLevel = s'.logLevel := by
    have hcapitals : s.logLevel.capitals = s'.logLevel.capitals := Value.text.inj (h .logLevel)
    exact Option.some.inj (by
      rw [← Setting.ofCapitals?_capitals, hcapitals, Setting.ofCapitals?_capitals])
  have hform : s.logFormat = s'.logFormat := by
    have hname : s.logFormat.name = s'.logFormat.name := Value.text.inj (h .logFormat)
    exact Option.some.inj (by rw [← Setting.ofText?_name, hname, Setting.ofText?_name])
  have hretries : s.maxRetries = s'.maxRetries :=
    Int.ofNat.inj (Value.int.inj (h .maxRetries))
  cases s
  cases s'
  rw [Settings.mk.injEq]
  exact ⟨Value.text.inj (h .rootName), Value.text.inj (h .encoding),
    Value.text.inj (h .fallbackComment), Value.text.inj (h .anchorFiller),
    Value.text.inj (h .highlightStyle), Value.float.inj (h .watchInterval),
    Value.float.inj (h .recencyWindow), hretries, Value.float.inj (h .retryDelay), hlevel, hform⟩

end Literate

import Literate.Proofs.Settings.Allowed
import Literate.Settings.Sources

namespace Literate

/-- An entry of a value that holds its entries in groups. -/
def Value.entry? (v : Value) (group name : Text) : Option Value :=
  match v with
  | .object groups =>
    match Fields.get? groups group with
    | some (.object entries) => Fields.get? entries name
    | _ => none
  | _ => none

/-- The group and the name under which a summary shows a setting. -/
def Setting.place : Setting → Text × Text
  | rootName => ("generation", "root_name")
  | encoding => ("generation", "encoding")
  | fallbackComment => ("generation", "fallback_comment_token")
  | anchorFiller => ("rendering", "anchor_filler")
  | highlightStyle => ("rendering", "pygments_style")
  | watchInterval => ("watch", "interval")
  | recencyWindow => ("watch", "recency_window")
  | maxRetries => ("watch", "max_retries")
  | retryDelay => ("watch", "retry_delay")
  | logLevel => ("logging", "level")
  | logFormat => ("logging", "format")

namespace Settings

open Checked

variable {s s' : Settings} {k : Setting} {v : Value} {name : Text}

theorem entry?_place (s : Settings) (k : Setting) :
    s.summary.entry? k.place.1 k.place.2 = some (s.value k) := by
  cases k <;> rfl

theorem mem_of_get? {fields : Fields} (h : fields.get? name = some v) : (name, v) ∈ fields := by
  obtain ⟨earlier, later, rfl, -⟩ := List.lookup_eq_some_iff.1 h
  simp

theorem exists_place {group : Text} (h : s.summary.entry? group name = some v) :
    ∃ k : Setting, k.place = (group, name) := by
  unfold Value.entry? summary at h
  dsimp only at h
  split at h
  · next entries hgroup =>
    have hentry := mem_of_get? h
    have hgroups := mem_of_get? hgroup
    simp only [List.mem_cons, List.not_mem_nil, or_false, Prod.mk.injEq] at hgroups
    -- one of the four groups, and then one of its entries
    rcases hgroups with ⟨rfl, h⟩ | ⟨rfl, h⟩ | ⟨rfl, h⟩ | ⟨rfl, h⟩
    all_goals
      cases h
      simp only [List.mem_cons, List.not_mem_nil, or_false, Prod.mk.injEq] at hentry
    · rcases hentry with ⟨rfl, -⟩ | ⟨rfl, -⟩ | ⟨rfl, -⟩
      exacts [⟨.rootName, rfl⟩, ⟨.encoding, rfl⟩, ⟨.fallbackComment, rfl⟩]
    · rcases hentry with ⟨rfl, -⟩ | ⟨rfl, -⟩
      exacts [⟨.anchorFiller, rfl⟩, ⟨.highlightStyle, rfl⟩]
    · rcases hentry with ⟨rfl, -⟩ | ⟨rfl, -⟩ | ⟨rfl, -⟩ | ⟨rfl, -⟩
      exacts [⟨.watchInterval, rfl⟩, ⟨.recencyWindow, rfl⟩, ⟨.maxRetries, rfl⟩, ⟨.retryDelay, rfl⟩]
    · rcases hentry with ⟨rfl, -⟩ | ⟨rfl, -⟩
      exacts [⟨.logLevel, rfl⟩, ⟨.logFormat, rfl⟩]
  · cases h

theorem entry?_congr {group : Text}
    (h : ∀ k : Setting, k.place = (group, name) → s.value k = s'.value k) :
    s.summary.entry? group name = s'.summary.entry? group name := by
  by_cases hplace : ∃ k : Setting, k.place = (group, name)
  · obtain ⟨k, hk⟩ := hplace
    have hs := s.entry?_place k
    have hs' := s'.entry?_place k
    rw [hk] at hs hs'
    rw [hs, hs', h k hk]
  · have hnone (s : Settings) : s.summary.entry? group name = none :=
      Option.eq_none_iff_forall_ne_some.2 fun v hv => hplace (exists_place hv)
    rw [hnone, hnone]

/-- Every setting has a value that it can have. -/
def Allowed (s : Settings) : Prop := ∀ k : Setting, k.Allows (s.value k)

theorem ofName?_name (k : Setting) : Setting.ofName? k.name = some k := by
  cases k <;> decide

theorem name_of_ofName? (h : Setting.ofName? name = some k) : k.name = name := by
  have hfound := List.find?_some h
  exact eq_of_beq hfound

theorem exists_of_assign (h : s.assign name v = .ok s') :
    ∃ k f, Setting.ofName? name = some k ∧ k.change v = .ok f ∧ s' = f s := by
  unfold assign at h
  split at h
  · next k hk =>
    obtain ⟨f, hf, rfl⟩ := map_eq_ok_iff.1 h
    exact ⟨k, f, hk, inside_eq_ok_iff.1 hf, rfl⟩
  · cases h

theorem Allowed.change {f : Settings → Settings} (hs : s.Allowed) (h : k.change v = .ok f) :
    (f s).Allowed := by
  intro k'
  by_cases hk : k' = k
  · rw [hk]
    exact Setting.allows_change h s
  · rw [Setting.value_change_of_ne h s hk]
    exact hs k'

theorem Allowed.assign (hs : s.Allowed) (h : s.assign name v = .ok s') : s'.Allowed := by
  obtain ⟨k, f, -, hf, rfl⟩ := exists_of_assign h
  exact hs.change hf

theorem Allowed.assign_value (hs : s.Allowed) (k : Setting) :
    s.assign k.name (s.value k) = .ok s := by
  obtain ⟨f, hf, hvalue⟩ := Setting.exists_change (hs k)
  have hsame : f s = s := by
    refine ext_value fun k' => ?_
    by_cases hk : k' = k
    · rw [hk, hvalue]
    · exact Setting.value_change_of_ne hf s hk
  rw [Settings.assign, ofName?_name]
  exact map_eq_ok_iff.2 ⟨f, inside_eq_ok_iff.2 hf, hsame⟩

theorem allowed_default : Allowed {} := by
  intro k
  cases k with
  | rootName => exact .rootName (by decide) (by decide)
  | encoding => exact .encoding _
  | fallbackComment => exact .fallbackComment (by decide)
  | anchorFiller => exact .anchorFiller (by decide)
  | highlightStyle => exact .highlightStyle _
  | watchInterval => exact .watchInterval (by decide) (by decide)
  | recencyWindow => exact .recencyWindow (by decide) (by decide)
  | maxRetries => exact .maxRetries (by decide) (by decide)
  | retryDelay => exact .retryDelay (by decide) (by decide)
  | logLevel => exact .logLevel (by decide)
  | logFormat => exact .logFormat (by decide)

theorem allowed_of_ofGiven {given : Setting → Option Value} {ks : List Setting}
    (h : ofGiven given ks = .ok s) : s.Allowed := by
  -- what is given is laid over what comes of the rest, and that over the defaults
  induction ks generalizing s with
  | nil =>
    cases h
    exact allowed_default
  | cons k ks ih =>
    rw [ofGiven] at h
    split at h
    · exact ih h
    · obtain ⟨⟨f, rest⟩, hboth, rfl⟩ := map_eq_ok_iff.1 h
      obtain ⟨hf, hrest⟩ := both_eq_ok_iff.1 hboth
      exact (ih hrest).change (inside_eq_ok_iff.1 hf)

theorem allowed_of_load {arguments : Fields} {environment : List (Text × Text)}
    {file : Option Text} (h : load arguments environment file = .ok s) : s.Allowed :=
  allowed_of_ofGiven h

/-- The settings after an assignment, which may be refused. -/
def attempt (s : Settings) (name : Text) (v : Value) : Settings :=
  (s.assign name v).toOption.getD s

/-- The settings after assignments, one after the other, whether they are refused or not. -/
def after (s : Settings) (history : List (Text × Value)) : Settings :=
  history.foldl (fun s a => s.attempt a.1 a.2) s

theorem Allowed.attempt (hs : s.Allowed) (name : Text) (v : Value) :
    (s.attempt name v).Allowed := by
  unfold Settings.attempt
  cases h : s.assign name v with
  | error issues => exact hs
  | ok s' => exact hs.assign h

theorem Allowed.after (hs : s.Allowed) (history : List (Text × Value)) :
    (s.after history).Allowed := by
  induction history generalizing s with
  | nil => exact hs
  | cons a history ih => exact ih (hs.attempt a.1 a.2)

/-- Whatever settings were made from and whatever has been assigned to them, each has a value that
it can have, is shown with it, and can be assigned it again to no effect. An assignment that is
refused changes nothing, and one that is accepted changes no entry of the summary but that of the
setting that it names. -/
theorem allowed_under_history {arguments : Fields} {environment : List (Text × Text)}
    {file : Option Text} (h : load arguments environment file = .ok s)
    (history : List (Text × Value)) :
    let now := s.after history
    (∀ k : Setting, ∃ x, now.summary.entry? k.place.1 k.place.2 = some x ∧ k.Allows x ∧
      now.assign k.name x = .ok now) ∧
    ∀ name v,
      (∀ issues, now.assign name v = .error issues → now.attempt name v = now) ∧
      ∀ next, now.assign name v = .ok next → now.attempt name v = next ∧
        ∃ k : Setting, k.name = name ∧ ∀ group entry, (group, entry) ≠ k.place →
          next.summary.entry? group entry = now.summary.entry? group entry := by
  intro now
  have hnow : now.Allowed := (allowed_of_load h).after history
  refine ⟨fun k => ⟨now.value k, now.entry?_place k, hnow k, hnow.assign_value k⟩,
    fun name v => ⟨fun issues herror => ?_, fun next hok => ⟨?_, ?_⟩⟩⟩
  · rw [attempt, herror]
    rfl
  · rw [attempt, hok]
    rfl
  · obtain ⟨k, f, hk, hf, rfl⟩ := exists_of_assign hok
    refine ⟨k, name_of_ofName? hk, fun group entry hne => entry?_congr fun k' hplace => ?_⟩
    have hother : k' ≠ k := fun heq => hne (heq ▸ hplace.symm)
    exact Setting.value_change_of_ne hf now hother

def sourcedSettings : Checked Settings :=
  load [("root_name", .text "  main ")] [("LITWEAVE_LOG_LEVEL", "debug")]
    (some "litweave_anchor_filler='-' # for links\n")

def someAssignments : List (Text × Value) :=
  [("root_name", .text " "), ("watch_max_retries", .text "+1_0"), ("color", .int 1),
    ("log_format", .text "JSON")]

theorem allowed_under_some_assignments : ∃ s, sourcedSettings = .ok s ∧
    s.rootName = "main" ∧ s.anchorFiller = "-" ∧ s.logLevel = .debug ∧
    (s.after someAssignments).maxRetries = 10 ∧
    ∀ k : Setting, ∃ x, (s.after someAssignments).summary.entry? k.place.1 k.place.2 = some x ∧
      k.Allows x ∧ (s.after someAssignments).assign k.name x = .ok (s.after someAssignments) := by
  have hmade : sourcedSettings.toOption.map (fun s =>
      (s.rootName, s.anchorFiller, s.logLevel, (s.after someAssignments).maxRetries)) =
        some (("main" : Text), ("-" : Text), Level.debug, 10) := by
    decide +kernel
  cases h : sourcedSettings with
  | error issues =>
    rw [h] at hmade
    cases hmade
  | ok s =>
    rw [h] at hmade
    simp only [Except.toOption, Option.map_some, Option.some.injEq, Prod.mk.injEq] at hmade
    obtain ⟨hroot, hfiller, hlevel, hretries⟩ := hmade
    exact ⟨s, rfl, hroot, hfiller, hlevel, hretries, (allowed_under_history h someAssignments).1⟩

end Settings

end Literate

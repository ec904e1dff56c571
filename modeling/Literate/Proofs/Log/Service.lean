import Literate.Log.Service
import Mathlib.Tactic.SplitIfs

namespace Literate.Log

inductive Call where
  | configure (level format : Value)
  | configureWith (c : Config)
  | configureFrom (level format : Option Text) (settings : Checked Settings)
  | reset
  | logger (name : Text)
  | logProblem (name : Text) (p : Problem) (context : Fields) (trace : Bool) (time : Text)
  | logMeasurement (name operation : Text) (duration : Value) (details : Fields) (time : Text)

def Call.configures : Call → Bool
  | configure .. | configureWith _ | configureFrom .. => true
  | _ => false

/-- A level or a format is given as text that names none; an empty one that stands for a default
is not given. -/
inductive Call.Misnames : Call → Prop where
  | level (level : Text) (unnamed : ∀ l : Level, Text.capitalisesTo l.capitals level = false)
    (format : Value) : Misnames (.configure (.text level) format)
  | format (level format : Text) (unnamed : ∀ f : LogFormat, Text.lower format ≠ f.name) :
    Misnames (.configure (.text level) (.text format))
  | levelFrom (level : Text) (unnamed : ∀ l : Level, Text.capitalisesTo l.capitals level = false)
    (format : Option Text) (settings : Checked Settings)
    (given : level ≠ [] ∨ format.isSome = true) :
    Misnames (.configureFrom (some level) format settings)
  | formatFrom (level : Option Text) (format : Text)
    (unnamed : ∀ f : LogFormat, Text.lower format ≠ f.name) (settings : Checked Settings)
    (given : format ≠ [] ∨ level.isSome = true) :
    Misnames (.configureFrom level (some format) settings)

/-- A configuration with the name of a level in capitals and the name of a format. -/
def Config.Valid (c : Config) : Prop :=
  c.level ∈ Level.all.map Level.capitals ∧ c.format ∈ LogFormat.all.map LogFormat.name

instance (c : Config) : Decidable c.Valid := inferInstanceAs (Decidable (_ ∧ _))

namespace Service

def respond (s : Service) : Call → Except Failure Unit × Service
  | .configure level format => s.configureValues level format
  | .configureWith c => s.configureWith c
  | .configureFrom level format settings => s.configureFrom level format settings
  | .reset => (.ok (), s.reset)
  | .logger name => s.logger name
  | .logProblem name p context trace time =>
    let (r, s) := s.logProblem name p context trace time
    (r.map fun _ => (), s)
  | .logMeasurement name operation duration details time =>
    let (r, s) := s.logMeasurement name operation duration details time
    (r.map fun _ => (), s)

def after (s : Service) (calls : List Call) : Service := calls.foldl (fun s c => (s.respond c).2) s

/-- All of the service but the names of its loggers. -/
def setup (s : Service) : Bool × Text × Option Config := (s.configured, s.level, s.config)

variable {s s' : Service} {call : Call} {c : Config} {level format name time : Text}

/-- What a call does to the service, for each outcome. -/
inductive Outcome (s : Service) : Call → Except Failure Unit → Service → Prop where
  | kept {call : Call} {r : Except Failure Unit} {s' : Service} (same : s'.setup = s.setup)
    (refused : call.configures = true → ∃ f, r = .error f) : Outcome s call r s'
  | configured {call : Call} {c : Config} {s' : Service} (fresh : s.configured = false)
    (sound : c.Valid ∨ call = .configureWith c) (now : s'.setup = (true, c.level, some c)) :
    Outcome s call (.ok ()) s'
  /-- A whole configuration whose level has no threshold is refused and stays all the same. -/
  | stored {c : Config} {f : Failure} {s' : Service} (fresh : s.configured = false)
    (unknown : threshold? c.level = none) (now : s'.setup = (false, c.level, some c)) :
    Outcome s (.configureWith c) (.error f) s'
  | forgotten : Outcome s .reset (.ok ()) initial

theorem threshold?_ne_none (h : c.Valid) : threshold? c.level ≠ none := by
  have hall : ∀ name ∈ Level.all.map Level.capitals, threshold? name ≠ none := by decide
  exact hall c.level h.1

theorem configureWith_of_configured (h : s.configured = true) :
    s.configureWith c = (.error .alreadyConfigured, s) := by
  rw [configureWith, if_pos h]

theorem configureWith_of_threshold {least : Nat} (h : s.configured = false)
    (hlevel : threshold? c.level = some least) :
    s.configureWith c =
      (.ok (), { s with configured := true, level := c.level, config := some c }) := by
  rw [configureWith, if_neg (by simp [h]), hlevel]

theorem configureWith_of_unknown (h : s.configured = false) (hlevel : threshold? c.level = none) :
    ∃ f, s.configureWith c = (.error f, { s with level := c.level, config := some c }) := by
  rw [configureWith, if_neg (by simp [h]), hlevel]
  dsimp only
  split_ifs
  all_goals exact ⟨_, rfl⟩

theorem outcome_configureWith (s : Service) (c : Config) :
    Outcome s (.configureWith c) (s.configureWith c).1 (s.configureWith c).2 := by
  cases h : s.configured with
  | true =>
    rw [configureWith_of_configured h]
    exact .kept rfl fun _ => ⟨_, rfl⟩
  | false =>
    cases hlevel : threshold? c.level with
    | some least =>
      rw [configureWith_of_threshold h hlevel]
      exact .configured h (.inr rfl) rfl
    | none =>
      obtain ⟨f, hf⟩ := configureWith_of_unknown h hlevel
      rw [hf]
      exact .stored h hlevel (by simp [setup, h])

theorem valid_of_config? (h : config? level format = .ok c) : c.Valid := by
  unfold config? at h
  split at h
  · cases h
  · split at h
    · cases h
    · next l _ _ f _ =>
      cases h
      exact ⟨List.mem_map_of_mem (by cases l <;> decide),
        List.mem_map_of_mem (by cases f <;> decide)⟩

theorem configure_of_config?_error {f : Failure} (h : s.configured = false)
    (hf : config? level format = .error f) : s.configure level format = (.error f, s) := by
  rw [configure, if_neg (by simp [h]), hf]

theorem outcome_configure (s : Service) (call : Call) (level format : Text) :
    Outcome s call (s.configure level format).1 (s.configure level format).2 := by
  cases h : s.configured with
  | true =>
    rw [configure, if_pos h]
    exact .kept rfl fun _ => ⟨_, rfl⟩
  | false =>
    cases hc : config? level format with
    | error f =>
      rw [configure_of_config?_error h hc]
      exact .kept rfl fun _ => ⟨_, rfl⟩
    | ok c =>
      have hvalid := valid_of_config? hc
      obtain ⟨least, hlevel⟩ := Option.ne_none_iff_exists'.1 (threshold?_ne_none hvalid)
      rw [configure, if_neg (by simp [h]), hc]
      dsimp only
      rw [configureWith_of_threshold h hlevel]
      exact .configured h (.inl hvalid) rfl

theorem setup_logger (s : Service) (name : Text) : (s.logger name).2.setup = s.setup := by
  unfold logger
  split_ifs
  all_goals rfl

theorem setup_log (s : Service) (name : Text) (e : Event) (time : Text) :
    (s.log name e time).2.setup = s.setup := by
  rw [← setup_logger s name, log]
  split
  · next h => rw [h]
  · next h => rw [h]

theorem setup_logMeasurement (s : Service) (name operation : Text) (duration : Value)
    (details : Fields) (time : Text) :
    (s.logMeasurement name operation duration details time).2.setup = s.setup := by
  unfold logMeasurement
  split
  · rfl
  · exact setup_log ..

theorem outcome_respond (s : Service) (call : Call) :
    Outcome s call (s.respond call).1 (s.respond call).2 := by
  cases call with
  | configure level format =>
    show Outcome s _ (s.configureValues level format).1 (s.configureValues level format).2
    unfold configureValues
    split
    · exact outcome_configure s _ _ _
    · split_ifs
      all_goals exact .kept rfl fun _ => ⟨_, rfl⟩
    · exact .kept rfl fun _ => ⟨_, rfl⟩
  | configureWith c => exact outcome_configureWith s c
  | configureFrom level format settings =>
    show Outcome s _ (s.configureFrom level format settings).1
      (s.configureFrom level format settings).2
    unfold configureFrom
    split
    · exact outcome_configure s _ _ _
    · split
      · exact .kept rfl fun _ => ⟨_, rfl⟩
      · exact outcome_configure s _ _ _
  | reset => exact .forgotten
  | logger name => exact .kept (setup_logger s name) nofun
  | logProblem name p context trace time => exact .kept (setup_log s name _ time) nofun
  | logMeasurement name operation duration details time =>
    exact .kept (setup_logMeasurement s name operation duration details time) nofun

/-- Configured exactly when there is a configuration, which is then a valid one and the level's. -/
structure Steady (s : Service) : Prop where
  present : s.configured = true ↔ s.config.isSome = true
  sound : ∀ c, s.config = some c → c.Valid ∧ s.level = c.level

theorem initial_steady : Steady initial := ⟨by decide, nofun⟩

theorem Steady.of_setup (h : s'.setup = s.setup) (hs : Steady s) : Steady s' := by
  obtain ⟨hconfigured, hlevel, hconfig⟩ : s'.configured = s.configured ∧ s'.level = s.level ∧
    s'.config = s.config := by simpa [setup] using h
  exact ⟨by rw [hconfigured, hconfig, hs.present], by rw [hlevel, hconfig]; exact hs.sound⟩

theorem Steady.of_now (hc : c.Valid) (h : s'.setup = (true, c.level, some c)) : Steady s' := by
  obtain ⟨hconfigured, hlevel, hconfig⟩ : s'.configured = true ∧ s'.level = c.level ∧
    s'.config = some c := by simpa [setup] using h
  refine ⟨by simp [hconfigured, hconfig], fun c' hc' => ?_⟩
  cases hconfig.symm.trans hc'
  exact ⟨hc, hlevel⟩

namespace Outcome

variable {r : Except Failure Unit} {f : Failure}

theorem steady (h : Outcome s call r s') (hcall : ∀ c, call = .configureWith c → c.Valid)
    (hs : Steady s) : Steady s' := by
  cases h with
  | kept same _ => exact hs.of_setup same
  | configured _ sound now => exact .of_now (sound.elim id (hcall _)) now
  | stored _ unknown _ => exact absurd unknown (threshold?_ne_none (hcall _ rfl))
  | forgotten => exact initial_steady

theorem setup_of_error (h : Outcome s call (.error f) s')
    (hcall : ∀ c, call = .configureWith c → c.Valid) : s'.setup = s.setup := by
  cases h with
  | kept same _ => exact same
  | stored _ unknown _ => exact absurd unknown (threshold?_ne_none (hcall _ rfl))

theorem configured_of_ok (h : Outcome s call (.ok ()) s') (hcall : call.configures = true) :
    s'.configured = true := by
  cases h with
  | kept _ refused => exact nomatch (refused hcall).choose_spec
  | configured _ _ now => exact congrArg Prod.fst now
  | forgotten => cases hcall

/-- Only a reset ends a configuration, and no other takes its place before. -/
theorem kept_of_configured (h : Outcome s call r s') (hs : s.configured = true)
    (hcall : call ≠ .reset) :
    s'.configured = true ∧ (call.configures = true → ∃ f, r = .error f) := by
  cases h with
  | kept same refused => exact ⟨(congrArg Prod.fst same).trans hs, refused⟩
  | configured fresh _ _ => exact nomatch fresh.symm.trans hs
  | stored fresh _ _ => exact nomatch fresh.symm.trans hs
  | forgotten => exact absurd rfl hcall

end Outcome

theorem after_append (s : Service) (front back : List Call) :
    s.after (front ++ back) = (s.after front).after back := List.foldl_append ..

theorem after_cons (s : Service) (call : Call) (calls : List Call) :
    s.after (call :: calls) = (s.respond call).2.after calls := rfl

theorem steady_after {calls : List Call} (hs : Steady s)
    (hcalls : ∀ c, .configureWith c ∈ calls → c.Valid) : Steady (s.after calls) := by
  induction calls generalizing s with
  | nil => exact hs
  | cons call calls ih =>
    have hcall : ∀ c, call = .configureWith c → c.Valid :=
      fun c hc => hcalls c (hc ▸ List.mem_cons_self)
    exact ih ((outcome_respond s call).steady hcall hs)
      fun c hc => hcalls c (List.mem_cons_of_mem _ hc)

theorem configured_after {calls : List Call} (hs : s.configured = true) (hcalls : .reset ∉ calls) :
    (s.after calls).configured = true := by
  induction calls generalizing s with
  | nil => exact hs
  | cons call calls ih =>
    have hcall : call ≠ .reset := fun h => hcalls (h ▸ List.mem_cons_self)
    exact ih ((outcome_respond s call).kept_of_configured hs hcall).1
      fun h => hcalls (List.mem_cons_of_mem _ h)

theorem ofCapitals?_eq_none (h : ∀ l : Level, Text.capitalisesTo l.capitals level = false) :
    Level.ofCapitals? level = none :=
  List.find?_eq_none.2 fun l _ => by simp [h l]

theorem ofText?_eq_none (h : ∀ f : LogFormat, Text.lower format ≠ f.name) :
    LogFormat.ofText? format = none :=
  List.find?_eq_none.2 fun f _ => by simpa using (h f).symm

theorem config?_of_level (h : ∀ l : Level, Text.capitalisesTo l.capitals level = false) :
    config? level format = .error (.invalidLevel level) := by
  rw [config?, ofCapitals?_eq_none h]

theorem config?_of_format (h : ∀ f : LogFormat, Text.lower format ≠ f.name) :
    ∃ f : Failure, config? level format = .error f ∧ f.kind = "ValueError" := by
  rw [config?, ofText?_eq_none h]
  cases Level.ofCapitals? level with
  | none => exact ⟨_, rfl, rfl⟩
  | some l => exact ⟨_, rfl, rfl⟩

theorem configure_refuses (h : s.configured = false)
    (hc : ∃ f : Failure, config? level format = .error f ∧ f.kind = "ValueError") :
    ∃ f, s.configure level format = (.error f, s) ∧ f.kind = "ValueError" := by
  obtain ⟨f, hf, hkind⟩ := hc
  exact ⟨f, configure_of_config?_error h hf, hkind⟩

theorem refused_of_misnames (h : s.configured = false) (hcall : call.Misnames) :
    ∃ f, s.respond call = (.error f, s) ∧ f.kind = "ValueError" := by
  cases hcall with
  | level level unnamed format =>
    have hlevel := ofCapitals?_eq_none unnamed
    cases format with
    | text format => exact configure_refuses h ⟨_, config?_of_level unnamed, rfl⟩
    | _ => exact ⟨.invalidLevel level, by simp [respond, configureValues, h, hlevel], rfl⟩
  | format level format unnamed => exact configure_refuses h (config?_of_format unnamed)
  | levelFrom level unnamed format settings given =>
    show ∃ f, s.configureFrom (some level) format settings = (.error f, s) ∧ _
    cases format with
    | some format => exact configure_refuses h ⟨_, config?_of_level unnamed, rfl⟩
    | none =>
      cases settings with
      | error issues => exact ⟨.settings issues, rfl, rfl⟩
      | ok settings =>
        obtain ⟨c, t, rfl⟩ := List.exists_cons_of_ne_nil (given.resolve_right (by simp))
        exact configure_refuses h ⟨_, config?_of_level unnamed, rfl⟩
  | formatFrom level format unnamed settings given =>
    show ∃ f, s.configureFrom level (some format) settings = (.error f, s) ∧ _
    cases level with
    | some level => exact configure_refuses h (config?_of_format unnamed)
    | none =>
      cases settings with
      | error issues => exact ⟨.settings issues, rfl, rfl⟩
      | ok settings =>
        obtain ⟨c, t, rfl⟩ := List.exists_cons_of_ne_nil (given.resolve_right (by simp))
        exact configure_refuses h (config?_of_format unnamed)

/-- As long as only valid configurations are given as a whole: a call that fails leaves the setup;
a level or a format that names nothing is refused; the service stays steady; and one configuration
is not followed by another before a reset. -/
theorem calls_steady (calls : List Call) (hcalls : ∀ c, .configureWith c ∈ calls → c.Valid) :
    (∀ front call back f, calls = front ++ call :: back →
      ((initial.after front).respond call).1 = .error f →
        ((initial.after front).respond call).2.setup = (initial.after front).setup) ∧
    (∀ front call back, calls = front ++ call :: back → (initial.after front).configured = false →
      call.Misnames →
        ∃ f, (initial.after front).respond call = (.error f, initial.after front) ∧
          f.kind = "ValueError") ∧
    (initial.after calls).Steady ∧
    ∀ front first between second back, calls = front ++ first :: (between ++ second :: back) →
      first.configures = true → second.configures = true →
      ((initial.after front).respond first).1 = .ok () → .reset ∉ between →
        ∃ f, ((initial.after (front ++ first :: between)).respond second).1 = .error f := by
  refine ⟨?_, ?_, steady_after initial_steady hcalls, ?_⟩
  · rintro front call back f rfl hf
    have hcall : ∀ c, call = .configureWith c → c.Valid := fun c hc => hcalls c (by simp [hc])
    have houtcome := outcome_respond (initial.after front) call
    rw [hf] at houtcome
    exact houtcome.setup_of_error hcall
  · rintro front call back rfl hfresh hnames
    exact refused_of_misnames hfresh hnames
  · rintro front first between second back - hfirst hsecond hok hreset
    have houtcome := outcome_respond (initial.after front) first
    rw [hok] at houtcome
    -- only a reset makes the service forget that it was configured
    have hconfigured := configured_after (houtcome.configured_of_ok hfirst) hreset
    rw [after_append, after_cons]
    have hcall : second ≠ .reset := by
      rintro rfl
      cases hsecond
    exact ((outcome_respond _ second).kept_of_configured hconfigured hcall).2 hsecond

def session : List Call :=
  [.configureWith ⟨"INFO", "json"⟩, .configure (.text "debug") (.text "console"), .reset,
    .configure (.text "LOUD") (.text "json"), .configure (.text "debug") (.text "console")]

theorem session_steady :
    (∀ c, .configureWith c ∈ session → c.Valid) ∧
    (∃ f, ((initial.after [.configureWith ⟨"INFO", "json"⟩]).respond
      (.configure (.text "debug") (.text "console"))).1 = .error f) ∧
    (∃ f, (initial.after (session.take 3)).respond (.configure (.text "LOUD") (.text "json")) =
      (.error f, initial.after (session.take 3)) ∧ f.kind = "ValueError") ∧
    (initial.after session).Steady ∧
    initial.after session = ⟨true, "DEBUG", some ⟨"DEBUG", "console"⟩, []⟩ := by
  have hvalid : ∀ c, .configureWith c ∈ session → c.Valid := by
    intro c hc
    obtain rfl : c = ⟨"INFO", "json"⟩ := by simpa [session] using hc
    decide
  obtain ⟨-, hrefused, hsteady, hsecond⟩ := calls_steady session hvalid
  refine ⟨hvalid, ?_, ?_, hsteady, by decide +kernel⟩
  · exact hsecond [] _ [] _ _ rfl rfl rfl rfl List.not_mem_nil
  · exact hrefused (session.take 3) _ _ rfl rfl (.level _ (by intro l; cases l <;> decide) _)

/-- Given as a whole, a level that names nothing is stored before it is refused, and not with the
kind of failure that other calls have for it; a format that names nothing is taken. -/
theorem whole_configuration_unchecked :
    let loud : Config := ⟨"LOUD", "json"⟩
    initial.respond (.configureWith loud) =
      (.error .unknownLevel, { initial with level := "LOUD", config := some loud }) ∧
    Failure.unknownLevel.kind ≠ "ValueError" ∧
    ((initial.after []).respond (.configureWith loud)).2.setup ≠ (initial.after []).setup ∧
    ¬ (initial.after [.configureWith loud]).Steady ∧
    initial.respond (.configureWith ⟨"INFO", "xml"⟩) =
      (.ok (), { initial with configured := true, config := some ⟨"INFO", "xml"⟩ }) := by
  intro loud
  have hloud : initial.respond (.configureWith loud) =
      (.error .unknownLevel, { initial with level := "LOUD", config := some loud }) := rfl
  have hafter : initial.after [.configureWith loud] =
      { initial with level := "LOUD", config := some loud } := congrArg Prod.snd hloud
  refine ⟨hloud, by decide, ?_, fun h => ?_, rfl⟩
  · show (initial.respond (.configureWith loud)).2.setup ≠ initial.setup
    rw [hloud]
    decide
  · rw [hafter] at h
    exact absurd (h.present.2 rfl) (by decide)

end Service

end Literate.Log

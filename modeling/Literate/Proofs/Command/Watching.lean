import Literate.Proofs.Command.Turns
import Literate.Proofs.Settings.History
import Literate.Proofs.Watch.Policy

namespace Literate.Command

open Watcher

variable {σ : Type} [Host (OptionT (StateM σ))] {lib : Libraries} {settings : Settings}
  {options : OutputOptions} {w : Watcher} {s s₁ s' : σ} {st st' : Stage} {source : Path}
  {todo : List Path} {polls : Option Nat} {k bound : Nat}

/-- An act leads from one state of the machine to another. -/
def Performs (lib : Libraries) (settings : Settings) (options : OutputOptions) (w : Watcher)
    (s : σ) (a : Act) (s' : σ) : Prop :=
  match a with
  | .process source given =>
    outcome s (Processing.file lib settings options source).run = (given, s')
  | .log r context given => outcome s (logReport r context) = (given, s')
  | .record e given => outcome s (Host.record e) = (given, s')
  | .look given => outcome s w.changed.run = (given, s')
  | .wait given => outcome s (Host.pause w.interval) = (given, s')

/-- A stage of the watch and a state of the machine are reached from others by the same acts. -/
def Reaches (lib : Libraries) (settings : Settings) (options : OutputOptions) (w : Watcher)
    (c c' : Stage × σ) : Prop :=
  ∃ acts, Course w c.1 acts c'.1 ∧ Steps (Performs lib settings options w) c.2 acts c'.2

namespace Reaches

variable {c c₁ c₂ : Stage × σ}

theorem refl : Reaches lib settings options w c c := ⟨[], .nil, .nil⟩

theorem single {a : Act} (hnext : Next w st a st') (ha : Performs lib settings options w s a s') :
    Reaches lib settings options w (st, s) (st', s') :=
  ⟨[a], .single hnext, .single ha⟩

theorem trans (h : Reaches lib settings options w c c₁)
    (h' : Reaches lib settings options w c₁ c₂) :
    Reaches lib settings options w c c₂ := by
  obtain ⟨front, hcourse, hsteps⟩ := h
  obtain ⟨back, hcourse', hsteps'⟩ := h'
  exact ⟨front ++ back, hcourse.append hcourse', hsteps.append hsteps'⟩

end Reaches

theorem exists_halt (polls : Option Nat) : ∃ st, Halt polls st := by
  cases polls with
  | none => exact ⟨_, .first⟩
  | some k => exact ⟨_, .loop k⟩

/-- Where a watch is when documents have been processed, by how that ended. -/
inductive Visited {α : Type} (polls : Option Nat) (todo : List Path) :
    Option (Except Stop α) → Stage → Prop where
  | on (a : α) : Visited polls todo (some (.ok a)) (.visiting polls todo)
  | cut {st : Stage} (halt : Halt polls st) : Visited polls todo none st
  | unreported {f : Fault} (none : f.report? = none) :
    Visited polls todo (some (.error (.failed f))) (.ended (some (.error f)))
  | unavailable {f : Fault} {r : Report} (reported : f.report? = some r) :
    Visited polls todo (some (.error (.failed f))) (.stopped r)

/-- A document whose turn it is, is processed, and a failure is logged or stops the watch. -/
theorem reaches_regenerate (polls : Option Nat) (todo : List Path)
    {given : Option (Except Stop Unit)}
    (hcall : ∀ given st', Answer polls source todo given st' →
      Next w st (.process source given) st')
    (h : outcome s (regenerate lib settings options source).run = (given, s')) :
    ∃ st', Visited polls todo given st' ∧ Reaches lib settings options w (st, s) (st', s') := by
  unfold regenerate at h
  -- the file is one action of the course; its answer decides whether a log follows
  rcases hfile : outcome s (Processing.file lib settings options source).run with
    ⟨_ | f | written, s₁⟩
  · rw [outcome_lift_bind_none hfile] at h
    cases h
    obtain ⟨st', halt⟩ := exists_halt polls
    exact ⟨st', .cut halt, .single (hcall _ _ (.cut halt)) hfile⟩
  · rw [outcome_lift_bind_some hfile] at h
    dsimp only at h
    cases hr : f.report? with
    | none =>
      rw [hr] at h
      cases h
      exact ⟨_, .unreported hr, .single (hcall _ _ (.unreported hr)) hfile⟩
    | some r =>
      rw [hr] at h
      dsimp only at h
      by_cases hk : r.kind = .sourceUnavailable
      · rw [if_pos hk] at h
        cases h
        exact ⟨_, .unavailable hr, .single (hcall _ _ (.unavailable hr hk)) hfile⟩
      · rw [if_neg hk, outcome_lift] at h
        have hcalled : Reaches lib settings options w (st, s) (.failed polls source r todo, s₁) :=
          .single (hcall _ _ (.reported hr hk)) hfile
        rcases hlog : outcome s₁ (logReport r [("file_path", .text source.toText)]) with
          ⟨_ | _, s₂⟩
        · rw [hlog] at h
          cases h
          obtain ⟨st', halt⟩ := exists_halt polls
          exact ⟨st', .cut halt, hcalled.trans (.single (.logCut _ _ _ halt) hlog)⟩
        · rw [hlog] at h
          cases h
          exact ⟨_, .on _, hcalled.trans (.single (.log ..) hlog)⟩
  · rw [outcome_lift_bind_some hfile] at h
    cases h
    exact ⟨_, .on _, .single (hcall _ _ (.written written)) hfile⟩

omit [Host (OptionT (StateM σ))] in
theorem Visited.on_or_same {α β : Type} {x : ExceptT Stop (OptionT (StateM σ)) α}
    {f : α → ExceptT Stop (OptionT (StateM σ)) β} {given : Option (Except Stop α)}
    {given' : Option (Except Stop β)} (hvisited : Visited polls todo given st)
    (hx : outcome s x.run = (given, s₁)) (h : outcome s (x >>= f).run = (given', s')) :
    st = .visiting polls todo ∧ (∃ a, outcome s₁ (f a).run = (given', s')) ∨
      Visited polls [] given' st ∧ s' = s₁ := by
  cases hvisited with
  | on a =>
    rw [outcome_bind_ok hx] at h
    exact .inl ⟨rfl, a, h⟩
  | cut halt =>
    rw [outcome_bind_none hx] at h
    cases h
    exact .inr ⟨.cut halt, rfl⟩
  | unreported hr =>
    rw [outcome_bind_error hx] at h
    cases h
    exact .inr ⟨.unreported hr, rfl⟩
  | unavailable hr =>
    rw [outcome_bind_error hx] at h
    cases h
    exact .inr ⟨.unavailable hr, rfl⟩

theorem reaches_firstPass {given : Option (Except Stop Unit)}
    (h : outcome s (firstPass (regenerate lib settings options) todo).run = (given, s')) :
    ∃ st', Visited none [] given st' ∧
      Reaches lib settings options w (.visiting none todo, s) (st', s') := by
  induction todo generalizing s with
  | nil =>
    cases h
    exact ⟨_, .on _, .refl⟩
  | cons source todo ih =>
    rw [firstPass] at h
    rcases hone : outcome s (regenerate lib settings options source).run with ⟨given₁, s₁⟩
    obtain ⟨st₁, hvisited, hreach⟩ :=
      reaches_regenerate (w := w) none todo (fun _ _ => .visit) hone
    obtain ⟨rfl, -, h⟩ | ⟨hvisited, rfl⟩ := hvisited.on_or_same hone h
    · obtain ⟨st', hvisited, hrest⟩ := ih h
      exact ⟨st', hvisited, hreach.trans hrest⟩
    · exact ⟨st₁, hvisited, hreach⟩

theorem reaches_notify {given : Option (Except Stop Unit)}
    (h : outcome s (notify (regenerate lib settings options) todo).run = (given, s')) :
    ∃ st', Visited (some k) [] given st' ∧
      Reaches lib settings options w (.visiting (some k) todo, s) (st', s') := by
  induction todo generalizing s with
  | nil =>
    cases h
    exact ⟨_, .on _, .refl⟩
  | cons source todo ih =>
    rw [notify] at h
    rcases hrecord : outcome s (Observer.record (changedEvent source)) with ⟨_ | _, s₀⟩
    · rw [outcome_lift_bind_none hrecord] at h
      cases h
      exact ⟨_, .cut (.loop k), .single (.announceCut k source todo) hrecord⟩
    have hannounced : Reaches lib settings options w (.visiting (some k) (source :: todo), s)
        (.announced k source todo, s₀) := .single (.announce k source todo) hrecord
    rw [outcome_lift_bind_some hrecord] at h
    rcases hone : outcome s₀ (regenerate lib settings options source).run with ⟨given₁, s₁⟩
    obtain ⟨st₁, hvisited, hreach⟩ :=
      reaches_regenerate (w := w) (some k) todo (fun _ _ => .call) hone
    -- only a source that was visited to the end lets the next one be announced
    obtain ⟨rfl, -, h⟩ | ⟨hvisited, rfl⟩ := hvisited.on_or_same hone h
    · obtain ⟨st', hvisited, hrest⟩ := ih h
      exact ⟨st', hvisited, hannounced.trans (hreach.trans hrest)⟩
    · exact ⟨st₁, hvisited, hannounced.trans hreach⟩

theorem reaches_poll {given : Option (Except Stop (List Path))}
    (h : outcome s (w.poll (regenerate lib settings options)).run = (given, s')) :
    ∃ st', Visited (some k) [] given st' ∧
      Reaches lib settings options w (.between k, s) (st', s') := by
  unfold poll at h
  rcases hlook : outcome s w.changed.run with ⟨look, s₁⟩
  have hadapt := outcome_adapt Stop.failed s w.changed
  rw [hlook] at hadapt
  -- a look that finds all leaves the course at the first of the sources that changed
  match look, looked_changed w hlook with
  | none, _ =>
    rw [outcome_bind_none hadapt] at h
    cases h
    exact ⟨_, .cut (.loop k), .single (.lookCut k) hlook⟩
  | some (.error f), hr =>
    rw [outcome_bind_error hadapt] at h
    cases h
    exact ⟨_, .unreported hr, .single (.miss k hr) hlook⟩
  | some (.ok found), hsub =>
    rw [outcome_bind_ok hadapt] at h
    have hfound : Reaches lib settings options w (.between k, s) (.visiting (some k) found, s₁) :=
      .single (.find k hsub) hlook
    rcases hnotify : outcome s₁ (notify (regenerate lib settings options) found).run
      with ⟨given₁, s₂⟩
    obtain ⟨st', hvisited, hreach⟩ := reaches_notify (w := w) (k := k) hnotify
    obtain ⟨rfl, -, h⟩ | ⟨hvisited, rfl⟩ := hvisited.on_or_same hnotify h
    · cases h
      exact ⟨_, .on found, hfound.trans hreach⟩
    · exact ⟨st', hvisited, hfound.trans hreach⟩

/-- Where a watch is when its rounds have come to an end, or else after `next` polls. -/
inductive Gone (next : Nat) : Option (Except Fault Progress) → Stage → Prop where
  | going : Gone next (some (.ok (.going next))) (.between next)
  | finished (polls : Nat) : Gone next (some (.ok (.finished polls))) (.ended (some (.ok 0)))
  | cut : Gone next none (.ended none)
  | unreported {f : Fault} (none : f.report? = none) :
    Gone next (some (.error f)) (.ended (some (.error f)))
  | unavailable {f : Fault} {r : Report} (reported : f.report? = some r) :
    Gone next (some (.error f)) (.stopped r)

theorem reaches_breakOff {given : Option (Except Fault Progress)} {next : Nat}
    (h : outcome s (breakOff k : ExceptT Fault (OptionT (StateM σ)) Progress).run = (given, s')) :
    ∃ st', Gone next given st' ∧ Reaches lib settings options w (.interrupted k, s) (st', s') := by
  unfold breakOff at h
  rcases hrecord : outcome s (Observer.record (interruptedEvent k)) with ⟨_ | _, s₁⟩
  · rw [outcome_lift_bind_none hrecord] at h
    cases h
    exact ⟨_, .cut, .single (.breakOff k none) hrecord⟩
  · rw [outcome_lift_bind_some hrecord] at h
    cases h
    exact ⟨_, .finished k, .single (.breakOff k (some ())) hrecord⟩

theorem reaches_round {given : Option (Except Fault Progress)}
    (h : outcome s (w.round (regenerate lib settings options) none k).run = (given, s')) :
    ∃ st', Gone (k + 1) given st' ∧ Reaches lib settings options w (.between k, s) (st', s') := by
  unfold Watcher.round at h
  rw [if_neg (by simp [wants])] at h
  rcases hpoll : outcome s (w.poll (regenerate lib settings options)).run with ⟨polled, s₁⟩
  have hattempt := outcome_attempt s (w.poll (regenerate lib settings options)).run
  rw [hpoll] at hattempt
  rw [outcome_lift_bind_some hattempt] at h
  obtain ⟨st₁, hvisited, hreach⟩ := reaches_poll (k := k) hpoll
  cases hvisited with
  | on found =>
    dsimp only at h
    rw [if_pos (by rfl)] at h
    rcases hpause : outcome s₁ (Observer.pause w.interval) with ⟨paused, s₂⟩
    have hattempt := outcome_attempt s₁ (Observer.pause w.interval)
    rw [hpause] at hattempt
    rw [outcome_lift_bind_some hattempt] at h
    -- the pause is whole or cut short, and both ways to cut it short break the loop off
    by_cases hpaused : paused = some true
    · subst hpaused
      cases h
      exact ⟨_, .going, hreach.trans (.single (.wait k) hpause)⟩
    · have hbreak : outcome s₂
          (breakOff (k + 1) : ExceptT Fault (OptionT (StateM σ)) Progress).run = (given, s') := by
        match paused, hpaused, h with
        | none, _, h => exact h
        | some false, _, h => exact h
      obtain ⟨st', hgone, hbroken⟩ := reaches_breakOff hbreak
      exact ⟨st', hgone, hreach.trans (.trans (.single (.waitCut k hpaused) hpause) hbroken)⟩
  | cut halt =>
    cases halt
    obtain ⟨st', hgone, hbroken⟩ := reaches_breakOff h
    exact ⟨st', hgone, hreach.trans hbroken⟩
  | unreported hr =>
    cases h
    exact ⟨_, .unreported hr, hreach⟩
  | unavailable hr =>
    cases h
    exact ⟨_, .unavailable hr, hreach⟩

theorem reaches_rounds {given : Option (Except Fault Progress)}
    (h : outcome s (repeatUpTo bound (w.round (regenerate lib settings options) none) k).run =
      (given, s')) :
    ∃ st', Gone (k + bound) given st' ∧
      Reaches lib settings options w (.between k, s) (st', s') := by
  -- only a round that goes on lets another begin, after one poll more
  induction bound generalizing s k with
  | zero =>
    cases h
    exact ⟨_, .going, .refl⟩
  | succ bound ih =>
    rw [repeatUpTo] at h
    rcases hround : outcome s (w.round (regenerate lib settings options) none k).run with ⟨one, s₁⟩
    obtain ⟨st₁, hgone, hreach⟩ := reaches_round hround
    cases hgone with
    | going =>
      rw [outcome_bind_ok hround] at h
      obtain ⟨st', hgone, hrest⟩ := ih h
      rw [show k + (bound + 1) = k + 1 + bound by omega]
      exact ⟨st', hgone, hreach.trans hrest⟩
    | finished polls =>
      rw [outcome_bind_ok hround] at h
      cases h
      exact ⟨_, .finished polls, hreach⟩
    | cut =>
      rw [outcome_bind_none hround] at h
      cases h
      exact ⟨_, .cut, hreach⟩
    | unreported hr =>
      rw [outcome_bind_error hround] at h
      cases h
      exact ⟨_, .unreported hr, hreach⟩
    | unavailable hr =>
      rw [outcome_bind_error hround] at h
      cases h
      exact ⟨_, .unavailable hr, hreach⟩

theorem reaches_runBy {given : Option (Except Fault Progress)}
    (h : outcome s (w.runBy (repeatUpTo bound) (regenerate lib settings options) none).run =
      (given, s')) :
    ∃ st', Gone bound given st' ∧
      Reaches lib settings options w (.visiting none [], s) (st', s') := by
  unfold runBy at h
  rcases hstart : outcome s (Observer.record w.startedEvent) with ⟨_ | _, s₁⟩
  · rw [outcome_lift_bind_none hstart] at h
    cases h
    exact ⟨_, .cut, .single .startCut hstart⟩
  · rw [outcome_lift_bind_some hstart] at h
    obtain ⟨st', hgone, hreach⟩ := reaches_rounds h
    rw [Nat.zero_add] at hgone
    exact ⟨st', hgone, .trans (.single .start hstart) hreach⟩

theorem reaches_watchSession {given : Option (Except Fault Unit)}
    (h : outcome s (watchSession w (regenerate lib settings options) (repeatUpTo bound)).run =
      (given, s')) :
    ∃ gone st', given = gone.map (Except.map fun _ => ()) ∧ Gone bound gone st' ∧
      Reaches lib settings options w (.visiting none w.paths, s) (st', s') := by
  unfold watchSession at h
  rcases hfirst : outcome s (firstPass (regenerate lib settings options) w.paths).run
    with ⟨first, s₁⟩
  obtain ⟨st₁, hvisited, hreach⟩ := reaches_firstPass (w := w) hfirst
  cases hvisited with
  | on =>
    rw [outcome_lift_bind_some hfirst] at h
    dsimp only at h
    rcases hrun : outcome s₁ (w.runBy (repeatUpTo bound) (regenerate lib settings options) none).run
      with ⟨gone, s₂⟩
    obtain ⟨st', hgone, hrest⟩ := reaches_runBy hrun
    rw [outcome_bind, hrun] at h
    have hend : given = gone.map (Except.map fun _ => ()) ∧ s' = s₂ := by
      rcases gone with _ | _ | _ <;> cases h <;> exact ⟨rfl, rfl⟩
    obtain ⟨rfl, rfl⟩ := hend
    exact ⟨gone, st', rfl, hgone, hreach.trans hrest⟩
  | cut halt =>
    cases halt
    rw [outcome_lift_bind_none hfirst] at h
    cases h
    exact ⟨none, _, rfl, .cut, hreach⟩
  | @unreported f hr =>
    rw [outcome_lift_bind_some hfirst] at h
    cases h
    exact ⟨some (.error f), _, rfl, .unreported hr, hreach⟩
  | @unavailable f r hr =>
    rw [outcome_lift_bind_some hfirst] at h
    cases h
    exact ⟨some (.error f), _, rfl, .unavailable hr, hreach⟩

theorem make_eq_ok {sources : List Path} {interval window : Number}
    (h : Watcher.make sources interval window = .ok w) : w = ⟨sources, interval, window⟩ := by
  unfold Watcher.make at h
  split at h
  · cases h
  · split at h
    · cases h
    · cases h
      rfl

theorem reaches_watch {sources : List Path} {result : Option (Except Fault Nat)}
    (hmake : Watcher.make sources (.float settings.watchInterval) (.float settings.recencyWindow) =
      .ok w)
    (h : outcome s (watch lib settings options sources (repeatUpTo bound)).run = (result, s')) :
    ∃ st', st'.Final bound result ∧
      Reaches lib settings options w (.visiting none sources, s) (st', s') := by
  have hpaths : w.paths = sources := by rw [make_eq_ok hmake]
  unfold watch at h
  rw [hmake, outcome_bind_ok (outcome_mk_pure s _)] at h
  rcases hsession : outcome s
    (watchSession w (regenerate lib settings options) (repeatUpTo bound)).run with ⟨given, s₁⟩
  obtain ⟨gone, st₁, rfl, hgone, hreach⟩ := reaches_watchSession hsession
  rw [hpaths] at hreach
  cases hgone with
  | going =>
    rw [outcome_lift_bind_some hsession] at h
    cases h
    exact ⟨_, .inr ⟨rfl, rfl⟩, hreach⟩
  | finished =>
    rw [outcome_lift_bind_some hsession] at h
    cases h
    exact ⟨_, .inl rfl, hreach⟩
  | cut =>
    rw [outcome_lift_bind_none hsession] at h
    cases h
    exact ⟨_, .inl rfl, hreach⟩
  | unreported hr =>
    rw [outcome_lift_bind_some hsession] at h
    dsimp only [Except.map] at h
    rw [hr] at h
    cases h
    exact ⟨_, .inl rfl, hreach⟩
  | @unavailable f r hr =>
    rw [outcome_lift_bind_some hsession] at h
    dsimp only [Except.map] at h
    rw [hr] at h
    dsimp only at h
    -- the report of a source that cannot be read is logged last
    rcases hlog : outcome s₁ (logReport r []) with ⟨_ | _, s₂⟩
    · rw [outcome_lift_bind_none hlog] at h
      cases h
      exact ⟨_, .inl rfl, hreach.trans (.single (.stop r none) hlog)⟩
    · rw [outcome_lift_bind_some hlog] at h
      cases h
      exact ⟨_, .inl rfl, hreach.trans (.single (.stop r (some ())) hlog)⟩

structure Timed (settings : Settings) : Prop where
  interval : (Number.float settings.watchInterval).isNotAboveZero = false
  window : (Number.float settings.recencyWindow).isNotAboveZero = false

theorem timed_of_allowed (h : settings.Allowed) : Timed settings where
  interval := by
    have hinterval : Setting.Allows .watchInterval (.float settings.watchInterval) :=
      h .watchInterval
    cases hinterval with
    | watchInterval _ positive => exact decide_eq_false positive
  window := by
    have hwindow : Setting.Allows .recencyWindow (.float settings.recencyWindow) :=
      h .recencyWindow
    cases hwindow with
    | recencyWindow _ positive => exact decide_eq_false positive

theorem timed_of_load {file : Except Fault (Option Text)} {environment : List (Text × Text)}
    (h : (file.bind fun text => (Settings.load [] environment text).mapError Fault.invalid) =
      .ok settings) : Timed settings := by
  cases file with
  | error f => cases h
  | ok text =>
    cases hload : Settings.load [] environment text with
    | error issues =>
      dsimp only [Except.bind] at h
      rw [hload] at h
      cases h
    | ok loaded =>
      dsimp only [Except.bind] at h
      rw [hload] at h
      cases h
      exact timed_of_allowed (Settings.allowed_of_load hload)

theorem timed_of_prepare {arguments : List Text} {environment : List (Text × Text)}
    {file : Except Fault (Option Text)} {service service' : Log.Service} {plan : Plan}
    (h : prepare arguments environment file service = .ok (plan, service')) :
    Timed plan.settings := by
  unfold prepare at h
  split at h
  · cases h
  · split at h
    · cases h
    · next settings hload =>
      have htimed := timed_of_load hload
      split at h
      · cases h
        exact htimed
      · split at h
        · cases h
          exact htimed
        · cases h

def Plan.watcher (plan : Plan) : Watcher :=
  ⟨plan.arguments.files.map Path.ofText, .float plan.settings.watchInterval,
    .float plan.settings.recencyWindow⟩

theorem make_watcher {plan : Plan} (h : Timed plan.settings) :
    Watcher.make (plan.arguments.files.map Path.ofText) (.float plan.settings.watchInterval)
      (.float plan.settings.recencyWindow) = .ok plan.watcher := by
  rw [Watcher.make, h.interval, if_neg (by decide), h.window, if_neg (by decide)]
  rfl

/-- Nothing keeps a plan from being carried out: the folders for the outputs and all the sources are
there, as a machine sees it that is then in the state `s`. -/
def Admitted (plan : Plan) (s₀ : σ) (options : OutputOptions) (s : σ) : Prop :=
  ∃ cwd s₁ s₂, outcome s₀ Host.workingFolder = (some cwd, s₁) ∧
    options = outputOptions plan.arguments ⟨1, cwd⟩ ∧
    outcome s₁ (OutputOptions.validate options).run = (some (.ok ()), s₂) ∧
    outcome s₂ (missing (plan.arguments.files.map Path.ofText)).run = (some (.ok []), s)

theorem outcome_execute {plan : Plan} {s₀ : σ} (hwatch : plan.arguments.watch = true)
    (hadmitted : Admitted plan s₀ options s) (repetition : Repetition (OptionT (StateM σ))) :
    outcome s₀ (execute lib plan repetition).run =
      outcome s (watch lib plan.settings options (plan.arguments.files.map Path.ofText)
        repetition).run := by
  obtain ⟨cwd, s₁, s₂, hcwd, rfl, hvalid, hmissing⟩ := hadmitted
  unfold execute
  rw [outcome_lift_bind_some hcwd]
  dsimp only
  rw [outcome_lift_bind_some hvalid]
  dsimp only
  rw [outcome_bind_ok hmissing, if_neg (by decide), if_pos hwatch]

/-- A watch that the program is called for keeps to its policy, whatever happens on the machine: all
documents are processed in order, and then those that the polls find; what is reported of them is
logged, and only a source that cannot be read stops the watch, with status one; an interruption of
the loop ends it with status zero. -/
theorem watch_keeps_policy (lib : Libraries) {arguments : List Text}
    {environment : List (Text × Text)} {file : Except Fault (Option Text)}
    {service service' : Log.Service} {plan : Plan} {s₀ : σ}
    (hplan : prepare arguments environment file service = .ok (plan, service'))
    (hwatch : plan.arguments.watch = true) (hadmitted : Admitted plan s₀ options s)
    (bound : Nat) :
    let ended := outcome s₀ (execute lib plan (repeatUpTo bound)).run
    ∃ acts, Steps (Performs lib plan.settings options plan.watcher) s acts ended.2 ∧
      Policy plan.watcher bound acts ended.1 := by
  intro ended
  have hended : outcome s (watch lib plan.settings options (plan.arguments.files.map Path.ofText)
      (repeatUpTo bound)).run = (ended.1, ended.2) :=
    (outcome_execute hwatch hadmitted _).symm
  obtain ⟨st, hfinal, acts, hcourse, hsteps⟩ :=
    reaches_watch (make_watcher (timed_of_prepare hplan)) hended
  exact ⟨acts, hsteps, hcourse.policy hfinal⟩

def watchArguments : List Text := ["--watch", "--markdown", "a/x.lit", "blank.lit", "b/x.lit"]

def watchPlan : Plan where
  arguments := { files := ["a/x.lit", "blank.lit", "b/x.lit"], markdown := true, watch := true }
  settings := {}

def watchOptions : OutputOptions := outputOptions watchPlan.arguments ⟨1, mixedShelf.cwd⟩

/-- It goes on to a poll in spite of the failure, until the pause after the poll is interrupted. -/
theorem watch_keeps_policy_shelf :
    (∃ service, prepare watchArguments [] (.ok none) .initial = .ok (watchPlan, service)) ∧
    watchPlan.arguments.watch = true ∧
    Admitted watchPlan mixedShelf watchOptions mixedShelf ∧
    (outcome mixedShelf (execute .bare watchPlan (repeatUpTo 2)).run).1.map Except.toOption =
      some (some 0) ∧
    ∃ acts, Steps (Performs .bare watchPlan.settings watchOptions watchPlan.watcher) mixedShelf acts
        (outcome mixedShelf (execute .bare watchPlan (repeatUpTo 2)).run).2 ∧
      Policy watchPlan.watcher 2 acts
        (outcome mixedShelf (execute .bare watchPlan (repeatUpTo 2)).run).1 := by
  have hplan : ∃ service,
      prepare watchArguments [] (.ok none) .initial = .ok (watchPlan, service) := ⟨_, rfl⟩
  have hadmitted : Admitted watchPlan mixedShelf watchOptions mixedShelf :=
    ⟨mixedShelf.cwd, mixedShelf, mixedShelf, rfl, rfl, rfl, rfl⟩
  refine ⟨hplan, rfl, hadmitted, by decide +kernel, ?_⟩
  obtain ⟨service, hprepare⟩ := hplan
  exact watch_keeps_policy .bare hprepare rfl hadmitted 2

end Literate.Command

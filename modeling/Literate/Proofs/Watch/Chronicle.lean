import Literate.Proofs.Host.Workspace
import Literate.Watch.Loop
import Mathlib.Algebra.Order.Field.Rat
import Mathlib.Tactic.Ring
import Mathlib.Tactic.SplitIfs

namespace Literate

structure Chronicle where
  /-- What is found of a file at each time; at one time it is looked at by one poll. -/
  modified : ℚ → Path → Except PathFault ℚ
  /-- Whether a pause that begins at a time comes to its end. -/
  goesOn : ℚ → Bool
  clock : ℚ
  readings : List ℚ
  calls : List (ℚ × Path)

instance : Coe ℚ Value := ⟨fun t => .text (toString t).toList⟩

namespace Chronicle

def read (c : Chronicle) : Chronicle := { c with readings := c.readings ++ [c.clock] }

def called (c : Chronicle) (paths : List Path) : Chronicle :=
  { c with calls := c.calls ++ paths.map fun p => (c.clock, p) }

def waited (c : Chronicle) (seconds : ℚ) : Chronicle := { c with clock := c.clock + seconds }

instance : Observer ℚ (StateM Chronicle) where
  modified p := fun c => (c.modified c.clock p, c)
  now := fun c => (c.clock, c.read)
  pause seconds := fun c => (c.goesOn c.clock, c.waited seconds)
  record _ := fun c => ((), c)

@[simp] theorem run_modified (c : Chronicle) (p : Path) :
    (Observer.modified p : StateM Chronicle _).run c = (c.modified c.clock p, c) := rfl

@[simp] theorem run_now (c : Chronicle) :
    (Observer.now : StateM Chronicle ℚ).run c =
      (c.clock, c.read) := rfl

@[simp] theorem run_pause (c : Chronicle) (seconds : ℚ) :
    (Observer.pause seconds : StateM Chronicle Bool).run c =
      (c.goesOn c.clock, c.waited seconds) := rfl

@[simp] theorem run_record (c : Chronicle) (e : Event) :
    (Observer.record e : StateM Chronicle Unit).run c = ((), c) := rfl

@[simp] theorem run_attempt {α : Type} (c : Chronicle) (m : StateM Chronicle α) :
    (Interruptible.attempt m).run c = (some (m.run c).1, (m.run c).2) := rfl

/-- A callback that takes no time; how it ends may depend on everything that went before. -/
def noting (answer : Chronicle → Path → Except Stop Unit) : Watcher.Callback (StateM Chronicle) :=
  fun p => ExceptT.mk fun c => (answer c p, c.called [p])

section tell

variable {ε α β : Type}

/-- How a computation ends, and the chronicle with what it did. -/
def tell (c : Chronicle) (x : ExceptT ε (StateM Chronicle) α) : Except ε α × Chronicle :=
  (x.run.run c).run

@[simp] theorem tell_pure (c : Chronicle) (a : α) :
    c.tell (pure a : ExceptT ε (StateM Chronicle) α) = (.ok a, c) := rfl

@[simp] theorem tell_throw (c : Chronicle) (e : ε) :
    c.tell (throw e : ExceptT ε (StateM Chronicle) α) = (.error e, c) := rfl

@[simp] theorem tell_lift (c : Chronicle) (m : StateM Chronicle α) :
    c.tell (ExceptT.lift m : ExceptT ε (StateM Chronicle) α) =
      (.ok (m.run c).1, (m.run c).2) := rfl

variable {c c' : Chronicle} {x : ExceptT ε (StateM Chronicle) α}
  {f : α → ExceptT ε (StateM Chronicle) β}

theorem tell_bind_ok {a : α} (h : c.tell x = (.ok a, c')) : c.tell (x >>= f) = c'.tell (f a) :=
  run_bind_ok h

theorem tell_bind_error {e : ε} (h : c.tell x = (.error e, c')) :
    c.tell (x >>= f) = (.error e, c') :=
  run_bind_error h

@[simp] theorem tell_lift_bind (c : Chronicle) (m : StateM Chronicle α)
    (f : α → ExceptT ε (StateM Chronicle) β) :
    c.tell (ExceptT.lift m >>= f) = (m.run c).2.tell (f (m.run c).1) :=
  tell_bind_ok (tell_lift c m)

end tell

variable {w : Watcher ℚ} {c c' : Chronicle} {k : Nat}

/-- Whether a file is there and its last change is recent at the time of the clock. -/
def due (c : Chronicle) (w : Watcher ℚ) (p : Path) : Bool :=
  match c.modified c.clock p with
  | .ok m => isRecent c.clock m w.window
  | .error _ => false

/-- Something other than its absence keeps a file from being examined. -/
def blocked (c : Chronicle) (p : Path) : Prop :=
  ∃ f, c.modified c.clock p = .error f ∧ f.problem ≠ .notFound

theorem changedSince_tell (c : Chronicle) (w : Watcher ℚ) (paths : List Path) :
    c.tell (w.changedSince c.clock paths) = (.ok (paths.filter (c.due w)), c) ∨
    (∃ f, c.tell (w.changedSince c.clock paths) = (.error f, c)) ∧ ∃ p ∈ paths, c.blocked p := by
  induction paths with
  | nil => exact .inl rfl
  | cons p ps ih =>
    unfold Watcher.changedSince
    rw [tell_lift_bind, run_modified]
    dsimp only
    cases hm : c.modified c.clock p with
    | ok m =>
      rcases ih with h | ⟨⟨f, h⟩, q, hq, hblocked⟩
      · refine .inl ?_
        dsimp only
        rw [tell_bind_ok h, tell_pure, List.filter_cons, due, hm]
      · exact .inr ⟨⟨f, tell_bind_error h⟩, q, List.mem_cons_of_mem _ hq, hblocked⟩
    | error f =>
      dsimp only
      split_ifs with hf
      · rw [tell_lift_bind, run_record, List.filter_cons_of_neg (by simp [due, hm])]
        exact ih.imp_right fun ⟨h, q, hq, hblocked⟩ => ⟨h, q, List.mem_cons_of_mem _ hq, hblocked⟩
      · exact .inr ⟨⟨_, tell_throw ..⟩, p, List.mem_cons_self, f, hm, hf⟩

def polled (c : Chronicle) (w : Watcher ℚ) : Chronicle :=
  c.read.called (w.paths.filter (c.due w))

theorem changed_tell (c : Chronicle) (w : Watcher ℚ) :
    c.tell w.changed = (.ok (w.paths.filter (c.due w)), c.read) ∨
    (∃ f, c.tell w.changed = (.error f, c.read)) ∧ ∃ p ∈ w.paths, c.blocked p := by
  unfold Watcher.changed
  rw [tell_lift_bind, run_now]
  exact changedSince_tell c.read w w.paths

theorem called_append (c : Chronicle) (paths paths' : List Path) :
    (c.called paths).called paths' = c.called (paths ++ paths') := by
  simp [called]

theorem notify_tell (c : Chronicle) (answer : Chronicle → Path → Except Stop Unit)
    (paths : List Path) :
    c.tell (Watcher.notify (noting answer) paths) = (.ok (), c.called paths) ∨
    ∃ stop done, c.tell (Watcher.notify (noting answer) paths) = (.error stop, c.called done) := by
  induction paths generalizing c with
  | nil => exact .inl (by simp [Watcher.notify, called])
  | cons p ps ih =>
    unfold Watcher.notify
    rw [tell_lift_bind, run_record]
    dsimp only
    cases ha : answer c p with
    | error stop =>
      have hcall : c.tell (noting answer p) = (.error stop, c.called [p]) :=
        congrArg (·, c.called [p]) ha
      exact .inr ⟨stop, [p], tell_bind_error hcall⟩
    | ok _ =>
      have hcall : c.tell (noting answer p) = (.ok (), c.called [p]) :=
        congrArg (·, c.called [p]) ha
      rw [tell_bind_ok hcall]
      rcases ih (c.called [p]) with h | ⟨stop, done, h⟩
      · exact .inl (by rw [h, called_append, List.singleton_append])
      · exact .inr ⟨stop, p :: done, by rw [h, called_append, List.singleton_append]⟩

theorem tell_adapt {ε ε' α : Type} (f : ε → ε') (x : ExceptT ε (StateM Chronicle) α)
    {r : Except ε α} (h : c.tell x = (r, c')) :
    c.tell (ExceptT.adapt f x) = (r.mapError f, c') := by
  have hx : (x.run.run c : Id _) = (r, c') := h
  show ((x.run.run c).1.mapError f, (x.run.run c).2) = _
  rw [hx]

theorem poll_tell (c : Chronicle) (w : Watcher ℚ) (answer : Chronicle → Path → Except Stop Unit) :
    c.tell (w.poll (noting answer)) = (.ok (w.paths.filter (c.due w)), c.polled w) ∨
    ∃ stop done, c.tell (w.poll (noting answer)) = (.error stop, c.read.called done) := by
  unfold Watcher.poll
  rcases changed_tell c w with h | ⟨⟨f, h⟩, -⟩
  · rw [tell_bind_ok (tell_adapt Stop.failed _ h)]
    rcases notify_tell c.read answer (w.paths.filter (c.due w)) with h' | ⟨stop, done, h'⟩
    · exact .inl (tell_bind_ok h')
    · exact .inr ⟨stop, done, tell_bind_error h'⟩
  · exact .inr ⟨.failed f, [], by
      rw [tell_bind_error (tell_adapt Stop.failed _ h)]; simp [called]⟩

/-- What a round that begins after `k` polls comes to. -/
inductive RoundEnd (w : Watcher ℚ) (c : Chronicle) (k : Nat) :
    Except Fault Watcher.Progress → Chronicle → Prop where
  | notWanted : RoundEnd w c k (.ok (.finished k)) c
  | went : RoundEnd w c k (.ok (.going (k + 1))) ((c.polled w).waited w.interval)
  | last : RoundEnd w c k (.ok (.finished (k + 1))) (c.polled w)
  | interrupted : RoundEnd w c k (.ok (.finished (k + 1))) ((c.polled w).waited w.interval)
  | cutShort (done : List Path) {r : Except Fault Watcher.Progress}
    (cut : r = .ok (.finished k) ∨ ∃ f, r = .error f) : RoundEnd w c k r (c.read.called done)

theorem round_tell (c : Chronicle) (w : Watcher ℚ) (answer : Chronicle → Path → Except Stop Unit)
    (limit : Option Int) (k : Nat) :
    RoundEnd w c k (c.tell (w.round (noting answer) limit k)).1
      (c.tell (w.round (noting answer) limit k)).2 := by
  unfold Watcher.round
  by_cases hstop : (!Watcher.wants limit k) = true
  · rw [if_pos hstop]
    exact .notWanted
  rw [if_neg hstop, tell_lift_bind, run_attempt]
  -- either all that is due is called, or a callback cuts the poll short
  rcases poll_tell c w answer with h | ⟨stop, done, h⟩
  · have hrun : (w.poll (noting answer)).run.run c =
        (.ok (w.paths.filter (c.due w)), c.polled w) := h
    rw [hrun]
    dsimp only
    split_ifs
    · rw [tell_lift_bind, run_attempt, run_pause]
      cases (c.polled w).goesOn (c.polled w).clock with
      | true => exact .went
      | false => exact .interrupted
    · exact .last
  · have hrun : (w.poll (noting answer)).run.run c = (.error stop, c.read.called done) := h
    rw [hrun]
    cases stop with
    | interrupted => exact .cutShort done (.inl rfl)
    | failed f => exact .cutShort done (.inr ⟨f, rfl⟩)

/-- The time of the clock at the poll that follows `k` others. -/
def pollTime (s : Chronicle) (w : Watcher ℚ) (k : Nat) : ℚ := s.clock + k * w.interval

/-- What holds of a run that started at `s` and has got through `k` polls, when `started` polls have
read the clock. -/
structure Accounted (s : Chronicle) (w : Watcher ℚ) (k started : Nat) (c : Chronicle) : Prop where
  modified : c.modified = s.modified
  begun : k ≤ started
  readings : c.readings = (List.range started).map (s.pollTime w)
  reported : ∀ j < k, ∀ p ∈ w.paths, ∀ m, s.modified (s.pollTime w j) p = .ok m →
    isRecent (s.pollTime w j) m w.window = true → (s.pollTime w j, p) ∈ c.calls

namespace Accounted

variable {s : Chronicle} {started : Nat}

theorem start (h : s.readings = []) : Accounted s w 0 0 s := ⟨rfl, le_rfl, h, nofun⟩

theorem waited (h : Accounted s w k started c) (seconds : ℚ) :
    Accounted s w k started (c.waited seconds) := ⟨h.modified, h.begun, h.readings, h.reported⟩

theorem read_called (h : Accounted s w k k c) (hclock : c.clock = s.pollTime w k)
    (done : List Path) : Accounted s w k (k + 1) (c.read.called done) := by
  refine ⟨h.modified, k.le_succ, ?_, fun j hj p hp m hm hrecent => ?_⟩
  · show c.readings ++ [c.clock] = _
    rw [h.readings, hclock, List.range_succ, List.map_append, List.map_singleton]
  · exact List.mem_append_left _ (h.reported j hj p hp m hm hrecent)

theorem polled (h : Accounted s w k k c) (hclock : c.clock = s.pollTime w k) :
    Accounted s w (k + 1) (k + 1) (c.polled w) := by
  have hread := h.read_called hclock (w.paths.filter (c.due w))
  refine ⟨hread.modified, le_rfl, hread.readings, fun j hj p hp m hm hrecent => ?_⟩
  rcases Nat.lt_succ_iff_lt_or_eq.1 hj with hj | rfl
  · exact hread.reported j hj p hp m hm hrecent
  · refine List.mem_append_right _ (List.mem_map.2 ⟨p, List.mem_filter.2 ⟨hp, ?_⟩, ?_⟩)
    · rw [due, h.modified, hclock, hm]
      exact hrecent
    · exact congrArg (·, p) hclock

end Accounted

/-- How many polls a run got through: a failure leaves out the poll that it ended. -/
def pollsDone (r : Except Fault Watcher.Progress) (c : Chronicle) : Nat :=
  match r with
  | .ok (.going k) | .ok (.finished k) => k
  | .error _ => c.readings.length - 1

theorem repeatUpTo_accounted {s : Chronicle} (answer : Chronicle → Path → Except Stop Unit)
    (limit : Option Int) (bound : Nat) (h : Accounted s w k k c)
    (hclock : c.clock = s.pollTime w k) :
    let outcome := c.tell (Watcher.repeatUpTo bound (w.round (noting answer) limit) k)
    ∃ started, Accounted s w (pollsDone outcome.1 outcome.2) started outcome.2 := by
  -- the invariant holds at the start of each round, with the clock at the time of its poll
  induction bound generalizing c k with
  | zero => exact ⟨k, h⟩
  | succ bound ih =>
    unfold Watcher.repeatUpTo
    have hround := round_tell c w answer limit k
    generalize hend : c.tell (w.round (noting answer) limit k) = e at hround
    obtain ⟨r, c'⟩ := e
    dsimp only at hround
    cases hround with
    | notWanted =>
      rw [tell_bind_ok hend]
      exact ⟨k, h⟩
    | went =>
      rw [tell_bind_ok hend]
      refine ih ((h.polled hclock).waited _) ?_
      show c.clock + w.interval = _
      rw [hclock, pollTime, pollTime]
      push_cast
      ring
    | last =>
      rw [tell_bind_ok hend]
      exact ⟨k + 1, h.polled hclock⟩
    | interrupted =>
      rw [tell_bind_ok hend]
      exact ⟨k + 1, (h.polled hclock).waited _⟩
    | cutShort done cut =>
      have hread := h.read_called hclock done
      rcases cut with rfl | ⟨f, rfl⟩
      · rw [tell_bind_ok hend]
        exact ⟨k + 1, hread⟩
      · rw [tell_bind_error hend]
        refine ⟨k + 1, ?_⟩
        -- a failure leaves no count behind, but the readings of the clock give it
        have hk : pollsDone (.error f) (c.read.called done) = k := by
          simp [pollsDone, hread.readings]
        rw [hk]
        exact hread

theorem run_accounted {s : Chronicle} (hs : s.readings = []) (w : Watcher ℚ) (bound : Nat)
    (answer : Chronicle → Path → Except Stop Unit) (limit : Option Int) :
    let outcome := s.tell (w.run bound (noting answer) limit)
    ∃ started, Accounted s w (pollsDone outcome.1 outcome.2) started outcome.2 := by
  have hstart : Accounted s w 0 0 s := .start hs
  have h := repeatUpTo_accounted answer limit bound hstart (by simp [pollTime])
  unfold Watcher.run Watcher.runBy
  rw [tell_lift_bind, run_record]
  exact h

end Chronicle

end Literate

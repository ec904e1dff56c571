import Literate.Proofs.Watch.Chronicle
import Literate.Settings.Sources
import Mathlib.Tactic.Linarith
import Mathlib.Tactic.Positivity

namespace Literate.Watcher

open Chronicle

/-- In every run of a watch with this interval and this window: of two consecutive polls that it got
through, the later one calls the callback for every watched file that is there and was saved after
the clock reading of the earlier one and not after its own. -/
def NoSaveMissed (interval window : ℚ) : Prop :=
  ∀ (paths : List Path) (s c : Chronicle) (answer : Chronicle → Path → Except Stop Unit)
    (bound : Nat) (limit : Option Int) (r : Except Fault Progress), s.readings = [] →
    s.tell (run ⟨paths, interval, window⟩ bound (noting answer) limit) = (r, c) →
    ∀ k earlier later, c.readings[k]? = some earlier → c.readings[k + 1]? = some later →
      k + 1 < pollsDone r c →
      ∀ p ∈ paths, ∀ m, s.modified later p = .ok m → earlier < m → m ≤ later →
        (later, p) ∈ c.calls

/-- In a run without end from time `start`, in which every pause comes to its end, a file that is
there all the time is saved, once, between the first two polls, and is never handed on. -/
def SaveLost (w : Watcher ℚ) (start : ℚ) (p : Path) : Prop :=
  ∃ (s : Chronicle) (before m : ℚ), s.readings = [] ∧ s.clock = start ∧ start < m ∧
    m ≤ start + w.interval ∧ before < m ∧
    (∀ t, s.modified t p = .ok (if t < m then before else m)) ∧
    ∀ answer bound, ∃ c, s.tell (w.run bound (noting answer) none) = (.ok (.going bound), c) ∧
      ∀ t, (t, p) ∉ c.calls

variable {w : Watcher ℚ} {s c : Chronicle} {k : Nat} {interval window : ℚ}

theorem pollTime_succ (s : Chronicle) (w : Watcher ℚ) (k : Nat) :
    s.pollTime w (k + 1) = s.pollTime w k + w.interval := by
  rw [pollTime, pollTime]
  push_cast
  ring

theorem noSaveMissed_of_le (h : interval ≤ window) : NoSaveMissed interval window := by
  intro paths s c answer bound limit r hs hrun k earlier later hk hk' hdone p hp m hm hafter hbefore
  obtain ⟨started, hc⟩ := run_accounted hs ⟨paths, interval, window⟩ bound answer limit
  rw [hrun] at hc
  rw [hc.readings, List.getElem?_map, Option.map_eq_some_iff] at hk hk'
  obtain ⟨j, hj, rfl⟩ := hk
  obtain ⟨j', hj', rfl⟩ := hk'
  obtain rfl : k = j := by simpa using (List.getElem?_eq_some_iff.1 hj).2
  obtain rfl : k + 1 = j' := by simpa using (List.getElem?_eq_some_iff.1 hj').2
  refine hc.reported (k + 1) hdone p hp m hm (decide_eq_true ?_)
  rw [pollTime_succ] at hbefore ⊢
  show _ < window
  linarith

/-- Every watched file is there at the time of the clock, and none was changed a short while ago. -/
def Quiet (w : Watcher ℚ) (c : Chronicle) : Prop :=
  ∀ p ∈ w.paths, ∃ m, c.modified c.clock p = .ok m ∧ w.window ≤ c.clock - m

theorem poll_quiet (h : Quiet w c) (answer : Chronicle → Path → Except Stop Unit) :
    c.tell (w.poll (noting answer)) = (.ok [], c.read) := by
  have hnone : w.paths.filter (c.due w) = [] := by
    refine List.filter_eq_nil_iff.2 fun p hp => ?_
    obtain ⟨m, hm, hold⟩ := h p hp
    simpa [due, hm, isRecent] using hold
  unfold poll
  rcases changed_tell c w with hchanged | ⟨-, p, hp, f, hf, -⟩
  · rw [hnone] at hchanged
    exact tell_bind_ok (tell_adapt Stop.failed _ hchanged)
  · obtain ⟨m, hm, -⟩ := h p hp
    cases hf.symm.trans hm

theorem round_quiet (h : Quiet w c) (hgoes : c.goesOn c.clock = true)
    (answer : Chronicle → Path → Except Stop Unit) (k : Nat) :
    c.tell (w.round (noting answer) none k) =
      (.ok (.going (k + 1)), c.read.waited w.interval) := by
  have hrun : (w.poll (noting answer)).run.run c = (.ok [], c.read) := poll_quiet h answer
  have hgoes' : c.read.goesOn c.read.clock = true := hgoes
  unfold round
  rw [if_neg (by simp [wants]), tell_lift_bind, run_attempt, hrun]
  dsimp only
  rw [if_pos (by rfl), tell_lift_bind, run_attempt, run_pause, hgoes']
  rfl

/-- A run in which every poll is quiet goes on and calls nothing. -/
theorem repeatUpTo_quiet (hgoes : ∀ t, s.goesOn t = true)
    (hquiet : ∀ j, Quiet w { s with clock := s.pollTime w j })
    (answer : Chronicle → Path → Except Stop Unit) (bound : Nat)
    (hmodified : c.modified = s.modified) (hgoesOn : c.goesOn = s.goesOn)
    (hclock : c.clock = s.pollTime w k) :
    ∃ c', c.tell (repeatUpTo bound (w.round (noting answer) none) k) =
      (.ok (.going (k + bound)), c') ∧ c'.calls = c.calls := by
  -- a quiet round changes nothing but the clock, which comes to the time of the next poll
  induction bound generalizing c k with
  | zero => exact ⟨c, rfl, rfl⟩
  | succ bound ih =>
    have hc : Quiet w c := by
      have h := hquiet k
      rw [Quiet, ← hmodified, ← hclock] at h
      exact h
    have hround := round_quiet hc (by rw [hgoesOn]; exact hgoes _) answer k
    have hnext : (c.read.waited w.interval).clock = s.pollTime w (k + 1) := by
      rw [pollTime_succ, ← hclock]
      rfl
    obtain ⟨c', hc', hcalls⟩ := ih (c := c.read.waited w.interval) hmodified hgoesOn hnext
    refine ⟨c', ?_, hcalls⟩
    unfold repeatUpTo
    rw [tell_bind_ok hround]
    rw [show k + (bound + 1) = k + 1 + bound by omega]
    exact hc'

theorem saveLost_of_lt (hw : 0 < w.window) (h : w.window < w.interval) (start : ℚ) (p : Path) :
    SaveLost w start p := by
  -- the save happens as early between two polls as the second can no longer see it
  let before := start - w.window
  let m := start + w.interval - w.window
  let s : Chronicle := ⟨fun t _ => .ok (if t < m then before else m), fun _ => true, start, [], []⟩
  have hquiet : ∀ j, Quiet w { s with clock := s.pollTime w j } := by
    intro j p _
    refine ⟨_, rfl, ?_⟩
    show w.window ≤ start + j * w.interval - (if start + j * w.interval < m then before else m)
    cases j with
    | zero =>
      rw [Nat.cast_zero, zero_mul, if_pos (by linarith)]
      linarith
    | succ j =>
      have hj : 0 ≤ (j : ℚ) * w.interval := mul_nonneg (Nat.cast_nonneg j) (by linarith)
      have hlater : start + (j + 1 : Nat) * w.interval = start + w.interval + j * w.interval := by
        push_cast
        ring
      rw [hlater, if_neg (by linarith)]
      linarith
  refine ⟨s, before, m, rfl, rfl, ?_, ?_, ?_, fun _ => rfl, fun answer bound => ?_⟩
  · linarith
  · linarith
  · linarith
  · obtain ⟨c, hc, hcalls⟩ := repeatUpTo_quiet (s := s) (c := s) (k := 0) (fun _ => rfl) hquiet
      answer bound rfl rfl (by simp [pollTime])
    refine ⟨c, ?_, fun t => by rw [hcalls]; exact List.not_mem_nil⟩
    rw [Nat.zero_add] at hc
    exact hc

theorem not_noSaveMissed_of_saveLost {paths : List Path} {start : ℚ} {p : Path} (hp : p ∈ paths)
    (h : SaveLost ⟨paths, interval, window⟩ start p) : ¬ NoSaveMissed interval window := by
  intro hall
  obtain ⟨s, before, m, hs, rfl, hafter, hnot, -, hmodified, hrun⟩ := h
  obtain ⟨c, hc, hcalls⟩ := hrun (fun _ _ => .ok ()) 2
  obtain ⟨started, hacc⟩ := run_accounted hs ⟨paths, interval, window⟩ 2 (fun _ _ => .ok ()) none
  rw [hc] at hacc
  have hbegun : 2 ≤ started := hacc.begun
  have hreading : ∀ k < 2, c.readings[k]? = some (s.pollTime ⟨paths, interval, window⟩ k) := by
    intro k hk
    rw [hacc.readings, List.getElem?_map, List.getElem?_range (by omega), Option.map_some]
  have hfirst : s.pollTime ⟨paths, interval, window⟩ 0 = s.clock := by simp [pollTime]
  have hsecond : s.pollTime ⟨paths, interval, window⟩ 1 = s.clock + interval := by simp [pollTime]
  refine hcalls _ (hall paths s c _ 2 none _ hs hc 0 _ _ (hreading 0 (by omega))
    (hreading 1 (by omega)) Nat.one_lt_two p hp m ?_ ?_ ?_)
  · rw [hmodified, hsecond, if_neg (not_lt.2 hnot)]
  · rw [hfirst]
    exact hafter
  · rw [hsecond]
    exact hnot

theorem sourced_arguments (arguments : Fields) (k : Setting) :
    Settings.sourced arguments [] (Assignments.resolve [] (Assignments.read [])) k =
      Settings.first? arguments k.name := by
  have hnone : Assignments.resolve [] (Assignments.read []) = [] := by decide +kernel
  rw [Settings.sourced, hnone]
  cases Settings.first? arguments k.name with
  | none => rfl
  | some v => rfl

theorem load_watchTimes (v v' : Value) (x y : Float) :
    (∃ s, Settings.load [(Setting.watchInterval.name, v), (Setting.recencyWindow.name, v')] []
        none = .ok s ∧ s.watchInterval = x ∧ s.recencyWindow = y) ↔
      Setting.positiveUpTo 60 v = .ok x ∧ Setting.positiveUpTo 600 v' = .ok y := by
  let given : Fields := [(Setting.watchInterval.name, v), (Setting.recencyWindow.name, v')]
  have hload : Settings.load given [] none =
      (Checked.both (Setting.watchInterval.changeInside v)
        ((Checked.both (Setting.recencyWindow.changeInside v') (.ok {})).map
          fun p => p.1 p.2)).map fun p => p.1 p.2 :=
    calc Settings.load given [] none
        = Settings.ofGiven (fun k => Settings.first? given k.name) Setting.all :=
          congrArg (Settings.ofGiven · Setting.all) (funext (sourced_arguments given))
      _ = _ := rfl
  rw [hload]
  unfold Setting.changeInside Setting.change
  cases Setting.positiveUpTo 60 v
  all_goals cases Setting.positiveUpTo 600 v'
  all_goals simp [Except.map, Checked.both, Checked.inside, Except.mapError]

/-- A watch misses no save exactly if its interval is not longer than its window. With a longer one
every watched file can have a save that is lost for good, and the settings do not forbid it. -/
theorem noSaveMissed_iff (interval window : ℚ) (hw : 0 < window) :
    (interval ≤ window ↔ NoSaveMissed interval window) ∧
    (window < interval → ∀ (paths : List Path) (start : ℚ), ∀ p ∈ paths,
      SaveLost ⟨paths, interval, window⟩ start p) ∧
    ∀ v v' x y, (∃ s, Settings.load [(Setting.watchInterval.name, v),
        (Setting.recencyWindow.name, v')] [] none = .ok s ∧
          s.watchInterval = x ∧ s.recencyWindow = y) ↔
      Setting.positiveUpTo 60 v = .ok x ∧ Setting.positiveUpTo 600 v' = .ok y := by
  refine ⟨⟨noSaveMissed_of_le, fun hall => ?_⟩, fun h paths start p _ =>
    saveLost_of_lt hw h start p, load_watchTimes⟩
  by_contra h
  let p : Path := ⟨0, []⟩
  have hlost : SaveLost ⟨[p], interval, window⟩ 0 p := saveLost_of_lt hw (not_le.1 h) 0 p
  exact not_noSaveMissed_of_saveLost List.mem_cons_self hlost hall

theorem noSaveMissed_two_seconds : (0 : ℚ) < 2 ∧ NoSaveMissed 2 2 ∧ ¬ NoSaveMissed 3 2 :=
  ⟨two_pos, (noSaveMissed_iff 2 2 two_pos).1.1 le_rfl,
    fun h => absurd ((noSaveMissed_iff 3 2 two_pos).1.2 h) (by norm_num)⟩

end Literate.Watcher

import Literate.Proofs.Watch.Journal
import Mathlib.Data.List.Basic

namespace Literate.Journal

open Watcher (Progress breakOff interruptedEvent repeatUpTo wants)

variable {τ : Type} [Sub τ] [LT τ] [DecidableLT τ] {w : Watcher τ} {j j' : Journal τ}
  {limit : Option Int} {bound k : Nat} {stop : Stop} {given : Except Stop Progress} {x : Poll τ}

/-- What comes of a stop after so many polls. -/
inductive Aftermath (polls : Nat) : Stop → List (Entry τ) → Except Stop Progress → Prop where
  | interrupted (given : Except Stop Unit) :
    Aftermath polls .interrupted [.record (interruptedEvent polls) given]
      (given.map fun _ => .finished polls)
  | failed (f : Fault) : Aftermath polls (.failed f) [] (.error (.failed f))

/-- What is entered by a round after `k` polls, and what comes of it. -/
inductive Round (w : Watcher τ) (limit : Option Int) (k : Nat) :
    List (Entry τ) → Except Stop Progress → Prop where
  | notWanted (enough : wants limit k = false) : Round w limit k [] (.ok (.finished k))
  | went (x : Poll τ) (of : x.Of w) (more : wants limit (k + 1) = true) :
    Round w limit k (x.entries w ++ [.pause w.interval (.ok true)]) (.ok (.going (k + 1)))
  | last (x : Poll τ) (of : x.Of w) (wanted : wants limit k = true)
    (enough : wants limit (k + 1) = false) :
    Round w limit k (x.entries w) (.ok (.finished (k + 1)))
  | pollStopped {cut back : List (Entry τ)} {stop : Stop} {given : Except Stop Progress}
    (wanted : wants limit k = true) (short : CutShort w cut stop)
    (after : Aftermath k stop back given) : Round w limit k (cut ++ back) given
  | pauseStopped (x : Poll τ) (of : x.Of w) (more : wants limit (k + 1) = true)
    {paused : Except Stop Bool} {back : List (Entry τ)} {stop : Stop}
    {given : Except Stop Progress} (stops : (Entry.pause w.interval paused).stop? = some stop)
    (after : Aftermath (k + 1) stop back given) :
    Round w limit k (x.entries w ++ .pause w.interval paused :: back) given

omit [Sub τ] [LT τ] [DecidableLT τ] in
theorem aftermath_breakOff (h : told Stop.failed j (breakOff k) = (given, j')) :
    ∃ new, j' = j.entered new ∧ Aftermath k .interrupted new given := by
  rw [breakOff, observer_record, told_ask_bind] at h
  cases hrecord : j.answers.record j.entries (interruptedEvent k) with
  | error stop =>
    rw [hrecord] at h
    cases h
    exact ⟨_, rfl, .interrupted (.error stop)⟩
  | ok _ =>
    rw [hrecord] at h
    cases h
    exact ⟨_, rfl, .interrupted (.ok ())⟩

theorem round_of_interrupted_pause (of : x.Of w) (more : wants limit (k + 1) = true)
    {paused : Except Stop Bool} (stops : (Entry.pause w.interval paused).stop? = some .interrupted)
    (h : told Stop.failed ((j.entered (x.entries w)).entered [.pause w.interval paused])
      (breakOff (k + 1)) = (given, j')) :
    ∃ new, j' = j.entered new ∧ Round w limit k new given := by
  obtain ⟨back, rfl, hafter⟩ := aftermath_breakOff h
  exact ⟨_, by rw [entered_entered, entered_entered, List.singleton_append],
    .pauseStopped x of more stops hafter⟩

theorem round_round (h : told Stop.failed j (w.round callback limit k) = (given, j')) :
    ∃ new, j' = j.entered new ∧ Round w limit k new given := by
  unfold Watcher.round at h
  by_cases hwants : wants limit k = true
  swap
  · rw [if_pos (by simpa using hwants)] at h
    cases h
    exact ⟨[], (entered_nil j).symm, .notWanted (by simpa using hwants)⟩
  rw [if_neg (by simpa using hwants), told_attempt_bind _ _ _ rfl fun _ _ => rfl] at h
  rcases hpoll : told id j (w.poll callback) with ⟨polled, j₁⟩
  rw [hpoll] at h
  obtain ⟨new, rfl, hpolled⟩ := polled_poll hpoll
  cases hpolled with
  -- a poll cut short: an interruption is noticed by the loop, a failure leaves it
  | @stopped cut stop short =>
    cases stop with
    | interrupted =>
      obtain ⟨back, rfl, hafter⟩ := aftermath_breakOff h
      exact ⟨_, entered_entered .., .pollStopped hwants short hafter⟩
    | failed f =>
      cases h
      exact ⟨_, by rw [List.append_nil], .pollStopped hwants short (.failed f)⟩
  | through x of =>
    dsimp only at h
    by_cases hmore : wants limit (k + 1) = true
    swap
    · rw [if_neg hmore] at h
      cases h
      exact ⟨_, rfl, .last x of hwants (by simpa using hmore)⟩
    rw [if_pos hmore, observer_pause, told_attempt_ask_bind] at h
    -- the pause is interrupted in either of two ways, as an answer and as a stop
    cases hpause : Answers.pause _ _ w.interval with
    | error stop =>
      rw [hpause] at h
      cases stop with
      | interrupted => exact round_of_interrupted_pause of hmore rfl h
      | failed f =>
        cases h
        exact ⟨_, entered_entered .., .pauseStopped x of hmore rfl (.failed f)⟩
    | ok whole =>
      rw [hpause] at h
      cases whole with
      | true =>
        cases h
        exact ⟨_, entered_entered .., .went x of hmore⟩
      | false => exact round_of_interrupted_pause of hmore rfl h

/-- What is entered by polls when a pause follows on each. -/
def paused (w : Watcher τ) (polls : List (Poll τ)) : List (Entry τ) :=
  polls.flatMap fun x => x.entries w ++ [.pause w.interval (.ok true)]

/-- What is entered by polls with a pause between one and the next. -/
def spaced (w : Watcher τ) (polls : List (Poll τ)) : List (Entry τ) :=
  [.pause w.interval (.ok true)].intercalate (polls.map (Poll.entries w))

/-- The loop is stopped after so many polls, in another poll or in the pause before it. -/
inductive Broken (w : Watcher τ) (limit : Option Int) : List (Entry τ) → Nat → Stop → Prop where
  | poll {polls : List (Poll τ)} {cut : List (Entry τ)} {stop : Stop} (all : ∀ x ∈ polls, x.Of w)
    (wanted : wants limit polls.length = true) (short : CutShort w cut stop) :
    Broken w limit (paused w polls ++ cut) polls.length stop
  | pause {polls : List (Poll τ)} {given : Except Stop Bool} {stop : Stop}
    (all : ∀ x ∈ polls, x.Of w) (further : polls ≠ []) (wanted : wants limit polls.length = true)
    (stops : (Entry.pause w.interval given).stop? = some stop) :
    Broken w limit (spaced w polls ++ [.pause w.interval given]) polls.length stop

/-- What is entered by the loop, and what comes of it. -/
inductive Looped (w : Watcher τ) (limit : Option Int) (bound : Nat) :
    List (Entry τ) → Except Stop Progress → Prop where
  | finished {m : Int} {polls : List (Poll τ)} (all : ∀ x ∈ polls, x.Of w)
    (limited : limit = some m) (number : polls.length = m.toNat) :
    Looped w limit bound (spaced w polls) (.ok (.finished polls.length))
  | going {polls : List (Poll τ)} (all : ∀ x ∈ polls, x.Of w) (number : polls.length = bound)
    (wanted : polls = [] ∨ wants limit polls.length = true) :
    Looped w limit bound (paused w polls) (.ok (.going polls.length))
  | stopped {front back : List (Entry τ)} {k : Nat} {stop : Stop} {given : Except Stop Progress}
    (broken : Broken w limit front k stop) (after : Aftermath k stop back given) :
    Looped w limit bound (front ++ back) given

variable {polls : List (Poll τ)}

theorem spaced_append (w : Watcher τ) (polls : List (Poll τ)) (x : Poll τ) :
    spaced w (polls ++ [x]) = paused w polls ++ x.entries w := by
  induction polls with
  | nil => simp [spaced, paused]
  | cons y polls ih =>
    rw [paused, List.flatMap_cons, List.append_assoc, ← paused, ← ih]
    cases polls <;> simp [spaced]

theorem paused_append (w : Watcher τ) (polls : List (Poll τ)) (x : Poll τ) :
    paused w (polls ++ [x]) =
      paused w polls ++ (x.entries w ++ [.pause w.interval (.ok true)]) := by
  rw [paused, List.flatMap_append, List.flatMap_singleton]
  rfl

theorem exists_limit_le (h : wants limit k = false) : ∃ m, limit = some m ∧ m ≤ k := by
  cases limit with
  | none => cases h
  | some m => exact ⟨m, rfl, Int.not_lt.1 (of_decide_eq_false h)⟩

theorem told_repeatUpTo_stopped {back : List (Entry τ)} {polls : Nat}
    (hround : told Stop.failed j (w.round callback limit k) = (given, j'))
    (after : Aftermath polls stop back given) (bound : Nat) :
    told Stop.failed j (repeatUpTo (bound + 1) (w.round callback limit) k) = (given, j') := by
  rw [repeatUpTo, told_bind, hround]
  cases after with
  | interrupted given => cases given <;> rfl
  | failed f => rfl

/-- The polls that were got through so far are known, so that what the loop enters from here on
belongs behind what they have entered. -/
theorem looped_repeatUpTo (hall : ∀ x ∈ polls, x.Of w)
    (hwanted : polls = [] ∨ wants limit polls.length = true)
    (h : told Stop.failed j (repeatUpTo bound (w.round callback limit) polls.length) =
      (given, j')) :
    ∃ new, j' = j.entered new ∧
      Looped w limit (polls.length + bound) (paused w polls ++ new) given := by
  induction bound generalizing polls j j' given with
  | zero =>
    cases h
    exact ⟨[], (entered_nil j).symm, by rw [List.append_nil]; exact .going hall rfl hwanted⟩
  | succ bound ih =>
    rcases hround : told Stop.failed j (w.round callback limit polls.length) with ⟨one, j₁⟩
    obtain ⟨new, rfl, hone⟩ := round_round hround
    have hsnoc (x : Poll τ) (hx : x.Of w) : ∀ y ∈ polls ++ [x], y.Of w :=
      List.forall_mem_append.2 ⟨hall, List.forall_mem_singleton.2 hx⟩
    have hlength (x : Poll τ) : (polls ++ [x]).length = polls.length + 1 := List.length_append
    cases hone with
    | notWanted enough =>
      -- after another poll this round would not have begun, so that none was ever wanted
      rw [repeatUpTo, told_bind, hround] at h
      cases h
      obtain ⟨m, rfl, hm⟩ := exists_limit_le enough
      obtain rfl : polls = [] := hwanted.resolve_right (by rw [enough]; exact nofun)
      exact ⟨_, rfl, .finished hall rfl (Int.toNat_eq_zero.2 hm).symm⟩
    | went x of more =>
      rw [repeatUpTo, told_bind, hround] at h
      dsimp only at h
      rw [← hlength x] at h more
      obtain ⟨rest, rfl, hlooped⟩ := ih (hsnoc x of) (.inr more) h
      rw [paused_append, List.append_assoc, hlength, Nat.add_right_comm] at hlooped
      exact ⟨_, entered_entered .., hlooped⟩
    | last x of wanted enough =>
      -- the limit lies between the number of the polls before and the one with this poll
      rw [repeatUpTo, told_bind, hround] at h
      cases h
      obtain ⟨m, rfl, hm⟩ := exists_limit_le enough
      have hlt : (polls.length : Int) < m := of_decide_eq_true wanted
      have hlooped : Looped w (some m) (polls.length + (bound + 1)) (spaced w (polls ++ [x]))
          (.ok (.finished (polls ++ [x]).length)) :=
        .finished (hsnoc x of) rfl (by rw [hlength]; omega)
      rw [spaced_append, hlength] at hlooped
      exact ⟨_, rfl, hlooped⟩
    | pollStopped wanted short after =>
      rw [told_repeatUpTo_stopped hround after] at h
      cases h
      refine ⟨_, rfl, ?_⟩
      rw [← List.append_assoc]
      exact .stopped (.poll hall wanted short) after
    | pauseStopped x of more stops after =>
      rw [told_repeatUpTo_stopped hround after] at h
      cases h
      refine ⟨_, rfl, ?_⟩
      rw [← List.append_assoc, ← spaced_append, List.append_cons]
      rw [← hlength x] at more after
      exact .stopped (.pause (hsnoc x of) (by simp) more stops) after

variable {front back new cut : List (Entry τ)} {e : Entry τ}

theorem calm_paused (hall : ∀ x ∈ polls, x.Of w) : Calm (paused w polls) :=
  .flatMap fun x hx => (Poll.calm_entries (hall x hx)).append (.single rfl)

theorem calm_spaced (hall : ∀ x ∈ polls, x.Of w) : Calm (spaced w polls) := by
  rcases List.eq_nil_or_concat' polls with rfl | ⟨polls, x, rfl⟩
  · exact nofun
  · rw [spaced_append]
    obtain ⟨hall, hx⟩ := List.forall_mem_append.1 hall
    exact (calm_paused hall).append (Poll.calm_entries (hx x List.mem_cons_self))

theorem Broken.endsWith (h : Broken w limit front k stop) : EndsWith front stop := by
  cases h with
  | poll all wanted short => exact .prepend (calm_paused all) short.endsWith
  | pause all further wanted stops => exact .prepend (calm_spaced all) (.single stops)

/-- There is first of all what a poll enters, which is got through or stopped. -/
def BeginsWithPoll (w : Watcher τ) (entries : List (Entry τ)) : Prop :=
  (∃ x : Poll τ, x.Of w ∧ x.entries w <+: entries) ∨
  ∃ cut stop, CutShort w cut stop ∧ cut <+: entries

theorem BeginsWithPoll.append (h : BeginsWithPoll w front) (back : List (Entry τ)) :
    BeginsWithPoll w (front ++ back) := by
  rcases h with ⟨x, hx, hprefix⟩ | ⟨cut, stop, hshort, hprefix⟩
  · exact .inl ⟨x, hx, hprefix.trans (List.prefix_append ..)⟩
  · exact .inr ⟨cut, stop, hshort, hprefix.trans (List.prefix_append ..)⟩

/-- Where the time is read, a poll begins. -/
def ReadsForPolls (w : Watcher τ) (entries : List (Entry τ)) : Prop :=
  ∀ front time back, entries = front ++ .now (.ok time) :: back →
    BeginsWithPoll w (.now (.ok time) :: back)

namespace ReadsForPolls

theorem of_notMem (h : ∀ time, .now (.ok time) ∉ new) : ReadsForPolls w new := by
  rintro front time back rfl
  exact absurd (List.mem_append_right front List.mem_cons_self) (h time)

theorem cons {time : τ} (h : BeginsWithPoll w (.now (.ok time) :: new))
    (hnew : ∀ time, .now (.ok time) ∉ new) : ReadsForPolls w (.now (.ok time) :: new) := by
  intro front time' back heq
  rcases List.cons_eq_append_iff.1 heq with ⟨-, heq⟩ | ⟨front', -, rfl⟩
  · rw [heq]
    exact h
  · exact absurd (List.mem_append_right front' List.mem_cons_self) (hnew time')

theorem append (h : ReadsForPolls w front) (h' : ReadsForPolls w back) :
    ReadsForPolls w (front ++ back) := by
  intro before time after heq
  rcases List.append_eq_append_iff.1 heq with ⟨middle, -, heq⟩ | ⟨middle, hfront, heq⟩
  · exact h' middle time after heq
  · rcases List.cons_eq_append_iff.1 heq with ⟨-, heq⟩ | ⟨rest, rfl, rfl⟩
    · exact h' [] time after heq
    · rw [← List.cons_append]
      exact (h before time rest hfront).append back

theorem of_entries (h : x.Of w) : ReadsForPolls w (x.entries w) := by
  refine .cons (.inl ⟨x, h, List.prefix_rfl⟩) fun time hmem => ?_
  rcases List.mem_append.1 hmem with hmem | hmem
  · exact now_notMem_looks time hmem
  · exact now_notMem_calls time hmem

theorem of_cutShort (h : CutShort w cut stop) : ReadsForPolls w cut := by
  cases h with
  | now => exact .of_notMem fun time => by simp
  | look time split before stops =>
    refine .cons (.inr ⟨_, stop, .look time split before stops, List.prefix_rfl⟩)
      fun time hmem => ?_
    rcases List.mem_append.1 hmem with hmem | hmem
    · exact now_notMem_looks time hmem
    · cases stops <;> simp at hmem
  | call x found due stops =>
    refine .cons (.inr ⟨_, stop, .call x found due stops, List.prefix_rfl⟩) fun time hmem => ?_
    rcases List.mem_append.1 hmem with hmem | hmem
    · exact now_notMem_looks time hmem
    · rcases List.mem_append.1 hmem with hmem | hmem
      · exact now_notMem_calls time hmem
      · cases stops <;> simp at hmem

theorem pause (given : Except Stop Bool) : ReadsForPolls w [.pause w.interval given] :=
  .of_notMem fun time => by simp

theorem of_paused (hall : ∀ x ∈ polls, x.Of w) : ReadsForPolls w (paused w polls) := by
  induction polls with
  | nil => exact .of_notMem fun _ => List.not_mem_nil
  | cons x polls ih =>
    obtain ⟨hx, hall⟩ := List.forall_mem_cons.1 hall
    exact ((of_entries hx).append (.pause _)).append (ih hall)

theorem of_spaced (hall : ∀ x ∈ polls, x.Of w) : ReadsForPolls w (spaced w polls) := by
  rcases List.eq_nil_or_concat' polls with rfl | ⟨polls, x, rfl⟩
  · exact .of_notMem fun _ => List.not_mem_nil
  · rw [spaced_append]
    obtain ⟨hall, hx⟩ := List.forall_mem_append.1 hall
    exact (of_paused hall).append (of_entries (hx x List.mem_cons_self))

theorem of_broken (h : Broken w limit front k stop) : ReadsForPolls w front := by
  cases h with
  | poll all wanted short => exact (of_paused all).append (of_cutShort short)
  | pause all => exact (of_spaced all).append (.pause _)

theorem of_looped (h : Looped w limit bound new given) : ReadsForPolls w new := by
  cases h with
  | finished all => exact of_spaced all
  | going all => exact of_paused all
  | stopped broken after =>
    refine (of_broken broken).append (.of_notMem fun time => ?_)
    cases after <;> simp

end ReadsForPolls

/-- What can be said of all that a run of no more than `bound` rounds has entered, and of its
result. -/
structure Accounting [Coe τ Value] (w : Watcher τ) (limit : Option Int) (bound : Nat)
    (entries : List (Entry τ)) (result : Except Stop Progress) : Prop where
  polled : ReadsForPolls w entries
  /-- If nothing is stopped, there are as many polls as were asked for, or as the bound allows. -/
  undisturbed : Calm entries → ∃ polls : List (Poll τ), (∀ x ∈ polls, x.Of w) ∧
    ((∃ m, limit = some m ∧ polls.length = m.toNat ∧ result = .ok (.finished polls.length) ∧
        entries = .record w.startedEvent (.ok ()) :: spaced w polls) ∨
      polls.length = bound ∧ (polls = [] ∨ wants limit polls.length = true) ∧
        result = .ok (.going polls.length) ∧
        entries = .record w.startedEvent (.ok ()) :: paused w polls)
  /-- Whatever stops the run first: if it is not the record of the start, it stops the loop. -/
  stopped : ∀ front e back stop, entries = front ++ e :: back → Calm front →
    e.stop? = some stop →
    (e = .record w.startedEvent (.error stop) ∧ front = [] ∧ back = [] ∧ result = .error stop) ∨
    ∃ loop k, front ++ [e] = .record w.startedEvent (.ok ()) :: loop ∧
      Broken w limit loop k stop ∧ Aftermath k stop back result

namespace Accounting

variable [Coe τ Value]

theorem early (w : Watcher τ) (limit : Option Int) (bound : Nat) (stop : Stop) :
    Accounting w limit bound [.record w.startedEvent (.error stop)] (.error stop) where
  polled := .of_notMem fun time => by simp
  undisturbed hcalm := absurd (hcalm _ List.mem_cons_self) nofun
  stopped front e back stop' heq _ hstop := by
    rcases List.cons_eq_append_iff.1 heq with ⟨rfl, heq⟩ | ⟨front', -, heq⟩
    · cases heq
      cases hstop
      exact .inl ⟨rfl, rfl, rfl, rfl⟩
    · exact absurd heq.symm (by simp)

theorem of_looped (h : Looped w limit bound new given) :
    Accounting w limit bound (.record w.startedEvent (.ok ()) :: new) given where
  polled := by
    have hstart : ReadsForPolls w [.record w.startedEvent (.ok ())] :=
      .of_notMem fun time => by simp
    exact hstart.append (.of_looped h)
  undisturbed hcalm := by
    cases h with
    | finished all limited number => exact ⟨_, all, .inl ⟨_, limited, number, rfl, rfl⟩⟩
    | going all number wanted => exact ⟨_, all, .inr ⟨number, wanted, rfl, rfl⟩⟩
    | stopped broken after =>
      obtain ⟨front, e, rfl, -, he⟩ := broken.endsWith
      cases he.symm.trans (hcalm e (by simp))
  stopped front e back stop heq hcalm hstop := by
    have hmem : e ∈ .record w.startedEvent (.ok ()) :: new := heq ▸ by simp
    have hstart : Calm ([.record w.startedEvent (.ok ())] : List (Entry τ)) := .single rfl
    cases h with
    | finished all => cases hstop.symm.trans (hstart.append (calm_spaced all) e hmem)
    | going all => cases hstop.symm.trans (hstart.append (calm_paused all) e hmem)
    | stopped broken after =>
      obtain ⟨front', e', rfl, hcalm', he'⟩ := broken.endsWith
      rw [List.append_assoc, List.singleton_append, ← List.cons_append] at heq
      -- nothing before the stop stops, so that both splits of the entries are one
      obtain ⟨rfl, rfl, rfl⟩ := (hstart.append hcalm').unique he' hcalm hstop heq
      cases he'.symm.trans hstop
      exact .inr ⟨_, _, rfl, broken, after⟩

end Accounting

/-- Whatever a watch is given: every poll calls once for each file that was found to have changed
within the window, in order; with no stop there are as many polls as are wanted, and a pause
between one and the next; and a stop ends the run at once, with the number of the polls before it if
it is an interruption. -/
theorem run_accounting [Coe τ Value] (answers : Answers τ) (w : Watcher τ) (limit : Option Int)
    (bound : Nat) :
    let ended := told Stop.failed ⟨answers, []⟩ (w.run bound callback limit)
    Accounting w limit bound ended.2.entries ended.1 := by
  have hrun : told Stop.failed ⟨answers, []⟩ (w.run bound callback limit) = _ := told_ask_bind ..
  rw [hrun]
  dsimp only
  cases answers.record [] w.startedEvent with
  | error stop => exact .early w limit bound stop
  | ok _ =>
    dsimp only
    rcases hloop : told Stop.failed (entered ⟨answers, []⟩ [.record w.startedEvent (.ok ())])
      (repeatUpTo bound (w.round callback limit) 0) with ⟨given, j'⟩
    have hnone : ∀ x ∈ ([] : List (Poll τ)), x.Of w := nofun
    obtain ⟨new, rfl, hlooped⟩ := looped_repeatUpTo hnone (.inl rfl) hloop
    rw [List.length_nil, Nat.zero_add] at hlooped
    exact .of_looped hlooped

end Literate.Journal

import Literate.Host.Workspace
import Mathlib.Logic.Function.Iterate

namespace Literate

section bind

variable {σ ε α β : Type} {s s' : σ} {x : ExceptT ε (StateM σ) α} {f : α → ExceptT ε (StateM σ) β}

theorem run_bind_ok {a : α} (h : (x.run.run s).run = (.ok a, s')) :
    ((x >>= f).run.run s).run = ((f a).run.run s').run := by
  have hx : (x.run.run s : Id _) = (.ok a, s') := h
  show (ExceptT.bindCont f (x.run.run s).1).run (x.run.run s).2 = _
  rw [hx]
  rfl

theorem run_bind_error {e : ε} (h : (x.run.run s).run = (.error e, s')) :
    ((x >>= f).run.run s).run = (.error e, s') := by
  have hx : (x.run.run s : Id _) = (.error e, s') := h
  show (ExceptT.bindCont f (x.run.run s).1).run (x.run.run s).2 = _
  rw [hx]
  rfl

end bind

namespace Workspace

variable {α β : Type}

/-- The outcome of a computation that starts on a workspace, and the workspace that it leaves. -/
def perform (w : Workspace) (x : ExceptT Fault (StateM Workspace) α) :
    Except Fault α × Workspace :=
  (x.run.run w).run

@[simp] theorem perform_pure (w : Workspace) (a : α) : w.perform (pure a) = (.ok a, w) := rfl

@[simp] theorem perform_throw (w : Workspace) (f : Fault) :
    w.perform (throw f : ExceptT Fault (StateM Workspace) α) = (.error f, w) := rfl

@[simp] theorem perform_mk_pure (w : Workspace) (r : Except Fault α) :
    w.perform (ExceptT.mk (pure r)) = (r, w) := rfl

@[simp] theorem perform_lift (w : Workspace) (m : StateM Workspace α) :
    w.perform (ExceptT.lift m) = (.ok (m.run w).1, (m.run w).2) := rfl

section bind

variable {w w' : Workspace} {x : ExceptT Fault (StateM Workspace) α}
  {f : α → ExceptT Fault (StateM Workspace) β}

theorem perform_bind_ok {a : α} (h : w.perform x = (.ok a, w')) :
    w.perform (x >>= f) = w'.perform (f a) :=
  run_bind_ok h

theorem perform_bind_error {e : Fault} (h : w.perform x = (.error e, w')) :
    w.perform (x >>= f) = (.error e, w') :=
  run_bind_error h

end bind

@[simp] theorem perform_lift_bind (w : Workspace) (m : StateM Workspace α)
    (f : α → ExceptT Fault (StateM Workspace) β) :
    w.perform (ExceptT.lift m >>= f) = (m.run w).2.perform (f (m.run w).1) :=
  perform_bind_ok (perform_lift w m)

theorem perform_run_bind (w : Workspace) (x : ExceptT Fault (StateM Workspace) α)
    (f : Except Fault α → ExceptT Fault (StateM Workspace) β) :
    w.perform (ExceptT.lift x.run >>= f) = (w.perform x).2.perform (f (w.perform x).1) :=
  perform_lift_bind w x.run f

section acts

variable (w : Workspace) (p : Path)

@[simp] theorem run_readFile :
    (Host.readFile p : StateM Workspace _).run w = (w.found p, w.used) := rfl

@[simp] theorem run_writeFile (bytes : Bytes) :
    (Host.writeFile p bytes : StateM Workspace _).run w = w.written p bytes := rfl

@[simp] theorem run_isFile :
    (Host.isFile p : StateM Workspace _).run w = (w.seen p Tree.hasFile, w) := rfl

@[simp] theorem run_isFolder :
    (Host.isFolder p : StateM Workspace _).run w = (w.seen p Tree.hasFolder, w) := rfl

@[simp] theorem run_resolve :
    (Host.resolve p : StateM Workspace _).run w = (w.resolved p, w) := rfl

@[simp] theorem run_workingFolder :
    (Host.workingFolder : StateM Workspace _).run w = (w.cwd, w) := rfl

@[simp] theorem run_stopwatch : (Host.stopwatch : StateM Workspace _).run w = (0.0, w) := rfl

@[simp] theorem run_nap (seconds : Float) :
    (Host.nap seconds : StateM Workspace _).run w = w.rested seconds := rfl

@[simp] theorem run_record (e : Event) :
    (Host.record e : StateM Workspace _).run w = ((), w.noticed (.event e)) := rfl

@[simp] theorem run_logging : (Host.logging : StateM Workspace _).run w = (w.logging, w) := rfl

end acts

def silenced (w : Workspace) : Workspace := { w with notices := [] }

@[simp] theorem silenced_noticed (w : Workspace) (x : Notice) :
    (w.noticed x).silenced = w.silenced := rfl

theorem silenced_applyChange (w : Workspace) (p : Path) (c : Change) :
    (w.applyChange p c).silenced = w.silenced.applyChange p c := by
  cases c <;> rfl

theorem silenced_apply (w : Workspace) (changes : Changes) :
    (w.apply changes).silenced = w.silenced.apply changes := by
  induction changes generalizing w with
  | nil => rfl
  | cons c cs ih =>
    have h := ih (w.applyChange c.1 c.2)
    rw [silenced_applyChange] at h
    exact h

theorem silenced_napped (w : Workspace) (seconds : Float) :
    (w.napped seconds).silenced = w.silenced.napped seconds :=
  silenced_apply _ _

theorem silenced_rested (w : Workspace) (seconds : Float) : w.silenced.rested seconds =
    ((w.rested seconds).1, (w.rested seconds).2.silenced) := by
  have hpresent : w.silenced.present = w.present := rfl
  unfold rested
  rw [hpresent]
  cases w.present.napping seconds with
  | some m => rfl
  | none => exact congrArg _ (silenced_napped w seconds).symm

theorem exists_rested {w w' : Workspace} (h : w'.silenced = w.silenced) (seconds : Float) :
    ∃ v, v.silenced = (w.rested seconds).2.silenced ∧
      w'.rested seconds = ((w.rested seconds).1, v) := by
  have hsame := silenced_rested w' seconds
  rw [h, silenced_rested] at hsame
  exact ⟨(w'.rested seconds).2, (congrArg Prod.snd hsame).symm,
    Prod.ext (congrArg Prod.fst hsame).symm rfl⟩

theorem eq_of_rested_error {w w' : Workspace} {seconds : Float} {m : Mishap}
    (h : w.rested seconds = (.error m, w')) : w' = w := by
  unfold rested at h
  split at h
  · exact (congrArg Prod.snd h).symm
  · cases h

theorem tree_eq_of_silenced {w w' : Workspace} (h : w'.silenced = w.silenced) :
    w'.tree = w.tree :=
  (congrArg tree h : w'.silenced.tree = w.silenced.tree)

theorem cwd_eq_of_silenced {w w' : Workspace} (h : w'.silenced = w.silenced) : w'.cwd = w.cwd :=
  (congrArg cwd h : w'.silenced.cwd = w.silenced.cwd)

theorem obstacles_eq_of_silenced {w w' : Workspace} (h : w'.silenced = w.silenced) :
    w'.obstacles = w.obstacles :=
  (congrArg obstacles h : w'.silenced.obstacles = w.silenced.obstacles)

/-- Recording the events of a computation leaves everything but the notices as it was. -/
theorem perform_records (w : Workspace) (events : List Event) :
    ∃ w', w'.silenced = w.silenced ∧
      w.perform (events.forM fun e => ExceptT.lift (Host.record e)) = (.ok (), w') := by
  induction events generalizing w with
  | nil => exact ⟨w, rfl, rfl⟩
  | cons e events ih =>
    obtain ⟨w', hw', hp⟩ := ih (w.noticed (.event e))
    exact ⟨w', hw', (perform_lift_bind w _ _).trans hp⟩

theorem perform_traced (w : Workspace) (t : Traced α) :
    ∃ w', w'.silenced = w.silenced ∧ w.perform t.run = (t.result, w') := by
  obtain ⟨w', hw', hp⟩ := perform_records w t.events
  exact ⟨w', hw', (perform_bind_ok hp).trans (perform_mk_pure w' t.result)⟩

theorem read_of_found {w : Workspace} {p : Path} {bytes : Bytes} (h : w.found p = .ok bytes) :
    w.tree.read w.cwd p = .ok bytes := by
  unfold found at h
  split at h
  · cases h
  · exact h

theorem refused_or_met {p : Path} {met : Option PathFault} {f : PathFault}
    (h : (p.refusal? <|> met) = some f) : p.refusal? = some f ∨ met = some f := by
  rw [Option.orElse_eq_orElse, Option.orElse_eq_or, Option.or_eq_some_iff] at h
  exact h.imp_right And.right

theorem found_eq_error {w : Workspace} {p : Path} {f : PathFault} (h : w.found p = .error f) :
    p.refusal? = some f ∨ w.present.reading p = some f ∨ w.tree.read w.cwd p = .error f := by
  unfold found at h
  split at h
  · next hmet =>
    obtain rfl := Except.error.inj h
    exact (refused_or_met hmet).imp_right .inl
  · exact .inr (.inr h)

theorem resolved_eq_error {w : Workspace} {p : Path} {f : PathFault}
    (h : w.resolved p = .error f) : p.refusal? = some f ∨ w.present.resolving p = some f := by
  unfold resolved at h
  split at h
  · next hmet =>
    obtain rfl := Except.error.inj h
    exact refused_or_met hmet
  · cases h

theorem written_eq_error {w : Workspace} {p : Path} {bytes : Bytes} {f : PathFault}
    (h : (w.written p bytes).1 = .error f) :
    p.refusal? = some f ∨ (∃ left, w.present.writing p = some (f, left)) ∨
      ∃ left, w.tree.write w.cwd p left w.writeTime = .error f := by
  unfold written at h
  dsimp only at h
  split at h
  · next hrefused => exact .inl (hrefused.trans (congrArg some (Except.error.inj h)))
  · next hmet =>
    obtain rfl := Except.error.inj h
    exact .inr (.inl ⟨_, hmet⟩)
  · next left hrefused hmet =>
    split at h
    · obtain rfl := Except.error.inj h
      exact .inr (.inl ⟨_, hmet⟩)
    · next hwrite =>
      obtain rfl := Except.error.inj h
      exact .inr (.inr ⟨_, hwrite⟩)
  · split at h
    · cases h
    · next hwrite =>
      obtain rfl := Except.error.inj h
      exact .inr (.inr ⟨_, hwrite⟩)

theorem obstacles_written (w : Workspace) (p : Path) (bytes : Bytes) :
    (w.written p bytes).2.obstacles = w.obstacles := by
  unfold written
  dsimp only
  split
  · rfl
  · rfl
  all_goals split <;> rfl

theorem cwd_applyChange (w : Workspace) (p : Path) (c : Change) :
    (w.applyChange p c).cwd = w.cwd := by
  cases c <;> rfl

theorem cwd_apply (w : Workspace) (changes : Changes) : (w.apply changes).cwd = w.cwd := by
  induction changes generalizing w with
  | nil => rfl
  | cons c cs ih => exact (ih (w.applyChange c.1 c.2)).trans (cwd_applyChange w c.1 c.2)

theorem cwd_napped (w : Workspace) (seconds : Float) : (w.napped seconds).cwd = w.cwd :=
  cwd_apply _ _

theorem obstacles_apply (w : Workspace) (changes : Changes) :
    (w.apply changes).obstacles = w.obstacles := by
  induction changes generalizing w with
  | nil => rfl
  | cons c cs ih =>
    refine (ih (w.applyChange c.1 c.2)).trans ?_
    unfold applyChange
    cases c.2 <;> rfl

theorem obstacles_napped (w : Workspace) (seconds : Float) :
    (w.napped seconds).obstacles = w.obstacles :=
  obstacles_apply _ _

theorem napped_of_script_nil {w : Workspace} (h : w.napScript = []) (seconds : Float) :
    w.napped seconds = { w with naps := w.naps ++ [seconds] } := by
  simp [napped, h, apply]

end Workspace

end Literate

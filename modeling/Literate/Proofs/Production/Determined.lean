import Literate.Proofs.Production.Processing

namespace Literate

/-- What a computation finds: the files, and how often files have been used, which decides on what
goes wrong from then on. -/
structure Moment where
  tree : Tree
  uses : Nat

namespace Workspace

variable {α β : Type} {w v v' : Workspace} {m : Moment}

def moment (w : Workspace) : Moment := ⟨w.tree, w.uses⟩

def moved (w : Workspace) (m : Moment) : Workspace := { w with tree := m.tree, uses := m.uses }

/-- At a moment of `w`, whatever has been reported before and however often there has been a nap. -/
def StandsAt (w : Workspace) (m : Moment) (v : Workspace) : Prop :=
  ∃ notices naps, v = { w.moved m with notices, naps }

namespace StandsAt

theorem moment_eq (h : StandsAt w m v) : v.moment = m := by
  obtain ⟨notices, naps, rfl⟩ := h
  rfl

theorem self (w : Workspace) (m : Moment) : StandsAt w m (w.moved m) := ⟨w.notices, w.naps, rfl⟩

theorem silenced (h : StandsAt w m v) (hsame : v'.silenced = v.silenced) : StandsAt w m v' := by
  obtain ⟨notices, naps, rfl⟩ := h
  have hv' : v' = { v'.silenced with notices := v'.notices } := rfl
  rw [hsame] at hv'
  exact ⟨v'.notices, naps, hv'⟩

end StandsAt

/-- At a moment of `w`, the outcome of a computation is always the same, and so is the moment that
it leads to. -/
def Determined (w : Workspace) (x : ExceptT Fault (StateM Workspace) α) (m : Moment) : Prop :=
  ∃ r m', ∀ v, StandsAt w m v → ∃ v', v.perform x = (r, v') ∧ StandsAt w m' v'

theorem Determined.bind {x : ExceptT Fault (StateM Workspace) α}
    {f : α → ExceptT Fault (StateM Workspace) β} (hx : Determined w x m)
    (hf : ∀ a m₁, Determined w (f a) m₁) : Determined w (x >>= f) m := by
  obtain ⟨r, m₁, hx⟩ := hx
  cases r with
  | error e =>
    refine ⟨.error e, m₁, fun v hv => ?_⟩
    obtain ⟨v₁, hrun, hv₁⟩ := hx v hv
    exact ⟨v₁, perform_bind_error hrun, hv₁⟩
  | ok a =>
    obtain ⟨r, m', hf⟩ := hf a m₁
    refine ⟨r, m', fun v hv => ?_⟩
    obtain ⟨v₁, hrun, hv₁⟩ := hx v hv
    rw [perform_bind_ok hrun]
    exact hf v₁ hv₁

theorem determined_mk (r : Except Fault α) : Determined w (ExceptT.mk (pure r)) m :=
  ⟨r, m, fun v hv => ⟨v, rfl, hv⟩⟩

theorem determined_pure (a : α) : Determined w (pure a) m := determined_mk (.ok a)

theorem determined_throw (f : Fault) :
    Determined w (throw f : ExceptT Fault (StateM Workspace) α) m := determined_mk (.error f)

theorem determined_record (e : Event) : Determined w (ExceptT.lift (Host.record e)) m :=
  ⟨.ok (), m, fun v hv => ⟨v.noticed (.event e), rfl, hv.silenced rfl⟩⟩

theorem determined_stopwatch : Determined w (ExceptT.lift Host.stopwatch) m :=
  ⟨.ok 0.0, m, fun v hv => ⟨v, rfl, hv⟩⟩

theorem determined_logging : Determined w (ExceptT.lift Host.logging) m := by
  refine ⟨.ok w.logging, m, ?_⟩
  rintro v ⟨notices, naps, rfl⟩
  exact ⟨_, rfl, notices, naps, rfl⟩

theorem determined_readFile (p : Path) : Determined w (ExceptT.lift (Host.readFile p)) m := by
  refine ⟨.ok ((w.moved m).found p), ⟨m.tree, m.uses + 1⟩, ?_⟩
  rintro v ⟨notices, naps, rfl⟩
  exact ⟨_, rfl, notices, naps, rfl⟩

theorem determined_resolve (p : Path) : Determined w (ExceptT.lift (Host.resolve p)) m := by
  refine ⟨.ok ((w.moved m).resolved p), m, ?_⟩
  rintro v ⟨notices, naps, rfl⟩
  exact ⟨_, rfl, notices, naps, rfl⟩

theorem exists_moved_written (w : Workspace) (p : Path) (bytes : Bytes) :
    ∃ m, (w.written p bytes).2 = w.moved m := by
  unfold written
  dsimp only
  split
  · exact ⟨w.used.moment, rfl⟩
  · exact ⟨w.used.moment, rfl⟩
  all_goals split
  · exact ⟨⟨_, w.uses + 1⟩, rfl⟩
  · exact ⟨w.used.moment, rfl⟩
  · exact ⟨⟨_, w.uses + 1⟩, rfl⟩
  · exact ⟨w.used.moment, rfl⟩

theorem written_eq (w : Workspace) (notices : List Notice) (naps : List Float) (p : Path)
    (bytes : Bytes) : ({ w with notices, naps } : Workspace).written p bytes =
      ((w.written p bytes).1, { (w.written p bytes).2 with notices, naps }) := by
  unfold written
  dsimp only [present]
  rcases p.refusal? with _ | f
  · rcases (w.obstacles w.uses).writing p with _ | ⟨f, _ | left⟩
    · dsimp only
      rcases w.tree.write w.cwd p bytes w.writeTime with f | t <;> rfl
    · rfl
    · dsimp only
      rcases w.tree.write w.cwd p left w.writeTime with f | t <;> rfl
  · rfl

theorem determined_writeFile (p : Path) (bytes : Bytes) :
    Determined w (ExceptT.lift (Host.writeFile p bytes)) m := by
  obtain ⟨m', hm'⟩ := exists_moved_written (w.moved m) p bytes
  refine ⟨.ok ((w.moved m).written p bytes).1, m', ?_⟩
  rintro v ⟨notices, naps, rfl⟩
  have hwritten := written_eq (w.moved m) notices naps p bytes
  rw [hm'] at hwritten
  exact ⟨_, congrArg (fun r => (Except.ok r.1, r.2)) hwritten, notices, naps, rfl⟩

theorem determined_nap (halone : w.napScript = []) (seconds : Float) :
    Determined w (ExceptT.lift (Host.nap seconds)) m := by
  refine ⟨.ok ((w.moved m).rested seconds).1, m, ?_⟩
  rintro v ⟨notices, naps, rfl⟩
  rw [perform_lift, run_nap]
  unfold rested
  dsimp only [present]
  rcases ((w.moved m).obstacles (w.moved m).uses).napping seconds with _ | f
  · exact ⟨_, rfl, notices, naps ++ [seconds],
      napped_of_script_nil (w := { w.moved m with notices, naps }) halone seconds⟩
  · exact ⟨_, rfl, notices, naps, rfl⟩

theorem determined_run (t : Traced α) : Determined w t.run m := by
  refine ⟨t.result, m, fun v hv => ?_⟩
  obtain ⟨v', hsame, hrun⟩ := perform_traced v t
  exact ⟨v', hrun, hv.silenced hsame⟩

end Workspace

open Workspace

variable {lib : Libraries} {settings : Settings} {source path : Path} {w : Workspace} {m : Moment}

theorem Source.determined_attempts (halone : w.napScript = []) (failed left : Nat) :
    Determined w (attempts lib settings source failed left) m := by
  -- an attempt ends the reading or leaves one less, after a nap that is determined too
  induction left generalizing failed m with
  | zero =>
    refine (determined_readFile source).bind fun r m₁ => ?_
    cases r with
    | ok bytes => exact determined_mk _
    | error f =>
      dsimp only
      split
      · exact determined_throw _
      · exact determined_throw _
  | succ left ih =>
    refine (determined_readFile source).bind fun r m₁ => ?_
    cases r with
    | ok bytes => exact determined_mk _
    | error f =>
      dsimp only
      split
      · refine (determined_record _).bind fun _ m₂ => ?_
        refine (determined_nap halone _).bind fun rested m₃ => ?_
        cases rested with
        | ok _ => exact ih (failed + 1)
        | error _ => exact determined_throw _
      · exact determined_throw _

theorem Source.determined_read (halone : w.napScript = []) :
    Determined w (read lib settings source) m := by
  unfold read
  split
  · exact determined_throw _
  · exact determined_attempts halone 0 _

namespace Processing

theorem determined_placeOf (path : Path) : Determined w (placeOf path) m := by
  refine (determined_resolve path).bind fun r m₁ => ?_
  cases r with
  | ok place => exact determined_pure _
  | error f => exact determined_throw _

theorem determined_overwrites (outputs : Outputs) :
    Determined w (overwrites source outputs) m := by
  induction outputs generalizing m with
  | nil => exact determined_pure _
  | cons o outputs ih =>
    refine (determined_placeOf o.1).bind fun place m₁ => ?_
    refine (determined_placeOf source).bind fun own m₂ => ?_
    split
    · exact determined_pure _
    · exact ih

theorem determined_writeOutput (contents : Text) :
    Determined w (writeOutput lib settings source path contents) m := by
  refine (determined_writeFile path _).bind fun r m₁ => ?_
  cases r with
  | error f =>
    dsimp only
    split
    · exact determined_throw _
    · exact determined_throw _
  | ok _ =>
    dsimp only
    split
    · exact determined_throw _
    · exact determined_throw _
    · exact determined_record _

theorem determined_writeAll (outputs : Outputs) :
    Determined w (writeAll lib settings source outputs) m := by
  induction outputs generalizing m with
  | nil => exact determined_pure _
  | cons o outputs ih => exact (determined_writeOutput o.2).bind fun _ _ => ih

theorem determined_conclude (start : Float) (outputs : Outputs) :
    Determined w (conclude lib settings source start outputs) m := by
  refine (determined_writeAll outputs).bind fun _ _ => ?_
  refine determined_stopwatch.bind fun stop _ => ?_
  refine determined_logging.bind fun logging _ => ?_
  split
  · exact (determined_record _).bind fun _ _ => determined_pure _
  · exact determined_pure _

/-- While nobody else changes files, processing a document is determined by the moment. -/
theorem determined_file (lib : Libraries) (settings : Settings) (options : OutputOptions)
    (source : Path) (halone : w.napScript = []) (m : Moment) :
    Determined w (file lib settings options source) m := by
  refine determined_stopwatch.bind fun start _ => ?_
  refine (determined_record _).bind fun _ _ => ?_
  refine (Source.determined_read halone).bind fun text _ => ?_
  refine (determined_run _).bind fun outputs _ => ?_
  refine (determined_overwrites outputs).bind fun overwritten _ => ?_
  dsimp only
  split
  · exact (determined_throw _).bind fun _ _ => determined_conclude start outputs
  · exact determined_conclude start outputs

end Processing

end Literate

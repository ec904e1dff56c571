import Literate.Production.Source
import Literate.Proofs.Host.Workspace

namespace Literate.Source

/-- How reading a source ends when `failed` attempts have failed and as many more as given may fail,
and the workspace on which it ends: that of the last attempt. -/
def attempted (lib : Libraries) (settings : Settings) (source : Path) (failed : Nat) :
    Nat → Workspace → Except Fault Text × Workspace
  | 0, w =>
    match w.found source with
    | .ok bytes => (decode lib settings source bytes, w.used)
    | .error f =>
      if f.ofSystem then (.error (.unreadableSource source.toText (failed + 1) f), w.used)
      else (.error (.unreachable f), w.used)
  | left + 1, w =>
    match w.found source with
    | .ok bytes => (decode lib settings source bytes, w.used)
    | .error f =>
      if f.ofSystem then
        match w.used.rested settings.retryDelay with
        | (.ok _, w') => attempted lib settings source (failed + 1) left w'
        | (.error m, _) => (.error (.ofMishap m), w.used)
      else (.error (.unreachable f), w.used)

/-- The outcome of reading a source, and the workspace on which it ends. -/
def reading (lib : Libraries) (settings : Settings) (source : Path) (w : Workspace) :
    Except Fault Text × Workspace :=
  match Libraries.nameRefusal? settings.encoding with
  | some m => (.error (.ofMishap m), w)
  | none => attempted lib settings source 0 settings.maxRetries w

section

variable (lib : Libraries) (settings : Settings) (source : Path) (failed left : Nat)
  (w : Workspace)

theorem attempted_silenced : attempted lib settings source failed left w.silenced =
    ((attempted lib settings source failed left w).1,
      (attempted lib settings source failed left w).2.silenced) := by
  have hfound : w.silenced.found source = w.found source := rfl
  induction left generalizing failed w with
  | zero =>
    unfold attempted
    rw [hfound]
    rcases w.found source with f | bytes
    · dsimp only
      split <;> rfl
    · rfl
  | succ left ih =>
    have hrested : w.silenced.used.rested settings.retryDelay =
        ((w.used.rested settings.retryDelay).1,
          (w.used.rested settings.retryDelay).2.silenced) :=
      Workspace.silenced_rested w.used settings.retryDelay
    unfold attempted
    rw [hfound, hrested]
    -- neither the look nor the nap depends on what was told
    rcases w.found source with f | bytes
    · dsimp only
      split
      · rcases w.used.rested settings.retryDelay with ⟨m | _, w'⟩
        · rfl
        · exact ih (failed + 1) w' rfl
      · rfl
    · rfl

theorem attempted_congr {w w' : Workspace} (h : w'.silenced = w.silenced) :
    (attempted lib settings source failed left w').1 =
        (attempted lib settings source failed left w).1 ∧
      (attempted lib settings source failed left w').2.silenced =
        (attempted lib settings source failed left w).2.silenced := by
  have hsame := attempted_silenced lib settings source failed left w'
  rw [h, attempted_silenced] at hsame
  exact ⟨(congrArg Prod.fst hsame).symm, (congrArg Prod.snd hsame).symm⟩

/-- The step of the induction: one attempt either decides or is followed by the others. -/
theorem perform_attempts_succ : w.perform (attempts lib settings source failed (left + 1)) =
    match w.found source with
    | .ok bytes => (decode lib settings source bytes, w.used)
    | .error f =>
      if f.ofSystem then
        match (w.used.noticed (.event (retryEvent settings source (failed + 1) f))).rested
            settings.retryDelay with
        | (.ok _, w') => w'.perform (attempts lib settings source (failed + 1) left)
        | (.error m, w') => (.error (.ofMishap m), w')
      else (.error (.unreachable f), w.used) := by
  rw [attempts, Workspace.perform_lift_bind, Workspace.run_readFile]
  rcases w.found source with f | bytes
  · dsimp only
    split
    · rw [Workspace.perform_lift_bind, Workspace.run_record, Workspace.perform_lift_bind,
        Workspace.run_nap]
      rcases (w.used.noticed _).rested settings.retryDelay with ⟨m | _, w'⟩
      · rfl
      · rfl
    · rfl
  · rfl

theorem perform_attempts : ∃ w',
    w'.silenced = (attempted lib settings source failed left w).2.silenced ∧
      w.perform (attempts lib settings source failed left) =
        ((attempted lib settings source failed left w).1, w') := by
  induction left generalizing failed w with
  | zero =>
    refine ⟨w.used, ?_, ?_⟩
    · unfold attempted
      rcases w.found source with f | bytes
      · dsimp only
        split <;> rfl
      · rfl
    · rw [attempts, Workspace.perform_lift_bind, Workspace.run_readFile, attempted]
      rcases w.found source with f | bytes
      · dsimp only
        split <;> rfl
      · rfl
  | succ left ih =>
    rw [perform_attempts_succ, attempted]
    rcases w.found source with f | bytes
    · dsimp only
      split
      · -- the nap starts on a workspace that differs by the report of this attempt
        obtain ⟨w₁, hw₁, hreported⟩ := Workspace.exists_rested
          (Workspace.silenced_noticed w.used
            (.event (retryEvent settings source (failed + 1) f))) settings.retryDelay
        rw [hreported]
        rcases hrested : w.used.rested settings.retryDelay with ⟨m | _, w₂⟩
        · rw [hrested] at hw₁
          rw [Workspace.eq_of_rested_error hrested] at hw₁
          exact ⟨w₁, hw₁, rfl⟩
        · rw [hrested] at hw₁
          obtain ⟨hsame, hleft⟩ := attempted_congr lib settings source (failed + 1) left hw₁
          obtain ⟨w', hw', hrun⟩ := ih (failed + 1) w₁
          exact ⟨w', hw'.trans hleft, hrun.trans (congrArg (·, w') hsame)⟩
      · exact ⟨w.used, rfl, rfl⟩
    · exact ⟨w.used, rfl, rfl⟩

theorem perform_read_noticed (x : Notice) : ∃ w',
    w'.silenced = (reading lib settings source w).2.silenced ∧
      (w.noticed x).perform (read lib settings source) =
        ((reading lib settings source w).1, w') := by
  unfold read reading
  cases Libraries.nameRefusal? settings.encoding with
  | some m => exact ⟨w.noticed x, rfl, rfl⟩
  | none =>
    obtain ⟨hsame, hleft⟩ := attempted_congr lib settings source 0 settings.maxRetries
      (Workspace.silenced_noticed w x)
    obtain ⟨w', hw', hrun⟩ :=
      perform_attempts lib settings source 0 settings.maxRetries (w.noticed x)
    exact ⟨w', hw'.trans hleft, hrun.trans (congrArg (·, w') hsame)⟩

end

/-- How the last attempt to read a source ends on the workspace that it finds. -/
inductive Ended (lib : Libraries) (settings : Settings) (source : Path) (v : Workspace) :
    Except Fault Text → Prop where
  | decoded {bytes : Bytes} (found : v.found source = .ok bytes) :
    Ended lib settings source v (decode lib settings source bytes)
  | unreadable {f : PathFault} {attempts : Nat} (found : v.found source = .error f) :
    Ended lib settings source v (.error (.unreadableSource source.toText attempts f))
  | unreachable {f : PathFault} (found : v.found source = .error f)
    (foreign : f.ofSystem = false) : Ended lib settings source v (.error (.unreachable f))
  | restless {m : Mishap} (sleepless : v.used.present.napping settings.retryDelay = some m) :
    Ended lib settings source v (.error (.ofMishap m))

theorem Ended.exists_bytes {lib : Libraries} {settings : Settings} {source : Path} {v : Workspace}
    {r : Except Fault Text} (h : Ended lib settings source v r) {text : Text} (hr : r = .ok text) :
    ∃ bytes, v.found source = .ok bytes ∧ decode lib settings source bytes = .ok text := by
  cases h with
  | decoded hfound => exact ⟨_, hfound, hr⟩
  | unreadable hfound => cases hr
  | unreachable hfound hforeign => cases hr
  | restless hsleepless => cases hr

section

variable {lib : Libraries} {settings : Settings} {source : Path} {failed left : Nat}
  {w : Workspace} {P : Workspace → Prop}

theorem exists_ended (hused : ∀ v, P v → P v.used)
    (hnap : ∀ v, P v → P (v.napped settings.retryDelay)) (hw : P w) :
    ∃ v, P v ∧ Ended lib settings source v (attempted lib settings source failed left w).1 ∧
      (attempted lib settings source failed left w).2 = v.used := by
  -- each attempt but the last leaves a workspace that was used and napped on
  induction left generalizing failed w with
  | zero =>
    unfold attempted
    split
    · next hfound => exact ⟨w, hw, .decoded hfound, rfl⟩
    · next hfound =>
      split
      · exact ⟨w, hw, .unreadable hfound, rfl⟩
      · next hforeign => exact ⟨w, hw, .unreachable hfound (by simpa using hforeign), rfl⟩
  | succ left ih =>
    unfold attempted
    split
    · next hfound => exact ⟨w, hw, .decoded hfound, rfl⟩
    · next hfound =>
      split
      · cases hnapping : w.used.present.napping settings.retryDelay with
        | some m =>
          simp only [Workspace.rested, hnapping]
          exact ⟨w, hw, .restless hnapping, rfl⟩
        | none =>
          simp only [Workspace.rested, hnapping]
          exact ih (hnap _ (hused w hw))
      · next hforeign => exact ⟨w, hw, .unreachable hfound (by simpa using hforeign), rfl⟩

/-- A reading is refused for the name of the encoding or ends with an attempt. -/
theorem reading_cases (lib : Libraries) (settings : Settings) (source : Path) {w : Workspace}
    {P : Workspace → Prop} (hused : ∀ v, P v → P v.used)
    (hnap : ∀ v, P v → P (v.napped settings.retryDelay)) (hw : P w) :
    (∃ m, Libraries.nameRefusal? settings.encoding = some m ∧
        reading lib settings source w = (.error (.ofMishap m), w)) ∨
      ∃ v, P v ∧ Ended lib settings source v (reading lib settings source w).1 ∧
        (reading lib settings source w).2 = v.used := by
  unfold reading
  cases hname : Libraries.nameRefusal? settings.encoding with
  | some m => exact .inl ⟨m, rfl, rfl⟩
  | none => exact .inr (exists_ended hused hnap hw)

theorem reading_invariant (hused : ∀ v, P v → P v.used)
    (hnap : ∀ v, P v → P (v.napped settings.retryDelay)) (hw : P w) :
    P (reading lib settings source w).2 := by
  rcases reading_cases lib settings source hused hnap hw with
    ⟨m, -, hreading⟩ | ⟨v, hv, -, hlast⟩
  · rw [hreading]
    exact hw
  · rw [hlast]
    exact hused v hv

theorem exists_bytes_of_reading {v : Workspace} {text : Text}
    (h : reading lib settings source w = (.ok text, v)) :
    ∃ bytes, v.tree.read v.cwd source = .ok bytes ∧
      decode lib settings source bytes = .ok text := by
  rcases reading_cases lib settings source (w := w) (P := fun _ => True) (fun _ _ => trivial)
    (fun _ _ => trivial) trivial with
    ⟨m, -, hreading⟩ | ⟨u, -, hended, hlast⟩
  · cases hreading.symm.trans h
  · obtain ⟨bytes, hfound, hdecoded⟩ := hended.exists_bytes (congrArg Prod.fst h)
    obtain rfl : v = u.used := (congrArg Prod.snd h).symm.trans hlast
    have hread : u.tree.read u.cwd source = .ok bytes := Workspace.read_of_found hfound
    exact ⟨bytes, hread, hdecoded⟩

end

theorem cwd_reading (lib : Libraries) (settings : Settings) (source : Path) (w : Workspace) :
    (reading lib settings source w).2.cwd = w.cwd :=
  reading_invariant (P := fun v => v.cwd = w.cwd) (fun _ hv => hv)
    (fun v hv => (Workspace.cwd_napped v _).trans hv) rfl

theorem obstacles_reading (lib : Libraries) (settings : Settings) (source : Path) (w : Workspace) :
    (reading lib settings source w).2.obstacles = w.obstacles :=
  reading_invariant (P := fun v => v.obstacles = w.obstacles) (fun _ hv => hv)
    (fun v hv => (Workspace.obstacles_napped v _).trans hv) rfl

theorem reading_of_script_nil (lib : Libraries) (settings : Settings) (source : Path)
    {w : Workspace} (h : w.napScript = []) :
    ∃ uses naps, (reading lib settings source w).2 = { w with uses, naps } := by
  refine reading_invariant (P := fun v => ∃ uses naps, v = { w with uses, naps }) ?_ ?_
    ⟨w.uses, w.naps, rfl⟩
  · rintro v ⟨uses, naps, rfl⟩
    exact ⟨uses + 1, naps, rfl⟩
  · rintro v ⟨uses, naps, rfl⟩
    exact ⟨uses, naps ++ [settings.retryDelay],
      Workspace.napped_of_script_nil (w := { w with uses, naps }) h _⟩

end Literate.Source

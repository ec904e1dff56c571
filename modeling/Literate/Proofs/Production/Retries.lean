import Literate.Production.Source
import Literate.Proofs.Host.Workspace
import Mathlib.Data.List.Basic

namespace Literate.Source

/-- What is done in order to read a source. -/
inductive Deed where
  | read (source : Path)
  | record (e : Event)
  | nap (seconds : Float)

def Deed.isRead : Deed → Bool
  | read _ => true
  | _ => false

def Deed.nap? : Deed → Option Float
  | nap seconds => some seconds
  | _ => none

def reads (deeds : List Deed) : Nat := deeds.countP Deed.isRead

def naps (deeds : List Deed) : List Float := deeds.filterMap Deed.nap?

/-- A machine on which every reading finds what a script says, and which keeps what is done. -/
structure Rehearsal where
  script : Nat → Except PathFault Bytes
  deeds : List Deed

namespace Rehearsal

def did (r : Rehearsal) (d : Deed) : Rehearsal := { r with deeds := r.deeds ++ [d] }

/-- Reading a source asks for nothing but the first three. -/
instance : Host (StateM Rehearsal) where
  readFile p := fun r => (r.script (reads r.deeds), r.did (.read p))
  record e := fun r => ((), r.did (.record e))
  nap seconds := fun r => (.ok (), r.did (.nap seconds))
  writeFile _ _ := pure (.ok ())
  isFile _ := pure (.ok true)
  isFolder _ := pure (.ok true)
  modified _ := pure (.ok (.int 0))
  resolve _ := pure (.ok [])
  workingFolder := pure []
  now := pure (.int 0)
  stopwatch := pure 0.0
  pause _ := pure true
  logging := pure true
  say _ := pure ()
  freshId := pure []

variable {α : Type}

def perform (r : Rehearsal) (x : ExceptT Fault (StateM Rehearsal) α) :
    Except Fault α × Rehearsal :=
  (x.run.run r).run

end Rehearsal

/-- What a computation gives on a machine with the script, and what it does there. -/
def rehearse {α : Type} (script : Nat → Except PathFault Bytes)
    (x : ExceptT Fault (StateM Rehearsal) α) : Except Fault α × List Deed :=
  let (result, r) := Rehearsal.perform ⟨script, []⟩ x
  (result, r.deeds)

variable (settings : Settings) (source : Path)

/-- What follows on the attempt after `failed` others when it fails as well but is not the last. -/
def retry (failed : Nat) (f : PathFault) : List Deed :=
  [.read source, .record (retryEvent settings source (failed + 1) f), .nap settings.retryDelay]

def retries (faults : Nat → PathFault) (failed : Nat) : List Deed :=
  (List.range failed).flatMap fun k => retry settings source k (faults k)

theorem retries_succ (faults : Nat → PathFault) (failed : Nat) :
    retries settings source faults (failed + 1) =
      retries settings source faults failed ++ retry settings source failed (faults failed) := by
  rw [retries, List.range_succ, List.flatMap_append, List.flatMap_singleton, retries]

theorem reads_retries (faults : Nat → PathFault) (failed : Nat) :
    reads (retries settings source faults failed) = failed := by
  induction failed with
  | zero => rfl
  | succ failed ih =>
    rw [retries_succ, reads, List.countP_append]
    exact congrArg (· + 1) ih

theorem naps_retries (faults : Nat → PathFault) (failed : Nat) :
    naps (retries settings source faults failed) = List.replicate failed settings.retryDelay := by
  induction failed with
  | zero => rfl
  | succ failed ih =>
    rw [retries_succ, naps, List.filterMap_append, List.replicate_succ']
    exact congrArg (· ++ [settings.retryDelay]) ih

section

variable {lib : Libraries} {settings source} {r : Rehearsal} {failed left : Nat} {f : PathFault}
  {bytes : Bytes}

theorem perform_readFile (r : Rehearsal) (source : Path) :
    r.perform (ExceptT.lift (Host.readFile source)) =
      (.ok (r.script (reads r.deeds)), r.did (.read source)) := rfl

theorem perform_attempts_of_ok (h : r.script (reads r.deeds) = .ok bytes) :
    r.perform (attempts lib settings source failed left) =
      (decode lib settings source bytes, r.did (.read source)) := by
  have hread := perform_readFile r source
  rw [h] at hread
  cases left with
  | zero => exact run_bind_ok hread
  | succ left => exact run_bind_ok hread

theorem perform_attempts_of_foreign (h : r.script (reads r.deeds) = .error f)
    (hforeign : f.ofSystem = false) :
    r.perform (attempts lib settings source failed left) =
      (.error (.unreachable f), r.did (.read source)) := by
  have hread := perform_readFile r source
  rw [h] at hread
  cases left with
  | zero =>
    refine (run_bind_ok hread).trans ?_
    simp only [hforeign, Bool.false_eq_true, if_false]
    rfl
  | succ left =>
    refine (run_bind_ok hread).trans ?_
    simp only [hforeign, Bool.false_eq_true, if_false]
    rfl

theorem perform_attempts_of_last (h : r.script (reads r.deeds) = .error f)
    (hsystem : f.ofSystem = true) :
    r.perform (attempts lib settings source failed 0) =
      (.error (.unreadableSource source.toText (failed + 1) f), r.did (.read source)) := by
  have hread := perform_readFile r source
  rw [h] at hread
  refine (run_bind_ok hread).trans ?_
  simp only [hsystem, if_true]
  rfl

theorem perform_attempts_of_error (h : r.script (reads r.deeds) = .error f)
    (hsystem : f.ofSystem = true) :
    r.perform (attempts lib settings source failed (left + 1)) =
      Rehearsal.perform { r with deeds := r.deeds ++ retry settings source failed f }
        (attempts lib settings source (failed + 1) left) := by
  have hread := perform_readFile r source
  rw [h] at hread
  have hdeeds : ((r.did (.read source)).did
      (.record (retryEvent settings source (failed + 1) f))).did (.nap settings.retryDelay) =
        { r with deeds := r.deeds ++ retry settings source failed f } := by
    simp [Rehearsal.did, retry]
  rw [← hdeeds]
  refine (run_bind_ok hread).trans ?_
  simp only [hsystem, if_true]
  rfl

end

variable {lib : Libraries} {settings source} {script : Nat → Except PathFault Bytes}
  {faults : Nat → PathFault}

/-- The first attempts fail, as the file system has found. -/
def FailFirst (script : Nat → Except PathFault Bytes) (faults : Nat → PathFault) (m : Nat) : Prop :=
  ∀ k < m, script k = .error (faults k) ∧ (faults k).ofSystem = true

/-- As long as the attempts fail, what remains of the reading is the attempts that are left. -/
theorem perform_read {m : Nat} (hname : Libraries.nameRefusal? settings.encoding = none)
    (hm : m ≤ settings.maxRetries) (h : FailFirst script faults m) :
    Rehearsal.perform ⟨script, []⟩ (read lib settings source) =
      Rehearsal.perform ⟨script, retries settings source faults m⟩
        (attempts lib settings source m (settings.maxRetries - m)) := by
  induction m with
  | zero =>
    rw [read, hname]
    rfl
  | succ m ih =>
    obtain ⟨hfault, hsystem⟩ := h m (Nat.lt_succ_self m)
    have hnow : script (reads (retries settings source faults m)) = .error (faults m) := by
      rw [reads_retries]
      exact hfault
    have hleft : settings.maxRetries - m = settings.maxRetries - (m + 1) + 1 := by omega
    rw [ih (Nat.le_of_succ_le hm) fun k hk => h k (Nat.lt_succ_of_lt hk), hleft, retries_succ]
    exact perform_attempts_of_error hnow hsystem

section

variable {m : Nat} (hname : Libraries.nameRefusal? settings.encoding = none)

include hname

theorem rehearse_read_of_ok {bytes : Bytes} (hm : m ≤ settings.maxRetries)
    (h : FailFirst script faults m) (hbytes : script m = .ok bytes) :
    rehearse script (read lib settings source) = (decode lib settings source bytes,
      retries settings source faults m ++ [.read source]) := by
  have hlast : script (reads (retries settings source faults m)) = .ok bytes := by
    rw [reads_retries, hbytes]
  rw [rehearse, perform_read hname hm h, perform_attempts_of_ok hlast]
  rfl

theorem rehearse_read_of_foreign {f : PathFault} (hm : m ≤ settings.maxRetries)
    (h : FailFirst script faults m) (hf : script m = .error f) (hforeign : f.ofSystem = false) :
    rehearse script (read lib settings source) = (.error (.unreachable f),
      retries settings source faults m ++ [.read source]) := by
  have hlast : script (reads (retries settings source faults m)) = .error f := by
    rw [reads_retries, hf]
  rw [rehearse, perform_read hname hm h, perform_attempts_of_foreign hlast hforeign]
  rfl

theorem rehearse_read_of_error (h : FailFirst script faults (settings.maxRetries + 1)) :
    rehearse script (read lib settings source) =
      (.error (.unreadableSource source.toText (settings.maxRetries + 1)
        (faults settings.maxRetries)),
      retries settings source faults settings.maxRetries ++ [.read source]) := by
  obtain ⟨hfault, hsystem⟩ := h _ (Nat.lt_succ_self _)
  have hlast : script (reads (retries settings source faults settings.maxRetries)) =
      .error (faults settings.maxRetries) := by
    rw [reads_retries]
    exact hfault
  rw [rehearse, perform_read hname (Nat.le_refl _) fun k hk => h k (Nat.lt_succ_of_lt hk),
    Nat.sub_self, perform_attempts_of_last hlast hsystem]
  rfl

end

section

variable {n : Type → Type} [Monad n] [Host n]

/-- One attempt for each of the numbers. What would come behind the last one is `none`. -/
def eachAttempt (lib : Libraries) (settings : Settings) (source : Path) :
    List Nat → ExceptT Fault n (Option Text)
  | [] => pure none
  | k :: ks => do
    match ← ExceptT.lift (Host.readFile source) with
    | .ok bytes => some <$> ExceptT.mk (pure (decode lib settings source bytes))
    | .error f =>
      if f.ofSystem then
        if k < settings.maxRetries then
          ExceptT.lift (Host.record (retryEvent settings source (k + 1) f))
          match ← ExceptT.lift (Host.nap settings.retryDelay) with
          | .ok _ => eachAttempt lib settings source ks
          | .error m => throw (.ofMishap m)
        else throw (.unreadableSource source.toText (k + 1) f)
      else throw (.unreachable f)

theorem eachAttempt_range' [LawfulMonad n] {failed left : Nat}
    (h : failed + left = settings.maxRetries) :
    (eachAttempt lib settings source (List.range' failed (left + 1)) : ExceptT Fault n _) =
      some <$> attempts lib settings source failed left := by
  have hthrow : ∀ f : Fault, (throw f : ExceptT Fault n (Option Text)) = some <$> throw f :=
    fun f => ExceptT.ext (by simp)
  -- the numbers still to come are those of the attempts that are left
  induction left generalizing failed with
  | zero =>
    rw [List.range'_one, eachAttempt, attempts, map_bind]
    congr 1
    funext found
    cases found with
    | ok bytes => rfl
    | error f =>
      have hlast : ¬failed < settings.maxRetries := by omega
      simp only [if_neg hlast, hthrow]
      split <;> rfl
  | succ left ih =>
    rw [List.range'_succ, eachAttempt, attempts, map_bind]
    congr 1
    funext found
    cases found with
    | ok bytes => rfl
    | error f =>
      have hmore : failed < settings.maxRetries := by omega
      simp only [if_pos hmore, hthrow]
      split
      · rw [map_bind]
        congr 1
        funext _
        rw [map_bind]
        congr 1
        funext napped
        cases napped with
        | ok _ => exact ih (by omega)
        | error m => rfl
      · rfl

end

theorem rehearse_map {α β : Type} (script : Nat → Except PathFault Bytes) (g : α → β)
    (x : ExceptT Fault (StateM Rehearsal) α) :
    rehearse script (g <$> x) = ((rehearse script x).1.map g, (rehearse script x).2) := by
  unfold rehearse Rehearsal.perform
  rw [ExceptT.run_map, StateT.run_map]
  rfl

/-- What has been done when `failed` attempts have failed and another one decides. -/
structure Spent (settings : Settings) (source : Path) (faults : Nat → PathFault) (failed : Nat)
    (deeds : List Deed) : Prop where
  reads : reads deeds = failed + 1
  naps : naps deeds = List.replicate failed settings.retryDelay
  deeds : deeds = retries settings source faults failed ++ [.read source]

theorem spent_retries (settings : Settings) (source : Path) (faults : Nat → PathFault)
    (failed : Nat) :
    Spent settings source faults failed
      (retries settings source faults failed ++ [.read source]) where
  reads := by
    rw [reads, List.countP_append]
    exact congrArg (· + 1) (reads_retries settings source faults failed)
  naps := by
    rw [naps, List.filterMap_append]
    exact (List.append_nil _).trans (naps_retries settings source faults failed)
  deeds := rfl

/-- A reading ends with the first attempt that does not fail, if there is one among as many as the
settings allow: with the text, or with a fault if that cannot be decoded. Otherwise it ends with the
last attempt. Before every other attempt there is one nap. A failure that the file system has not
found ends the reading at once, and so does a codec that fails in its own way. If the attempts are
gone through by their numbers, nothing is left to be done behind the last one. -/
theorem read_retries (lib : Libraries) (settings : Settings) (source : Path)
    (script : Nat → Except PathFault Bytes) {codec : Codec}
    (hcodec : lib.codec settings.encoding = .ok codec)
    (hname : Libraries.nameRefusal? settings.encoding = none) :
    let run := rehearse script (read lib settings source)
    (∀ m faults, m ≤ settings.maxRetries → FailFirst script faults m →
      (∀ bytes, script m = .ok bytes →
        Spent settings source faults m run.2 ∧
        (∀ s, codec.decode bytes = .ok s → run.1 = .ok (Text.universalNewlines s)) ∧
        (∀ f, codec.decode bytes = .error (.place f) → ∃ fault report, run.1 = .error fault ∧
          fault = .garbledSource source.toText settings.encoding f ∧
          fault.report? = some report ∧ report.kind = .validation ∧
          report.code = .text "VAL_004") ∧
        ∀ mishap, codec.decode bytes = .error (.otherwise mishap) →
          run.1 = .error (.ofMishap mishap)) ∧
      ∀ f, script m = .error f → f.ofSystem = false →
        Spent settings source faults m run.2 ∧ run.1 = .error (.unreachable f)) ∧
    (∀ faults, FailFirst script faults (settings.maxRetries + 1) →
      Spent settings source faults settings.maxRetries run.2 ∧
      ∃ fault report, run.1 = .error fault ∧
        fault = .unreadableSource source.toText (settings.maxRetries + 1)
          (faults settings.maxRetries) ∧
        fault.report? = some report ∧ report.kind = .sourceUnavailable ∧
        report.details = .object [("file_path", .text source.toText),
          ("attempts", .int (settings.maxRetries + 1 : Nat))] ∧
        report.origin = some (Fault.pathOrigin (faults settings.maxRetries))) ∧
    rehearse script (eachAttempt lib settings source (List.range (settings.maxRetries + 1))) =
      (run.1.map some, run.2) := by
  intro run
  refine ⟨fun m faults hm hfaults => ⟨fun bytes hbytes => ?_, fun f hf hforeign => ?_⟩,
    fun faults hfaults => ?_, ?_⟩
  · have hrun : run = _ := rehearse_read_of_ok hname hm hfaults hbytes
    rw [hrun]
    refine ⟨spent_retries settings source faults m, fun s hs => ?_, fun f hf => ?_,
      fun mishap hmishap => ?_⟩
    · simp only [decode, hcodec, hs]
    · exact ⟨_, _, by simp only [decode, hcodec, hf], rfl, rfl, rfl, rfl⟩
    · simp only [decode, hcodec, hmishap]
  · have hrun : run = _ := rehearse_read_of_foreign hname hm hfaults hf hforeign
    rw [hrun]
    exact ⟨spent_retries settings source faults m, rfl⟩
  · have hrun : run = _ := rehearse_read_of_error hname hfaults
    rw [hrun]
    exact ⟨spent_retries settings source faults _, _, _, rfl, rfl, rfl, rfl, rfl, rfl⟩
  · have hall : (eachAttempt lib settings source (List.range (settings.maxRetries + 1)) :
        ExceptT Fault (StateM Rehearsal) _) = some <$> read lib settings source := by
      rw [List.range_eq_range', read, hname]
      exact eachAttempt_range' (Nat.zero_add _)
    rw [hall, rehearse_map]

def savedMeanwhile : Nat → Except PathFault Bytes := fun k =>
  if k < 2 then .error ⟨.notFound, "a.lit"⟩ else .ok [104, 105, 13, 10]

theorem read_retries_meanwhile :
    let settings : Settings := {}
    let run := rehearse savedMeanwhile (read .bare settings ⟨0, ["a.lit"]⟩)
    Libraries.bare.codec settings.encoding = .ok Encoding.utf8.toCodec ∧
    Libraries.nameRefusal? settings.encoding = none ∧ 2 ≤ settings.maxRetries ∧
    FailFirst savedMeanwhile (fun _ => ⟨.notFound, "a.lit"⟩) 2 ∧
    savedMeanwhile 2 = .ok [104, 105, 13, 10] ∧
    run.1 = .ok "hi\n" ∧ reads run.2 = 3 ∧
    naps run.2 = [settings.retryDelay, settings.retryDelay] := by
  intro settings run
  have hcodec : Libraries.bare.codec settings.encoding = .ok Encoding.utf8.toCodec := by rfl
  have hname : Libraries.nameRefusal? settings.encoding = none := by decide
  have hfaults : FailFirst savedMeanwhile (fun _ => ⟨.notFound, "a.lit"⟩) 2 := by
    intro k hk
    exact ⟨if_pos hk, rfl⟩
  have hbytes : savedMeanwhile 2 = .ok [104, 105, 13, 10] := rfl
  obtain ⟨hdecided, -⟩ := read_retries .bare settings ⟨0, ["a.lit"]⟩ savedMeanwhile hcodec hname
  obtain ⟨hspent, htext, -⟩ := (hdecided 2 _ (by decide) hfaults).1 _ hbytes
  exact ⟨hcodec, hname, by decide, hfaults, hbytes, htext "hi\r\n" (by rfl), hspent.reads,
    hspent.naps⟩

end Literate.Source

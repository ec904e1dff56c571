import Literate.Proofs.Command.Batch
import Literate.Proofs.Production.Determined
import Literate.Proofs.Production.Failures

namespace Literate.Command

open Workspace

variable {lib : Libraries} {settings : Settings} {options : OutputOptions} {source s : Path}
  {sources rest : List Path} {w v : Workspace} {f : Fault} {m : Moment}

/-- One of the sources fails when its turn comes, on the workspace that those before it leave. -/
def FailsInTurn (lib : Libraries) (settings : Settings) (options : OutputOptions)
    (sources : List Path) (w : Workspace) (source : Path) (v : Workspace) (f : Fault) : Prop :=
  ∃ front back, sources = front ++ source :: back ∧
    v = front.foldl (turn lib settings options) w ∧
    (v.perform (Processing.file lib settings options source)).1 = .error f

theorem not_failsInTurn_nil : ¬FailsInTurn lib settings options [] w s v f := by
  rintro ⟨front, back, hsplit, -⟩
  simp at hsplit

theorem failsInTurn_cons : FailsInTurn lib settings options (source :: rest) w s v f ↔
    (s = source ∧ v = w ∧ (w.perform (Processing.file lib settings options source)).1 = .error f) ∨
      FailsInTurn lib settings options rest (turn lib settings options w source) s v f := by
  constructor
  · rintro ⟨front, back, hsplit, rfl, hfails⟩
    cases front with
    | nil =>
      obtain ⟨rfl, rfl⟩ := List.cons.inj hsplit
      exact .inl ⟨rfl, rfl, hfails⟩
    | cons first front =>
      obtain ⟨rfl, rfl⟩ := List.cons.inj hsplit
      exact .inr ⟨front, back, rfl, rfl, hfails⟩
  · rintro (⟨rfl, rfl, hfails⟩ | ⟨front, back, rfl, rfl, hfails⟩)
    · exact ⟨[], rest, rfl, rfl, hfails⟩
    · exact ⟨source :: front, back, rfl, rfl, hfails⟩

/-- How documents come to their end: a failure without report ends them, or else all have their
turns, and the result tells whether one of them has failed. -/
inductive Batched (lib : Libraries) (settings : Settings) (options : OutputOptions)
    (sources : List Path) (w : Workspace) : Except Fault Bool × Workspace → Prop where
  | all {fine : Bool}
    (failing : fine = false ↔ ∃ s v f, FailsInTurn lib settings options sources w s v f) :
    Batched lib settings options sources w
      (.ok fine, sources.foldl (turn lib settings options) w)
  | unreported {s : Path} {v v' : Workspace} {f : Fault}
    (failing : FailsInTurn lib settings options sources w s v f) (unreported : f.report? = none) :
    Batched lib settings options sources w (.error f, v')

theorem batched (lib : Libraries) (settings : Settings) (options : OutputOptions)
    (sources : List Path) (w : Workspace) :
    Batched lib settings options sources w (w.perform (batch lib settings options sources)) := by
  induction sources generalizing w with
  | nil => exact .all (by simp [not_failsInTurn_nil])
  | cons source rest ih =>
    have hrest := ih (turn lib settings options w source)
    cases hfile : (w.perform (Processing.file lib settings options source)).1 with
    | ok written =>
      rw [perform_batch_of_ok hfile]
      generalize (turn lib settings options w source).perform _ = ended at hrest
      cases hrest with
      | all failing => exact .all (failing.trans (by simp [failsInTurn_cons, hfile]))
      | unreported failing hf => exact .unreported (failsInTurn_cons.2 (.inr failing)) hf
    | error f =>
      have hfirst : FailsInTurn lib settings options (source :: rest) w source w f :=
        failsInTurn_cons.2 (.inl ⟨rfl, rfl, hfile⟩)
      cases hreport : f.report? with
      | none =>
        rw [perform_batch_of_unreported hreport (Prod.ext hfile rfl)]
        exact .unreported hfirst hreport
      | some r =>
        -- the rest has its turn as well, and the result is false whatever becomes of it
        rw [perform_batch_of_error (by simp [hreport]) hfile]
        rcases hended : (turn lib settings options w source).perform
          (batch lib settings options rest) with ⟨g | fine, v'⟩
        all_goals rw [hended] at hrest
        · rw [perform_bind_error hended]
          cases hrest with
          | unreported failing hf => exact .unreported (failsInTurn_cons.2 (.inr failing)) hf
        · rw [perform_bind_ok hended]
          cases hrest with
          | all failing => exact .all (iff_of_true rfl ⟨_, _, _, hfirst⟩)

/-- The moment to which a document leads. -/
def momentAfter (lib : Libraries) (settings : Settings) (options : OutputOptions) (w : Workspace)
    (m : Moment) (source : Path) : Moment :=
  ((w.moved m).perform (Processing.file lib settings options source)).2.moment

theorem perform_file_of_standsAt (halone : w.napScript = []) (hv : StandsAt w m v) :
    (v.perform (Processing.file lib settings options source)).1 =
        ((w.moved m).perform (Processing.file lib settings options source)).1 ∧
      StandsAt w (momentAfter lib settings options w m source)
        (turn lib settings options v source) := by
  obtain ⟨r, m', hfile⟩ := Processing.determined_file lib settings options source halone m
  obtain ⟨v₁, hrun₁, hv₁⟩ := hfile v hv
  obtain ⟨v₂, hrun₂, hv₂⟩ := hfile _ (.self w m)
  have hmoment : momentAfter lib settings options w m source = m' := by
    rw [momentAfter, hrun₂]
    exact hv₂.moment_eq
  have hsame : (turn lib settings options v source).silenced = v₁.silenced := by
    rw [silenced_turn, hrun₁]
  rw [hmoment]
  exact ⟨by rw [hrun₁, hrun₂], hv₁.silenced hsame⟩

theorem standsAt_foldl_turn (halone : w.napScript = []) (sources : List Path) :
    StandsAt w (sources.foldl (momentAfter lib settings options w) w.moment)
      (sources.foldl (turn lib settings options) w) := by
  induction sources using List.reverseRecOn with
  | nil => exact .self w w.moment
  | append_singleton front source ih =>
    rw [List.foldl_concat, List.foldl_concat]
    exact (perform_file_of_standsAt halone ih).2

/-- A run without a watch, in which all failures of documents have reports. It is declined exactly
if something is missing beforehand, and then nothing has happened; its status is two unless it could
not be found out what is there. Otherwise every document has its turn, in order, whatever becomes of
the others, and the status tells whether one of them has failed. Where nobody else changes files,
each document finds the files that those before it have left, and nothing else of the run makes a
difference to it but how often files have been used, on which depends what goes wrong with them. -/
theorem execute_in_turns (lib : Libraries) (plan : Plan)
    (repetition : Watcher.Repetition (StateM Workspace)) (w : Workspace)
    (hwatch : plan.arguments.watch = false)
    (hreported : ∀ s v f,
      FailsInTurn lib plan.settings (outputOptions plan.arguments ⟨1, w.cwd⟩)
        (plan.arguments.files.map Path.ofText) w s v f → f.report?.isSome = true) :
    let options := outputOptions plan.arguments ⟨1, w.cwd⟩
    let sources := plan.arguments.files.map Path.ofText
    let ended := w.perform (execute lib plan repetition)
    ((∀ f, ¬Unseen options sources w f) → (ended.1 = .ok 2 ↔ ¬Ready options sources w)) ∧
    (¬Ready options sources w → Declined options sources w ended) ∧
    (Ready options sources w →
      ended.2 = sources.foldl (turn lib plan.settings options) w ∧
      (ended.1 = .ok 1 ↔ ∃ s v f, FailsInTurn lib plan.settings options sources w s v f) ∧
      (ended.1 = .ok 0 ↔ ¬∃ s v f, FailsInTurn lib plan.settings options sources w s v f) ∧
      (w.napScript = [] →
        ended.2.moment =
          sources.foldl (momentAfter lib plan.settings options w) w.moment ∧
        ∀ front source back, sources = front ++ source :: back →
          ((front.foldl (turn lib plan.settings options) w).perform
              (Processing.file lib plan.settings options source)).1 =
            ((w.moved (front.foldl (momentAfter lib plan.settings options w) w.moment)).perform
              (Processing.file lib plan.settings options source)).1)) := by
  intro options sources ended
  rcases perform_execute lib hwatch w repetition with
    ⟨hmissing, hdeclined⟩ | ⟨hready, hrun⟩
  · refine ⟨fun hseen => iff_of_true ?_ hmissing, fun _ => hdeclined,
      fun hready => absurd hready hmissing⟩
    exact hdeclined.status.resolve_right fun ⟨f, hf, _⟩ => hseen f hf
  have hbatched := batched lib plan.settings options sources w
  rcases hbatch : w.perform (batch lib plan.settings options sources) with ⟨f | fine, v⟩
  all_goals rw [hbatch] at hbatched
  · -- a batch that ends with a failure ends with one that has no report, which is excluded
    cases hbatched with
    | unreported failing hf => simpa [hf] using hreported _ _ _ failing
  cases hbatched with
  | all hfine =>
    have hended : ended =
        (.ok (if fine then 0 else 1), sources.foldl (turn lib plan.settings options) w) :=
      (hrun.trans (perform_bind_ok hbatch)).trans (perform_pure _ _)
    refine ⟨fun _ => iff_of_false ?_ (not_not.2 hready), absurd hready,
      fun _ => ⟨?_, ?_, ?_, fun halone => ⟨?_, ?_⟩⟩⟩
    · rw [hended]
      cases fine <;> simp
    · rw [hended]
    · rw [hended, ← hfine]
      cases fine <;> simp
    · rw [hended, ← hfine]
      cases fine <;> simp
    · rw [hended]
      exact (standsAt_foldl_turn halone sources).moment_eq
    · intro front source back _
      exact (perform_file_of_standsAt halone (standsAt_foldl_turn halone front)).1

def mixedShelf : Workspace :=
  { shelf with
    tree := shelf.tree.put ["shelf", "blank.lit"]
      (.file (Encoding.encodeUtf8 "<< >>=\n") (.int 0)) }

def mixedPlan : Plan := shelfPlan ["a/x.lit", "blank.lit", "b/x.lit"]

def mixedOptions : OutputOptions := outputOptions mixedPlan.arguments ⟨1, mixedShelf.cwd⟩

def mixedSources : List Path := mixedPlan.arguments.files.map Path.ofText

theorem exists_error_of_isNone {α : Type} {r : Except Fault α} (h : r.toOption.isNone = true) :
    ∃ f, r = .error f := by
  cases r with
  | error f => exact ⟨f, rfl⟩
  | ok a => cases h

theorem mixedSources_eq :
    mixedSources = [Path.ofText "a/x.lit", Path.ofText "blank.lit", Path.ofText "b/x.lit"] := rfl

theorem exists_failsInTurn_mixed :
    ∃ s v f, FailsInTurn .bare mixedPlan.settings mixedOptions mixedSources mixedShelf s v f := by
  rw [mixedSources_eq]
  simp only [failsInTurn_cons]
  obtain ⟨f, hf⟩ : ∃ f, ((turn .bare mixedPlan.settings mixedOptions mixedShelf
      (Path.ofText "a/x.lit")).perform (Processing.file .bare mixedPlan.settings mixedOptions
        (Path.ofText "blank.lit"))).1 = .error f := exists_error_of_isNone (by decide +kernel)
  exact ⟨_, _, f, .inr (.inl ⟨rfl, rfl, hf⟩)⟩

theorem reported_of_all {α : Type} {r : Except Fault α}
    (h : (match r with
      | .error f => f.report?.isSome
      | .ok _ => true) = true) (hf : r = .error f) : f.report?.isSome = true := by
  subst hf
  exact h

theorem reported_mixed : ∀ s v f,
    FailsInTurn .bare mixedPlan.settings mixedOptions mixedSources mixedShelf s v f →
      f.report?.isSome = true := by
  rw [mixedSources_eq]
  simp only [failsInTurn_cons, not_failsInTurn_nil, or_false]
  rintro s v f (⟨-, -, hf⟩ | ⟨-, -, hf⟩ | ⟨-, -, hf⟩)
  · exact reported_of_all (by decide +kernel) hf
  · exact reported_of_all (by decide +kernel) hf
  · exact reported_of_all (by decide +kernel) hf

/-- The document in the middle fails, and the last one is processed all the same. -/
theorem execute_in_turns_shelf :
    mixedPlan.arguments.watch = false ∧
    (∀ s v f, FailsInTurn .bare mixedPlan.settings mixedOptions mixedSources mixedShelf s v f →
      f.report?.isSome = true) ∧
    Ready mixedOptions mixedSources mixedShelf ∧ mixedShelf.napScript = [] ∧
    (mixedShelf.perform (execute .bare mixedPlan (Watcher.repeatUpTo 0))).1 = .ok 1 ∧
    ((mixedShelf.perform (execute .bare mixedPlan (Watcher.repeatUpTo 0))).2.tree.read
      mixedShelf.cwd (Path.ofText "x.md")).toOption =
        some (Encoding.encodeUtf8 "\x60\x60\x60\n<< * >>=\nB\n\x60\x60\x60\n") := by
  have hready : Ready mixedOptions mixedSources mixedShelf := by
    refine ⟨?_, ?_⟩
    all_goals decide +kernel
  have hlast : ((mixedSources.foldl (momentAfter .bare mixedPlan.settings mixedOptions mixedShelf)
      mixedShelf.moment).tree.read mixedShelf.cwd (Path.ofText "x.md")).toOption =
        some (Encoding.encodeUtf8 "\x60\x60\x60\n<< * >>=\nB\n\x60\x60\x60\n") := by
    decide +kernel
  obtain ⟨-, -, hended⟩ :=
    execute_in_turns .bare mixedPlan (Watcher.repeatUpTo 0) mixedShelf rfl reported_mixed
  obtain ⟨-, hstatus, -, hmoment⟩ := hended hready
  refine ⟨rfl, reported_mixed, hready, rfl, hstatus.2 exists_failsInTurn_mixed, ?_⟩
  have htree := congrArg Moment.tree (hmoment rfl).1
  dsimp only [moment] at htree
  rw [htree]
  exact hlast

/-- Processing a document fails with a report, or with a foreign failure. A run without a watch ends
with a status, unless a document fails in its turn with a foreign failure or it cannot be found out
whether a folder or a source is there. -/
theorem failures_reported (lib : Libraries) (settings : Settings) :
    (∀ (options : OutputOptions) (source : Path) (w : Workspace), FailsWith
      (fun f => f.report?.isSome = true ∨
        Processing.Foreign lib settings options source w f)
      (w.perform (Processing.file lib settings options source)).1) ∧
    ∀ (arguments : Arguments) (repetition : Watcher.Repetition (StateM Workspace)) (w : Workspace),
      arguments.watch = false →
      let options := outputOptions arguments ⟨1, w.cwd⟩
      let sources := arguments.files.map Path.ofText
      let ended := (w.perform (execute lib ⟨arguments, settings⟩ repetition)).1
      (∃ status ≤ 2, ended = .ok status) ∨
        (∃ cause, Unseen options sources w cause ∧ ended = .error (.unreachable cause)) ∨
        ∃ s v f, FailsInTurn lib settings options sources w s v f ∧
          Processing.Foreign lib settings options s v f ∧ ended = .error f := by
  refine ⟨fun options source w => Processing.expected_file, ?_⟩
  intro arguments repetition w hwatch options sources ended
  rcases perform_execute lib (show (Plan.mk arguments settings).arguments.watch = false from hwatch)
    w repetition with
    ⟨-, hstatus | hunseen, -⟩ | ⟨-, hrun⟩
  · exact .inl ⟨2, Nat.le_refl 2, hstatus⟩
  · exact .inr (.inl hunseen)
  have hbatched := batched lib settings options sources w
  rcases hbatch : w.perform (batch lib settings options sources) with ⟨f | fine, v⟩
  all_goals rw [hbatch] at hbatched
  · cases hbatched with
    | unreported failing hf =>
      have ⟨front, back, _, _, hfails⟩ := failing
      -- what has no report is foreign
      have hforeign := (Processing.expected_file _ hfails).resolve_left (by simp [hf])
      exact .inr (.inr ⟨_, _, f, failing, hforeign,
        congrArg Prod.fst (hrun.trans (perform_bind_error hbatch))⟩)
  · have hended : ended = .ok (if fine then 0 else 1) :=
      congrArg Prod.fst (hrun.trans (perform_bind_ok hbatch))
    refine .inl ⟨_, ?_, hended⟩
    split <;> decide

theorem failures_reported_shelf : mixedPlan.arguments.watch = false ∧
    ∃ status ≤ 2, (mixedShelf.perform (execute .bare mixedPlan (Watcher.repeatUpTo 0))).1 =
      .ok status := by
  refine ⟨rfl, ?_⟩
  have hends : (mixedShelf.perform
      (execute .bare mixedPlan (Watcher.repeatUpTo 0))).1.toOption.isSome = true := by
    decide +kernel
  obtain ⟨-, hstatus⟩ := failures_reported .bare mixedPlan.settings
  obtain hstatus | ⟨cause, -, hfails⟩ | ⟨s, v, f, -, -, hfails⟩ :=
    hstatus mixedPlan.arguments (Watcher.repeatUpTo 0) mixedShelf rfl
  · exact hstatus
  · rw [hfails] at hends
    cases hends
  · rw [hfails] at hends
    cases hends

/-- Settings that name an encoding which nobody knows; they are accepted. -/
def unknownEncoding : Settings := { encoding := "nope" }

/-- With them a document fails without a report, and so the run ends without a status. -/
theorem unknown_encoding_unreported :
    Settings.ofGiven (fun k => if k = .encoding then some (.text "nope") else none) Setting.all =
      .ok unknownEncoding ∧
    (Processing.desk.perform (Processing.file .bare unknownEncoding Processing.deskOptions
      (Path.ofText "note.lit"))).1 = .error (.outside "LookupError" "unknown encoding: nope") ∧
    (Fault.outside "LookupError" "unknown encoding: nope").report? = none ∧
    (Processing.desk.perform (execute .bare
      ⟨{ files := ["note.lit"], markdown := true }, unknownEncoding⟩ (Watcher.repeatUpTo 0))).1 =
        .error (.outside "LookupError" "unknown encoding: nope") :=
  ⟨rfl, rfl, rfl, rfl⟩

end Literate.Command

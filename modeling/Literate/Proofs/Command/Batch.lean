import Literate.Command.Run
import Literate.Proofs.Production.Places

namespace Literate.Command

open Workspace

variable {lib : Libraries} {settings : Settings} {options : OutputOptions} {source : Path}
  {sources rest : List Path} {w w₁ w₂ w' : Workspace}

/-- The places of the outputs that are asked for of several sources. -/
def places (options : OutputOptions) (cwd : List Text) (sources : List Path) : List (List Text) :=
  sources.flatMap fun source => (Outputs.requested options source).map (Path.resolve cwd)

/-- Nobody else changes files, and the folders for the outputs are there. -/
structure Settled (options : OutputOptions) (w : Workspace) : Prop where
  plain : ['.', '.'] ∉ w.cwd
  alone : w.napScript = []
  housed : Outputs.Housed options w.cwd w.tree

/-- From `w` to `w'`, files have been written at the places of outputs of the sources and nowhere
else. -/
structure Passed (options : OutputOptions) (sources : List Path) (w w' : Workspace) : Prop where
  cwd : w'.cwd = w.cwd
  alone : w'.napScript = []
  folders : Tree.SameFolders w.tree w'.tree
  elsewhere : ∀ place, place ∉ places options w.cwd sources →
    w'.tree.get? place = w.tree.get? place

namespace Passed

theorem nil (h : w.napScript = []) : Passed options [] w w := ⟨rfl, h, .refl _, fun _ _ => rfl⟩

theorem settled (h : Passed options sources w w') (hw : Settled options w) :
    Settled options w' where
  plain := h.cwd ▸ hw.plain
  alone := h.alone
  housed := h.cwd ▸ hw.housed.sameFolders h.folders

theorem append {front back : List Path} (h : Passed options front w w₁)
    (h' : Passed options back w₁ w') : Passed options (front ++ back) w w' := by
  refine ⟨h'.cwd.trans h.cwd, h'.alone, h.folders.trans h'.folders, fun place hplace => ?_⟩
  rw [places, List.flatMap_append, List.mem_append, not_or] at hplace
  have hback := h'.elsewhere place
  rw [h.cwd] at hback
  exact (hback hplace.2).trans (h.elsewhere place hplace.1)

theorem silenced (h : Passed options sources w w₁) (hsame : w'.silenced = w₁.silenced) :
    Passed options sources w w' := by
  have htree := tree_eq_of_silenced hsame
  refine ⟨(cwd_eq_of_silenced hsame).trans h.cwd, ?_, htree ▸ h.folders, htree ▸ h.elsewhere⟩
  exact (congrArg napScript hsame : w'.silenced.napScript = _).trans h.alone

end Passed

theorem passed_of_file {written : List Path} (hw : Settled options w) (hslash : '/' ∉ source.name)
    (h : w.perform (Processing.file lib settings options source) = (.ok written, w')) :
    Passed options [source] w w' ∧ ∃ codec outputs,
      Processing.Rendered lib settings options source w.cwd w.tree codec outputs ∧
        Processing.Written codec w.cwd outputs w.tree w'.tree := by
  obtain ⟨hcwd, halone, codec, outputs, hrendered, hwritten⟩ :=
    Processing.written_of_file hw.plain hw.alone hw.housed hslash h
  refine ⟨⟨hcwd, halone, hwritten.folders, fun place hplace => ?_⟩, codec, outputs, hrendered,
    hwritten⟩
  rw [places, List.flatMap_singleton, ← hrendered.places] at hplace
  exact hwritten.elsewhere place hplace

/-- What a document leaves: it is processed, and then its outcome is told. -/
def turn (lib : Libraries) (settings : Settings) (options : OutputOptions) (w : Workspace)
    (source : Path) : Workspace :=
  match w.perform (Processing.file lib settings options source) with
  | (.ok written, w') => w'.noticed (.event (processedEvent source written))
  | (.error f, w') =>
    match f.report? with
    | none => w'
    | some r =>
      (w'.noticed (.event ((Log.Problem.ofReport r w'.freshId).event
        [("file_path", .text source.toText)] false))).noticed
          (.line (programName ++ ": " ++ source.toText ++ ": " ++ message r ++ "\n"))

theorem silenced_turn : (turn lib settings options w source).silenced =
    (w.perform (Processing.file lib settings options source)).2.silenced := by
  unfold turn
  rcases w.perform (Processing.file lib settings options source) with ⟨f | written, w'⟩
  · dsimp only
    cases f.report? <;> rfl
  · rfl

theorem perform_batch_of_ok {written : List Path}
    (h : (w.perform (Processing.file lib settings options source)).1 = .ok written) :
    w.perform (batch lib settings options (source :: rest)) =
      (turn lib settings options w source).perform (batch lib settings options rest) := by
  rw [batch, perform_run_bind, turn]
  rcases hfile : w.perform (Processing.file lib settings options source) with ⟨outcome, w₁⟩
  rw [hfile] at h
  obtain rfl : outcome = .ok written := h
  dsimp only
  rw [perform_lift_bind]
  rfl

theorem perform_batch_of_error {f : Fault} (hreported : f.report?.isSome = true)
    (h : (w.perform (Processing.file lib settings options source)).1 = .error f) :
    w.perform (batch lib settings options (source :: rest)) =
      (turn lib settings options w source).perform
        (batch lib settings options rest >>= fun _ => pure false) := by
  obtain ⟨r, hr⟩ := Option.isSome_iff_exists.1 hreported
  rw [batch, perform_run_bind, turn]
  rcases hfile : w.perform (Processing.file lib settings options source) with ⟨outcome, w₁⟩
  rw [hfile] at h
  obtain rfl : outcome = .error f := h
  dsimp only
  rw [hr]
  dsimp only
  rw [perform_lift_bind, perform_lift_bind]
  rfl

theorem perform_batch_of_unreported {f : Fault} (hreport : f.report? = none)
    (h : w.perform (Processing.file lib settings options source) = (.error f, w')) :
    w.perform (batch lib settings options (source :: rest)) = (.error f, w') := by
  rw [batch, perform_run_bind, h]
  dsimp only
  rw [hreport]
  rfl

theorem exists_of_batch_cons
    (h : w.perform (batch lib settings options (source :: rest)) = (.ok true, w')) :
    ∃ (written : List Path) (w₁ w₂ : Workspace),
      w.perform (Processing.file lib settings options source) = (.ok written, w₁) ∧
      w₂.silenced = w₁.silenced ∧
      w₂.perform (batch lib settings options rest) = (.ok true, w') := by
  rcases hfile : w.perform (Processing.file lib settings options source) with ⟨f | written, w₁⟩
  · cases hreport : f.report? with
    | none =>
      rw [perform_batch_of_unreported hreport hfile] at h
      cases h
    | some r =>
      -- a document that fails makes the result false, whatever follows
      rw [perform_batch_of_error (by simp [hreport]) (congrArg Prod.fst hfile)] at h
      rcases hrest : (turn lib settings options w source).perform (batch lib settings options rest)
        with ⟨g | b, w₂⟩
      · rw [perform_bind_error hrest] at h
        cases h
      · rw [perform_bind_ok hrest] at h
        cases h
  · rw [perform_batch_of_ok (congrArg Prod.fst hfile)] at h
    have hsame : (turn lib settings options w source).silenced = w₁.silenced := by
      rw [silenced_turn, hfile]
    exact ⟨written, w₁, turn lib settings options w source, rfl, hsame, h⟩

theorem passed_of_batch (hw : Settled options w) (hslash : ∀ s ∈ sources, '/' ∉ s.name)
    (h : w.perform (batch lib settings options sources) = (.ok true, w')) :
    Passed options sources w w' := by
  induction sources generalizing w with
  | nil =>
    cases h
    exact .nil hw.alone
  | cons source rest ih =>
    obtain ⟨written, w₁, w₂, hfile, hsame, hrest⟩ := exists_of_batch_cons h
    have hfirst := (passed_of_file hw (hslash _ List.mem_cons_self) hfile).1.silenced hsame
    exact hfirst.append (ih (hfirst.settled hw) (fun s hs => hslash s (List.mem_cons_of_mem _ hs))
      hrest)

theorem exists_of_batch_append {front back : List Path} (hw : Settled options w)
    (hslash : ∀ s ∈ front ++ source :: back, '/' ∉ s.name)
    (h : w.perform (batch lib settings options (front ++ source :: back)) = (.ok true, w')) :
    ∃ (written : List Path) (w₁ w₂ : Workspace), Passed options front w w₁ ∧
      w₁.perform (Processing.file lib settings options source) = (.ok written, w₂) ∧
      Passed options back w₂ w' := by
  induction front generalizing w with
  | nil =>
    obtain ⟨written, w₁, w₂, hfile, hsame, hrest⟩ := exists_of_batch_cons h
    have hfirst := (passed_of_file hw (hslash _ List.mem_cons_self) hfile).1
    have hback := passed_of_batch ((hfirst.silenced hsame).settled hw)
      (fun s hs => hslash s (List.mem_cons_of_mem _ hs)) hrest
    exact ⟨written, w, w₁, .nil hw.alone, hfile,
      ((Passed.nil hfirst.alone).silenced hsame).append hback⟩
  | cons s front ih =>
    obtain ⟨written, w₁, w₂, hfile, hsame, hrest⟩ := exists_of_batch_cons h
    have hfirst := (passed_of_file hw (hslash _ List.mem_cons_self) hfile).1.silenced hsame
    obtain ⟨written', w₃, w₄, hfront, hfile', hback⟩ := ih (hfirst.settled hw)
      (fun s hs => hslash s (List.mem_cons_of_mem _ hs)) hrest
    exact ⟨written', w₃, w₄, hfirst.append hfront, hfile', hback⟩

/-- The turn of a document: it renders what the documents before it have left, and those behind it
follow on what it leaves. -/
theorem exists_turn {front back : List Path} (hw : Settled options w)
    (hslash : ∀ s ∈ front ++ source :: back, '/' ∉ s.name)
    (h : w.perform (batch lib settings options (front ++ source :: back)) = (.ok true, w')) :
    ∃ (w₁ w₂ : Workspace) (codec : Codec) (outputs : Outputs), w₂.cwd = w.cwd ∧
      Passed options front w w₁ ∧
      Processing.Rendered lib settings options source w.cwd w₁.tree codec outputs ∧
      Processing.Written codec w.cwd outputs w₁.tree w₂.tree ∧ Passed options back w₂ w' := by
  obtain ⟨written, w₁, w₂, hfront, hfile, hback⟩ := exists_of_batch_append hw hslash h
  obtain ⟨hown, codec, outputs, hrendered, hwritten⟩ :=
    passed_of_file (hfront.settled hw) (hslash source (by simp)) hfile
  rw [hfront.cwd] at hrendered hwritten
  exact ⟨w₁, w₂, codec, outputs, hown.cwd.trans hfront.cwd, hfront, hrendered, hwritten, hback⟩

def folders (options : OutputOptions) : List Path :=
  (if options.code then [options.codeFolder] else []) ++
    if options.html || options.markdown then [options.docsFolder] else []

/-- What has to be there before a document is processed. -/
structure Ready (options : OutputOptions) (sources : List Path) (w : Workspace) : Prop where
  folders : ∀ p ∈ folders options, w.seen p Tree.hasFolder = .ok true
  files : ∀ s ∈ sources, w.seen s Tree.hasFile = .ok true

/-- A folder or a source about which it cannot be found out whether it is there. -/
inductive Unseen (options : OutputOptions) (sources : List Path) (w : Workspace) :
    PathFault → Prop where
  | folder {p : Path} {f : PathFault} (needed : p ∈ folders options)
    (failed : w.seen p Tree.hasFolder = .error f) : Unseen options sources w f
  | source {s : Path} {f : PathFault} (listed : s ∈ sources)
    (failed : w.seen s Tree.hasFile = .error f) : Unseen options sources w f

/-- A run that ends before the first document, with status two unless it could not be found out what
is there: nothing has happened but that the reason was given. -/
structure Declined (options : OutputOptions) (sources : List Path) (w : Workspace)
    (ended : Except Fault Nat × Workspace) : Prop where
  status : ended.1 = .ok 2 ∨ ∃ f, Unseen options sources w f ∧ ended.1 = .error (.unreachable f)
  unchanged : ∃ added, ended.2 = { w with notices := w.notices ++ added } ∧
    ∀ source, .event (Processing.startedEvent source) ∉ added

theorem perform_checkFolder (w : Workspace) (p : Path) :
    w.perform (OutputOptions.checkFolder p) =
      (match w.seen p Tree.hasFolder with
        | .ok true => .ok ()
        | .ok false => .error (.noDirectory p.toText)
        | .error f => .error (.unreachable f), w) := by
  rw [OutputOptions.checkFolder, perform_lift_bind, run_isFolder]
  rcases w.seen p Tree.hasFolder with f | _ | _ <;> rfl

theorem perform_checkFolders (w : Workspace) (ps : List Path) :
    ∃ r, w.perform (ps.forM OutputOptions.checkFolder) = (r, w) ∧
      match r with
      | .ok _ => ∀ p ∈ ps, w.seen p Tree.hasFolder = .ok true
      | .error f => (∃ p ∈ ps, w.seen p Tree.hasFolder = .ok false ∧ f = .noDirectory p.toText) ∨
          ∃ p ∈ ps, ∃ cause, w.seen p Tree.hasFolder = .error cause ∧ f = .unreachable cause := by
  induction ps with
  | nil => exact ⟨.ok (), rfl, nofun⟩
  | cons p ps ih =>
    have hfirst := perform_checkFolder w p
    cases hseen : w.seen p Tree.hasFolder with
    | error f =>
      rw [hseen] at hfirst
      exact ⟨_, perform_bind_error hfirst, .inr ⟨p, List.mem_cons_self, f, hseen, rfl⟩⟩
    | ok here =>
      rw [hseen] at hfirst
      cases here with
      | false => exact ⟨_, perform_bind_error hfirst, .inl ⟨p, List.mem_cons_self, hseen, rfl⟩⟩
      | true =>
        obtain ⟨r, hrest, hr⟩ := ih
        refine ⟨r, (perform_bind_ok hfirst).trans hrest, ?_⟩
        cases r with
        | ok _ => exact List.forall_mem_cons.2 ⟨hseen, hr⟩
        | error f =>
          obtain ⟨q, hq, h⟩ | ⟨q, hq, h⟩ := hr
          · exact .inl ⟨q, List.mem_cons_of_mem p hq, h⟩
          · exact .inr ⟨q, List.mem_cons_of_mem p hq, h⟩

theorem perform_validate (options : OutputOptions) (w : Workspace) :
    w.perform options.validate = w.perform ((folders options).forM OutputOptions.checkFolder) := by
  unfold OutputOptions.validate folders
  cases options.code
  all_goals cases options.html || options.markdown
  all_goals simp

theorem perform_missing (sources : List Path) (w : Workspace) :
    ∃ r, w.perform (missing sources) = (r, w) ∧
      match r with
      | .ok absent => absent = [] ↔ ∀ s ∈ sources, w.seen s Tree.hasFile = .ok true
      | .error f => ∃ s ∈ sources, ∃ cause, w.seen s Tree.hasFile = .error cause ∧
          f = .unreachable cause := by
  induction sources with
  | nil => exact ⟨.ok [], rfl, by simp⟩
  | cons p ps ih =>
    obtain ⟨r, hrest, hr⟩ := ih
    rw [missing, perform_lift_bind, run_isFile]
    cases hseen : w.seen p Tree.hasFile with
    | error f => exact ⟨_, rfl, p, List.mem_cons_self, f, hseen, rfl⟩
    | ok here =>
      cases r with
      | error f =>
        obtain ⟨s, hs, h⟩ := hr
        exact ⟨_, perform_bind_error hrest, s, List.mem_cons_of_mem p hs, h⟩
      | ok absent =>
        refine ⟨_, perform_bind_ok hrest, ?_⟩
        cases here with
        | true => simpa [hseen] using hr
        | false => simp [hseen]

theorem declined_of_line (line : Text) :
    Declined options sources w (.ok 2, w.noticed (.line line)) where
  status := .inl rfl
  unchanged := ⟨[.line line], rfl, fun source hmem => by simp at hmem⟩

theorem declined_of_report (r : Report) (line : Text) : Declined options sources w
    (.ok 2, (w.noticed (.event ((Log.Problem.ofReport r w.freshId).event [] false))).noticed
      (.line line)) where
  status := .inl rfl
  unchanged := by
    refine ⟨[.event ((Log.Problem.ofReport r w.freshId).event [] false), .line line],
      by simp [noticed], fun source hmem => ?_⟩
    have hevent : Processing.startedEvent source =
        (Log.Problem.ofReport r w.freshId).event [] false := by simpa using hmem
    have hname : ("document_processing_started" : Text) = "error_occurred" :=
      congrArg Event.name hevent
    exact absurd hname (by decide)

theorem declined_of_unseen {f : PathFault} (h : Unseen options sources w f) :
    Declined options sources w (.error (.unreachable f), w) where
  status := .inr ⟨f, h, rfl⟩
  unchanged := ⟨[], by rw [List.append_nil], fun _ => List.not_mem_nil⟩

/-- Without a watch, a run either is declined or comes to the documents. -/
theorem perform_execute (lib : Libraries) {plan : Plan} (hwatch : plan.arguments.watch = false)
    (w : Workspace) (repetition : Watcher.Repetition (StateM Workspace)) :
    let options := outputOptions plan.arguments ⟨1, w.cwd⟩
    let sources := plan.arguments.files.map Path.ofText
    (¬Ready options sources w ∧
        Declined options sources w (w.perform (execute lib plan repetition))) ∨
      Ready options sources w ∧ w.perform (execute lib plan repetition) =
        w.perform (batch lib plan.settings options sources >>= fun fine =>
          pure (if fine then 0 else 1)) := by
  intro options sources
  -- folders first, then sources: the first that is not there or not seen ends the run
  obtain ⟨r, hvalidate, hr⟩ := perform_checkFolders w (folders options)
  rw [← perform_validate] at hvalidate
  unfold execute
  rw [perform_lift_bind, run_workingFolder]
  dsimp only
  rw [perform_run_bind, hvalidate]
  cases r with
  | error f =>
    obtain ⟨p, hp, hseen, rfl⟩ | ⟨p, hp, cause, hseen, rfl⟩ := hr
    · refine .inl ⟨fun hready => ?_, declined_of_report (Fault.noDirectoryReport p.toText) _⟩
      cases hseen.symm.trans (hready.folders p hp)
    · refine .inl ⟨fun hready => ?_, declined_of_unseen (.folder hp hseen)⟩
      cases hseen.symm.trans (hready.folders p hp)
  | ok _ =>
    obtain ⟨r, hmissing, hr'⟩ := perform_missing sources w
    cases r with
    | error f =>
      obtain ⟨s, hs, cause, hseen, rfl⟩ := hr'
      refine .inl ⟨fun hready => ?_, ?_⟩
      · cases hseen.symm.trans (hready.files s hs)
      · exact perform_bind_error hmissing ▸ declined_of_unseen (.source hs hseen)
    | ok absent =>
      dsimp only
      rw [perform_bind_ok hmissing]
      cases absent with
      | nil =>
        refine .inr ⟨⟨hr, hr'.1 rfl⟩, ?_⟩
        rw [if_neg (by decide), hwatch, if_neg (by decide)]
      | cons s rest =>
        refine .inl ⟨fun hready => ?_, declined_of_line _⟩
        cases hr'.2 hready.files

theorem batch_of_execute {plan : Plan} {repetition : Watcher.Repetition (StateM Workspace)}
    (hwatch : plan.arguments.watch = false)
    (h : w.perform (execute lib plan repetition) = (.ok 0, w')) :
    let options := outputOptions plan.arguments ⟨1, w.cwd⟩
    let sources := plan.arguments.files.map Path.ofText
    Ready options sources w ∧
      w.perform (batch lib plan.settings options sources) = (.ok true, w') := by
  intro options sources
  rcases perform_execute lib hwatch w repetition with ⟨-, hstatus, -⟩ | ⟨hready, hrun⟩
  · rw [h] at hstatus
    obtain hstatus | ⟨f, -, hstatus⟩ := hstatus <;> cases hstatus
  refine ⟨hready, ?_⟩
  rw [h] at hrun
  rcases hbatch : w.perform (batch lib plan.settings options sources) with ⟨f | fine, w₁⟩
  · rw [perform_bind_error hbatch] at hrun
    cases hrun
  · rw [perform_bind_ok hbatch] at hrun
    cases fine with
    | true =>
      cases hrun
      rfl
    | false => cases hrun

theorem hasFolder_of_seen {p : Path} (h : w.seen p Tree.hasFolder = .ok true) :
    w.tree.hasFolder w.cwd p = true := by
  unfold seen at h
  split at h
  · cases h
  · cases h
  · exact Except.ok.inj h

theorem rendered_congr {cwd : List Text} {t t' : Tree} {codec : Codec} {outputs : Outputs}
    (h : Processing.Rendered lib settings options source cwd t codec outputs)
    (hread : t'.read cwd source = t.read cwd source) :
    Processing.Rendered lib settings options source cwd t' codec outputs where
  codec := h.codec
  rendering := hread ▸ h.rendering
  paths := h.paths
  aside := h.aside

/-- What a run leaves that ends with status zero, where nobody else changes files. Nothing has
changed but at the places of the outputs that were asked for. A source is as it was unless another
document has an output at its place, and the outputs of a document that is not overwritten before
its turn render its original text, each of them unless a later document has an output at its
place. -/
theorem execute_keeps (lib : Libraries) (plan : Plan)
    (repetition : Watcher.Repetition (StateM Workspace)) (w w' : Workspace)
    (hplain : ['.', '.'] ∉ w.cwd) (halone : w.napScript = [])
    (hground : w.tree.Grounded w.cwd) (hwatch : plan.arguments.watch = false)
    (hrun : w.perform (execute lib plan repetition) = (.ok 0, w')) :
    let options := outputOptions plan.arguments ⟨1, w.cwd⟩
    let sources := plan.arguments.files.map Path.ofText
    (∀ place, place ∉ places options w.cwd sources → w'.tree.get? place = w.tree.get? place) ∧
    ∀ front source back, sources = front ++ source :: back →
      (source.resolve w.cwd ∉ places options w.cwd (front ++ back) →
        w'.tree.read w.cwd source = w.tree.read w.cwd source) ∧
      (source.resolve w.cwd ∉ places options w.cwd front → ∃ codec outputs,
        Processing.Rendered lib plan.settings options source w.cwd w.tree codec outputs ∧
        ∀ o ∈ outputs, o.1.resolve w.cwd ∉ places options w.cwd back →
          ∃ bytes, codec.encode o.2 = .ok bytes ∧ w'.tree.read w.cwd o.1 = .ok bytes) := by
  intro options sources
  obtain ⟨hready, hbatch⟩ := batch_of_execute hwatch hrun
  have hgrounded : ∀ p ∈ folders options, w.tree.Grounded (p.resolve w.cwd) := fun p hp =>
    Tree.grounded_of_hasFolder hplain hground (hasFolder_of_seen (hready.folders p hp))
  have hw : Settled options w :=
    ⟨hplain, halone, fun hc => hgrounded _ (by simp [folders, hc]),
      fun hd => hgrounded _ (by simp only [folders, hd]; simp)⟩
  have hslash : ∀ s ∈ sources, '/' ∉ s.name := by
    intro s hs
    obtain ⟨text, -, rfl⟩ := List.mem_map.1 hs
    exact Path.slash_not_mem_name text
  refine ⟨(passed_of_batch hw hslash hbatch).elsewhere, fun front source back hsplit => ?_⟩
  rw [hsplit] at hslash
  have hbatch' : w.perform (batch lib plan.settings options (front ++ source :: back)) =
      (.ok true, w') := hsplit ▸ hbatch
  obtain ⟨w₁, w₂, codec, outputs, hcwd₂, hfront, hrendered, hwritten, hback⟩ :=
    exists_turn hw hslash hbatch'
  -- the source is found by its turn as it was at the start
  have hread : source.resolve w.cwd ∉ places options w.cwd front →
      ∃ bytes, w.tree.read w.cwd source = .ok bytes ∧ w₁.tree.read w.cwd source = .ok bytes := by
    intro hplace
    obtain ⟨bytes, -, hbytes, -, -⟩ := hrendered.rendering
    exact ⟨bytes, Tree.read_kept hplain (fun q => (hfront.folders q).symm)
      (hfront.elsewhere _ hplace).symm hbytes, hbytes⟩
  constructor
  · intro hplace
    rw [places, List.flatMap_append, List.mem_append, not_or] at hplace
    obtain ⟨bytes, hbytes, hbytes₁⟩ := hread hplace.1
    have hkept := hrendered.source_kept hplain hwritten.folders
      (hwritten.elsewhere _ hrendered.aside)
    have hlater := hback.elsewhere (source.resolve w.cwd)
    rw [hcwd₂] at hlater
    rw [hbytes, Tree.read_kept hplain hback.folders (hlater hplace.2) (hkept.trans hbytes₁)]
  · intro hplace
    obtain ⟨bytes, hbytes, hbytes₁⟩ := hread hplace
    refine ⟨codec, outputs, rendered_congr hrendered (hbytes.trans hbytes₁.symm),
      fun o ho hlast => ?_⟩
    obtain ⟨encoded, hencoded, hholds⟩ := hwritten.holds o ho
    have hlater := hback.elsewhere (o.1.resolve w.cwd)
    rw [hcwd₂] at hlater
    exact ⟨encoded, hencoded, Tree.read_kept hplain hback.folders (hlater hlast) hholds⟩

def shelf : Workspace :=
  { Processing.desk with
    tree := ⟨[(["shelf"], .folder (.int 0)), (["shelf", "a"], .folder (.int 0)),
      (["shelf", "b"], .folder (.int 0)),
      (["shelf", "a", "x.lit"], .file (Encoding.encodeUtf8 "<< * >>=\nA\n@\n") (.int 0)),
      (["shelf", "b", "x.lit"], .file (Encoding.encodeUtf8 "<< * >>=\nB\n@\n") (.int 0)),
      (["shelf", "x.md"], .file (Encoding.encodeUtf8 "<< * >>=\nC\n@\n") (.int 0))]⟩
    cwd := ["shelf"] }

def shelfPlan (files : List Text) : Plan where
  arguments := { files, markdown := true }
  settings := {}

/-- The first document is as it was, and what the last one renders to is read back. -/
theorem execute_keeps_shelf :
    ['.', '.'] ∉ shelf.cwd ∧ shelf.napScript = [] ∧ shelf.tree.Grounded shelf.cwd ∧
    (shelfPlan ["b/x.lit", "a/x.lit"]).arguments.watch = false ∧
    ∃ w', shelf.perform (execute .bare (shelfPlan ["b/x.lit", "a/x.lit"]) (Watcher.repeatUpTo 0)) =
        (.ok 0, w') ∧
      w'.tree.read shelf.cwd (Path.ofText "b/x.lit") =
        shelf.tree.read shelf.cwd (Path.ofText "b/x.lit") ∧
      ∃ codec outputs, Processing.Rendered .bare {}
          (outputOptions (shelfPlan []).arguments ⟨1, shelf.cwd⟩) (Path.ofText "a/x.lit")
          shelf.cwd shelf.tree codec outputs ∧
        ∀ o ∈ outputs, ∃ bytes, codec.encode o.2 = .ok bytes ∧
          w'.tree.read shelf.cwd o.1 = .ok bytes := by
  -- only the status is computed; what the run leaves follows from the general theorem
  have hstatus : (shelf.perform (execute .bare (shelfPlan ["b/x.lit", "a/x.lit"])
      (Watcher.repeatUpTo 0))).1.toOption = some 0 := by decide +kernel
  rcases hrun : shelf.perform (execute .bare (shelfPlan ["b/x.lit", "a/x.lit"])
    (Watcher.repeatUpTo 0)) with ⟨f | status, w'⟩
  · rw [hrun] at hstatus
    cases hstatus
  rw [hrun] at hstatus
  cases hstatus
  refine ⟨by decide, rfl, by decide, rfl, w', rfl, ?_⟩
  obtain ⟨-, hkept⟩ := execute_keeps .bare _ _ shelf w' (by decide) rfl (by decide) rfl hrun
  obtain ⟨hfirst, -⟩ := hkept [] (Path.ofText "b/x.lit") [Path.ofText "a/x.lit"] (by decide)
  obtain ⟨-, hlast⟩ := hkept [Path.ofText "b/x.lit"] (Path.ofText "a/x.lit") [] (by decide)
  obtain ⟨codec, outputs, hrendered, hholds⟩ := hlast (by decide)
  exact ⟨hfirst (by decide), codec, outputs, hrendered, fun o ho => hholds o ho List.not_mem_nil⟩

/-- Documents of one name have their outputs at one place, and the last one wins; a document that
stands where another has an output is overwritten. -/
theorem outputs_of_one_name :
    let plan := shelfPlan ["a/x.lit", "b/x.lit", "x.md"]
    let options := outputOptions plan.arguments ⟨1, shelf.cwd⟩
    let ended := shelf.perform (execute .bare plan (Watcher.repeatUpTo 0))
    (plan.arguments.files.map fun s => (Path.ofText s).resolve shelf.cwd).Nodup ∧
    (∀ s ∈ plan.arguments.files, shelf.tree.hasFile shelf.cwd (Path.ofText s) = true) ∧
    ended.1.toOption = some 0 ∧
    (Outputs.ofText .bare {} options (Path.ofText "a/x.lit") "<< * >>=\nA\n@\n").result.toOption =
      some [(options.docsFolder.child "x.md", ("```\n<< * >>=\nA\n```\n" : Text))] ∧
    (ended.2.tree.read shelf.cwd (options.docsFolder.child "x.md")).toOption =
      some (Encoding.encodeUtf8 "```\n<< * >>=\nB\n```\n") ∧
    (shelf.tree.read shelf.cwd (Path.ofText "x.md")).toOption =
      some (Encoding.encodeUtf8 "<< * >>=\nC\n@\n") ∧
    (ended.2.tree.read shelf.cwd (Path.ofText "x.md")).toOption =
      some (Encoding.encodeUtf8 "```\n<< * >>=\nB\n```\n") := by
  refine ⟨by decide, by decide, by decide +kernel, by decide +kernel, by decide +kernel,
    by decide +kernel, by decide +kernel⟩

end Literate.Command

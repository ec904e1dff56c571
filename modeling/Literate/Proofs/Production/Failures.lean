import Literate.Proofs.Production.Places

namespace Literate.Processing

open Workspace Outputs

/-- The failures of processing a document that have no report. The settings may name an encoding or
a style that cannot be had or used, a path may have a zero character in it, and the machine may fail
in a way that is none of the file system. -/
inductive Foreign (lib : Libraries) (settings : Settings) (options : OutputOptions) (source : Path)
    (w : Workspace) : Fault → Prop where
  | encodingName {m : Mishap} (refused : Libraries.nameRefusal? settings.encoding = some m) :
    Foreign lib settings options source w (.ofMishap m)
  | encoding {m : Mishap} (unknown : lib.codec settings.encoding = .error m) :
    Foreign lib settings options source w (.ofMishap m)
  | decoding {codec : Codec} {bytes : Bytes} {m : Mishap}
    (known : lib.codec settings.encoding = .ok codec)
    (read : (Source.reading lib settings source w).2.tree.read w.cwd source = .ok bytes)
    (failing : codec.decode bytes = .error (.otherwise m)) :
    Foreign lib settings options source w (.ofMishap m)
  | style {f : Fault} (unstyled : Unstyled lib settings options f) :
    Foreign lib settings options source w f
  | encodingOutput {codec : Codec} {outputs : Outputs} {o : Path × Text} {m : Mishap}
    (known : lib.codec settings.encoding = .ok codec)
    (succeeded : made lib settings options source w = .ok outputs) (mem : o ∈ outputs)
    (failing : codec.encode o.2 = .error (.otherwise m)) :
    Foreign lib settings options source w (.ofMishap m)
  | path {p : Path} {cause : PathFault} (named : p = source ∨ p ∈ requested options source)
    (refused : p.refusal? = some cause) :
    Foreign lib settings options source w (.unreachable cause)
  | reading {k : Nat} {cause : PathFault} (met : (w.obstacles k).reading source = some cause)
    (foreign : cause.ofSystem = false) :
    Foreign lib settings options source w (.unreachable cause)
  | napping {k : Nat} {m : Mishap}
    (met : (w.obstacles k).napping settings.retryDelay = some m) :
    Foreign lib settings options source w (.ofMishap m)
  | resolving {k : Nat} {p : Path} {cause : PathFault}
    (named : p = source ∨ p ∈ requested options source)
    (met : (w.obstacles k).resolving p = some cause) :
    Foreign lib settings options source w (.unreachable cause)
  | writing {k : Nat} {p : Path} {cause : PathFault} {left : Option Bytes}
    (named : p ∈ requested options source)
    (met : (w.obstacles k).writing p = some (cause, left)) (foreign : cause.ofSystem = false) :
    Foreign lib settings options source w (.unreachable cause)

/-- A failure that has a report or is foreign. -/
def Expected (lib : Libraries) (settings : Settings) (options : OutputOptions) (source : Path)
    (w : Workspace) (f : Fault) : Prop :=
  f.report?.isSome = true ∨ Foreign lib settings options source w f

variable {lib : Libraries} {settings : Settings} {options : OutputOptions} {source path : Path}
  {contents : Text} {outputs rest : Outputs} {w v : Workspace} {f : PathFault}

theorem foreign_of_found (hv : v.obstacles = w.obstacles) (h : v.found source = .error f)
    (hforeign : f.ofSystem = false) :
    Foreign lib settings options source w (.unreachable f) := by
  rcases found_eq_error h with hrefused | hmet | hread
  · exact .path (.inl rfl) hrefused
  · rw [present, hv] at hmet
    exact .reading hmet hforeign
  · -- the tree itself knows no failures but those of the file system
    simp [Tree.ofSystem_of_read hread] at hforeign

theorem expected_decode {bytes : Bytes}
    (hread : (Source.reading lib settings source w).2.tree.read w.cwd source = .ok bytes) :
    FailsWith (Expected lib settings options source w)
      (Source.decode lib settings source bytes) := by
  unfold Source.decode
  cases hcodec : lib.codec settings.encoding with
  | error m => exact failsWith_error (.inr (.encoding hcodec))
  | ok codec =>
    dsimp only
    split
    · exact failsWith_ok _
    · exact failsWith_error (.inl rfl)
    · next hfailing => exact failsWith_error (.inr (.decoding hcodec hread hfailing))

theorem expected_reading : FailsWith (Expected lib settings options source w)
    (Source.reading lib settings source w).1 := by
  rcases Source.reading_cases lib settings source (w := w)
    (P := fun v => v.obstacles = w.obstacles) (fun _ hv => hv)
    (fun v hv => (obstacles_napped v _).trans hv) rfl with
    ⟨m, hname, hreading⟩ | ⟨v, hv, hended, hlast⟩
  · rw [hreading]
    exact failsWith_error (.inr (.encodingName hname))
  · have hcwd := Source.cwd_reading lib settings source w
    generalize hr : (Source.reading lib settings source w).1 = r at hended
    cases hended with
    | decoded hfound =>
      have hread : v.tree.read v.cwd source = .ok _ := read_of_found hfound
      refine expected_decode ?_
      rw [← hcwd, hlast]
      exact hread
    | unreadable hfound => exact failsWith_error (.inl rfl)
    | unreachable hfound hforeign =>
      exact failsWith_error (.inr (foreign_of_found hv hfound hforeign))
    | restless hsleepless =>
      rw [present, show v.used.obstacles = w.obstacles from hv] at hsleepless
      exact failsWith_error (.inr (.napping hsleepless))

theorem expected_made : FailsWith (Expected lib settings options source w)
    (made lib settings options source w) :=
  expected_reading.bind fun text f hf =>
    (making_ofText lib settings options source text f hf).reported.imp_right .style

theorem requested_of_made (hmade : made lib settings options source w = .ok outputs)
    {o : Path × Text} (ho : o ∈ outputs) : o.1 ∈ requested options source := by
  obtain ⟨codec, bytes, text, -, -, -, houtputs⟩ := exists_text_of_made hmade
  exact (mem_paths_ofText houtputs).1 (List.mem_map_of_mem ho)

theorem foreign_of_resolved (hv : v.obstacles = w.obstacles)
    (hpath : path = source ∨ path ∈ requested options source) (h : v.resolved path = .error f) :
    Foreign lib settings options source w (.unreachable f) := by
  rcases resolved_eq_error h with hrefused | hmet
  · exact .path hpath hrefused
  · rw [present, hv] at hmet
    exact .resolving hpath hmet

theorem expected_collides (hv : v.obstacles = w.obstacles)
    (hpaths : ∀ o ∈ outputs, o.1 ∈ requested options source) :
    FailsWith (Expected lib settings options source w) (collides source v outputs) := by
  induction outputs with
  | nil => exact failsWith_ok _
  | cons o outputs ih =>
    rw [List.forall_mem_cons] at hpaths
    unfold collides
    split
    · next hpath => exact failsWith_error (.inr (foreign_of_resolved hv (.inr hpaths.1) hpath))
    · next hsource => exact failsWith_error (.inr (foreign_of_resolved hv (.inl rfl) hsource))
    · split
      · exact failsWith_ok _
      · exact ih hpaths.2

theorem expected_refused {g : Fault} (h : Refused lib settings options source w g) :
    Expected lib settings options source w g := by
  have hobstacles := Source.obstacles_reading lib settings source w
  cases h with
  | unmade failed => exact expected_made g failed
  | unresolved succeeded lost =>
    exact expected_collides hobstacles (fun o => requested_of_made succeeded) g lost
  | overwriting succeeded overwritten => exact .inl rfl

theorem foreign_of_written {bytes : Bytes} (hv : v.obstacles = w.obstacles)
    (hpath : path ∈ requested options source) (h : (v.written path bytes).1 = .error f)
    (hforeign : f.ofSystem = false) :
    Foreign lib settings options source w (.unreachable f) := by
  rcases written_eq_error h with hrefused | ⟨left, hmet⟩ | ⟨left, hwrite⟩
  · exact .path (.inr hpath) hrefused
  · rw [present, hv] at hmet
    exact .writing hpath hmet hforeign
  · simp [Tree.ofSystem_of_write hwrite] at hforeign

theorem expected_writeOutput (hv : v.obstacles = w.obstacles)
    (hmade : made lib settings options source w = .ok outputs) (ho : (path, contents) ∈ outputs) :
    FailsWith (Expected lib settings options source w)
        (v.perform (writeOutput lib settings source path contents)).1 ∧
      (v.perform (writeOutput lib settings source path contents)).2.obstacles = w.obstacles := by
  obtain ⟨codec, bytes, text, hcodec, -, -, -⟩ := exists_text_of_made hmade
  unfold writeOutput
  rw [encode_eq hcodec, perform_lift_bind, run_writeFile]
  -- the file is written, or emptied, before it is known whether its text has bytes
  generalize (codec.encode contents).toOption.getD [] = stored
  have hleft := (obstacles_written v path stored).trans hv
  cases hwrite : (v.written path stored).1 with
  | error f =>
    dsimp only
    split
    · exact ⟨failsWith_error (.inl rfl), hleft⟩
    · next hforeign =>
      refine ⟨failsWith_error (.inr ?_), hleft⟩
      exact foreign_of_written hv (requested_of_made hmade ho) hwrite (by simpa using hforeign)
  | ok _ =>
    dsimp only
    split
    · exact ⟨failsWith_error (.inl rfl), hleft⟩
    · next hfailing =>
      exact ⟨failsWith_error (.inr (.encodingOutput hcodec hmade ho hfailing)), hleft⟩
    · exact ⟨failsWith_ok _, hleft⟩

theorem expected_writeAll (hv : v.obstacles = w.obstacles)
    (hmade : made lib settings options source w = .ok outputs) (hrest : rest ⊆ outputs) :
    FailsWith (Expected lib settings options source w)
      (v.perform (writeAll lib settings source rest)).1 := by
  induction rest generalizing v with
  | nil => exact failsWith_ok _
  | cons o rest ih =>
    obtain ⟨path, contents⟩ := o
    rw [List.cons_subset] at hrest
    obtain ⟨hfails, hleft⟩ := expected_writeOutput hv hmade hrest.1
    rw [writeAll]
    rcases hfirst : v.perform (writeOutput lib settings source path contents) with ⟨f | _, v'⟩
    · rw [hfirst] at hfails
      rw [perform_bind_error hfirst]
      exact failsWith_error (hfails f rfl)
    · rw [hfirst] at hleft
      rw [perform_bind_ok hfirst]
      exact ih hleft hrest.2

/-- Processing a document fails with a report or in a way that is foreign. -/
theorem expected_file : FailsWith (Expected lib settings options source w)
    (w.perform (file lib settings options source)).1 := by
  obtain ⟨w₁, hsame, ⟨f, hrefused, hrun⟩ | ⟨outputs, hmade, -, hrun⟩⟩ :=
    perform_file lib settings options source w
  · rw [hrun]
    exact failsWith_error (expected_refused hrefused)
  · obtain ⟨w₂, -, hconclude⟩ := perform_conclude lib settings source w₁ 0.0 outputs
    have hobstacles : w₁.obstacles = w.obstacles :=
      (obstacles_eq_of_silenced hsame).trans (Source.obstacles_reading lib settings source w)
    have hfails := expected_writeAll hobstacles hmade (List.Subset.refl outputs)
    rw [hrun, hconclude]
    rcases hwrite : (w₁.perform (writeAll lib settings source outputs)).1 with f | _
    · rw [hwrite] at hfails
      exact failsWith_error (hfails f rfl)
    · exact failsWith_ok _

end Literate.Processing

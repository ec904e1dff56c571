import Literate.Production.Processing
import Literate.Proofs.File.Tree
import Literate.Proofs.Production.Outputs
import Literate.Proofs.Production.Source

namespace Literate.Processing

open Workspace

/-- How writing an output fails, and the tree that it leaves: the file may hold something else when
it cannot be written, and is empty when the text has no bytes in the encoding. -/
inductive Stops (codec : Codec) (cwd : List Text) (source path : Path) (contents : Text)
    (t : Tree) : Fault → Tree → Prop where
  | unwritable {cause : PathFault} {t' : Tree} (touched : Tree.Touched cwd path t t') :
    Stops codec cwd source path contents t (.unwritable source.toText path.toText cause) t'
  | unreachable {cause : PathFault} {t' : Tree} (foreign : cause.ofSystem = false)
    (touched : Tree.Touched cwd path t t') :
    Stops codec cwd source path contents t (.unreachable cause) t'
  | unencodable {cause : EncodeFault} {t' : Tree}
    (unencoded : codec.encode contents = .error (.place cause))
    (emptied : Tree.Stored cwd path [] t t') :
    Stops codec cwd source path contents t (.unencodable source.toText path.toText cause) t'
  | failing {m : Mishap} {t' : Tree} (unencoded : codec.encode contents = .error (.otherwise m))
    (emptied : Tree.Stored cwd path [] t t') :
    Stops codec cwd source path contents t (.ofMishap m) t'

theorem Stops.touched {codec : Codec} {cwd : List Text} {source path : Path} {contents : Text}
    {t t' : Tree} {f : Fault} (h : Stops codec cwd source path contents t f t') :
    Tree.Touched cwd path t t' := by
  cases h with
  | unwritable touched => exact touched
  | unreachable foreign touched => exact touched
  | unencodable unencoded emptied => exact .inr ⟨[], emptied⟩
  | failing unencoded emptied => exact .inr ⟨[], emptied⟩

/-- Whether a file is written or not, the workspace that is left differs in the tree alone from one
on which a file has been used. -/
theorem exists_written {w : Workspace} (hcwd : ['.', '.'] ∉ w.cwd) (path : Path) (bytes : Bytes) :
    ∃ r t, w.written path bytes = (r, { w.used with tree := t }) ∧
      match r with
      | .ok _ => Tree.Stored w.cwd path bytes w.tree t
      | .error _ => Tree.Touched w.cwd path w.tree t := by
  unfold written
  dsimp only
  cases path.refusal? with
  | some f => exact ⟨_, w.tree, rfl, .inl rfl⟩
  | none =>
    rcases w.present.writing path with _ | ⟨f, _ | left⟩
    all_goals dsimp only
    · cases hwrite : w.tree.write w.cwd path bytes w.writeTime with
      | error f => exact ⟨_, w.tree, rfl, .inl rfl⟩
      | ok t => exact ⟨_, t, rfl, Tree.stored_of_write hcwd hwrite⟩
    · exact ⟨_, w.tree, rfl, .inl rfl⟩
    · cases hwrite : w.tree.write w.cwd path left w.writeTime with
      | error f => exact ⟨_, w.tree, rfl, .inl rfl⟩
      | ok t => exact ⟨_, t, rfl, .inr ⟨left, Tree.stored_of_write hcwd hwrite⟩⟩

theorem encode_eq {lib : Libraries} {settings : Settings} {codec : Codec}
    (hcodec : lib.codec settings.encoding = .ok codec) (contents : Text) :
    encode lib settings contents = codec.encode contents := by
  rw [encode, hcodec]

theorem perform_writeOutput {lib : Libraries} {settings : Settings} {codec : Codec}
    (hcodec : lib.codec settings.encoding = .ok codec) (source path : Path) (contents : Text)
    {w : Workspace} (hcwd : ['.', '.'] ∉ w.cwd) :
    ∃ r t notices, w.perform (writeOutput lib settings source path contents) =
        (r, { w.used with tree := t, notices }) ∧
      match r with
      | .ok _ => ∃ bytes, codec.encode contents = .ok bytes ∧
          Tree.Stored w.cwd path bytes w.tree t
      | .error f => Stops codec w.cwd source path contents w.tree f t := by
  unfold writeOutput
  rw [encode_eq hcodec, perform_lift_bind, run_writeFile]
  obtain ⟨r, t, hwritten, hr⟩ :=
    exists_written hcwd path ((codec.encode contents).toOption.getD [])
  rw [hwritten]
  cases r with
  | error f =>
    dsimp only
    split
    · exact ⟨_, t, w.notices, rfl, .unwritable hr⟩
    · next hforeign => exact ⟨_, t, w.notices, rfl, .unreachable (by simpa using hforeign) hr⟩
  | ok _ =>
    -- the file is opened, and emptied, before the text turns out to have no bytes
    cases hencoded : codec.encode contents with
    | ok bytes =>
      rw [hencoded] at hr
      exact ⟨_, t, _, rfl, bytes, rfl, hr⟩
    | error f =>
      rw [hencoded] at hr
      cases f with
      | place f => exact ⟨_, t, w.notices, rfl, .unencodable hencoded hr⟩
      | otherwise m => exact ⟨_, t, w.notices, rfl, .failing hencoded hr⟩

/-- From `t` to `t'` the outputs have been written, and nothing else has happened. -/
structure Written (codec : Codec) (cwd : List Text) (outputs : Outputs) (t t' : Tree) : Prop where
  holds : ∀ o ∈ outputs, ∃ bytes, codec.encode o.2 = .ok bytes ∧ t'.read cwd o.1 = .ok bytes
  elsewhere : ∀ place, place ∉ outputs.map (·.1.resolve cwd) → t'.get? place = t.get? place
  folders : Tree.SameFolders t t'

theorem Written.nil (codec : Codec) (cwd : List Text) (t : Tree) : Written codec cwd [] t t :=
  ⟨nofun, fun _ _ => rfl, .refl t⟩

theorem Written.cons {codec : Codec} {cwd : List Text} {path : Path} {contents : Text}
    {bytes : Bytes} {outputs : Outputs} {t t₁ t' : Tree} (hcwd : ['.', '.'] ∉ cwd)
    (hbytes : codec.encode contents = .ok bytes) (hfirst : Tree.Stored cwd path bytes t t₁)
    (hrest : Written codec cwd outputs t₁ t')
    (hpath : path.resolve cwd ∉ outputs.map (·.1.resolve cwd)) :
    Written codec cwd ((path, contents) :: outputs) t t' := by
  refine ⟨?_, ?_, hfirst.folders.trans hrest.folders⟩
  · intro o ho
    rcases List.mem_cons.mp ho with rfl | ho
    · exact ⟨bytes, hbytes,
        Tree.read_kept hcwd hrest.folders (hrest.elsewhere _ hpath) hfirst.holds⟩
    · exact hrest.holds o ho
  · intro place hp
    rw [List.map_cons, List.mem_cons, not_or] at hp
    rw [hrest.elsewhere place hp.2, hfirst.elsewhere place hp.1]

/-- Outputs at different places are written until one of them fails. -/
theorem perform_writeAll {lib : Libraries} {settings : Settings} {codec : Codec}
    (hcodec : lib.codec settings.encoding = .ok codec) (source : Path) {outputs : Outputs}
    {w : Workspace} (hcwd : ['.', '.'] ∉ w.cwd)
    (hplaces : (outputs.map (·.1.resolve w.cwd)).Nodup) :
    ∃ r t uses notices, w.perform (writeAll lib settings source outputs) =
        (r, { w with tree := t, uses, notices }) ∧
      match r with
      | .ok _ => Written codec w.cwd outputs w.tree t
      | .error f => ∃ front path contents back t₁, outputs = front ++ (path, contents) :: back ∧
          Written codec w.cwd front w.tree t₁ ∧
            Stops codec w.cwd source path contents t₁ f t := by
  induction outputs generalizing w with
  | nil => exact ⟨_, w.tree, w.uses, w.notices, rfl, .nil codec w.cwd w.tree⟩
  | cons o outputs ih =>
    -- the first output is written or ends the run; the others start from the tree that it leaves
    obtain ⟨path, contents⟩ := o
    rw [List.map_cons, List.nodup_cons] at hplaces
    obtain ⟨r, t₁, notices₁, hfirst, hr⟩ :=
      perform_writeOutput hcodec source path contents hcwd
    rw [writeAll]
    cases r with
    | error f =>
      exact ⟨_, t₁, _, notices₁, perform_bind_error hfirst,
        [], path, contents, outputs, w.tree, rfl, .nil codec w.cwd w.tree, hr⟩
    | ok _ =>
      obtain ⟨bytes, hbytes, hstored⟩ := hr
      obtain ⟨r, t, uses, notices, hrest, hr'⟩ :=
        ih (w := { w.used with tree := t₁, notices := notices₁ }) hcwd hplaces.2
      refine ⟨r, t, uses, notices, (perform_bind_ok hfirst).trans hrest, ?_⟩
      cases r with
      | ok _ => exact .cons hcwd hbytes hstored hr' hplaces.1
      | error f =>
        obtain ⟨front, path', contents', back, t₂, rfl, hfront, hstop⟩ := hr'
        refine ⟨(path, contents) :: front, path', contents', back, t₂, rfl, ?_, hstop⟩
        refine .cons hcwd hbytes hstored hfront fun hm => hplaces.1 ?_
        rw [List.map_append]
        exact List.mem_append_left _ hm

/-- The outputs of a source as reading it ends. -/
def made (lib : Libraries) (settings : Settings) (options : OutputOptions) (source : Path)
    (w : Workspace) : Except Fault Outputs :=
  (Source.reading lib settings source w).1.bind fun text =>
    (Outputs.ofText lib settings options source text).result

/-- Whether an output would be written to the place of the source, as far as places are found. -/
def collides (source : Path) (w : Workspace) : Outputs → Except Fault Bool
  | [] => .ok false
  | (path, _) :: rest =>
    match w.resolved path, w.resolved source with
    | .error f, _ => .error (.unreachable f)
    | .ok _, .error f => .error (.unreachable f)
    | .ok place, .ok own => if place = own then .ok true else collides source w rest

theorem perform_overwrites (source : Path) (outputs : Outputs) (w : Workspace) :
    w.perform (overwrites source outputs) = (collides source w outputs, w) := by
  have hplace : ∀ p, w.perform (placeOf p) = ((w.resolved p).mapError .unreachable, w) := by
    intro p
    rw [placeOf, perform_lift_bind, run_resolve]
    cases w.resolved p <;> rfl
  induction outputs with
  | nil => rfl
  | cons o outputs ih =>
    obtain ⟨path, contents⟩ := o
    have hpath := hplace path
    have hsource := hplace source
    rw [overwrites, collides]
    cases hp : w.resolved path with
    | error f =>
      rw [hp] at hpath
      exact perform_bind_error hpath
    | ok place =>
      rw [hp] at hpath
      rw [perform_bind_ok hpath]
      cases hs : w.resolved source with
      | error f =>
        rw [hs] at hsource
        exact perform_bind_error hsource
      | ok own =>
        rw [hs] at hsource
        rw [perform_bind_ok hsource]
        dsimp only
        split
        · rfl
        · exact ih

theorem collides_congr {w w' : Workspace} (h : w'.silenced = w.silenced) (source : Path)
    (outputs : Outputs) : collides source w' outputs = collides source w outputs := by
  have hsilenced : ∀ v : Workspace,
      collides source v outputs = collides source v.silenced outputs := by
    intro v
    induction outputs with
    | nil => rfl
    | cons o outputs ih =>
      rw [collides, collides, ih]
      rfl
  rw [hsilenced w', h, ← hsilenced]

theorem resolve_eq_of_resolved {w : Workspace} {p : Path} {place : List Text}
    (h : w.resolved p = .ok place) : p.resolve w.cwd = place := by
  unfold resolved at h
  split at h
  · cases h
  · exact Except.ok.inj h

theorem aside_of_collides {source : Path} {w : Workspace} {outputs : Outputs}
    (h : collides source w outputs = .ok false) :
    source.resolve w.cwd ∉ outputs.map (·.1.resolve w.cwd) := by
  induction outputs with
  | nil => exact List.not_mem_nil
  | cons o outputs ih =>
    obtain ⟨path, contents⟩ := o
    unfold collides at h
    split at h
    · cases h
    · cases h
    · next place own hplace hown =>
      split at h
      · cases h
      · next hne =>
        rw [List.map_cons, List.mem_cons, not_or, resolve_eq_of_resolved hplace,
          resolve_eq_of_resolved hown]
        refine ⟨Ne.symm hne, ?_⟩
        rw [← resolve_eq_of_resolved hown]
        exact ih h

/-- The failures before the first write. -/
inductive Refused (lib : Libraries) (settings : Settings) (options : OutputOptions) (source : Path)
    (w : Workspace) : Fault → Prop where
  | unmade {f : Fault} (failed : made lib settings options source w = .error f) :
    Refused lib settings options source w f
  | unresolved {outputs : Outputs} {f : Fault}
    (succeeded : made lib settings options source w = .ok outputs)
    (lost : collides source (Source.reading lib settings source w).2 outputs = .error f) :
    Refused lib settings options source w f
  | overwriting {outputs : Outputs} (succeeded : made lib settings options source w = .ok outputs)
    (overwritten : collides source (Source.reading lib settings source w).2 outputs = .ok true) :
    Refused lib settings options source w (.overwritesSource source.toText)

/-- The part of a run that follows when the outputs have been made and found to be aside. -/
def conclude (lib : Libraries) (settings : Settings) (source : Path) (start : Float)
    (outputs : Outputs) : ExceptT Fault (StateM Workspace) (List Path) := do
  writeAll lib settings source outputs
  let stop ← ExceptT.lift Host.stopwatch
  if ← ExceptT.lift Host.logging then
    ExceptT.lift (Host.record (finishedEvent source outputs.length (stop - start)))
  return outputs.map (·.1)

section

variable (lib : Libraries) (settings : Settings) (options : OutputOptions) (source : Path)
  (w : Workspace)

/-- A run reads, makes the outputs and looks where they go; up to there it leaves only notices. It
is refused by then or goes on with the outputs. -/
theorem perform_file :
    ∃ w', w'.silenced = (Source.reading lib settings source w).2.silenced ∧
      ((∃ f, Refused lib settings options source w f ∧
          w.perform (file lib settings options source) = (.error f, w')) ∨
        ∃ outputs, made lib settings options source w = .ok outputs ∧
          collides source (Source.reading lib settings source w).2 outputs = .ok false ∧
          w.perform (file lib settings options source) =
            w'.perform (conclude lib settings source 0.0 outputs)) := by
  obtain ⟨w₀, hw₀, hread⟩ := Source.perform_read_noticed lib settings source w
    (.event (startedEvent source))
  have hfile : w.perform (file lib settings options source) =
      (w.noticed (.event (startedEvent source))).perform
        (Source.read lib settings source >>= fun text =>
          (Outputs.ofText lib settings options source text).run >>= fun outputs =>
            overwrites source outputs >>= fun overwritten =>
              if overwritten then throw (.overwritesSource source.toText)
              else conclude lib settings source 0.0 outputs) := by
    unfold file
    rw [perform_lift_bind, perform_lift_bind]
    rfl
  rw [hfile]
  cases hv : (Source.reading lib settings source w).1 with
  | error f =>
    rw [hv] at hread
    exact ⟨w₀, hw₀, .inl ⟨f, .unmade (by rw [made, hv]; rfl), perform_bind_error hread⟩⟩
  | ok text =>
    rw [hv] at hread
    rw [perform_bind_ok hread]
    obtain ⟨w₁, hw₁, hmake⟩ := perform_traced w₀ (Outputs.ofText lib settings options source text)
    have hmade : made lib settings options source w =
        (Outputs.ofText lib settings options source text).result := by
      rw [made, hv]
      rfl
    refine ⟨w₁, hw₁.trans hw₀, ?_⟩
    cases ho : (Outputs.ofText lib settings options source text).result with
    | error f =>
      rw [ho] at hmake hmade
      exact .inl ⟨f, .unmade hmade, perform_bind_error hmake⟩
    | ok outputs =>
      rw [ho] at hmake hmade
      rw [perform_bind_ok hmake]
      -- places are found on a workspace that differs by notices
      have hsame : collides source w₁ outputs =
          collides source (Source.reading lib settings source w).2 outputs :=
        collides_congr (hw₁.trans hw₀) source outputs
      have hlook := perform_overwrites source outputs w₁
      rw [hsame] at hlook
      cases hc : collides source (Source.reading lib settings source w).2 outputs with
      | error f =>
        rw [hc] at hlook
        exact .inl ⟨f, .unresolved hmade hc, perform_bind_error hlook⟩
      | ok overwritten =>
        rw [hc] at hlook
        rw [perform_bind_ok hlook]
        cases overwritten with
        | true => exact .inl ⟨_, .overwriting hmade hc, rfl⟩
        | false => exact .inr ⟨outputs, hmade, hc, rfl⟩

theorem perform_conclude (start : Float) (outputs : Outputs) :
    ∃ w', w'.silenced = (w.perform (writeAll lib settings source outputs)).2.silenced ∧
      w.perform (conclude lib settings source start outputs) =
        ((w.perform (writeAll lib settings source outputs)).1.map fun _ => outputs.map (·.1),
          w') := by
  unfold conclude
  rcases hw : w.perform (writeAll lib settings source outputs) with ⟨f | _, w'⟩
  · exact ⟨w', rfl, perform_bind_error hw⟩
  · rw [perform_bind_ok hw, perform_lift_bind, run_stopwatch, perform_lift_bind, run_logging]
    dsimp only
    split
    · rw [perform_lift_bind, run_record]
      exact ⟨_, silenced_noticed w' _, rfl⟩
    · exact ⟨w', rfl, rfl⟩

end

/-- The outputs that a source has in a tree: they render its text, they stand at the requested paths
in order, and none of them is at the place of the source. -/
structure Rendered (lib : Libraries) (settings : Settings) (options : OutputOptions)
    (source : Path) (cwd : List Text) (t : Tree) (codec : Codec) (outputs : Outputs) : Prop where
  codec : lib.codec settings.encoding = .ok codec
  rendering : ∃ bytes text, t.read cwd source = .ok bytes ∧
    Source.decode lib settings source bytes = .ok text ∧
    (Outputs.ofText lib settings options source text).result = .ok outputs
  paths : outputs.map (·.1) = Outputs.requested options source
  aside : source.resolve cwd ∉ outputs.map (·.1.resolve cwd)

/-- The outputs of `front` hold their contents, those of `back` are as they were, and so is all else
but `path`. That one could not be written, and then it is as it was or a file with some bytes; or
its contents have no bytes in the encoding, and it is an empty file. -/
structure StoppedAt (codec : Codec) (cwd : List Text) (source : Path) (front : Outputs)
    (path : Path) (contents : Text) (back : Outputs) (f : Fault) (t t' : Tree) : Prop where
  holds : ∀ o ∈ front, ∃ bytes, codec.encode o.2 = .ok bytes ∧ t'.read cwd o.1 = .ok bytes
  untouched : ∀ o ∈ back, t'.get? (o.1.resolve cwd) = t.get? (o.1.resolve cwd)
  elsewhere : ∀ place, place ∉ front.map (·.1.resolve cwd) → place ≠ path.resolve cwd →
    t'.get? place = t.get? place
  cause : (((∃ c, f = .unwritable source.toText path.toText c) ∨
        ∃ c, f = .unreachable c ∧ c.ofSystem = false) ∧
      (t'.get? (path.resolve cwd) = t.get? (path.resolve cwd) ∨
        ∃ bytes, t'.read cwd path = .ok bytes)) ∨
    ((∃ c, f = .unencodable source.toText path.toText c ∧
        codec.encode contents = .error (.place c)) ∨
      ∃ m, f = .ofMishap m ∧ codec.encode contents = .error (.otherwise m)) ∧
    t'.read cwd path = .ok []

/-- A run that has been stopped by one of its outputs. -/
def Stopped (lib : Libraries) (settings : Settings) (options : OutputOptions) (source : Path)
    (w : Workspace) (f : Fault) (t' : Tree) : Prop :=
  let v := (Source.reading lib settings source w).2
  ∃ codec outputs front path contents back,
    made lib settings options source w = .ok outputs ∧ collides source v outputs = .ok false ∧
    Rendered lib settings options source w.cwd v.tree codec outputs ∧
    outputs = front ++ (path, contents) :: back ∧
    StoppedAt codec w.cwd source front path contents back f v.tree t'

/-- The effect of processing a source on the files, for each outcome. They are compared with those
that the last attempt to read the source has found. -/
structure Effect (lib : Libraries) (settings : Settings) (options : OutputOptions) (source : Path)
    (w : Workspace) (outcome : Except Fault (List Path)) (t' : Tree) : Prop where
  /-- The source is read as before, whatever the outcome. -/
  source_kept : t'.read w.cwd source =
    (Source.reading lib settings source w).2.tree.read w.cwd source
  /-- A failure comes before the first write and leaves the files as they were, or stops the
  writing. -/
  failed : ∀ f, outcome = .error f →
    (Refused lib settings options source w f ∧
      t' = (Source.reading lib settings source w).2.tree) ∨
    Stopped lib settings options source w f t'
  writing : ∀ f, outcome = .error f → f.ofWriting = true →
    Stopped lib settings options source w f t'
  returned : ∀ paths, outcome = .ok paths → ∃ codec outputs,
    made lib settings options source w = .ok outputs ∧
    Rendered lib settings options source w.cwd (Source.reading lib settings source w).2.tree
      codec outputs ∧
    paths = Outputs.requested options source ∧
    (∀ o ∈ outputs, ∃ bytes, codec.encode o.2 = .ok bytes ∧ t'.read w.cwd o.1 = .ok bytes) ∧
    ∀ place, place ∉ paths.map (Path.resolve w.cwd) →
      t'.get? place = (Source.reading lib settings source w).2.tree.get? place

section

variable {lib : Libraries} {settings : Settings} {options : OutputOptions} {source : Path}
  {w : Workspace}

theorem notOfWriting_decode (lib : Libraries) (settings : Settings) (source : Path)
    (bytes : Bytes) :
    FailsWith (fun f => f.ofWriting = false) (Source.decode lib settings source bytes) := by
  unfold Source.decode
  split
  · exact failsWith_error rfl
  · split
    · exact failsWith_ok _
    · exact failsWith_error rfl
    · exact failsWith_error rfl

theorem notOfWriting_reading (lib : Libraries) (settings : Settings) (source : Path)
    (w : Workspace) :
    FailsWith (fun f => f.ofWriting = false) (Source.reading lib settings source w).1 := by
  rcases Source.reading_cases lib settings source (w := w) (P := fun _ => True)
    (fun _ _ => trivial) (fun _ _ => trivial) trivial with
    ⟨m, -, hreading⟩ | ⟨v, -, hended, -⟩
  · rw [hreading]
    exact failsWith_error rfl
  · generalize (Source.reading lib settings source w).1 = r at hended
    cases hended with
    | decoded hfound => exact notOfWriting_decode lib settings source _
    | unreadable hfound => exact failsWith_error rfl
    | unreachable hfound hforeign => exact failsWith_error rfl
    | restless hsleepless => exact failsWith_error rfl

theorem notOfWriting_collides (source : Path) (w : Workspace) (outputs : Outputs) :
    FailsWith (fun f => f.ofWriting = false) (collides source w outputs) := by
  induction outputs with
  | nil => exact failsWith_ok _
  | cons o outputs ih =>
    unfold collides
    split
    · exact failsWith_error rfl
    · exact failsWith_error rfl
    · split
      · exact failsWith_ok _
      · exact ih

/-- What comes before the first write is no failure to write. -/
theorem Refused.notOfWriting {f : Fault} (h : Refused lib settings options source w f) :
    f.ofWriting = false := by
  cases h with
  | unmade failed =>
    have hmade : FailsWith (fun f => f.ofWriting = false)
        (made lib settings options source w) :=
      (notOfWriting_reading lib settings source w).bind fun text f hf =>
        (Outputs.making_ofText lib settings options source text f hf).notOfWriting
    exact hmade f failed
  | unresolved succeeded lost => exact notOfWriting_collides source _ _ f lost
  | overwriting succeeded overwritten => rfl

theorem Refused.effect {f : Fault} (h : Refused lib settings options source w f) :
    Effect lib settings options source w (.error f)
      (Source.reading lib settings source w).2.tree where
  source_kept := rfl
  failed := by
    intro g hg
    cases hg
    exact .inl ⟨h, rfl⟩
  writing := by
    intro g hg hw
    cases hg
    simp [h.notOfWriting] at hw
  returned := nofun

theorem exists_codec_of_decode {bytes : Bytes} {text : Text}
    (h : Source.decode lib settings source bytes = .ok text) :
    ∃ codec, lib.codec settings.encoding = .ok codec := by
  unfold Source.decode at h
  cases hcodec : lib.codec settings.encoding with
  | error m => simp [hcodec] at h
  | ok codec => exact ⟨codec, rfl⟩

theorem exists_text_of_made {outputs : Outputs}
    (h : made lib settings options source w = .ok outputs) :
    ∃ codec bytes text, lib.codec settings.encoding = .ok codec ∧
      (Source.reading lib settings source w).2.tree.read w.cwd source = .ok bytes ∧
      Source.decode lib settings source bytes = .ok text ∧
      (Outputs.ofText lib settings options source text).result = .ok outputs := by
  obtain ⟨text, htext, houtputs⟩ := Outputs.exists_of_bind_eq_ok h
  obtain ⟨bytes, hread, hdecode⟩ := Source.exists_bytes_of_reading (Prod.ext htext rfl)
  rw [Source.cwd_reading] at hread
  obtain ⟨codec, hcodec⟩ := exists_codec_of_decode hdecode
  exact ⟨codec, bytes, text, hcodec, hread, hdecode, houtputs⟩

theorem exists_rendered {outputs : Outputs}
    (hmade : made lib settings options source w = .ok outputs)
    (haside : collides source (Source.reading lib settings source w).2 outputs = .ok false)
    (hpaths : (Outputs.requested options source).Nodup) :
    ∃ codec, Rendered lib settings options source w.cwd
      (Source.reading lib settings source w).2.tree codec outputs := by
  obtain ⟨codec, bytes, text, hcodec, hread, hdecode, houtputs⟩ := exists_text_of_made hmade
  have hplaces := aside_of_collides haside
  rw [Source.cwd_reading] at hplaces
  exact ⟨codec, hcodec, ⟨bytes, text, hread, hdecode, houtputs⟩,
    Outputs.paths_ofText houtputs hpaths, hplaces⟩

end

theorem stoppedAt_of_stops {codec : Codec} {cwd : List Text} {source path : Path}
    {contents : Text} {front back : Outputs} {f : Fault} {t t₁ t' : Tree}
    (hcwd : ['.', '.'] ∉ cwd)
    (hplaces : ((front ++ (path, contents) :: back).map (·.1.resolve cwd)).Nodup)
    (hfront : Written codec cwd front t t₁)
    (hstop : Stops codec cwd source path contents t₁ f t') :
    StoppedAt codec cwd source front path contents back f t t' := by
  rw [List.map_append, List.map_cons, List.nodup_append] at hplaces
  obtain ⟨-, hback, hdisjoint⟩ := hplaces
  have hpath : path.resolve cwd ∉ front.map (·.1.resolve cwd) := fun hm =>
    hdisjoint _ hm _ List.mem_cons_self rfl
  -- neither the outputs before nor the one that stops reach any other place
  have helse : ∀ place, place ∉ front.map (·.1.resolve cwd) → place ≠ path.resolve cwd →
      t'.get? place = t.get? place := fun place hp hne =>
    (hstop.touched.elsewhere hne).trans (hfront.elsewhere place hp)
  have hleft : Tree.Touched cwd path t₁ t' →
      t'.get? (path.resolve cwd) = t.get? (path.resolve cwd) ∨
        ∃ bytes, t'.read cwd path = .ok bytes := by
    rintro (rfl | ⟨bytes, hstored⟩)
    · exact .inl (hfront.elsewhere _ hpath)
    · exact .inr ⟨bytes, hstored.holds⟩
  refine ⟨?_, ?_, helse, ?_⟩
  · intro o ho
    obtain ⟨bytes, hbytes, hr⟩ := hfront.holds o ho
    have hne : o.1.resolve cwd ≠ path.resolve cwd := fun heq =>
      hpath (heq ▸ List.mem_map_of_mem ho)
    exact ⟨bytes, hbytes,
      Tree.read_kept hcwd hstop.touched.folders (hstop.touched.elsewhere hne) hr⟩
  · intro o ho
    have hm : o.1.resolve cwd ∈ back.map (·.1.resolve cwd) := List.mem_map_of_mem ho
    refine helse _ (fun hf => hdisjoint _ hf _ (List.mem_cons_of_mem _ hm) rfl) fun heq => ?_
    exact (List.nodup_cons.mp hback).1 (heq ▸ hm)
  · cases hstop with
    | unwritable touched => exact .inl ⟨.inl ⟨_, rfl⟩, hleft touched⟩
    | unreachable foreign touched => exact .inl ⟨.inr ⟨_, rfl, foreign⟩, hleft touched⟩
    | unencodable unencoded emptied => exact .inr ⟨.inl ⟨_, rfl, unencoded⟩, emptied.holds⟩
    | failing unencoded emptied => exact .inr ⟨.inr ⟨_, rfl, unencoded⟩, emptied.holds⟩

namespace Rendered

variable {lib : Libraries} {settings : Settings} {options : OutputOptions} {source : Path}
  {cwd : List Text} {t t' : Tree} {codec : Codec} {outputs : Outputs}

theorem places (h : Rendered lib settings options source cwd t codec outputs) :
    outputs.map (·.1.resolve cwd) = (Outputs.requested options source).map (Path.resolve cwd) := by
  rw [← h.paths, List.map_map]
  rfl

theorem source_kept (h : Rendered lib settings options source cwd t codec outputs)
    (hcwd : ['.', '.'] ∉ cwd) (hf : Tree.SameFolders t t')
    (hp : t'.get? (source.resolve cwd) = t.get? (source.resolve cwd)) :
    t'.read cwd source = t.read cwd source := by
  obtain ⟨bytes, -, hr, -, -⟩ := h.rendering
  rw [hr]
  exact Tree.read_kept hcwd hf hp hr

end Rendered

section

variable {lib : Libraries} {settings : Settings} {options : OutputOptions} {source : Path}
  {w : Workspace} {codec : Codec} {outputs : Outputs} {t' : Tree}

theorem effect_of_written (hmade : made lib settings options source w = .ok outputs)
    (h : Rendered lib settings options source w.cwd (Source.reading lib settings source w).2.tree
      codec outputs) (hcwd : ['.', '.'] ∉ w.cwd)
    (hw : Written codec w.cwd outputs (Source.reading lib settings source w).2.tree t') :
    Effect lib settings options source w (.ok (outputs.map (·.1))) t' where
  source_kept := h.source_kept hcwd hw.folders (hw.elsewhere _ h.aside)
  failed := nofun
  writing := nofun
  returned := by
    intro paths hpaths
    cases hpaths
    refine ⟨codec, outputs, hmade, h, h.paths, hw.holds, ?_⟩
    intro place hplace
    rw [List.map_map] at hplace
    exact hw.elsewhere place hplace

theorem effect_of_stopped {f : Fault} (hcwd : ['.', '.'] ∉ w.cwd)
    (hfolders : Tree.SameFolders (Source.reading lib settings source w).2.tree t')
    (h : Stopped lib settings options source w f t') :
    Effect lib settings options source w (.error f) t' where
  source_kept := by
    obtain ⟨codec, outputs, front, path, contents, back, -, -, hrendered, rfl, hstop⟩ := h
    have haside := hrendered.aside
    rw [List.map_append, List.map_cons, List.mem_append, List.mem_cons, not_or, not_or] at haside
    exact hrendered.source_kept hcwd hfolders (hstop.elsewhere _ haside.1 haside.2.1)
  failed := by
    intro g hg
    cases hg
    exact .inr h
  writing := by
    intro g hg _
    cases hg
    exact h
  returned := nofun

end

/-- Processing a document whose outputs have different places: a failure before the first write
changes nothing, a result means that every requested output has been written and nothing else has
changed, and a failure to write leaves the outputs before it written and those after it untouched.
The tree that this compares with is the one that the last attempt to read has found, which is the
first one where nobody else changes files in the meantime. -/
theorem file_effect (lib : Libraries) (settings : Settings) (options : OutputOptions)
    (source : Path) (w : Workspace) (hcwd : ['.', '.'] ∉ w.cwd)
    (hplaces : ((Outputs.requested options source).map (Path.resolve w.cwd)).Nodup) :
    Effect lib settings options source w
        (w.perform (file lib settings options source)).1
        (w.perform (file lib settings options source)).2.tree ∧
      (w.napScript = [] → (Source.reading lib settings source w).2.tree = w.tree) := by
  refine ⟨?_, fun hscript => ?_⟩
  · obtain ⟨w₁, hsame, ⟨f, hrefused, hrun⟩ | ⟨outputs, hmade, haside, hrun⟩⟩ :=
      perform_file lib settings options source w
    · rw [hrun, tree_eq_of_silenced hsame]
      exact hrefused.effect
    have htree := tree_eq_of_silenced hsame
    have hcwd₁ : w₁.cwd = w.cwd :=
      (cwd_eq_of_silenced hsame).trans (Source.cwd_reading lib settings source w)
    obtain ⟨codec, hrendered⟩ := exists_rendered hmade haside (hplaces.of_map _)
    rw [← hrendered.places, ← hcwd₁] at hplaces
    obtain ⟨w₂, hsame₂, hconclude⟩ := perform_conclude lib settings source w₁ 0.0 outputs
    obtain ⟨r, t, uses, notices, hwrite, hr⟩ :=
      perform_writeAll hrendered.codec source (hcwd₁ ▸ hcwd) hplaces
    -- only notices came in between, so that the outputs are begun on the tree that was read
    rw [hwrite] at hsame₂ hconclude
    rw [hrun, hconclude, tree_eq_of_silenced hsame₂]
    rw [hcwd₁, htree] at hr
    cases r with
    | ok _ => exact effect_of_written hmade hrendered hcwd hr
    | error f =>
      obtain ⟨front, path, contents, back, t₁, hsplit, hfront, hstop⟩ := hr
      rw [hcwd₁, hsplit] at hplaces
      exact effect_of_stopped hcwd (hfront.folders.trans hstop.touched.folders)
        ⟨codec, outputs, front, path, contents, back, hmade, haside, hrendered, hsplit,
          stoppedAt_of_stops hcwd hplaces hfront hstop⟩
  · obtain ⟨uses, naps, hreading⟩ := Source.reading_of_script_nil lib settings source hscript
    rw [hreading]

def desk : Workspace where
  tree := ⟨[(["desk"], .folder (.int 0)),
    (["desk", "note.lit"], .file (Encoding.encodeUtf8 "<< * >>=\nhello\n@\n") (.int 0))]⟩
  cwd := ["desk"]
  clock := .int 0
  writeTime := .int 0
  logging := false
  napScript := []
  pauseScript := []
  freshId := []
  notices := []
  naps := []
  pauses := []
  calls := []

def deskOptions : OutputOptions where
  code := false
  html := false
  codeFolder := Path.ofText "."
  docsFolder := Path.ofText "../desk"

theorem file_effect_desk :
    ['.', '.'] ∉ desk.cwd ∧
      ((Outputs.requested deskOptions (Path.ofText "note.lit")).map
        (Path.resolve desk.cwd)).Nodup ∧
      (desk.perform (file .bare {} deskOptions (Path.ofText "note.lit"))).1.toOption =
        some [Path.ofText "../desk/note.md"] ∧
      (Source.reading .bare {} (Path.ofText "note.lit") desk).2.tree = desk.tree ∧
      Effect .bare {} deskOptions (Path.ofText "note.lit") desk
        (desk.perform (file .bare {} deskOptions (Path.ofText "note.lit"))).1
        (desk.perform (file .bare {} deskOptions (Path.ofText "note.lit"))).2.tree := by
  obtain ⟨heffect, htree⟩ :=
    file_effect .bare {} deskOptions (Path.ofText "note.lit") desk (by decide) (by decide)
  exact ⟨by decide, by decide, by decide +kernel, htree rfl, heffect⟩

end Literate.Processing

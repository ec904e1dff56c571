import Literate.Proofs.Document.SourceLines
import Literate.Proofs.Production.Processing
import Mathlib.Data.List.Infix

namespace Literate

namespace Text

theorem splitOn_eq_singleton {sep : Char} {s : Text} (h : sep ∉ s) : splitOn sep s = [s] := by
  induction s with
  | nil => rfl
  | cons c s ih =>
    rw [List.mem_cons, not_or] at h
    rw [splitOn, if_neg (Ne.symm h.1), ih h.2]

end Text

namespace Path

theorem follow_concat {name : Text} (h : name ≠ ['.', '.']) (passed parts : List Text) :
    follow passed (parts ++ [name]) = follow passed parts ++ [name] := by
  induction parts generalizing passed with
  | nil => simp [follow, h]
  | cons p ps ih =>
    rw [List.cons_append, follow, follow]
    split
    · exact ih _
    · exact ih _

theorem follow_concat_dots (passed parts : List Text) :
    follow passed (parts ++ [['.', '.']]) = (follow passed parts).dropLast := by
  induction parts generalizing passed with
  | nil => simp [follow, List.dropLast_reverse]
  | cons p ps ih =>
    rw [List.cons_append, follow, follow]
    split
    · exact ih _
    · exact ih _

variable {name : Text} {p : Path} {cwd : List Text}

theorem rootSlashes_of_not_mem (h : '/' ∉ name) : rootSlashes name = 0 := by
  unfold rootSlashes
  split
  all_goals first | rfl | simp at h

theorem child_of_name (hslash : '/' ∉ name) (hne : name ≠ []) (hdot : name ≠ ['.']) :
    p.child name = ⟨p.slashes, p.parts ++ [name]⟩ := by
  have hcomponents : components name = [name] := by
    simp [components, Text.splitOn_eq_singleton hslash, hne, hdot]
  rw [child, ofText, append, hcomponents, if_pos (rootSlashes_of_not_mem hslash)]

theorem child_of_blank (h : name = [] ∨ name = ['.']) : p.child name = p := by
  rcases h with rfl | rfl
  all_goals simp [child, ofText, append, rootSlashes, components, Text.splitOn]

theorem resolve_child (hslash : '/' ∉ name) (hne : name ≠ []) (hdot : name ≠ ['.'])
    (hdots : name ≠ ['.', '.']) : (p.child name).resolve cwd = p.resolve cwd ++ [name] := by
  rw [child_of_name hslash hne hdot, resolve, resolve]
  dsimp only
  split
  · rw [← List.append_assoc, follow_concat hdots]
  · rw [follow_concat hdots]

theorem resolve_child_dots :
    (p.child ['.', '.']).resolve cwd = (p.resolve cwd).dropLast := by
  rw [child_of_name (by decide) (by decide) (by decide), resolve, resolve]
  dsimp only
  split
  · rw [← List.append_assoc, follow_concat_dots]
  · rw [follow_concat_dots]

theorem slash_not_mem_name (s : Text) : '/' ∉ (ofText s).name := by
  unfold name
  cases h : (ofText s).parts.getLast? with
  | none => exact List.not_mem_nil
  | some part =>
    have hpart : part ∈ Text.splitOn '/' s := List.mem_of_mem_filter (List.mem_of_getLast? h)
    exact fun hmem => (Text.of_mem_splitOn hpart _ hmem).2 rfl

end Path

namespace Tree

/-- A place and everything above it are folders. -/
def Grounded (t : Tree) (place : List Text) : Prop :=
  ∀ higher, higher <+: place → t.isFolder higher = true

instance (t : Tree) (place : List Text) : Decidable (t.Grounded place) :=
  decidable_of_iff (∀ higher ∈ place.inits, t.isFolder higher = true)
    (by simp only [List.mem_inits, Grounded])

variable {t t' : Tree} {place place' cwd : List Text} {p : Path}

theorem Grounded.higher (h : t.Grounded place) (hp : place' <+: place) : t.Grounded place' :=
  fun q hq => h q (hq.trans hp)

theorem Grounded.isFolder (h : t.Grounded place) : t.isFolder place = true :=
  h place List.prefix_rfl

theorem Grounded.sameFolders (h : t.Grounded place) (hf : SameFolders t t') : t'.Grounded place :=
  fun q hq => (hf q).trans (h q hq)

theorem grounded_nil (t : Tree) : t.Grounded [] := by
  intro q hq
  rw [List.prefix_nil.1 hq]
  exact isFolder_nil t

theorem Grounded.of_dropLast (h : t.Grounded place.dropLast) (hf : t.isFolder place = true) :
    t.Grounded place := by
  cases place using List.reverseRec with
  | nil => exact grounded_nil t
  | append_singleton front name =>
    rw [List.dropLast_concat] at h
    intro q hq
    rcases List.prefix_concat_iff.1 hq with rfl | hq
    · exact hf
    · exact h q hq

theorem grounded_of_walk {here ps : List Text} (h : t.Grounded here.dropLast)
    (hw : t.walk here ps = .ok place) : t.Grounded place.dropLast := by
  induction ps generalizing here with
  | nil =>
    have hp : here = place := by simpa [walk] using hw
    exact hp ▸ h
  | cons p ps ih =>
    obtain ⟨hhere, hrest⟩ := walk_cons_eq_ok hw
    have hgrounded := h.of_dropLast hhere
    refine ih ?_ hrest
    split
    · exact h.higher (List.dropLast_prefix _)
    · rwa [List.dropLast_concat]

theorem grounded_of_hasFolder (hcwd : ['.', '.'] ∉ cwd) (hg : t.Grounded cwd)
    (h : t.hasFolder cwd p = true) : t.Grounded (p.resolve cwd) := by
  unfold hasFolder node at h
  cases hl : t.locate cwd p with
  | error f => simp [hl, bind, Except.bind] at h
  | ok place =>
    have hstart : t.Grounded (if p.slashes = 0 then cwd else []).dropLast := by
      split
      · exact hg.higher (List.dropLast_prefix _)
      · exact grounded_nil t
    have hfolder : t.isFolder place = true := by
      simp only [hl, bind, Except.bind] at h
      unfold isFolder
      rcases hget : t.get? place with _ | ⟨b, m⟩ | m
      all_goals simp [hget] at h ⊢
    rw [← eq_resolve_of_locate hcwd hl]
    exact (grounded_of_walk hstart (locate_eq_ok.1 hl)).of_dropLast hfolder

theorem Stored.not_isFolder {bytes : Bytes} (hcwd : ['.', '.'] ∉ cwd)
    (h : Stored cwd p bytes t t') : t.isFolder (p.resolve cwd) = false := by
  obtain ⟨place, m, hl, hget⟩ := read_eq_ok.1 h.holds
  rw [← eq_resolve_of_locate hcwd hl, ← h.folders place]
  simp [Tree.isFolder, hget]

end Tree

namespace Naming

theorem slash_not_mem_stem {source : Path} (h : '/' ∉ source.name) : '/' ∉ stem source := by
  unfold stem
  dsimp only
  split
  · exact fun hmem => h (List.mem_of_mem_take hmem)
  · exact h

end Naming

namespace Outputs

variable {lib : Libraries} {settings : Settings} {options : OutputOptions} {source : Path}
  {text : Text} {outputs : Outputs} {t t' : Tree} {cwd : List Text}

theorem map_fst_add (o : Outputs) (p : Path) (contents : Text) :
    (o.add p contents).map (·.1) = if p ∈ o.map (·.1) then o.map (·.1) else o.map (·.1) ++ [p] := by
  by_cases hp : p ∈ o.map (·.1)
  · have hany : o.any (·.1 == p) = true := by
      obtain ⟨e, he, rfl⟩ := List.mem_map.1 hp
      exact List.any_eq_true.2 ⟨e, he, beq_self_eq_true _⟩
    rw [add, if_pos hany, if_pos hp, List.map_map]
    refine List.map_congr_left fun e _ => ?_
    dsimp only [Function.comp]
    split
    · exact Eq.symm ‹_›
    · rfl
  · rw [if_neg hp, paths_add hp]

theorem mem_paths_addIf {wanted : Bool} {o o' : Outputs} {p q : Path} {contents : Traced Text}
    (h : (addIf wanted o p contents).result = .ok o') :
    q ∈ o'.map (·.1) ↔ q ∈ o.map (·.1) ∨ q ∈ if wanted then [p] else [] := by
  cases wanted with
  | false =>
    have : o = o' := by simpa [addIf] using h
    simp [this]
  | true =>
    cases hc : contents.result with
    | error f => simp [addIf, hc, Except.bind] at h
    | ok c =>
      have : o.add p c = o' := by simpa [addIf, hc, Except.bind] using h
      rw [← this, map_fst_add, if_pos rfl, List.mem_singleton]
      split
      · next hp => exact ⟨.inl, fun hq => hq.elim id fun hqp => hqp ▸ hp⟩
      · rw [List.mem_append, List.mem_singleton]

theorem mem_paths_ofText (h : (ofText lib settings options source text).result = .ok outputs)
    {p : Path} : p ∈ outputs.map (·.1) ↔ p ∈ requested options source := by
  simp only [ofText, Traced.result_bind] at h
  obtain ⟨chunks, -, h⟩ := exists_of_bind_eq_ok h
  obtain ⟨o, ho, h⟩ := exists_of_bind_eq_ok h
  obtain ⟨o', ho', h⟩ := exists_of_bind_eq_ok h
  rw [mem_paths_addIf h, mem_paths_addIf ho', mem_paths_addIf ho, requested, List.mem_append,
    List.mem_append, List.map_nil]
  simp

/-- The folders of the wanted outputs are folders, and so is everything above them. -/
structure Housed (options : OutputOptions) (cwd : List Text) (t : Tree) : Prop where
  code : options.code = true → t.Grounded (options.codeFolder.resolve cwd)
  docs : (options.html || options.markdown) = true → t.Grounded (options.docsFolder.resolve cwd)

theorem Housed.sameFolders (h : Housed options cwd t) (hf : Tree.SameFolders t t') :
    Housed options cwd t' :=
  ⟨fun hc => (h.code hc).sameFolders hf, fun hd => (h.docs hd).sameFolders hf⟩

theorem resolve_code (hhoused : Housed options cwd t) (hcode : options.code = true)
    (hslash : '/' ∉ Naming.stem source)
    (hfree : t.isFolder ((options.codeFolder.child (Naming.stem source)).resolve cwd) = false) :
    (options.codeFolder.child (Naming.stem source)).resolve cwd =
      options.codeFolder.resolve cwd ++ [Naming.stem source] := by
  have hgrounded := hhoused.code hcode
  have hblank : ¬ (Naming.stem source = [] ∨ Naming.stem source = ['.']) := by
    intro h
    rw [Path.child_of_blank h, hgrounded.isFolder] at hfree
    cases hfree
  have hdots : Naming.stem source ≠ ['.', '.'] := by
    intro h
    rw [h, Path.resolve_child_dots,
      (hgrounded.higher (List.dropLast_prefix _)).isFolder] at hfree
    cases hfree
  rw [not_or] at hblank
  exact Path.resolve_child hslash hblank.1 hblank.2 hdots

theorem resolve_page {ending : Text} (hending : ending = ".html" ∨ ending = ".md")
    (hslash : '/' ∉ Naming.stem source) :
    (options.docsFolder.child (Naming.stem source ++ ending)).resolve cwd =
      options.docsFolder.resolve cwd ++ [Naming.stem source ++ ending] := by
  have hlength : 3 ≤ ending.length ∧ '/' ∉ ending := by
    rcases hending with rfl | rfl
    all_goals decide
  have hlong : 3 ≤ (Naming.stem source ++ ending).length := by
    rw [List.length_append]
    omega
  refine Path.resolve_child ?_ ?_ ?_ ?_
  · rw [List.mem_append, not_or]
    exact ⟨hslash, hlength.2⟩
  all_goals
    intro h
    rw [h] at hlong
    revert hlong
    decide

theorem nodup_wanted {α : Type} {a b c : α} (code html markdown : Bool)
    (hhtml : code = true → a ≠ b) (hmarkdown : code = true → a ≠ c) (hpages : b ≠ c) :
    ((if code then [a] else []) ++ (if html then [b] else []) ++
      if markdown then [c] else []).Nodup := by
  cases code
  all_goals cases html
  all_goals cases markdown
  all_goals simp_all

/-- The outputs of a document are at different places when its code is not at that of a folder. -/
theorem nodup_places (hhoused : Housed options cwd t) (hslash : '/' ∉ Naming.stem source)
    (hfree : ∀ p ∈ requested options source, t.isFolder (p.resolve cwd) = false) :
    ((requested options source).map (Path.resolve cwd)).Nodup := by
  -- places with different last components are different
  have hpages : (options.docsFolder.child (Naming.stem source ++ ".html")).resolve cwd ≠
      (options.docsFolder.child (Naming.stem source ++ ".md")).resolve cwd := by
    rw [resolve_page (.inl rfl) hslash, resolve_page (.inr rfl) hslash]
    simp
  have hcode : ∀ ending : Text, ending = ".html" ∨ ending = ".md" → options.code = true →
      (options.codeFolder.child (Naming.stem source)).resolve cwd ≠
        (options.docsFolder.child (Naming.stem source ++ ending)).resolve cwd := by
    intro ending hending hc
    have hmem : options.codeFolder.child (Naming.stem source) ∈ requested options source := by
      simp [requested, hc]
    rw [resolve_code hhoused hc hslash (hfree _ hmem), resolve_page hending hslash]
    rcases hending with rfl | rfl
    all_goals simp
  simp only [requested, List.map_append, apply_ite (List.map (Path.resolve cwd)), List.map_cons,
    List.map_nil]
  exact nodup_wanted _ _ _ (hcode _ (.inl rfl)) (hcode _ (.inr rfl)) hpages

end Outputs

namespace Processing

open Workspace

variable {lib : Libraries} {settings : Settings} {options : OutputOptions} {source : Path}
  {w w' : Workspace}

theorem not_isFolder_of_writeAll {codec : Codec} (hcodec : lib.codec settings.encoding = .ok codec)
    {outputs : Outputs} (hcwd : ['.', '.'] ∉ w.cwd)
    (h : (w.perform (writeAll lib settings source outputs)).1 = .ok ()) :
    ∀ o ∈ outputs, w.tree.isFolder (o.1.resolve w.cwd) = false := by
  induction outputs generalizing w with
  | nil => exact nofun
  | cons o outputs ih =>
    obtain ⟨path, contents⟩ := o
    obtain ⟨r, t, notices, hfirst, hr⟩ := perform_writeOutput hcodec source path contents hcwd
    rw [writeAll] at h
    cases r with
    | error f =>
      rw [perform_bind_error hfirst] at h
      cases h
    | ok _ =>
      obtain ⟨bytes, -, hstored⟩ := hr
      rw [perform_bind_ok hfirst] at h
      have hrest := ih (w := { w.used with tree := t, notices }) hcwd h
      intro o ho
      rcases List.mem_cons.1 ho with rfl | ho
      · exact hstored.not_isFolder hcwd
      · rw [← hstored.folders]
        exact hrest o ho

/-- A run that comes to its end has written everything that was asked for, each output to a place of
its own, as the source then rendered. -/
theorem written_of_file {paths : List Path} (hcwd : ['.', '.'] ∉ w.cwd) (hscript : w.napScript = [])
    (hhoused : Outputs.Housed options w.cwd w.tree) (hslash : '/' ∉ source.name)
    (h : w.perform (file lib settings options source) = (.ok paths, w')) :
    w'.cwd = w.cwd ∧ w'.napScript = [] ∧ ∃ codec outputs,
      Rendered lib settings options source w.cwd w.tree codec outputs ∧
        Written codec w.cwd outputs w.tree w'.tree := by
  obtain ⟨uses, naps, hreading⟩ := Source.reading_of_script_nil lib settings source hscript
  obtain ⟨w₁, hsame, ⟨f, -, hrun⟩ | ⟨outputs, hmade, haside, hrun⟩⟩ :=
    perform_file lib settings options source w
  · cases hrun.symm.trans h
  obtain ⟨w₂, hsame₂, hconclude⟩ := perform_conclude lib settings source w₁ 0.0 outputs
  rw [h, hconclude] at hrun
  rcases hwrite : w₁.perform (writeAll lib settings source outputs) with ⟨f | _, w₃⟩
  · rw [hwrite] at hrun
    cases hrun
  obtain ⟨codec, bytes, text, hcodec, -, -, houtputs⟩ := exists_text_of_made hmade
  have htree : w₁.tree = w.tree := (tree_eq_of_silenced hsame).trans (by rw [hreading])
  have hcwd₁ : w₁.cwd = w.cwd := (cwd_eq_of_silenced hsame).trans (by rw [hreading])
  have hscript₁ : w₁.napScript = [] := by
    rw [hreading] at hsame
    exact (congrArg napScript hsame : w₁.silenced.napScript = _).trans hscript
  -- no output was at the place of a folder, so that their places differ
  have hfree := not_isFolder_of_writeAll hcodec (hcwd₁ ▸ hcwd) (congrArg Prod.fst hwrite)
  rw [hcwd₁, htree] at hfree
  have hplaces := Outputs.nodup_places hhoused (Naming.slash_not_mem_stem hslash) fun p hp => by
    obtain ⟨o, hmem, rfl⟩ := List.mem_map.1 ((Outputs.mem_paths_ofText houtputs).2 hp)
    exact hfree o hmem
  obtain ⟨codec', hrendered⟩ := exists_rendered hmade haside (hplaces.of_map _)
  rw [hreading] at hrendered
  rw [← hrendered.places, ← hcwd₁] at hplaces
  obtain ⟨r, t, uses', notices, hwrite', hr⟩ :=
    perform_writeAll hrendered.codec source (hcwd₁ ▸ hcwd) hplaces
  cases hwrite.symm.trans hwrite'
  rw [hwrite] at hsame₂ hrun
  cases hrun
  rw [hcwd₁, htree] at hr
  refine ⟨(cwd_eq_of_silenced hsame₂).trans hcwd₁, ?_, codec', outputs, hrendered, ?_⟩
  · exact (congrArg napScript hsame₂ : w'.silenced.napScript = _).trans hscript₁
  · rw [tree_eq_of_silenced hsame₂]
    exact hr

end Processing

end Literate

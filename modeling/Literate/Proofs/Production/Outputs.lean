import Literate.Production.Outputs
import Mathlib.Data.List.Nodup

namespace Literate

namespace Fault

def ofWriting : Fault → Bool
  | unwritable .. | unencodable .. => true
  | _ => false

theorem ofWriting_eq (f : Fault) :
    f.ofWriting = ((f.report?.map (·.kind)) == some .outputWrite) := by
  cases f <;> rfl

end Fault

/-- Every failure is of the kind `P`. -/
def FailsWith {α : Type} (P : Fault → Prop) (r : Except Fault α) : Prop := ∀ f, r = .error f → P f

section

variable {α β ε : Type} {P : Fault → Prop}

theorem failsWith_ok (a : α) : FailsWith P (.ok a) := nofun

theorem failsWith_error {f : Fault} (h : P f) : FailsWith P (.error f : Except Fault α) := by
  intro g hg
  cases hg
  exact h

theorem FailsWith.bind {x : Except Fault α} {f : α → Except Fault β} (hx : FailsWith P x)
    (hf : ∀ a, FailsWith P (f a)) : FailsWith P (x.bind f) := by
  cases x with
  | error e => exact failsWith_error (hx e rfl)
  | ok a => exact hf a

theorem failsWith_mapError (x : Except ε α) {g : ε → Fault} (hg : ∀ e, P (g e)) :
    FailsWith P (x.mapError g) := by
  cases x with
  | error e => exact failsWith_error (hg e)
  | ok a => exact failsWith_ok a

end

namespace Outputs

/-- The paths of the wanted outputs: code, page, Markdown. -/
def requested (options : OutputOptions) (source : Path) : List Path :=
  (if options.code then [options.codeFolder.child (Naming.stem source)] else []) ++
    (if options.html then [options.docsFolder.child (Naming.stem source ++ ".html")] else []) ++
    if options.markdown then [options.docsFolder.child (Naming.stem source ++ ".md")] else []

theorem paths_add {o : Outputs} {p : Path} (h : p ∉ o.map (·.1)) (contents : Text) :
    (o.add p contents).map (·.1) = o.map (·.1) ++ [p] := by
  have ha : (o.any (·.1 == p)) = false := by
    rw [List.any_eq_false]
    intro e he hp
    exact h (List.mem_map.mpr ⟨e, he, by simpa using hp⟩)
  rw [add, if_neg (by simp [ha]), List.map_append]
  rfl

theorem paths_addIf {wanted : Bool} {o o' : Outputs} {p : Path} {contents : Traced Text}
    (h : (addIf wanted o p contents).result = .ok o')
    (hp : wanted = true → p ∉ o.map (·.1)) :
    o'.map (·.1) = o.map (·.1) ++ if wanted then [p] else [] := by
  cases wanted with
  | false =>
    have : o = o' := by simpa [addIf] using h
    simp [this]
  | true =>
    cases hc : contents.result with
    | error f => simp [addIf, hc, Except.bind] at h
    | ok c =>
      have : o.add p c = o' := by simpa [addIf, hc, Except.bind] using h
      rw [← this, paths_add (hp rfl), if_pos rfl]

theorem exists_of_bind_eq_ok {α β ε : Type} {x : Except ε α} {f : α → Except ε β} {b : β}
    (h : x.bind f = .ok b) : ∃ a, x = .ok a ∧ f a = .ok b := by
  cases x with
  | error e => cases h
  | ok a => exact ⟨a, rfl, h⟩

/-- Where the requested paths differ, each gets an output of its own, in order. -/
theorem paths_ofText {lib : Libraries} {settings : Settings} {options : OutputOptions}
    {source : Path} {text : Text} {outputs : Outputs}
    (h : (ofText lib settings options source text).result = .ok outputs)
    (hp : (requested options source).Nodup) :
    outputs.map (·.1) = requested options source := by
  simp only [ofText, Traced.result_bind] at h
  obtain ⟨chunks, -, h⟩ := exists_of_bind_eq_ok h
  obtain ⟨o, ho, h⟩ := exists_of_bind_eq_ok h
  obtain ⟨o', ho', h⟩ := exists_of_bind_eq_ok h
  unfold requested at hp ⊢
  obtain ⟨hcodehtml, -, hmarkdown⟩ := List.nodup_append.mp hp
  obtain ⟨-, -, hhtml⟩ := List.nodup_append.mp hcodehtml
  have hcode := paths_addIf ho (fun _ => List.not_mem_nil)
  rw [List.map_nil, List.nil_append] at hcode
  have hpage := paths_addIf ho' fun hw hm =>
    hhtml _ (hcode ▸ hm) _ (by rw [if_pos hw]; exact List.mem_singleton_self _) rfl
  rw [hcode] at hpage
  have hall := paths_addIf h fun hw hm =>
    hmarkdown _ (hpage ▸ hm) _ (by rw [if_pos hw]; exact List.mem_singleton_self _) rfl
  rw [hpage] at hall
  exact hall

/-- A page needs the rules of a style that cannot be had. -/
inductive Unstyled (lib : Libraries) (settings : Settings) (options : OutputOptions) :
    Fault → Prop where
  | intro {m : Mishap} (wanted : options.html = true) (unlinked : options.stylesheet.getD [] = [])
    (refused : lib.highlighter.rules settings.highlightStyle = .error m) :
    Unstyled lib settings options (.ofMishap m)

/-- The failures on the way to the outputs. -/
structure Making (lib : Libraries) (settings : Settings) (options : OutputOptions) (f : Fault) :
    Prop where
  notOfWriting : f.ofWriting = false
  reported : f.report?.isSome = true ∨ Unstyled lib settings options f

variable (lib : Libraries) (settings : Settings) (options : OutputOptions)

theorem making_read (text name : Text) :
    FailsWith (Making lib settings options) (Document.read (.text text) (.text name)).result := by
  by_cases hn : name = []
  · subst hn
    exact failsWith_error ⟨rfl, .inl rfl⟩
  · rw [Document.result_read ⟨name, hn⟩]
    exact failsWith_mapError _ fun _ => ⟨rfl, .inl rfl⟩

theorem making_code (source : Path) (chunks : List Chunk) :
    FailsWith (Making lib settings options) (code settings options source chunks).result := by
  have hfault : ∀ x : Tangle.Obstacle Empty, Making lib settings options x.fault := by
    rintro (_ | x)
    · exact ⟨rfl, .inl rfl⟩
    · exact x.elim
  unfold code
  split
  · rw [Tangle.result_locatedCodeTraced]
    exact failsWith_mapError _ hfault
  · rw [Tangle.result_codeTraced]
    exact failsWith_mapError _ hfault

theorem making_stylingOf (wanted : options.html = true) :
    FailsWith (Making lib settings options)
      (Weave.stylingOf lib.highlighter options.stylesheet settings.highlightStyle) := by
  unfold Weave.stylingOf
  split
  · exact failsWith_ok _
  · next hunlinked =>
    have hnil : options.stylesheet.getD [] = [] := by
      cases hsheet : options.stylesheet with
      | none => rfl
      | some address =>
        cases address with
        | nil => rfl
        | cons c s => exact absurd hsheet (hunlinked c s)
    cases hrules : lib.highlighter.rules settings.highlightStyle with
    | error m => exact failsWith_error ⟨rfl, .inr (.intro wanted hnil hrules)⟩
    | ok rules => exact failsWith_ok _

theorem making_page (wanted : options.html = true) (source : Path) (chunks : List Chunk) :
    FailsWith (Making lib settings options) (page lib settings options source chunks).result := by
  rw [page, Weave.result_pageTraced]
  exact (making_stylingOf lib settings options wanted).bind fun _ => failsWith_ok _

theorem failsWith_addIf {P : Fault → Prop} {wanted : Bool} {o : Outputs} {p : Path}
    {contents : Traced Text} (h : wanted = true → FailsWith P contents.result) :
    FailsWith P (addIf wanted o p contents).result := by
  cases wanted with
  | false => exact failsWith_ok o
  | true =>
    show FailsWith P (contents >>= fun c => pure (o.add p c) : Traced Outputs).result
    rw [Traced.result_bind]
    exact (h rfl).bind fun c => failsWith_ok _

/-- Making the outputs never fails with a failure to write one, and without a report only where the
rules of a style cannot be had. -/
theorem making_ofText (source : Path) (text : Text) :
    FailsWith (Making lib settings options) (ofText lib settings options source text).result := by
  rw [ofText, Traced.result_bind]
  refine (making_read lib settings options text source.toText).bind fun chunks => ?_
  simp only [Traced.result_bind]
  refine (failsWith_addIf fun _ => making_code lib settings options source chunks).bind fun o => ?_
  refine (failsWith_addIf fun h =>
    making_page lib settings options h source chunks).bind fun o => ?_
  refine failsWith_addIf fun _ => ?_
  rw [Weave.result_markdownTraced]
  exact failsWith_ok _

end Outputs

end Literate

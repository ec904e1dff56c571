import Literate.Proofs.Tangle.References

namespace Literate.Tangle

variable {υ : Type} {t : Table υ}

/-- A call that has not returned, with the parts that it has still to come to. -/
structure Frame (υ : Type := Empty) where
  indent : Text
  parts : List (Part υ)

/-- An unfolding under way: what it has given so far, the calls that have not returned, the
innermost first, and the stack that they share. -/
structure Progress (υ : Type := Empty) extends Unfolding υ where
  frames : List (Frame υ)
  stack : List Text

namespace Progress

variable {s s' s'' : Progress υ}

/-- The call of the root. Without definitions it has no parts. -/
def start (ds : List (Definition υ)) (asked : Text) : Progress υ :=
  match root? ds asked with
  | none => ⟨.done, [⟨[], []⟩], []⟩
  | some r => ⟨.done, [⟨[], r.parts⟩], [r.key]⟩

/-- The innermost call takes its next part, or returns when it has none left. Nothing moves behind
an obstacle, nor when the outermost call has no parts left. -/
def next (t : Table υ) : Progress υ → Option (Progress υ)
  | ⟨⟨steps, none⟩, ⟨indent, .literal text :: ps⟩ :: callers, stack⟩ =>
    some ⟨⟨steps ++ [.literal indent text], none⟩, ⟨indent, ps⟩ :: callers, stack⟩
  | ⟨⟨steps, none⟩, ⟨indent, .foreign x :: ps⟩ :: callers, stack⟩ =>
    some ⟨⟨steps, some (.foreign x)⟩, ⟨indent, ps⟩ :: callers, stack⟩
  | ⟨⟨steps, none⟩, ⟨indent, .reference target i :: ps⟩ :: callers, stack⟩ =>
    if target.key ∈ stack then
      some ⟨⟨steps, some (.cycle target.key (cyclePath stack target.key))⟩,
        ⟨indent, ps⟩ :: callers, stack⟩
    else
      match t.lookup target.key with
      | none => some ⟨⟨steps ++ [.unresolved target.key], none⟩, ⟨indent, ps⟩ :: callers, stack⟩
      | some body =>
        some ⟨⟨steps, none⟩, ⟨indent ++ i, body⟩ :: ⟨indent, ps⟩ :: callers,
          stack ++ [target.key]⟩
  | ⟨⟨steps, none⟩, ⟨_, []⟩ :: caller :: callers, stack⟩ =>
    some ⟨⟨steps, none⟩, caller :: callers, stack.dropLast⟩
  | _ => none

/-- The innermost call goes on, or it calls another one under a new key, or it returns. -/
inductive Shift (t : Table υ) (s s' : Progress υ) : Prop where
  | on (f f' : Frame υ) (callers : List (Frame υ)) (before : s.frames = f :: callers)
      (behind : s'.frames = f' :: callers) (stack : s'.stack = s.stack)
  | call (f f' inner : Frame υ) (callers : List (Frame υ)) (k : Text) (fresh : k ∉ s.stack)
      (found : (t.lookup k).isSome) (before : s.frames = f :: callers)
      (behind : s'.frames = inner :: f' :: callers) (stack : s'.stack = s.stack ++ [k])
  | back (f : Frame υ) (before : s.frames = f :: s'.frames) (caller : s'.frames ≠ [])
      (stack : s'.stack = s.stack.dropLast)

theorem shift_of_next (h : s.next t = some s') : Shift t s s' := by
  unfold next at h
  split at h
  · cases h
    exact .on _ _ _ rfl rfl rfl
  · cases h
    exact .on _ _ _ rfl rfl rfl
  · next target i ps callers stack =>
    split at h
    · cases h
      exact .on _ _ _ rfl rfl rfl
    · next hfresh =>
      split at h
      · cases h
        exact .on _ _ _ rfl rfl rfl
      · next body hfound =>
        cases h
        exact .call _ _ _ _ _ hfresh (by rw [hfound]; rfl) rfl rfl rfl
  · cases h
    exact .back _ rfl (List.cons_ne_nil _ _) rfl
  · cases h

/-- The stack holds keys of the table, each of them once, and one for every call but the
outermost. -/
structure Sound (t : Table υ) (s : Progress υ) : Prop where
  nodup : s.stack.Nodup
  defined : ∀ k ∈ s.stack, (t.lookup k).isSome
  depth : s.frames.length ≤ s.stack.length + 1
  going : s.frames ≠ []

theorem Sound.next (hs : Sound t s) (h : s.next t = some s') : Sound t s' := by
  obtain ⟨nodup, defined, depth, going⟩ := hs
  -- a move works on the innermost call, makes a call, or takes one back
  cases shift_of_next h with
  | on f f' callers before behind stack =>
    rw [before] at depth
    exact ⟨stack ▸ nodup, stack ▸ defined, by rw [behind, stack]; exact depth, by simp [behind]⟩
  | call f f' inner callers k fresh found before behind stack =>
    refine ⟨?_, ?_, ?_, by simp [behind]⟩
    · rw [stack]
      exact nodup.append (List.nodup_singleton k) (by simpa using fresh)
    · intro k' hk'
      rw [stack, List.mem_append, List.mem_singleton] at hk'
      obtain hk' | rfl := hk'
      · exact defined k' hk'
      · exact found
    · simp only [before, behind, stack, List.length_cons, List.length_append,
        List.length_nil] at depth ⊢
      omega
  | back f before caller stack =>
    refine ⟨?_, ?_, ?_, caller⟩
    · rw [stack]
      exact nodup.sublist (List.dropLast_sublist _)
    · intro k hk
      rw [stack] at hk
      exact defined k (List.mem_of_mem_dropLast hk)
    · have hpos := List.length_pos_iff.2 caller
      simp only [before, stack, List.length_cons, List.length_dropLast] at depth ⊢
      omega

def LeadsTo (t : Table υ) : Progress υ → Progress υ → Prop :=
  Relation.ReflTransGen fun s s' => s.next t = some s'

/-- `s` leads to `s'` before any of the calls returns that are open in `s`. -/
def Within (t : Table υ) (s s' : Progress υ) : Prop :=
  Relation.ReflTransGen (fun a b => a.next t = some b ∧ s.frames.length ≤ b.frames.length) s s'

theorem Sound.leadsTo (hs : Sound t s) (h : LeadsTo t s s') : Sound t s' := by
  induction h with
  | refl => exact hs
  | tail _ hnext ih => exact ih.next hnext

theorem sound_start (ds : List (Definition υ)) (asked : Text) :
    Sound (table ds) (start ds asked) := by
  unfold start
  split
  · exact ⟨List.nodup_nil, by simp, Nat.le_refl 1, List.cons_ne_nil _ _⟩
  · next r hr =>
    refine ⟨List.nodup_singleton _, ?_, Nat.le_succ 1, List.cons_ne_nil _ _⟩
    intro k hk
    rw [List.mem_singleton.1 hk, lookup_root hr]
    rfl

/-- The stack of `s` with one key for each of the calls that `s'` has inside the innermost call of
`s`, whose callers wait as they did. -/
def Inside (s s' : Progress υ) : Prop :=
  ∃ ks inner f, s'.stack = s.stack ++ ks ∧ s'.frames = inner ++ f :: s.frames.tail ∧
    inner.length = ks.length

theorem exists_append_of_head {α : Type} {a b : α} {as bs cs : List α}
    (h : a :: as = bs ++ b :: cs) (a' : α) :
    ∃ bs' b', a' :: as = bs' ++ b' :: cs ∧ bs'.length = bs.length := by
  cases bs with
  | nil =>
    obtain ⟨-, rfl⟩ := List.cons.inj h
    exact ⟨[], a', rfl, rfl⟩
  | cons _ bs =>
    obtain ⟨-, rfl⟩ := List.cons.inj h
    exact ⟨a' :: bs, b, rfl, rfl⟩

theorem Inside.next (h : Inside s s') (hnext : s'.next t = some s'')
    (hopen : s.frames.length ≤ s''.frames.length) : Inside s s'' := by
  obtain ⟨ks, inner, f, hstack, hframes, hlength⟩ := h
  cases shift_of_next hnext with
  | on g g' callers before behind stack =>
    obtain ⟨inner', f', hsplit, hsame⟩ := exists_append_of_head (before.symm.trans hframes) g'
    exact ⟨ks, inner', f', stack.trans hstack, behind.trans hsplit, hsame.trans hlength⟩
  | call g g' new callers k fresh found before behind stack =>
    obtain ⟨inner', f', hsplit, hsame⟩ := exists_append_of_head (before.symm.trans hframes) g'
    refine ⟨ks ++ [k], new :: inner', f', ?_, ?_, ?_⟩
    · rw [stack, hstack, List.append_assoc]
    · rw [behind, hsplit, List.cons_append]
    · rw [List.length_cons, hsame, hlength, List.length_append, List.length_singleton]
  | back g before caller stack =>
    rw [before] at hframes
    cases inner with
    | nil =>
      -- the innermost call of `s` itself would have returned
      obtain ⟨-, htail⟩ := List.cons.inj hframes
      have hpos := List.length_pos_iff.2 caller
      rw [htail, List.length_tail] at hopen hpos
      omega
    | cons _ inner =>
      obtain ⟨-, htail⟩ := List.cons.inj hframes
      have hks : ks ≠ [] := List.length_pos_iff.1 (by rw [← hlength]; exact Nat.succ_pos _)
      refine ⟨ks.dropLast, inner, f, ?_, htail, ?_⟩
      · rw [stack, hstack, List.dropLast_append_of_ne_nil hks]
      · rw [List.length_dropLast, ← hlength]
        rfl

theorem Within.inside (hgoing : s.frames ≠ []) (h : Within t s s') : Inside s s' := by
  induction h with
  | refl =>
    obtain ⟨f, callers, hframes⟩ := List.exists_cons_of_ne_nil hgoing
    exact ⟨[], [], f, by simp, by simp [hframes], rfl⟩
  | tail _ hnext ih => exact ih.next hnext.1 hnext.2

theorem Within.stack_eq (hgoing : s.frames ≠ []) (h : Within t s s')
    (hdepth : s'.frames.length = s.frames.length) : s'.stack = s.stack := by
  obtain ⟨ks, inner, f, hstack, hframes, hlength⟩ := h.inside hgoing
  have hpos := List.length_pos_iff.2 hgoing
  have hks : ks.length = 0 := by
    rw [hframes, List.length_append, List.length_cons, List.length_tail] at hdepth
    omega
  rw [hstack, List.eq_nil_of_length_eq_zero hks, List.append_nil]

theorem Sound.depth_le_keys {ds : List (Definition υ)} (hs : Sound (table ds) s) :
    s.frames.length ≤ (keys ds).length + 1 := by
  have hsubset : s.stack ⊆ keys ds := fun k hk => isSome_lookup_table.1 (hs.defined k hk)
  have hstack : s.stack.length ≤ (keys ds).length := (hs.nodup.subperm hsubset).length_le
  exact hs.depth.trans (Nat.succ_le_succ hstack)

theorem next_of_returning {indent : Text} {caller : Frame υ} {callers : List (Frame υ)}
    (hstop : s.stop = none) (hframes : s.frames = ⟨indent, []⟩ :: caller :: callers) :
    s.next t = some ⟨⟨s.steps, none⟩, caller :: callers, s.stack.dropLast⟩ := by
  obtain ⟨⟨steps, stop⟩, frames, stack⟩ := s
  cases hstop
  cases hframes
  rfl

theorem next_of_returned {indent : Text} (hframes : s.frames = [⟨indent, []⟩]) :
    s.next t = none := by
  obtain ⟨⟨steps, stop⟩, frames, stack⟩ := s
  cases hframes
  cases stop <;> rfl

theorem next_of_stopped {o : Obstacle υ} (hstop : s.stop = some o) : s.next t = none := by
  obtain ⟨⟨steps, stop⟩, frames, stack⟩ := s
  cases hstop
  rfl

/-- The moves of a call give what its unfolding gives. If nothing stops it, the call is left without
parts, and its callers and the stack are as they were. -/
theorem exists_leadsTo_unfold (t : Table υ) (stack : List Text) (indent : Text)
    (ps : List (Part υ)) (steps : List Step) (callers : List (Frame υ)) :
    ∃ s', LeadsTo t ⟨⟨steps, none⟩, ⟨indent, ps⟩ :: callers, stack⟩ s' ∧
      s'.steps = steps ++ (unfold t stack indent ps).steps ∧
      s'.stop = (unfold t stack indent ps).stop ∧
      (s'.stop = none → s'.frames = ⟨indent, []⟩ :: callers ∧ s'.stack = stack) := by
  fun_induction unfold t stack indent ps generalizing steps callers with
  | case1 stack indent =>
    exact ⟨_, .refl, by simp [Unfolding.done], rfl, fun _ => ⟨rfl, rfl⟩⟩
  | case2 stack indent s ps ih =>
    obtain ⟨e, he, hsteps, hrest⟩ := ih (steps ++ [.literal indent s]) callers
    refine ⟨e, .head rfl he, ?_, hrest⟩
    rw [hsteps, List.append_assoc]
    rfl
  | case3 stack indent x ps =>
    exact ⟨_, .single rfl, by simp [Unfolding.stopped], rfl, by simp⟩
  | case4 stack indent target i ps hs =>
    exact ⟨_, .single (if_pos hs), by simp [Unfolding.stopped], rfl, by simp⟩
  | case5 stack indent target i ps hs hl ih =>
    obtain ⟨e, he, hsteps, hrest⟩ := ih (steps ++ [.unresolved target.key]) callers
    refine ⟨e, .head (by simp [next, hs, hl]) he, ?_, hrest⟩
    rw [hsteps, List.append_assoc]
    rfl
  | case6 stack indent target i ps hs body hl ihbody ih =>
    obtain ⟨e, he, hsteps, hstop, hback⟩ := ihbody steps (⟨indent, ps⟩ :: callers)
    have henter : LeadsTo t ⟨⟨steps, none⟩, ⟨indent, .reference target i :: ps⟩ :: callers, stack⟩
        e := .head (by simp [next, hs, hl]) he
    cases hinner : (unfold t (stack ++ [target.key]) (indent ++ i) body).stop with
    | some o =>
      refine ⟨e, henter, ?_, ?_, by simp [hstop, hinner]⟩
      · simp [Unfolding.andThen, hinner, hsteps]
      · simp [Unfolding.andThen, hinner, hstop]
    | none =>
      -- the body has been left, and its key is taken off the stack
      rw [hinner] at hstop
      obtain ⟨hframes, hstack⟩ := hback hstop
      obtain ⟨e', he', hsteps', hstop', hrest⟩ := ih e.steps callers
      have hleave : e.next t = some ⟨⟨e.steps, none⟩, ⟨indent, ps⟩ :: callers, stack⟩ := by
        rw [next_of_returning hstop hframes, hstack, List.dropLast_concat]
      refine ⟨e', henter.trans (.head hleave he'), ?_, ?_, hrest⟩
      · rw [hsteps', hsteps]
        simp [Unfolding.andThen, hinner]
      · rw [hstop']
        simp [Unfolding.andThen, hinner]

theorem exists_end (ds : List (Definition υ)) (asked : Text) :
    ∃ e, LeadsTo (table ds) (start ds asked) e ∧ e.next (table ds) = none ∧
      e.toUnfolding = unfoldRoot ds asked := by
  cases hroot : root? ds asked with
  | none =>
    have hstart : start ds asked = ⟨.done, [⟨[], []⟩], []⟩ := by simp [start, hroot]
    refine ⟨start ds asked, .refl, next_of_returned (congrArg frames hstart), ?_⟩
    rw [unfoldRoot_of_noRoot hroot, hstart]
  | some r =>
    obtain ⟨e, he, hsteps, hstop, hback⟩ :=
      exists_leadsTo_unfold (table ds) [r.key] [] r.parts [] []
    have hstart : start ds asked = ⟨.done, [⟨[], r.parts⟩], [r.key]⟩ := by simp [start, hroot]
    refine ⟨e, hstart ▸ he, ?_, ?_⟩
    · cases h : e.stop with
      | some o => exact next_of_stopped h
      | none => exact next_of_returned (hback h).1
    · rw [unfoldRoot_of_root? hroot]
      exact congrArg₂ Unfolding.mk hsteps hstop

theorem leadsTo_end {e : Progress υ} (hs : LeadsTo t s s') (he : LeadsTo t s e)
    (hend : e.next t = none) : LeadsTo t s' e := by
  have hunique : Relator.RightUnique fun s s' : Progress υ => s.next t = some s' :=
    fun _ _ _ h h' => Option.some.inj (h.symm.trans h')
  rcases Relation.ReflTransGen.total_of_right_unique hunique hs he with h | h
  · exact h
  · rcases h.cases_head with rfl | ⟨_, hnext, -⟩
    · exact .refl
    · rw [hend] at hnext
      cases hnext

/-- Whatever the definitions are, with or without cycles, the stack of an unfolding holds keys of
the table only and none of them twice, so that its calls are nested no deeper than there are keys,
and one call more. Whenever the calls inside a call have returned, and so also when it returns
itself, the stack is as the call found it. Every unfolding ends, with a text or with a cycle. -/
theorem unfolding_bounded_by_keys (ds : List Definition) (asked : Text) :
    (∀ s, LeadsTo (table ds) (start ds asked) s →
      s.stack.Nodup ∧ (∀ k ∈ s.stack, ((table ds).lookup k).isSome) ∧
      s.frames.length ≤ (keys ds).length + 1 ∧
      ∀ s', Within (table ds) s s' → s'.frames.length = s.frames.length → s'.stack = s.stack) ∧
    ∃ e, (∀ s, LeadsTo (table ds) (start ds asked) s → LeadsTo (table ds) s e) ∧
      e.next (table ds) = none ∧ e.toUnfolding = unfoldRoot ds asked ∧
      (e.stop = none ∧ unfoldedText ds asked = .ok e.text ∨
        ∃ key path, e.stop = some (.cycle key path) ∧
          unfoldedText ds asked = .error (.cycle key path)) := by
  refine ⟨fun s hs => ?_, ?_⟩
  · have hsound := (sound_start ds asked).leadsTo hs
    exact ⟨hsound.nodup, hsound.defined, hsound.depth_le_keys,
      fun s' hwithin hdepth => hwithin.stack_eq hsound.going hdepth⟩
  · obtain ⟨e, he, hend, hunfolding⟩ := exists_end ds asked
    refine ⟨e, fun s hs => leadsTo_end hs he hend, hend, hunfolding, ?_⟩
    rw [hunfolding]
    cases hstop : (unfoldRoot ds asked).stop with
    | none => exact .inl ⟨rfl, unfoldedText_of_stop_eq_none hstop⟩
    | some o =>
      cases o with
      | cycle key path => exact .inr ⟨key, path, rfl, unfoldedText_eq_error_iff.2 hstop⟩
      | foreign x => exact x.elim

def windingParts : List Part := [.to "leaf" " ", .to "c" []]

def winding : List Definition :=
  [.after 0 "leaf" [.literal "x\n"], .after 1 "b" windingParts, .after 3 "a" [.to "b" []],
    .after 4 "c" [.to "a" []]]

def beforeLeaf : Progress :=
  ⟨.done, [⟨[], windingParts⟩, ⟨[], []⟩, ⟨[], []⟩], ["c", "a", "b"]⟩

def behindLeaf : Progress :=
  ⟨⟨[.literal " " "x\n"], none⟩, [⟨[], [.to "c" []]⟩, ⟨[], []⟩, ⟨[], []⟩], ["c", "a", "b"]⟩

theorem winding_unfolding :
    LeadsTo (table winding) (start winding rootName) beforeLeaf ∧ beforeLeaf.stack.Nodup ∧
    (∀ k ∈ beforeLeaf.stack, ((table winding).lookup k).isSome) ∧
    beforeLeaf.frames.length ≤ (keys winding).length + 1 ∧
    Within (table winding) beforeLeaf behindLeaf ∧ behindLeaf.stack = beforeLeaf.stack ∧
    ∃ e, LeadsTo (table winding) beforeLeaf e ∧ e.next (table winding) = none ∧
      e.stop = some (.cycle "c" ["c", "a", "b", "c"]) := by
  have hbefore : LeadsTo (table winding) (start winding rootName) beforeLeaf :=
    .head (by cbv) (.single (by cbv))
  have hwithin : Within (table winding) beforeLeaf behindLeaf :=
    .head ⟨by cbv, by decide⟩ (.head ⟨by cbv, by decide⟩ (.single ⟨by cbv, by decide⟩))
  obtain ⟨hbounded, e, hto, hend, hunfolding, -⟩ := unfolding_bounded_by_keys winding rootName
  obtain ⟨hnodup, hdefined, hdepth, hback⟩ := hbounded beforeLeaf hbefore
  refine ⟨hbefore, hnodup, hdefined, hdepth, hwithin, hback _ hwithin rfl, e, hto _ hbefore, hend,
    ?_⟩
  rw [hunfolding]
  cbv

end Progress

end Literate.Tangle

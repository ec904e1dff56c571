import Literate.Proofs.Tangle.References

namespace Literate.Tangle

variable {υ : Type} {t : Table υ} {c c' : Call υ} {k root : Text} {path : List Text}

theorem Enters.cons {stack : List Text} {indent : Text} {ps : List (Part υ)} {p : Part υ}
    (hp : (unfold t stack indent [p]).stop = none) (h : Enters t ⟨stack, indent, ps⟩ c') :
    Enters t ⟨stack, indent, p :: ps⟩ c' := by
  cases h with
  | @intro _ _ i target front rest body clear fresh found =>
    have hfront : (unfold t stack indent (p :: front)).stop = none := by
      rw [← List.singleton_append, unfold_append, Unfolding.stop_andThen_eq_none]
      exact ⟨hp, clear⟩
    exact Enters.intro hfront fresh found

theorem available_lt_of_enters (h : Enters t c c') :
    (available t c'.stack).length < (available t c.stack).length := by
  cases h with
  | intro clear fresh found => exact available_push_lt fresh found

/-- The body of the call refers to a macro that the call is inside of. -/
def ClosesCycle (c : Call υ) (k : Text) (path : List Text) : Prop :=
  Mentions c.parts k ∧ k ∈ c.stack ∧ path = cyclePath c.stack k

/-- A call that fails either closes a cycle itself or enters a call that fails alike. -/
theorem stop_cycle_step (h : (c.unfold t).stop = some (.cycle k path)) :
    ClosesCycle c k path ∨ ∃ c', Enters t c c' ∧ (c'.unfold t).stop = some (.cycle k path) := by
  obtain ⟨stack, indent, ps⟩ := c
  simp only [Call.unfold] at h
  induction ps with
  | nil => simp at h
  | cons p ps ih =>
    -- what follows a part that met no obstacle fails by itself
    have later (hp : (unfold t stack indent [p]).stop = none)
        (hps : (unfold t stack indent ps).stop = some (.cycle k path)) :
        ClosesCycle ⟨stack, indent, p :: ps⟩ k path ∨
          ∃ c', Enters t ⟨stack, indent, p :: ps⟩ c' ∧
            (c'.unfold t).stop = some (.cycle k path) := by
      obtain ⟨⟨target, i, hmem, hk⟩, hs, hpath⟩ | ⟨c', hc', hstop⟩ := ih hps
      · exact .inl ⟨⟨target, i, List.mem_cons_of_mem _ hmem, hk⟩, hs, hpath⟩
      · exact .inr ⟨c', hc'.cons hp, hstop⟩
    cases p with
    | literal s => exact later (by simp) (by simpa using h)
    | foreign x => simp at h
    | reference target i =>
      by_cases hs : target.key ∈ stack
      · rw [unfold_of_mem hs, Unfolding.stop_stopped, Option.some.injEq,
          Obstacle.cycle.injEq] at h
        obtain ⟨rfl, rfl⟩ := h
        exact .inl ⟨⟨target, i, by simp, rfl⟩, hs, rfl⟩
      · cases hl : t.lookup target.key with
        | none =>
          rw [unfold_of_undefined hs hl] at h
          exact later (by simp [unfold_of_undefined hs hl]) (by simpa using h)
        | some body =>
          rw [unfold_of_defined hs hl, Unfolding.stop_andThen_eq_some] at h
          obtain h | ⟨hbody, hps⟩ := h
          · have hnil : (unfold t stack indent ([] : List (Part υ))).stop = none := by simp
            exact .inr ⟨⟨stack ++ [target.key], indent ++ i, body⟩, .intro hnil hs hl, h⟩
          · refine later ?_ hps
            rw [unfold_of_defined hs hl, Unfolding.stop_andThen_eq_none]
            exact ⟨hbody, by simp⟩

theorem exists_call_of_stop_cycle (h : (c.unfold t).stop = some (.cycle k path)) :
    ∃ c', Relation.ReflTransGen (Enters t) c c' ∧ ClosesCycle c' k path := by
  -- every body that is entered leaves one key less to put on the stack
  induction hn : (available t c.stack).length using Nat.strong_induction_on generalizing c with
  | _ n ih =>
    obtain hhere | ⟨d, hd, hstop⟩ := stop_cycle_step h
    · exact ⟨c, .refl, hhere⟩
    · obtain ⟨c', hc', hrest⟩ := ih _ (hn ▸ available_lt_of_enters hd) hstop rfl
      exact ⟨c', .head hd hc', hrest⟩

theorem exists_enters_of_edge (hc : Trail t root c) (hclear : (c.unfold t).stop = none)
    {k' : Text} (hk : k ∈ c.stack.getLast?) (he : Edge t k k') :
    ∃ c', Enters t c c' ∧ (c'.unfold t).stop = none ∧ c'.stack = c.stack ++ [k'] := by
  obtain ⟨k₁, hk₁, hbody⟩ := hc.current
  obtain ⟨body, hl, ⟨target, i, hmem, rfl⟩, hdef⟩ := he
  rw [Option.mem_unique hk₁ hk, hl, Option.some.injEq] at hbody
  obtain ⟨inner, hinner⟩ := Option.isSome_iff_exists.1 hdef
  obtain ⟨front, rest, hsplit⟩ := List.append_of_mem (hbody ▸ hmem)
  obtain ⟨stack, indent, parts⟩ := c
  simp only at hsplit
  subst hsplit
  simp only [Call.unfold, unfold_append, Unfolding.stop_andThen_eq_none] at hclear
  obtain ⟨hfront, hhere⟩ := hclear
  by_cases hs : target.key ∈ stack
  · simp [unfold_of_mem hs] at hhere
  · rw [unfold_of_defined hs hinner, Unfolding.stop_andThen_eq_none] at hhere
    exact ⟨_, Enters.intro hfront hs hinner, hhere.1, rfl⟩

/-- Where nothing stops the unfolding, every path from the current macro is the end of the stack
of some call. -/
theorem exists_call_of_isChain {ks : List Text} (hc : Trail t root c)
    (hclear : (c.unfold t).stop = none) (hk : k ∈ c.stack.getLast?)
    (hks : (k :: ks).IsChain (Edge t)) :
    ∃ c', Trail t root c' ∧ c'.stack = c.stack ++ ks := by
  induction ks generalizing c k with
  | nil => exact ⟨c, hc, by simp⟩
  | cons k' ks ih =>
    obtain ⟨hedge, hks⟩ := List.isChain_cons_cons.1 hks
    obtain ⟨d, hd, hdclear, hstack⟩ := exists_enters_of_edge hc hclear hk hedge
    obtain ⟨c', hc', hstack'⟩ := ih (hc.enters hd) hdclear (by simp [hstack]) hks
    exact ⟨c', hc', by simp [hstack', hstack]⟩

theorem stop_ne_none_of_cycleReachable {ds : List (Definition υ)} {asked : Text}
    (h : CycleReachable ds asked) : (unfoldRoot ds asked).stop ≠ none := by
  intro hnone
  obtain ⟨r, k, hr, hreach, hcycle⟩ := h
  obtain ⟨k₁, hedge, hback⟩ := Relation.TransGen.head'_iff.1 hcycle
  obtain ⟨ks, hks, hlast⟩ := List.exists_isChain_cons_of_relationReflTransGen hreach
  obtain ⟨ls, hls, hlast'⟩ := List.exists_isChain_cons_of_relationReflTransGen hback
  have hchain : (r.key :: (ks ++ k₁ :: ls)).IsChain (Edge (table ds)) := by
    have hk : k ∈ (r.key :: ks).getLast? := hlast ▸ List.getLast_mem_getLast? _
    exact isChain_append_cons hks hk hedge hls
  have hclear : ((rootCall r).unfold (table ds)).stop = none := by
    simpa [unfoldRoot, hr, rootCall, Call.unfold] using hnone
  obtain ⟨c', hc', hstack⟩ :=
    exists_call_of_isChain (trail_rootCall hr) hclear (by simp [rootCall]) hchain
  -- the path passes through `k` twice, but a stack holds every key once
  have hk : k ∈ r.key :: ks := hlast ▸ List.getLast_mem _
  have hk' : k ∈ k₁ :: ls := hlast' ▸ List.getLast_mem _
  have hnd : ((r.key :: ks) ++ (k₁ :: ls)).Nodup := by
    simpa [hstack, rootCall] using hc'.nodup
  exact (List.nodup_append.1 hnd).2.2 k hk k hk' rfl

/-- A path of the graph from `k` back to `k` that meets no key twice on the way. -/
structure Loop (t : Table υ) (k : Text) (path : List Text) : Prop where
  ends : ∃ inner, path = k :: inner ++ [k]
  edges : path.IsChain (Edge t)
  distinct : path.dropLast.Nodup

theorem exists_dropWhile_ne_eq {stack : List Text} (hk : k ∈ stack) :
    ∃ front back, stack = front ++ k :: back ∧ stack.dropWhile (· ≠ k) = k :: back := by
  induction stack with
  | nil => simp at hk
  | cons k' stack ih =>
    by_cases h : k' = k
    · subst h
      exact ⟨[], stack, rfl, by simp⟩
    · obtain ⟨front, back, hsplit, hdrop⟩ := ih (List.mem_of_ne_of_mem (Ne.symm h) hk)
      exact ⟨k' :: front, back, by simp [hsplit], by simpa [h] using hdrop⟩

theorem Trail.loop (hc : Trail t root c) (h : ClosesCycle c k path) :
    Loop t k path ∧ Relation.ReflTransGen (Edge t) root k := by
  obtain ⟨head, defined, nodup, chain, k₀, hk₀, hbody⟩ := hc
  obtain ⟨hm, hk, rfl⟩ := h
  obtain ⟨front, back, hsplit, hdrop⟩ := exists_dropWhile_ne_eq hk
  rw [hsplit] at head nodup chain hk₀
  -- the stack from `k` on is a path, which the reference to `k` closes
  have hpath : cyclePath c.stack k = k :: back ++ [k] := by rw [cyclePath, hdrop]
  have hedge : Edge t k₀ k := ⟨_, hbody, hm, defined k hk⟩
  have hloop : (k :: back ++ [k]).IsChain (Edge t) :=
    isChain_append_cons chain.right_of_append (by simpa using hk₀) hedge (List.isChain_singleton _)
  refine ⟨⟨⟨back, hpath⟩, hpath ▸ hloop, ?_⟩, ?_⟩
  · rw [hpath, List.dropLast_concat]
    exact nodup.of_append_right
  · cases front with
    | nil =>
      simp only [List.nil_append, List.head?_cons, Option.some.injEq] at head
      exact head ▸ .refl
    | cons k₁ front =>
      simp only [List.cons_append, List.head?_cons, Option.some.injEq] at head
      subst head
      have hpre : (k₁ :: (front ++ [k])).IsChain (Edge t) := chain.prefix ⟨back, by simp⟩
      exact List.relationReflTransGen_of_exists_isChain_cons _ hpre (by simp)

theorem loop_of_unfoldedText_eq_error {ds : List (Definition υ)} {asked : Text}
    (h : unfoldedText ds asked = .error (.cycle k path)) :
    ∃ r, root? ds asked = some r ∧ Loop (table ds) k path ∧
      Relation.ReflTransGen (Edge (table ds)) r.key k := by
  rw [unfoldedText_eq_error_iff, unfoldRoot] at h
  split at h
  case h_1 => simp at h
  case h_2 r hr =>
    obtain ⟨c, hc, hcloses⟩ := exists_call_of_stop_cycle (c := rootCall r) h
    exact ⟨r, hr, ((trail_rootCall hr).of_calls hc).loop hcloses⟩

theorem Loop.transGen (h : Loop t k path) : Relation.TransGen (Edge t) k k := by
  obtain ⟨⟨inner, rfl⟩, edges, -⟩ := h
  cases inner with
  | nil => exact .single (List.isChain_pair.1 edges)
  | cons k' inner =>
    obtain ⟨hedge, hback⟩ := List.isChain_cons_cons.1 edges
    exact .head' hedge (List.relationReflTransGen_of_exists_isChain_cons _ hback (by simp))

theorem stop_eq_none_iff {ds : List Definition} {asked : Text} :
    (unfoldRoot ds asked).stop = none ↔ ¬CycleReachable ds asked := by
  refine ⟨fun h hc => stop_ne_none_of_cycleReachable hc h, fun h => ?_⟩
  cases ho : (unfoldRoot ds asked).stop with
  | none => rfl
  | some o =>
    cases o with
    | cycle k path =>
      obtain ⟨r, hr, hloop, hreach⟩ :=
        loop_of_unfoldedText_eq_error (unfoldedText_eq_error_iff.2 ho)
      exact absurd ⟨r, k, hr, hreach, hloop.transGen⟩ h
    | foreign x => exact x.elim

/-- Unfolding fails if and only if the root leads to a cycle, wherever else there are cycles and
however often a macro is used without one. The failure names a macro that the root leads to, and
a path from it back to itself. -/
theorem unfoldedText_fails_iff_cycleReachable (ds : List Definition) (asked : Text) :
    ((∃ k path, unfoldedText ds asked = .error (.cycle k path)) ↔ CycleReachable ds asked) ∧
      ∀ k path, unfoldedText ds asked = .error (.cycle k path) →
        ∃ r, root? ds asked = some r ∧ Loop (table ds) k path ∧
          Relation.ReflTransGen (Edge (table ds)) r.key k := by
  refine ⟨⟨?_, ?_⟩, fun k path h => loop_of_unfoldedText_eq_error h⟩
  · rintro ⟨k, path, h⟩
    obtain ⟨r, hr, hloop, hreach⟩ := loop_of_unfoldedText_eq_error h
    exact ⟨r, k, hr, hreach, hloop.transGen⟩
  · intro h
    have hstop := stop_ne_none_of_cycleReachable h
    obtain ⟨o, ho⟩ := Option.ne_none_iff_exists'.1 hstop
    cases o with
    | cycle k path => exact ⟨k, path, unfoldedText_eq_error_iff.2 ho⟩
    | foreign x => exact x.elim

def tangled : List Definition :=
  [.after 0 "knot" [.to "knot" []], .after 1 "leaf" [.literal "x\n"], .after 2 "a" [.to "knot" []],
    .after 3 "a" [.to "leaf" "  ", .to "leaf" "  ", .to "b" []], .after 4 "b" [.to " a " []]]

theorem tangled_fails : CycleReachable tangled rootName ∧
    ∃ r, root? tangled rootName = some r ∧ Loop (table tangled) "b" ["b", "a", "b"] ∧
      Relation.ReflTransGen (Edge (table tangled)) r.key "b" := by
  have h : unfoldedText tangled rootName = .error (.cycle "b" ["b", "a", "b"]) := by cbv
  have hexact := unfoldedText_fails_iff_cycleReachable tangled rootName
  exact ⟨hexact.1.1 ⟨_, _, h⟩, hexact.2 _ _ h⟩

end Literate.Tangle

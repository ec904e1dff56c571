import Literate.Proofs.Tangle.Cycles
import Literate.Proofs.Tangle.Literals

namespace Literate.Tangle

open scoped List
open Document (definitions parse sourceLines endedLines)

def bodyOf (t : Table) (k : Text) : List Part := (t.lookup k).getD []

/-- The macros that an unfolding visits, as often as it does, are those that the body refers to and
those that the visited bodies refer to. Its literals are those of the body and of the visited
bodies. -/
theorem exists_visits {t : Table} {stack : List Text} {indent : Text} {ps : List Part}
    (h : (unfold t stack indent ps).stop = none) : ∃ visits : Multiset Text,
      visits = (mentioned ps : Multiset Text) +
        visits.bind (fun k => (mentioned (bodyOf t k) : Multiset Text)) ∧
      ((unfold t stack indent ps).literals.map Prod.snd : Multiset Text) =
        (literalTexts ps : Multiset Text) +
          visits.bind (fun k => (literalTexts (bodyOf t k) : Multiset Text)) := by
  fun_induction unfold t stack indent ps with
  | case1 => exact ⟨0, by simp [mentioned], by simp [literalTexts]⟩
  | case2 stack indent s ps ih =>
    obtain ⟨visits, hvisits, hliterals⟩ := ih h
    refine ⟨visits, hvisits, ?_⟩
    have hcons : literalTexts (.literal s :: ps) = s :: literalTexts ps := rfl
    rw [Unfolding.literals_after_literal, List.map_cons, ← Multiset.cons_coe, hliterals, hcons,
      ← Multiset.cons_coe, Multiset.cons_add]
  | case3 stack indent x ps => exact x.elim
  | case4 stack indent target i ps hs => simp at h
  -- a name without a definition is visited as well, and its body is empty
  | case5 stack indent target i ps hs hl ih =>
    obtain ⟨visits, hvisits, hliterals⟩ := ih h
    have hnone : bodyOf t target.key = [] := by rw [bodyOf, hl]; rfl
    have hcons : mentioned (.reference target i :: ps) = target.key :: mentioned ps := rfl
    refine ⟨target.key ::ₘ visits, ?_, ?_⟩
    · rw [hcons, ← Multiset.cons_coe, Multiset.cons_bind, hnone, Multiset.cons_add]
      simpa [mentioned] using hvisits
    · rw [Unfolding.literals_after_unresolved, hliterals, Multiset.cons_bind, hnone]
      simp [literalTexts]
  | case6 stack indent target i ps hs body hl ihbody ih =>
    obtain ⟨hbody, hrest⟩ := Unfolding.stop_andThen_eq_none.1 h
    obtain ⟨inner, hinner, hinnerLiterals⟩ := ihbody hbody
    obtain ⟨visits, hvisits, hliterals⟩ := ih hrest
    have hsome : bodyOf t target.key = body := by rw [bodyOf, hl]; rfl
    have hcons : mentioned (.reference target i :: ps) = target.key :: mentioned ps := rfl
    have hsame : literalTexts (.reference target i :: ps) = literalTexts ps := rfl
    -- this visit, those from within the body, and those of the other parts
    refine ⟨target.key ::ₘ (inner + visits), ?_, ?_⟩
    · rw [hcons, ← Multiset.cons_coe, Multiset.cons_bind, hsome, Multiset.add_bind,
        Multiset.cons_add, ← add_assoc (mentioned body : Multiset Text), ← hinner, add_left_comm,
        ← hvisits]
    · rw [Unfolding.literals_andThen hbody, List.map_append, ← Multiset.coe_add, hinnerLiterals,
        hliterals, hsame, Multiset.cons_bind, hsome, Multiset.add_bind]
      abel

variable {chunks : List Chunk} {asked k j : Text}

theorem flatMap_group_perm {ks : List Text} (hks : ks.Nodup) {ds : List Definition}
    (hds : ∀ d ∈ ds, d.key ∈ ks) : (ks.flatMap fun k => group k ds).Perm ds := by
  induction ks generalizing ds with
  | nil =>
    have hnil : ds = [] := List.eq_nil_iff_forall_not_mem.2 fun d hd => by simpa using hds d hd
    rw [hnil]
    rfl
  | cons k ks ih =>
    obtain ⟨hk, hks⟩ := List.nodup_cons.1 hks
    have hothers : ∀ d ∈ ds.filter (fun d => !(d.key = k)), d.key ∈ ks := by
      intro d hd
      obtain ⟨hd, hne⟩ := List.mem_filter.1 hd
      exact List.mem_of_ne_of_mem (by simpa using hne) (hds d hd)
    have hgroup : ∀ k' ∈ ks, group k' (ds.filter fun d => !(d.key = k)) = group k' ds := by
      intro k' hk'
      rw [group, group, List.filter_filter]
      refine List.filter_congr fun d _ => ?_
      have hne : k' ≠ k := fun h => hk (h ▸ hk')
      by_cases hd : d.key = k' <;> simp [hd, hne]
    calc (k :: ks).flatMap (fun k => group k ds)
        = group k ds ++ ks.flatMap fun k' => group k' (ds.filter fun d => !(d.key = k)) := by
          rw [List.flatMap_cons, List.flatMap_congr hgroup]
      _ ~ group k ds ++ ds.filter fun d => !(d.key = k) := (ih hks hothers).append_left _
      _ ~ ds := List.filter_append_perm (fun d : Definition => decide (d.key = k)) ds

theorem flatMap_wholeBody_perm (chunks : List Chunk) :
    ((keys (definitions chunks)).flatMap (wholeBody chunks)).Perm (allParts chunks) := by
  have hds : ∀ d ∈ definitions chunks, d.key ∈ keys (definitions chunks) :=
    fun d hd => mem_keys.2 ⟨d, hd, rfl⟩
  have hgroups := flatMap_group_perm (nodup_firsts _) hds
  have hparts := hgroups.flatMap_right Definition.parts
  rwa [List.flatMap_assoc] at hparts

theorem wholeBody_of_notDefined (h : ¬Defined chunks k) : wholeBody chunks k = [] := by
  rw [wholeBody, group_eq_nil_iff.2 h]
  rfl

theorem bodyOf_collect (chunks : List Chunk) (k : Text) :
    bodyOf (table (collect (definitions chunks))) k = wholeBody chunks k := by
  unfold bodyOf
  by_cases h : Defined chunks k
  · rw [lookup_of_defined h]
    rfl
  · rw [lookup_of_notDefined h, wholeBody_of_notDefined h]
    rfl

theorem bind_filterMap_wholeBody (f : Part → Option Text) (chunks : List Chunk) :
    ((keys (definitions chunks) : List Text) : Multiset Text).bind
      (fun k => ((wholeBody chunks k).filterMap f : Multiset Text)) =
        ((allParts chunks).filterMap f : Multiset Text) := by
  rw [Multiset.coe_bind, Multiset.coe_eq_coe, ← List.filterMap_flatMap]
  exact (flatMap_wholeBody_perm chunks).filterMap f

theorem count_coe (l : List Text) (k : Text) : (l : Multiset Text).count k = l.count k := by
  induction l with
  | nil => rfl
  | cons k' l ih =>
    rw [← Multiset.cons_coe, Multiset.count_cons, ih, List.count_cons]
    by_cases h : k = k'
    · simp [h]
    · simp [h, Ne.symm h]

/-- The macros of a document form a tree below the root: the root leads to all of them, and all
bodies together hold one reference to every other macro, and none to the root or to a macro without
definition. -/
structure Tree (asked : Text) (chunks : List Chunk) : Prop where
  root : Defined chunks (Text.trim asked)
  reached : ∀ k, Defined chunks k → Reached asked chunks k
  rootUnused : Text.trim asked ∉ mentioned (allParts chunks)
  usedOnce : ∀ k, Defined chunks k → k ≠ Text.trim asked →
    (mentioned (allParts chunks)).count k = 1
  defined : ∀ k ∈ mentioned (allParts chunks), Defined chunks k

theorem defined_of_leads (h : Leads chunks j k) : Defined chunks j := by
  by_contra hj
  obtain ⟨target, i, hmem, -⟩ := h
  simp [wholeBody_of_notDefined hj] at hmem

theorem mem_mentioned_of_leads (h : Leads chunks j k) : k ∈ mentioned (allParts chunks) := by
  obtain ⟨target, i, hmem, hk⟩ := h
  exact mem_mentioned.2 ⟨target, i, wholeBody_subset chunks j hmem, hk⟩

theorem Tree.ne_root (h : Tree asked chunks) (hj : Leads chunks j k) : k ≠ Text.trim asked :=
  fun hk => h.rootUnused (hk ▸ mem_mentioned_of_leads hj)

theorem Tree.parent (h : Tree asked chunks) (hj : Leads chunks j k) :
    (mentioned (wholeBody chunks j)).count k = 1 ∧ ∀ j', Leads chunks j' k → j' = j := by
  have hcount : (mentioned (allParts chunks)).count k = 1 :=
    h.usedOnce k (h.defined k (mem_mentioned_of_leads hj)) (h.ne_root hj)
  have hkeys := Multiset.cons_erase (Multiset.mem_coe.2 (defined_of_leads hj))
  set others : Multiset Text := ((keys (definitions chunks) : List Text) : Multiset Text).erase j
  have hsum : (mentioned (wholeBody chunks j)).count k +
      (others.bind fun k' => (mentioned (wholeBody chunks k') : Multiset Text)).count k = 1 := by
    have hall : (j ::ₘ others).bind (fun k' => (mentioned (wholeBody chunks k') : Multiset Text)) =
        (mentioned (allParts chunks) : Multiset Text) := by
      rw [hkeys]
      exact bind_filterMap_wholeBody _ chunks
    rw [← hcount, ← count_coe, ← count_coe, ← hall, Multiset.cons_bind, Multiset.count_add]
  have hpos : 0 < (mentioned (wholeBody chunks j)).count k :=
    List.count_pos_iff.2 (mem_mentioned.2 hj)
  refine ⟨by omega, fun j' hj' => ?_⟩
  by_contra hne
  have hmem : j' ∈ others := (Multiset.mem_erase_of_ne hne).2 (Multiset.mem_coe.2
    (defined_of_leads hj'))
  have hpos' : 0 < (others.bind fun k' =>
      (mentioned (wholeBody chunks k') : Multiset Text)).count k :=
    Multiset.count_pos.2 (Multiset.mem_bind.2 ⟨j', hmem, mem_mentioned.2 hj'⟩)
  omega

theorem not_transGen_of_unique_predecessor {α : Type} {R : α → α → Prop} {r a : α}
    (hroot : ∀ b, ¬R b r) (hunique : ∀ b c d, R b d → R c d → b = c)
    (h : Relation.ReflTransGen R r a) : ¬Relation.TransGen R a a := by
  intro hcycle
  induction h with
  | refl =>
    obtain ⟨b, -, hb⟩ := Relation.TransGen.tail'_iff.1 hcycle
    exact hroot b hb
  | @tail b c _ step ih =>
    -- the cycle enters `c` from its predecessor too
    obtain ⟨d, hback, hd⟩ := Relation.TransGen.tail'_iff.1 hcycle
    rw [hunique d b c hd step] at hback
    exact ih (.head' step hback)

theorem leads_of_edge (h : Edge (table (collect (definitions chunks))) j k) :
    Leads chunks j k := by
  obtain ⟨body, hl, hm, -⟩ := h
  rw [← wholeBody_of_lookup hl] at hm
  exact hm

theorem Tree.not_cycleReachable (h : Tree asked chunks) :
    ¬CycleReachable (collect (definitions chunks)) asked := by
  rintro ⟨r, k, hr, hreach, hcycle⟩
  rw [root?_of_lookup (lookup_of_defined h.root), Option.some.injEq] at hr
  subst hr
  have hle : Edge (table (collect (definitions chunks))) ≤ Leads chunks := fun _ _ => leads_of_edge
  refine not_transGen_of_unique_predecessor (fun b hb => ?_) (fun b c d hb hc => ?_)
    (Relation.ReflTransGen.mono hle _ _ hreach) (Relation.TransGen.mono hle _ _ hcycle)
  · exact h.ne_root hb rfl
  · exact (h.parent hc).2 b hb

/-- One visit of the root, and beyond it those that the visited bodies ask for. -/
def VisitedFrom (asked : Text) (chunks : List Chunk) (visits : Multiset Text) : Prop :=
  visits = Text.trim asked ::ₘ
    visits.bind fun k => (mentioned (wholeBody chunks k) : Multiset Text)

section Visits

variable {visits : Multiset Text}

theorem mem_bind_mentioned : (k ∈ visits.bind fun j =>
    (mentioned (wholeBody chunks j) : Multiset Text)) ↔ ∃ j ∈ visits, Leads chunks j k := by
  simp only [Multiset.mem_bind, Multiset.mem_coe, mem_mentioned, Leads]

/-- A macro is visited as often as the one whose body refers to it. -/
theorem Tree.count_visits (h : Tree asked chunks) (hvisits : VisitedFrom asked chunks visits)
    (hk : Reached asked chunks k) : visits.count k = 1 := by
  induction hk with
  | refl =>
    rw [hvisits, Multiset.count_cons_self, Multiset.count_eq_zero_of_notMem]
    intro hmem
    obtain ⟨j, -, hj⟩ := mem_bind_mentioned.1 hmem
    exact h.ne_root hj rfl
  | @tail j k _ step ih =>
    obtain ⟨hone, hunique⟩ := h.parent step
    obtain ⟨others, hothers⟩ := Multiset.exists_cons_of_mem
      (Multiset.count_pos.1 (ih ▸ Nat.one_pos))
    have hnotMem : j ∉ others := by
      rw [hothers, Multiset.count_cons_self] at ih
      exact Multiset.count_eq_zero.1 (Nat.succ.inj ih)
    rw [hvisits, Multiset.count_cons_of_ne (h.ne_root step), hothers, Multiset.cons_bind,
      Multiset.count_add, count_coe, hone, Multiset.count_eq_zero_of_notMem]
    intro hmem
    obtain ⟨j', hj', hk⟩ := mem_bind_mentioned.1 hmem
    exact hnotMem (hunique j' hk ▸ hj')

theorem Tree.defined_of_visited (h : Tree asked chunks)
    (hvisits : VisitedFrom asked chunks visits) (hk : k ∈ visits) : Defined chunks k := by
  rw [hvisits] at hk
  obtain rfl | hk := Multiset.mem_cons.1 hk
  · exact h.root
  · obtain ⟨j, -, hj⟩ := mem_bind_mentioned.1 hk
    exact h.defined k (mem_mentioned_of_leads hj)

theorem Tree.visits_eq_keys (h : Tree asked chunks) (hvisits : VisitedFrom asked chunks visits) :
    visits = (keys (definitions chunks) : Multiset Text) := by
  ext k
  by_cases hk : Defined chunks k
  · rw [h.count_visits hvisits (h.reached k hk)]
    exact (Multiset.count_eq_one_of_mem (Multiset.coe_nodup.2 (nodup_firsts _)) hk).symm
  · rw [Multiset.count_eq_zero_of_notMem fun hmem => hk (h.defined_of_visited hvisits hmem),
      Multiset.count_eq_zero_of_notMem hk]

end Visits

theorem Tree.literals_perm (h : Tree asked chunks)
    (hclear : (unfoldRoot (collect (definitions chunks)) asked).stop = none) :
    ((unfoldRoot (collect (definitions chunks)) asked).literals.map Prod.snd).Perm
      (literalTexts (allParts chunks)) := by
  rw [unfoldRoot_of_defined h.root] at hclear ⊢
  obtain ⟨below, hbelow, hliterals⟩ := exists_visits hclear
  simp only [bodyOf_collect] at hbelow hliterals
  have hvisits : Text.trim asked ::ₘ below = (keys (definitions chunks) : Multiset Text) := by
    refine h.visits_eq_keys ?_
    rw [VisitedFrom, Multiset.cons_bind, ← hbelow]
  rw [← Multiset.coe_eq_coe, hliterals]
  calc (literalTexts (wholeBody chunks (Text.trim asked)) : Multiset Text) +
        below.bind (fun k => (literalTexts (wholeBody chunks k) : Multiset Text))
      = (Text.trim asked ::ₘ below).bind fun k =>
          (literalTexts (wholeBody chunks k) : Multiset Text) := (Multiset.cons_bind ..).symm
    _ = (literalTexts (allParts chunks) : Multiset Text) := by
        rw [hvisits]
        exact bind_filterMap_wholeBody _ chunks

theorem exists_lines_of_perm {literals : List (Text × Text)} {ls : List Text}
    (h : (literals.map Prod.snd).Perm (ls.map (· ++ ['\n']))) : ∃ out : List (Text × Text),
      literals = out.map (fun l => (l.1, l.2 ++ ['\n'])) ∧ (out.map Prod.snd).Perm ls := by
  have hended : ∀ l ∈ literals, (l.1, l.2.dropLast ++ ['\n']) = l := by
    intro l hl
    obtain ⟨line, -, hline⟩ := List.mem_map.1 (h.subset (List.mem_map_of_mem hl))
    rw [← hline, List.dropLast_concat, hline]
  refine ⟨literals.map fun l => (l.1, l.2.dropLast), ?_, ?_⟩
  · rw [List.map_map]
    exact ((List.map_congr_left hended).trans (List.map_id' literals)).symm
  · have hlines := h.map List.dropLast
    simpa [Function.comp_def] using hlines

/-- Where the macros of a text form a tree below the root, the root has code, and its lines are the
literal lines of the text in some order, each once and behind an indentation. -/
theorem code_of_tree (file : FileName) (text asked : Text) (chunks : List Chunk)
    (hparse : parse file text = .ok chunks) (htree : Tree asked chunks) :
    ∃ output, code chunks asked = .ok output ∧ ∃ out : List (Text × Text),
      Text.lines output = out.map (fun l => l.1 ++ l.2) ++ [[]] ∧
        (∀ l ∈ out, ∀ c ∈ l.1, c = ' ' ∨ c = '\t') ∧
        (out.map Prod.snd).Perm (literalLines false (sourceLines text)) := by
  have hclear := stop_eq_none_iff.2 htree.not_cycleReachable
  have hperm := htree.literals_perm hclear
  rw [literalTexts_of_parse hparse] at hperm
  obtain ⟨out, hliterals, hout⟩ := exists_lines_of_perm hperm
  have hcode := indented_code (indented_of_spells (Document.spells_of_readLines hparse)) htree.root
  have hindent : ∀ l ∈ out, ∀ c ∈ l.1, c = ' ' ∨ c = '\t' := by
    intro l hl
    refine hcode (l.1, l.2 ++ ['\n']) ?_
    rw [hliterals]
    exact List.mem_map_of_mem hl
  have htext : (unfoldRoot (collect (definitions chunks)) asked).text =
      endedLines (out.map fun l => l.1 ++ l.2) := by
    rw [← Unfolding.flatten_emitted, Unfolding.emitted, hliterals, endedLines]
    simp [List.flatMap, Function.comp_def]
  -- a line of the output is an indentation and a line of the source, neither of which has an end
  have hplain : ∀ line ∈ out.map (fun l => l.1 ++ l.2), '\n' ∉ line := by
    intro line hline hn
    obtain ⟨l, hl, rfl⟩ := List.mem_map.1 hline
    obtain hn | hn := List.mem_append.1 hn
    · exact absurd (hindent l hl _ hn) (by decide)
    · have hsource := literalLines_subset _ _ (hout.subset (List.mem_map_of_mem hl))
      exact Document.newline_not_mem_sourceLines hsource hn
  refine ⟨_, unfoldedText_of_stop_eq_none hclear, out, ?_, hindent, hout⟩
  rw [htext, Document.lines_endedLines hplain]

def outline : Text :=
  endedLines ["on", "<< * >>=", "begin", "  << part a >>", "end", "@", "to", "<<part a>>=", "1",
    "\t<<b>>", "<<b>>=", "2", "@", "<<part a >>=", "3"]

def outlineChunks : List Chunk :=
  [.narrative "on", .definition (.after 1 "*" [.literal "begin\n", .to "part a" "  ",
      .literal "end\n"]),
    .narrative "to", .definition (.after 7 "part a" [.literal "1\n", .to "b" "\t"]),
    .definition (.after 10 "b" [.literal "2\n"]),
    .definition (.after 13 "part a" [.literal "3\n"])]

theorem outline_tree : Tree rootName outlineChunks := by
  have hkeys : keys (definitions outlineChunks) = [rootName, "part a", "b"] := by decide
  have hroot : Reached rootName outlineChunks rootName := .refl
  have ha : Reached rootName outlineChunks "part a" := hroot.tail (mem_mentioned.1 (by decide))
  have hb : Reached rootName outlineChunks "b" := ha.tail (mem_mentioned.1 (by decide))
  refine ⟨by decide, ?_, by decide, ?_, by decide⟩
  · intro k hk
    rw [Defined, hkeys] at hk
    simp only [List.mem_cons, List.not_mem_nil, or_false] at hk
    obtain rfl | rfl | rfl := hk
    exacts [hroot, ha, hb]
  · intro k hk
    rw [Defined, hkeys] at hk
    revert k
    decide

theorem outline_code : parse docFile outline = .ok outlineChunks ∧ Tree rootName outlineChunks ∧
    ∃ output, code outlineChunks rootName = .ok output ∧ ∃ out : List (Text × Text),
      Text.lines output = out.map (fun l => l.1 ++ l.2) ++ [[]] ∧
        (∀ l ∈ out, ∀ c ∈ l.1, c = ' ' ∨ c = '\t') ∧
        (out.map Prod.snd).Perm ["begin", "end", "1", "2", "3"] := by
  have hparse : parse docFile outline = .ok outlineChunks := by decide
  have hlines : literalLines false (sourceLines outline) = ["begin", "end", "1", "2", "3"] := by
    decide
  have hcode := code_of_tree docFile outline rootName outlineChunks hparse outline_tree
  rw [hlines] at hcode
  exact ⟨hparse, outline_tree, hcode⟩

end Literate.Tangle

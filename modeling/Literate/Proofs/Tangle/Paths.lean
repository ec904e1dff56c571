import Literate.Proofs.Tangle.Cycles

namespace Literate.Tangle

variable {υ : Type} {t : Table υ} {ps : List (Part υ)} {p : Part υ} {paths : List (List Nat)}

/-- The literal that a path of part indices ends at, and the indentations of the references on the
way, outermost first. Every index but the last is that of a reference to a defined macro. -/
def literalAt? (t : Table υ) (ps : List (Part υ)) : List Nat → Option (List Text × Text)
  | [] => none
  | i :: path =>
    match ps[i]? with
    | some (.literal s) => if path = [] then some ([], s) else none
    | some (.reference target indent) =>
      (t.lookup target.key).bind fun body =>
        (literalAt? t body path).map fun (indents, s) => (indent :: indents, s)
    | _ => none

def piece (t : Table υ) (ps : List (Part υ)) (path : List Nat) : Text :=
  match literalAt? t ps path with
  | some (indents, s) => indents.flatten ++ s
  | none => []

/-- All paths to literals, each once and in lexicographic order. -/
structure Lists (t : Table υ) (ps : List (Part υ)) (paths : List (List Nat)) : Prop where
  sorted : paths.Pairwise (List.Lex (· < ·))
  complete : ∀ path, path ∈ paths ↔ (literalAt? t ps path).isSome

theorem Lists.unique {paths' : List (List Nat)} (h : Lists t ps paths) (h' : Lists t ps paths') :
    paths = paths' :=
  h.sorted.eq_of_mem_iff h'.sorted fun path => (h.complete path).trans (h'.complete path).symm

def later : List Nat → List Nat
  | [] => []
  | i :: path => (i + 1) :: path

@[simp] theorem literalAt?_later (path : List Nat) :
    literalAt? t (p :: ps) (later path) = literalAt? t ps path := by
  cases path <;> simp [later, literalAt?]

@[simp] theorem piece_later (path : List Nat) :
    piece t (p :: ps) (later path) = piece t ps path := by
  simp [piece]

theorem lex_later {a b : List Nat} (h : List.Lex (· < ·) a b) :
    List.Lex (· < ·) (later a) (later b) := by
  cases h with
  | nil => exact .nil
  | cons h => exact .cons h
  | rel h => exact .rel (Nat.succ_lt_succ h)

theorem lists_nil : Lists t [] [] := by
  refine ⟨.nil, fun path => ?_⟩
  cases path <;> simp [literalAt?]

theorem Lists.cons {here : List (List Nat)} (hsorted : here.Pairwise (List.Lex (· < ·)))
    (hhere : ∀ path, path ∈ here ↔ (literalAt? t (p :: ps) (0 :: path)).isSome)
    (h : Lists t ps paths) : Lists t (p :: ps) (here.map (0 :: ·) ++ paths.map later) := by
  -- no listed path is empty, so a path through a later part never starts with `0`
  have hne : ∀ path ∈ paths, ∃ i rest, path = i :: rest := by
    intro path hpath
    cases path with
    | nil => simpa [literalAt?] using (h.complete []).1 hpath
    | cons i rest => exact ⟨i, rest, rfl⟩
  refine ⟨List.pairwise_append.2 ⟨?_, ?_, ?_⟩, fun path => ?_⟩
  · exact List.pairwise_map.2 (hsorted.imp .cons)
  · exact List.pairwise_map.2 (h.sorted.imp lex_later)
  · intro a ha b hb
    obtain ⟨_, _, rfl⟩ := List.mem_map.1 ha
    obtain ⟨path, hpath, rfl⟩ := List.mem_map.1 hb
    obtain ⟨i, rest, rfl⟩ := hne path hpath
    exact .rel (Nat.succ_pos i)
  · rw [List.mem_append, List.mem_map, List.mem_map]
    constructor
    · rintro (⟨rest, hrest, rfl⟩ | ⟨rest, hrest, rfl⟩)
      · exact (hhere rest).1 hrest
      · rw [literalAt?_later]
        exact (h.complete rest).1 hrest
    · intro hpath
      match path with
      | [] => simp [literalAt?] at hpath
      | 0 :: rest => exact .inl ⟨rest, (hhere rest).2 hpath, rfl⟩
      | (i + 1) :: rest =>
        refine .inr ⟨i :: rest, (h.complete _).2 ?_, rfl⟩
        rw [← literalAt?_later (p := p)]
        exact hpath

def pieces (t : Table υ) (ps : List (Part υ)) (indent : Text) (paths : List (List Nat)) : Text :=
  paths.flatMap fun path => indent ++ piece t ps path

theorem pieces_cons (indent : Text) (here : List (List Nat)) :
    pieces t (p :: ps) indent (here.map (0 :: ·) ++ paths.map later) =
      (here.flatMap fun path => indent ++ piece t (p :: ps) (0 :: path)) ++
        pieces t ps indent paths := by
  simp [pieces, List.flatMap_map]

theorem exists_lists_of_stop_eq_none {stack : List Text} {indent : Text}
    (h : (unfold t stack indent ps).stop = none) :
    ∃ paths, Lists t ps paths ∧ (unfold t stack indent ps).text = pieces t ps indent paths := by
  fun_induction unfold t stack indent ps with
  | case1 => exact ⟨[], lists_nil, rfl⟩
  | case2 stack indent s ps ih =>
    obtain ⟨paths, hpaths, htext⟩ := ih h
    have hhere : ∀ path, path ∈ [[]] ↔ (literalAt? t (.literal s :: ps) (0 :: path)).isSome := by
      intro path
      by_cases hp : path = [] <;> simp [literalAt?, hp]
    refine ⟨_, hpaths.cons (List.pairwise_singleton _ _) hhere, ?_⟩
    rw [pieces_cons, Unfolding.text_after, htext]
    simp [piece, literalAt?, Step.text]
  | case3 stack indent x ps => simp at h
  | case4 stack indent target i ps hs => simp at h
  | case5 stack indent target i ps hs hl ih =>
    obtain ⟨paths, hpaths, htext⟩ := ih h
    have hhere : ∀ path, path ∈ [] ↔
        (literalAt? t (.reference target i :: ps) (0 :: path)).isSome := by
      simp [literalAt?, hl]
    refine ⟨_, hpaths.cons .nil hhere, ?_⟩
    rw [pieces_cons, Unfolding.text_after, htext]
    simp [Step.text]
  | case6 stack indent target i ps hs body hl ihbody ih =>
    obtain ⟨hb, hrest⟩ := Unfolding.stop_andThen_eq_none.1 h
    obtain ⟨here, hhere, htexthere⟩ := ihbody hb
    obtain ⟨paths, hpaths, htext⟩ := ih hrest
    -- a path through the reference is one through the body, an indentation deeper
    have hstep : ∀ path, literalAt? t (.reference target i :: ps) (0 :: path) =
        (literalAt? t body path).map fun e => (i :: e.1, e.2) := by
      intro path
      simp only [literalAt?, List.getElem?_cons_zero, hl, Option.bind_some]
    have hpiece : ∀ path ∈ here, piece t (.reference target i :: ps) (0 :: path) =
        i ++ piece t body path := by
      intro path hpath
      obtain ⟨e, he⟩ := Option.isSome_iff_exists.1 ((hhere.complete path).1 hpath)
      simp [piece, hstep, he]
    refine ⟨_, hpaths.cons hhere.sorted fun path => ?_, ?_⟩
    · rw [hhere.complete, hstep, Option.isSome_map]
    · rw [pieces_cons, Unfolding.text_andThen hb, htexthere, htext]
      congr 1
      refine List.flatMap_congr fun path hpath => ?_
      rw [hpiece path hpath, List.append_assoc]

def Part.isDefined (t : Table υ) : Part υ → Bool
  | .reference target _ => (t.lookup target.key).isSome
  | _ => true

/-- A body without its references to undefined macros. -/
def definedParts (t : Table υ) (ps : List (Part υ)) : List (Part υ) := ps.filter (Part.isDefined t)

def withoutUndefined (ds : List (Definition υ)) : List (Definition υ) :=
  ds.map fun d => d.withParts (definedParts (table ds) d.parts)

theorem lookup_withoutUndefined (ds : List (Definition υ)) (k : Text) :
    (table (withoutUndefined ds)).lookup k =
      ((table ds).lookup k).map (definedParts (table ds)) := by
  rw [lookup_table, lookup_table, body?, withoutUndefined, group_map_withParts,
    List.getLast?_map, body?]
  cases (group k ds).getLast? <;> rfl

theorem root?_withoutUndefined (ds : List (Definition υ)) (asked : Text) :
    root? (withoutUndefined ds) asked =
      (root? ds asked).map fun r => ⟨r.key, definedParts (table ds) r.parts⟩ := by
  have hlast : (withoutUndefined ds).getLast? =
      ds.getLast?.map fun d => d.withParts (definedParts (table ds) d.parts) := by
    simp [withoutUndefined]
  unfold root?
  rw [lookup_withoutUndefined, hlast]
  cases (table ds).lookup (Text.trim asked) with
  | some parts => rfl
  | none => cases ds.getLast? <;> rfl

theorem definedParts_cons_of_defined {target : Name} {body : List (Part υ)}
    (hl : t.lookup target.key = some body) (i : Text) :
    definedParts t (.reference target i :: ps) = .reference target i :: definedParts t ps :=
  List.filter_cons_of_pos (by rw [Part.isDefined, hl]; rfl)

theorem definedParts_cons_of_undefined {target : Name} (hl : t.lookup target.key = none)
    (i : Text) : definedParts t (.reference target i :: ps) = definedParts t ps :=
  List.filter_cons_of_neg (by rw [Part.isDefined, hl]; simp)

theorem unfold_definedParts {t' : Table υ} {stack : List Text} {indent : Text}
    (ht' : ∀ k, t'.lookup k = (t.lookup k).map (definedParts t))
    (h : (unfold t stack indent ps).stop = none) :
    (unfold t' stack indent (definedParts t ps)).stop = none ∧
      (unfold t' stack indent (definedParts t ps)).text = (unfold t stack indent ps).text := by
  fun_induction unfold t stack indent ps with
  | case1 => simp [definedParts]
  | case2 stack indent s ps ih =>
    obtain ⟨hstop, htext⟩ := ih h
    have hkeep : definedParts t (.literal s :: ps) = .literal s :: definedParts t ps := rfl
    rw [hkeep, unfold_literal]
    exact ⟨hstop, by rw [Unfolding.text_after, Unfolding.text_after, htext]⟩
  | case3 stack indent x ps => simp at h
  | case4 stack indent target i ps hs => simp at h
  -- an undefined name gives no text, so that it may be left out
  | case5 stack indent target i ps hs hl ih =>
    obtain ⟨hstop, htext⟩ := ih h
    rw [definedParts_cons_of_undefined hl]
    exact ⟨hstop, by simp [htext, Step.text]⟩
  | case6 stack indent target i ps hs body hl ihbody ih =>
    obtain ⟨hb, hrest⟩ := Unfolding.stop_andThen_eq_none.1 h
    obtain ⟨hbstop, hbtext⟩ := ihbody hb
    obtain ⟨hstop, htext⟩ := ih hrest
    have hl' : t'.lookup target.key = some (definedParts t body) := by rw [ht', hl]; rfl
    rw [definedParts_cons_of_defined hl, unfold_of_defined hs hl',
      Unfolding.stop_andThen_eq_none, Unfolding.text_andThen hbstop, Unfolding.text_andThen hb]
    exact ⟨⟨hbstop, hstop⟩, by rw [hbtext, htext]⟩

/-- The body that the unfolding starts from, empty without definitions. -/
def rootParts (ds : List (Definition υ)) (asked : Text) : List (Part υ) :=
  ((root? ds asked).map Root.parts).getD []

theorem exists_lists_rootParts {ds : List (Definition υ)} {asked : Text}
    (h : (unfoldRoot ds asked).stop = none) :
    ∃ paths, Lists (table ds) (rootParts ds asked) paths ∧
      unfoldedText ds asked = .ok (paths.flatMap (piece (table ds) (rootParts ds asked))) := by
  rw [unfoldedText_of_stop_eq_none h]
  unfold rootParts
  cases hr : root? ds asked with
  | none => exact ⟨[], lists_nil, by simp [unfoldRoot, hr]⟩
  | some r =>
    simp only [unfoldRoot, hr] at h ⊢
    obtain ⟨paths, hpaths, htext⟩ := exists_lists_of_stop_eq_none h
    exact ⟨paths, hpaths, by simp [htext, pieces]⟩

theorem unfoldedText_withoutUndefined {ds : List (Definition υ)} {asked : Text}
    (h : (unfoldRoot ds asked).stop = none) :
    unfoldedText (withoutUndefined ds) asked = unfoldedText ds asked := by
  have hboth : (unfoldRoot (withoutUndefined ds) asked).stop = none ∧
      (unfoldRoot (withoutUndefined ds) asked).text = (unfoldRoot ds asked).text := by
    unfold unfoldRoot at h ⊢
    rw [root?_withoutUndefined]
    cases hr : root? ds asked with
    | none => simp
    | some r =>
      rw [hr] at h
      exact unfold_definedParts (lookup_withoutUndefined ds) h
  rw [unfoldedText_of_stop_eq_none hboth.1, unfoldedText_of_stop_eq_none h, hboth.2]

/-- Without a cycle, the text of the root is that of all paths to literals, in order: the
indentations on the path and then the literal. References to undefined macros might as well not be
there, and without definitions there is no text. -/
theorem unfoldedText_eq_flatMap_piece (ds : List Definition) (asked : Text)
    (h : ¬CycleReachable ds asked) :
    (∃ paths, Lists (table ds) (rootParts ds asked) paths) ∧
      (∀ paths, Lists (table ds) (rootParts ds asked) paths →
        unfoldedText ds asked = .ok (paths.flatMap (piece (table ds) (rootParts ds asked)))) ∧
      unfoldedText (withoutUndefined ds) asked = unfoldedText ds asked ∧
      unfoldedText ([] : List Definition) asked = .ok [] := by
  have hstop := stop_eq_none_iff.2 h
  obtain ⟨paths, hpaths, htext⟩ := exists_lists_rootParts hstop
  refine ⟨⟨paths, hpaths⟩, ?_, unfoldedText_withoutUndefined hstop, rfl⟩
  intro paths' hpaths'
  rw [htext, hpaths.unique hpaths']

def shared : List Definition :=
  [.after 0 "b" [.literal "y\n"],
    .after 1 "*" [.literal "x\n", .to "a" " ", .to "none" [], .to "a" "\t"],
    .after 2 "a" [.literal "1\n", .to "b" "  "]]

theorem shared_unfolds : ¬CycleReachable shared rootName ∧
    (∃ paths, Lists (table shared) (rootParts shared rootName) paths ∧
      unfoldedText shared rootName =
        .ok (paths.flatMap (piece (table shared) (rootParts shared rootName)))) ∧
    unfoldedText shared rootName = .ok "x\n 1\n   y\n\t1\n\t  y\n" := by
  have h : ¬CycleReachable shared rootName := stop_eq_none_iff.1 (by cbv)
  obtain ⟨⟨paths, hpaths⟩, htext, -⟩ := unfoldedText_eq_flatMap_piece shared rootName h
  exact ⟨h, ⟨paths, hpaths, htext paths hpaths⟩, by cbv⟩

end Literate.Tangle

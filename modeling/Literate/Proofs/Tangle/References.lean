import Literate.Proofs.Tangle.Lookup
import Literate.Tangle.Unfolding

namespace Literate.Tangle

variable {υ : Type} {t : Table υ} {stack : List Text} {indent : Text} {ps qs : List (Part υ)}

namespace Unfolding

@[simp] theorem stop_done : (done : Unfolding υ).stop = none := rfl

@[simp] theorem stop_stopped (o : Obstacle υ) : (stopped o).stop = some o := rfl

@[simp] theorem stop_after (s : Step) (u : Unfolding υ) : (after s u).stop = u.stop := rfl

@[simp] theorem done_andThen (next : Unit → Unfolding υ) : done.andThen next = next () := rfl

@[simp] theorem stopped_andThen (o : Obstacle υ) (next : Unit → Unfolding υ) :
    (stopped o).andThen next = stopped o := rfl

theorem after_andThen (s : Step) (u : Unfolding υ) (next : Unit → Unfolding υ) :
    (after s u).andThen next = after s (u.andThen next) := by
  cases h : u.stop <;> simp [andThen, after, h]

theorem andThen_assoc (u : Unfolding υ) (f g : Unit → Unfolding υ) :
    (u.andThen f).andThen g = u.andThen fun _ => (f ()).andThen g := by
  cases h : u.stop with
  | some o => simp [andThen, h]
  | none => cases h' : (f ()).stop <;> simp [andThen, h, h']

theorem stop_andThen_eq_none {u : Unfolding υ} {next : Unit → Unfolding υ} :
    (u.andThen next).stop = none ↔ u.stop = none ∧ (next ()).stop = none := by
  cases h : u.stop <;> simp [andThen, h]

theorem stop_andThen_eq_some {u : Unfolding υ} {next : Unit → Unfolding υ} {o : Obstacle υ} :
    (u.andThen next).stop = some o ↔
      u.stop = some o ∨ u.stop = none ∧ (next ()).stop = some o := by
  cases h : u.stop <;> simp [andThen, h]

@[simp] theorem text_done : (done : Unfolding υ).text = [] := rfl

@[simp] theorem text_after (s : Step) (u : Unfolding υ) : (after s u).text = s.text ++ u.text := rfl

theorem text_andThen {u : Unfolding υ} {next : Unit → Unfolding υ} (h : u.stop = none) :
    (u.andThen next).text = u.text ++ (next ()).text := by
  simp [andThen, h, text]

def literals (u : Unfolding υ) : List (Text × Text) :=
  u.steps.filterMap fun
    | .literal indent s => some (indent, s)
    | .unresolved _ => none

@[simp] theorem literals_done : (done : Unfolding υ).literals = [] := rfl

@[simp] theorem literals_after_literal (indent s : Text) (u : Unfolding υ) :
    (u.after (.literal indent s)).literals = (indent, s) :: u.literals := rfl

@[simp] theorem literals_after_unresolved (key : Text) (u : Unfolding υ) :
    (u.after (.unresolved key)).literals = u.literals := rfl

theorem literals_andThen {u : Unfolding υ} {next : Unit → Unfolding υ} (h : u.stop = none) :
    (u.andThen next).literals = u.literals ++ (next ()).literals := by
  simp [andThen, h, literals]

/-- What is written for the literals, piece by piece. -/
def emitted (u : Unfolding υ) : List Text := u.literals.map fun l => l.1 ++ l.2

theorem emitted_andThen {u : Unfolding υ} {next : Unit → Unfolding υ} (h : u.stop = none) :
    (u.andThen next).emitted = u.emitted ++ (next ()).emitted := by
  rw [emitted, literals_andThen h, List.map_append]
  rfl

theorem flatten_emitted (u : Unfolding υ) : u.emitted.flatten = u.text := by
  rw [emitted, literals, text]
  induction u.steps with
  | nil => rfl
  | cons s steps ih =>
    rw [List.flatMap_cons, ← ih]
    cases s <;> rfl

end Unfolding

@[simp] theorem unfold_nil : unfold t stack indent [] = .done := by
  rw [unfold]

@[simp] theorem unfold_literal (s : Text) :
    unfold t stack indent (.literal s :: ps) =
      (unfold t stack indent ps).after (.literal indent s) := by
  rw [unfold]

@[simp] theorem unfold_foreign (x : υ) :
    unfold t stack indent (.foreign x :: ps) = .stopped (.foreign x) := by
  rw [unfold]

theorem unfold_of_mem {target : Name} (h : target.key ∈ stack) (i : Text) :
    unfold t stack indent (.reference target i :: ps) =
      .stopped (.cycle target.key (cyclePath stack target.key)) := by
  rw [unfold, if_pos h]

theorem unfold_of_undefined {target : Name} (h : target.key ∉ stack)
    (hl : t.lookup target.key = none) (i : Text) :
    unfold t stack indent (.reference target i :: ps) =
      (unfold t stack indent ps).after (.unresolved target.key) := by
  rw [unfold, if_neg h]
  split
  case h_1 => rfl
  case h_2 hb => simp [hl] at hb

theorem unfold_of_defined {target : Name} {body : List (Part υ)} (h : target.key ∉ stack)
    (hl : t.lookup target.key = some body) (i : Text) :
    unfold t stack indent (.reference target i :: ps) =
      (unfold t (stack ++ [target.key]) (indent ++ i) body).andThen fun _ =>
        unfold t stack indent ps := by
  rw [unfold, if_neg h]
  split
  case h_1 hb => simp [hl] at hb
  case h_2 b hb =>
    rw [hl, Option.some.injEq] at hb
    rw [hb]

theorem unfold_append :
    unfold t stack indent (ps ++ qs) =
      (unfold t stack indent ps).andThen fun _ => unfold t stack indent qs := by
  induction ps with
  | nil => simp
  | cons p ps ih =>
    rw [List.cons_append]
    cases p with
    | literal s => rw [unfold_literal, unfold_literal, ih, Unfolding.after_andThen]
    | foreign x => simp
    | reference target i =>
      by_cases hs : target.key ∈ stack
      · simp [unfold_of_mem hs]
      · cases hl : t.lookup target.key with
        | none =>
          rw [unfold_of_undefined hs hl, unfold_of_undefined hs hl, ih, Unfolding.after_andThen]
        | some body =>
          rw [unfold_of_defined hs hl, unfold_of_defined hs hl, ih, Unfolding.andThen_assoc]

section Root

variable {ds : List (Definition υ)} {asked : Text}

theorem unfoldRoot_of_root? {r : Root υ} (h : root? ds asked = some r) :
    unfoldRoot ds asked = unfold (table ds) [r.key] [] r.parts := by
  simp only [unfoldRoot, h]

theorem unfoldRoot_of_noRoot (h : root? ds asked = none) : unfoldRoot ds asked = .done := by
  simp only [unfoldRoot, h]

theorem unfoldedText_of_stop_eq_none (h : (unfoldRoot ds asked).stop = none) :
    unfoldedText ds asked = .ok (unfoldRoot ds asked).text := by
  simp [unfoldedText, h]

theorem unfoldedText_eq_error_iff {o : Obstacle υ} :
    unfoldedText ds asked = .error o ↔ (unfoldRoot ds asked).stop = some o := by
  unfold unfoldedText
  cases h : (unfoldRoot ds asked).stop <;> simp [h]

theorem unfoldedText_eq_ok_iff {text : Text} :
    unfoldedText ds asked = .ok text ↔
      (unfoldRoot ds asked).stop = none ∧ (unfoldRoot ds asked).text = text := by
  unfold unfoldedText
  cases h : (unfoldRoot ds asked).stop <;> simp [h]

end Root

def Mentions (ps : List (Part υ)) (k : Text) : Prop :=
  ∃ target i, .reference target i ∈ ps ∧ target.key = k

/-- The keys that a body refers to, as often as it does. -/
def mentioned (ps : List (Part υ)) : List Text :=
  ps.filterMap fun
    | .reference target _ => some target.key
    | _ => none

theorem mem_mentioned {k : Text} : k ∈ mentioned ps ↔ Mentions ps k := by
  rw [mentioned, List.mem_filterMap]
  constructor
  · rintro ⟨p, hp, hk⟩
    cases p with
    | reference target i => exact ⟨target, i, hp, Option.some.inj hk⟩
    | literal s => simp at hk
    | foreign x => simp at hk
  · rintro ⟨target, i, hp, rfl⟩
    exact ⟨_, hp, rfl⟩

/-- The body of `k` refers to `k'`, and `k'` is defined. -/
def Edge (t : Table υ) (k k' : Text) : Prop :=
  ∃ body, t.lookup k = some body ∧ Mentions body k' ∧ (t.lookup k').isSome

/-- Some macro that the root leads to leads back to itself. -/
def CycleReachable (ds : List (Definition υ)) (asked : Text) : Prop :=
  ∃ r k, root? ds asked = some r ∧ Relation.ReflTransGen (Edge (table ds)) r.key k ∧
    Relation.TransGen (Edge (table ds)) k k

theorem isChain_append_cons {α : Type} {R : α → α → Prop} {l m : List α} {a b : α}
    (hl : l.IsChain R) (ha : a ∈ l.getLast?) (hab : R a b) (hm : (b :: m).IsChain R) :
    (l ++ b :: m).IsChain R := by
  refine hl.append hm ?_
  intro x hx y hy
  have hxa : x = a := Option.mem_unique hx ha
  have hyb : b = y := Option.some.inj hy
  rw [hxa, ← hyb]
  exact hab

/-- One call of the unfolding: the macros it is inside of, its indentation and its body. -/
structure Call (υ : Type := Empty) where
  stack : List Text
  indent : Text
  parts : List (Part υ)

def Call.unfold (t : Table υ) (c : Call υ) : Unfolding υ :=
  Tangle.unfold t c.stack c.indent c.parts

def rootCall (r : Root υ) : Call υ := ⟨[r.key], [], r.parts⟩

/-- A call enters the body of a defined macro when no part before the reference stopped it. -/
inductive Enters (t : Table υ) : Call υ → Call υ → Prop where
  | intro {stack : List Text} {indent i : Text} {target : Name} {front rest body : List (Part υ)}
      (clear : (unfold t stack indent front).stop = none) (fresh : target.key ∉ stack)
      (found : t.lookup target.key = some body) :
      Enters t ⟨stack, indent, front ++ .reference target i :: rest⟩
        ⟨stack ++ [target.key], indent ++ i, body⟩

/-- The stack of a call is a path of the graph without repetitions, from the root to the macro
whose body the call unfolds. -/
structure Trail (t : Table υ) (root : Text) (c : Call υ) : Prop where
  head : c.stack.head? = some root
  defined : ∀ k ∈ c.stack, (t.lookup k).isSome
  nodup : c.stack.Nodup
  chain : c.stack.IsChain (Edge t)
  current : ∃ k ∈ c.stack.getLast?, t.lookup k = some c.parts

theorem Trail.enters {root : Text} {c c' : Call υ} (hc : Trail t root c) (h : Enters t c c') :
    Trail t root c' := by
  obtain ⟨head, defined, nodup, chain, k, hk, hbody⟩ := hc
  cases h with
  | @intro stack indent i target front rest body clear fresh found =>
    have hedge : Edge t k target.key :=
      ⟨_, hbody, ⟨target, i, by simp, rfl⟩, by simp [found]⟩
    refine ⟨?_, ?_, ?_, ?_, target.key, by simp, found⟩
    · simp only at head
      simp [List.head?_append, head]
    · intro k' hk'
      obtain hk' | hk' := List.mem_append.1 hk'
      · exact defined k' hk'
      · simp [List.mem_singleton.1 hk', found]
    · exact nodup.append (List.nodup_singleton _) (by simpa using fresh)
    · exact isChain_append_cons chain hk hedge (List.isChain_singleton _)

theorem Trail.of_calls {root : Text} {c c' : Call υ} (hc : Trail t root c)
    (h : Relation.ReflTransGen (Enters t) c c') : Trail t root c' := by
  induction h with
  | refl => exact hc
  | tail _ step ih => exact ih.enters step

theorem trail_rootCall {ds : List (Definition υ)} {asked : Text} {r : Root υ}
    (h : root? ds asked = some r) : Trail (table ds) r.key (rootCall r) := by
  refine ⟨rfl, ?_, List.nodup_singleton _, List.isChain_singleton _, r.key, rfl, lookup_root h⟩
  intro k hk
  rw [List.mem_singleton.1 hk, lookup_root h]
  rfl

end Literate.Tangle

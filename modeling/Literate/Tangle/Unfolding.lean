import Literate.Tangle.Collection
import Literate.Tangle.Location

namespace Literate.Tangle

variable {υ : Type}

inductive Step where
  /-- A literal under the indentation of the references that lead to it. -/
  | literal (indent text : Text)
  /-- A reference to a macro without definition. -/
  | unresolved (key : Text)
deriving DecidableEq

/-- What ends an unfolding early: a macro inside itself, with the keys from its first occurrence to
its second, or a part of unknown kind. -/
inductive Obstacle (υ : Type := Empty) where
  | cycle (key : Text) (path : List Text)
  | foreign (what : υ)
deriving DecidableEq

/-- The steps in order, up to an obstacle if there is one. -/
structure Unfolding (υ : Type := Empty) where
  steps : List Step
  stop : Option (Obstacle υ)

namespace Unfolding

def done : Unfolding υ := ⟨[], none⟩

def stopped (o : Obstacle υ) : Unfolding υ := ⟨[], some o⟩

def after (s : Step) (u : Unfolding υ) : Unfolding υ := { u with steps := s :: u.steps }

/-- Goes on with `next` unless `u` met an obstacle. -/
def andThen (u : Unfolding υ) (next : Unit → Unfolding υ) : Unfolding υ :=
  match u.stop with
  | some _ => u
  | none =>
    let v := next ()
    ⟨u.steps ++ v.steps, v.stop⟩

end Unfolding

def available (t : Table υ) (stack : List Text) : List (Text × List (Part υ)) :=
  t.filter fun e => e.1 ∉ stack

theorem mem_of_lookup {t : Table υ} {k : Text} {b : List (Part υ)} (h : t.lookup k = some b) :
    (k, b) ∈ t := by
  induction t with
  | nil => simp at h
  | cons e t ih =>
    obtain ⟨k', b'⟩ := e
    rw [List.lookup_cons] at h
    split at h
    · simp_all
    · exact List.mem_cons_of_mem _ (ih h)

theorem available_push_lt {t : Table υ} {stack : List Text} {k : Text} {b : List (Part υ)}
    (hk : k ∉ stack) (h : t.lookup k = some b) :
    (available t (stack ++ [k])).length < (available t stack).length := by
  have hsub : (available t (stack ++ [k])) = (available t stack).filter (·.1 ≠ k) := by
    simp only [available, List.filter_filter]
    congr 1
    funext e
    by_cases he : e.1 = k <;> simp [he]
  rw [hsub]
  refine List.length_filter_lt_length_iff_exists.2 ⟨(k, b), ?_, by simp⟩
  simp [available, mem_of_lookup h, hk]

/-- The keys from the first occurrence of `k` on the stack back to `k`. -/
def cyclePath (stack : List Text) (k : Text) : List Text := stack.dropWhile (· ≠ k) ++ [k]

def unfold (t : Table υ) (stack : List Text) (indent : Text) : List (Part υ) → Unfolding υ
  | [] => .done
  | .literal s :: ps => (unfold t stack indent ps).after (.literal indent s)
  | .foreign x :: _ => .stopped (.foreign x)
  | .reference target i :: ps =>
    if target.key ∈ stack then .stopped (.cycle target.key (cyclePath stack target.key))
    else
      match _h : t.lookup target.key with
      | none => (unfold t stack indent ps).after (.unresolved target.key)
      | some body =>
        (unfold t (stack ++ [target.key]) (indent ++ i) body).andThen fun _ =>
          unfold t stack indent ps
termination_by ps => ((available t stack).length, ps.length)
decreasing_by
  · exact Prod.Lex.right _ (by simp)
  · exact Prod.Lex.right _ (by simp)
  · exact Prod.Lex.left _ _ (available_push_lt (by assumption) (by assumption))
  · exact Prod.Lex.right _ (by simp)

def unfoldRoot (ds : List (Definition υ)) (asked : Text) : Unfolding υ :=
  match root? ds asked with
  | none => .done
  | some r => unfold (table ds) [r.key] [] r.parts

def Step.text : Step → Text
  | literal indent s => indent ++ s
  | unresolved _ => []

def Unfolding.text (u : Unfolding υ) : Text := u.steps.flatMap Step.text

/-- The text of the root with all references unfolded. -/
def unfoldedText (ds : List (Definition υ)) (asked : Text) : Except (Obstacle υ) Text :=
  let u := unfoldRoot ds asked
  match u.stop with
  | some o => .error o
  | none => .ok u.text

def code (chunks : List Chunk) (asked : Text) : Except Obstacle Text :=
  unfoldedText (collect (Document.definitions chunks)) asked

def locatedCode (extension : Text) (chunks : List Chunk) (asked fallback : Text) :
    Except Obstacle Text :=
  let located := withLocations (lineComment extension fallback) (Document.definitions chunks)
  unfoldedText (collect located) asked

end Literate.Tangle

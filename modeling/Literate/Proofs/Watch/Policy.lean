import Literate.Proofs.Host.Interruption
import Literate.Watch.Loop

namespace Literate.Watcher

section look

variable {σ τ : Type} [Sub τ] [LT τ] [DecidableLT τ] [Observer τ (OptionT (StateM σ))] {s s' : σ}
  {given : Option (Except Fault (List Path))}

/-- What a look for changed files can give: some of the files in their order, or a failure that
nobody foresees. -/
def Looked (paths : List Path) : Option (Except Fault (List Path)) → Prop
  | none => True
  | some (.error f) => f.report? = none
  | some (.ok found) => found.Sublist paths

theorem Looked.cons {p : Path} {paths : List Path} (h : Looked paths given) :
    Looked (p :: paths) given := by
  match given, h with
  | none, _ => exact trivial
  | some (.error _), hr => exact hr
  | some (.ok _), hsub => exact List.Sublist.cons p hsub

theorem looked_changedSince (w : Watcher τ) (now : τ) (paths : List Path)
    (h : outcome s (w.changedSince now paths).run = (given, s')) : Looked paths given := by
  -- only the order of the paths is at stake, so a stop at a look says all there is to say
  induction paths generalizing s s' given with
  | nil =>
    cases h
    exact .slnil
  | cons p ps ih =>
    rw [changedSince] at h
    rcases hm : outcome s (Observer.modified p) with ⟨_ | f | m, s₁⟩
    · rw [outcome_lift_bind_none hm] at h
      cases h
      exact trivial
    · rw [outcome_lift_bind_some hm] at h
      dsimp only at h
      by_cases hf : f.problem = .notFound
      · rw [if_pos hf] at h
        rcases hrecord : outcome s₁ (Observer.record (missingEvent p)) with ⟨_ | _, s₂⟩
        · rw [outcome_lift_bind_none hrecord] at h
          cases h
          exact trivial
        · rw [outcome_lift_bind_some hrecord] at h
          exact (ih h).cons
      · rw [if_neg hf] at h
        cases h
        exact rfl
    · rw [outcome_lift_bind_some hm] at h
      dsimp only at h
      rcases hrest : outcome s₁ (w.changedSince now ps).run with ⟨_ | f | found, s₂⟩
      · rw [outcome_bind_none hrest] at h
        cases h
        exact trivial
      · rw [outcome_bind_error hrest] at h
        cases h
        exact ih hrest
      · rw [outcome_bind_ok hrest] at h
        cases h
        have hsub : found.Sublist ps := ih hrest
        show List.Sublist (if _ then _ else _) _
        split
        · exact hsub.cons_cons p
        · exact hsub.cons p

theorem looked_changed (w : Watcher τ) (h : outcome s w.changed.run = (given, s')) :
    Looked w.paths given := by
  unfold changed at h
  rcases hnow : outcome s Observer.now with ⟨_ | now, s₁⟩
  · rw [outcome_lift_bind_none hnow] at h
    cases h
    exact trivial
  · rw [outcome_lift_bind_some hnow] at h
    exact looked_changedSince w now w.paths h

end look

/-- What is done in a watch and what it gives, which is nothing if it is interrupted. -/
inductive Act where
  | process (source : Path) (given : Option (Except Fault (List Path)))
  | log (r : Report) (context : Fields) (given : Option Unit)
  | record (e : Event) (given : Option Unit)
  /-- The changed files are looked for. -/
  | look (given : Option (Except Fault (List Path)))
  /-- The pause between two polls, which tells whether it came to its end. -/
  | wait (given : Option Bool)

namespace Act

def Interrupted : Act → Prop
  | process _ given => given = none
  | log _ _ given => given = none
  | record _ given => given = none
  | look given => given = none
  | wait given => given ≠ some true

/-- A document fails, or the look for changed files does. -/
inductive FailsWith (f : Fault) : Act → Prop where
  | process (source : Path) : FailsWith f (process source (some (.error f)))
  | look : FailsWith f (look (some (.error f)))

def called : Act → List Path
  | process source _ => [source]
  | _ => []

def found : Act → List Path
  | look (some (.ok paths)) => paths
  | _ => []

def isLook : Act → Bool
  | look _ => true
  | _ => false

end Act

def called (acts : List Act) : List Path := acts.flatMap Act.called

def found (acts : List Act) : List Path := acts.flatMap Act.found

def context (source : Path) : Fields := [("file_path", .text source.toText)]

/-- Where a watch is. In the first pass there is no number of polls. -/
inductive Stage where
  /-- Documents are to be processed, in the first pass or in the poll after so many others. -/
  | visiting (polls : Option Nat) (todo : List Path)
  /-- A document is to be processed whose change has been recorded. -/
  | announced (polls : Nat) (source : Path) (todo : List Path)
  /-- A failure is to be logged. -/
  | failed (polls : Option Nat) (source : Path) (r : Report) (todo : List Path)
  | between (polls : Nat)
  | interrupted (polls : Nat)
  /-- A source that cannot be read has stopped the watch. -/
  | stopped (r : Report)
  | ended (result : Option (Except Fault Nat))

namespace Stage

def todo : Stage → List Path
  | visiting _ todo => todo
  | announced _ source todo => source :: todo
  | failed _ _ _ todo => todo
  | _ => []

def begun : Stage → Nat
  | visiting polls _ | failed polls _ _ _ => polls.elim 0 (· + 1)
  | announced polls _ _ => polls + 1
  | between polls => polls
  | _ => 0

def Alive : Stage → Prop
  | visiting .. | announced .. | failed .. | between .. => True
  | _ => False

def First : Stage → Prop
  | visiting none _ | failed none .. => True
  | _ => False

def Looping : Stage → Prop
  | visiting (some _) _ | failed (some _) .. | announced .. | between .. | interrupted .. => True
  | _ => False

/-- What a watch of no more than `bound` polls ends with. -/
def Final (bound : Nat) (result : Option (Except Fault Nat)) (st : Stage) : Prop :=
  st = ended result ∨ st = between bound ∧ result = some (.ok 0)

end Stage

/-- An interruption is noticed by the loop, but not by the first pass. -/
inductive Halt : Option Nat → Stage → Prop where
  | first : Halt none (.ended none)
  | loop (polls : Nat) : Halt (some polls) (.interrupted polls)

/-- What follows on a document by what its processing gives. -/
inductive Answer (polls : Option Nat) (source : Path) (todo : List Path) :
    Option (Except Fault (List Path)) → Stage → Prop where
  | cut {st : Stage} (halt : Halt polls st) : Answer polls source todo none st
  | written (paths : List Path) :
    Answer polls source todo (some (.ok paths)) (.visiting polls todo)
  | unreported {f : Fault} (none : f.report? = none) :
    Answer polls source todo (some (.error f)) (.ended (some (.error f)))
  | unavailable {f : Fault} {r : Report} (reported : f.report? = some r)
    (kind : r.kind = .sourceUnavailable) : Answer polls source todo (some (.error f)) (.stopped r)
  | reported {f : Fault} {r : Report} (reported : f.report? = some r)
    (kind : r.kind ≠ .sourceUnavailable) :
    Answer polls source todo (some (.error f)) (.failed polls source r todo)

/-- The acts of a watch: which are done in a stage, and where they lead. -/
inductive Next (w : Watcher) : Stage → Act → Stage → Prop where
  | visit {source : Path} {todo : List Path} {given : Option (Except Fault (List Path))}
    {st : Stage} (answer : Answer none source todo given st) :
    Next w (.visiting none (source :: todo)) (.process source given) st
  | start : Next w (.visiting none []) (.record w.startedEvent (some ())) (.between 0)
  | startCut : Next w (.visiting none []) (.record w.startedEvent none) (.ended none)
  | find (polls : Nat) {paths : List Path} (watched : paths.Sublist w.paths) :
    Next w (.between polls) (.look (some (.ok paths))) (.visiting (some polls) paths)
  | miss (polls : Nat) {f : Fault} (unreported : f.report? = none) :
    Next w (.between polls) (.look (some (.error f))) (.ended (some (.error f)))
  | lookCut (polls : Nat) : Next w (.between polls) (.look none) (.interrupted polls)
  | announce (polls : Nat) (source : Path) (todo : List Path) :
    Next w (.visiting (some polls) (source :: todo)) (.record (changedEvent source) (some ()))
      (.announced polls source todo)
  | announceCut (polls : Nat) (source : Path) (todo : List Path) :
    Next w (.visiting (some polls) (source :: todo)) (.record (changedEvent source) none)
      (.interrupted polls)
  | call {polls : Nat} {source : Path} {todo : List Path}
    {given : Option (Except Fault (List Path))} {st : Stage}
    (answer : Answer (some polls) source todo given st) :
    Next w (.announced polls source todo) (.process source given) st
  | log (polls : Option Nat) (source : Path) (r : Report) (todo : List Path) :
    Next w (.failed polls source r todo) (.log r (context source) (some ()))
      (.visiting polls todo)
  | logCut {polls : Option Nat} (source : Path) (r : Report) (todo : List Path) {st : Stage}
    (halt : Halt polls st) :
    Next w (.failed polls source r todo) (.log r (context source) none) st
  | wait (polls : Nat) :
    Next w (.visiting (some polls) []) (.wait (some true)) (.between (polls + 1))
  | waitCut (polls : Nat) {given : Option Bool} (cut : given ≠ some true) :
    Next w (.visiting (some polls) []) (.wait given) (.interrupted (polls + 1))
  | breakOff (polls : Nat) (given : Option Unit) :
    Next w (.interrupted polls) (.record (interruptedEvent polls) given)
      (.ended (given.map fun _ => .ok 0))
  | stop (r : Report) (given : Option Unit) :
    Next w (.stopped r) (.log r [] given) (.ended (given.map fun _ => .ok 1))

variable {w : Watcher} {st st' : Stage} {a : Act} {acts front back : List Act} {source : Path}
  {todo : List Path} {given : Option (Except Fault (List Path))} {f : Fault} {r : Report}
  {polls bound : Nat} {result : Option (Except Fault Nat)}

theorem Answer.account {polls : Option Nat} (h : Answer polls source todo given st)
    (halive : st.Alive) : st.todo = todo ∧ st.begun = polls.elim 0 (· + 1) := by
  cases h with
  | cut halt => cases halt <;> exact halive.elim
  | written | reported => exact ⟨rfl, rfl⟩
  | unreported | unavailable => exact halive.elim

theorem Answer.of_reported {polls : Option Nat}
    (h : Answer polls source todo (some (.error f)) st) (hr : f.report? = some r) :
    r.kind = .sourceUnavailable ∧ st = .stopped r ∨
      r.kind ≠ .sourceUnavailable ∧ st = .failed polls source r todo := by
  cases h with
  | unreported hnone =>
    rw [hr] at hnone
    cases hnone
  | unavailable hr' hk =>
    obtain rfl := Option.some.inj (hr'.symm.trans hr)
    exact .inl ⟨hk, rfl⟩
  | reported hr' hk =>
    obtain rfl := Option.some.inj (hr'.symm.trans hr)
    exact .inr ⟨hk, rfl⟩

namespace Next

theorem answer (h : Next w st (.process source given) st') :
    ∃ polls todo, Answer polls source todo given st' := by
  cases h with
  | visit answer => exact ⟨_, _, answer⟩
  | call answer => exact ⟨_, _, answer⟩

/-- While the watch goes on, every document whose turn comes is processed or still to be
processed. -/
theorem account (h : Next w st a st') (halive : st'.Alive) :
    st.Alive ∧ a.called ++ st'.todo = st.todo ++ a.found ∧
      [a].countP Act.isLook + st.begun = st'.begun := by
  cases h with
  | visit answer | call answer =>
    obtain ⟨htodo, hbegun⟩ := answer.account halive
    rw [htodo, hbegun]
    exact ⟨trivial, by simp [Act.called, Act.found, Stage.todo], Nat.zero_add _⟩
  | find polls => exact ⟨trivial, rfl, Nat.add_comm ..⟩
  | start | announce | wait | log => exact ⟨trivial, (List.append_nil _).symm, Nat.zero_add _⟩
  | logCut _ _ _ halt => cases halt <;> exact halive.elim
  | _ => exact halive.elim

theorem quiet (h : Next w st a st') (hdead : ¬st.Alive) :
    a.called = [] ∧ a.found = [] ∧ ¬st'.Alive := by
  cases h with
  | breakOff | stop => exact ⟨rfl, rfl, id⟩
  | _ => exact absurd trivial hdead

theorem called_prefix (h : Next w st a st') : a.called <+: st.todo := by
  cases h with
  | visit | call => exact ⟨_, rfl⟩
  | _ => exact List.nil_prefix

theorem looping (h : Next w st a st') (hloop : st'.Looping) :
    st.Looping ∨ a = .record w.startedEvent (some ()) := by
  cases h with
  | visit answer =>
    cases answer with
    | cut halt => cases halt; exact hloop.elim
    | _ => exact hloop.elim
  | start => exact .inr rfl
  | log polls => cases polls <;> exact .inl hloop
  | logCut _ _ _ halt =>
    cases halt with
    | first => exact hloop.elim
    | loop => exact .inl trivial
  | startCut | stop => exact hloop.elim
  | _ => exact .inl trivial

theorem first (h : Next w st a st') (hfirst : st'.First) :
    st.First ∧ a ≠ .record w.startedEvent (some ()) := by
  cases h with
  | visit => exact ⟨trivial, nofun⟩
  | call answer =>
    cases answer with
    | cut halt => cases halt; exact hfirst.elim
    | _ => exact hfirst.elim
  | log polls => cases polls <;> exact ⟨hfirst, nofun⟩
  | logCut _ _ _ halt => cases halt <;> exact hfirst.elim
  | _ => exact hfirst.elim

theorem interruption (h : Next w st a st') (ha : a.Interrupted) :
    st.First ∧ st' = .ended none ∨ (∃ polls, st' = .interrupted polls) ∨
      (∃ polls, a = .record (interruptedEvent polls) none) ∨ ∃ r, st = .stopped r := by
  cases h with
  | visit answer =>
    cases answer with
    | cut halt => cases halt; exact .inl ⟨trivial, rfl⟩
    | _ => exact absurd ha nofun
  | call answer =>
    cases answer with
    | cut halt => cases halt; exact .inr (.inl ⟨_, rfl⟩)
    | _ => exact absurd ha nofun
  | logCut _ _ _ halt =>
    cases halt with
    | first => exact .inl ⟨trivial, rfl⟩
    | loop => exact .inr (.inl ⟨_, rfl⟩)
  | startCut => exact .inl ⟨trivial, rfl⟩
  | lookCut | announceCut | waitCut => exact .inr (.inl ⟨_, rfl⟩)
  | breakOff polls given =>
    obtain rfl : given = none := ha
    exact .inr (.inr (.inl ⟨_, rfl⟩))
  | stop r => exact .inr (.inr (.inr ⟨r, rfl⟩))
  | wait => exact absurd rfl ha
  | _ => exact absurd ha nofun

theorem of_interrupted (h : Next w st a (.interrupted polls)) : a.Interrupted ∧ st.Looping := by
  cases h with
  | visit answer =>
    cases answer with
    | cut halt => cases halt
  | call answer =>
    cases answer with
    | cut halt => cases halt; exact ⟨rfl, trivial⟩
  | logCut _ _ _ halt => cases halt; exact ⟨rfl, trivial⟩
  | lookCut | announceCut => exact ⟨rfl, trivial⟩
  | waitCut _ cut => exact ⟨cut, trivial⟩

theorem of_stopped (h : Next w st a (.stopped r)) :
    ∃ source f, a = .process source (some (.error f)) ∧ f.report? = some r ∧
      r.kind = .sourceUnavailable := by
  cases h with
  | visit answer | call answer =>
    cases answer with
    | cut halt => cases halt
    | unavailable hr hk => exact ⟨_, _, rfl, hr, hk⟩
  | logCut _ _ _ halt => cases halt

theorem of_ended (h : Next w st a (.ended result)) :
    a.Interrupted ∧ st.First ∧ result = none ∨
    (∃ f, f.report? = none ∧ a.FailsWith f ∧ result = some (.error f)) ∨
    (∃ polls given, st = .interrupted polls ∧ a = .record (interruptedEvent polls) given ∧
      result = given.map fun _ => .ok 0) ∨
    ∃ r given, st = .stopped r ∧ a = .log r [] given ∧ result = given.map fun _ => .ok 1 := by
  cases h with
  | visit answer =>
    cases answer with
    | cut halt => cases halt; exact .inl ⟨rfl, trivial, rfl⟩
    | unreported hr => exact .inr (.inl ⟨_, hr, .process .., rfl⟩)
  | call answer =>
    cases answer with
    | cut halt => cases halt
    | unreported hr => exact .inr (.inl ⟨_, hr, .process .., rfl⟩)
  | startCut => exact .inl ⟨rfl, trivial, rfl⟩
  | miss _ hr => exact .inr (.inl ⟨_, hr, .look, rfl⟩)
  | logCut _ _ _ halt => cases halt; exact .inl ⟨rfl, trivial, rfl⟩
  | breakOff polls given => exact .inr (.inr (.inl ⟨polls, given, rfl, rfl, rfl⟩))
  | stop r given => exact .inr (.inr (.inr ⟨r, given, rfl, rfl, rfl⟩))

end Next

/-- A course of a watch through its stages. -/
abbrev Course (w : Watcher) : Stage → List Act → Stage → Prop := Steps (Next w)

theorem called_cons (a : Act) (acts : List Act) : called (a :: acts) = a.called ++ called acts :=
  List.flatMap_cons

theorem found_cons (a : Act) (acts : List Act) : found (a :: acts) = a.found ++ found acts :=
  List.flatMap_cons

namespace Course

theorem account (h : Course w st acts st') (halive : st'.Alive) :
    st.Alive ∧ called acts ++ st'.todo = st.todo ++ found acts ∧
      acts.countP Act.isLook + st.begun = st'.begun := by
  induction h with
  | nil => exact ⟨halive, by simp [called, found], Nat.zero_add _⟩
  | @cons st st₁ st' a acts first _ ih =>
    obtain ⟨hone, hacts, hlooks⟩ := ih halive
    obtain ⟨hst, hfirst, hlook⟩ := first.account hone
    refine ⟨hst, ?_, ?_⟩
    · calc called (a :: acts) ++ st'.todo = a.called ++ (called acts ++ st'.todo) := by
            rw [called_cons, List.append_assoc]
        _ = (a.called ++ st₁.todo) ++ found acts := by rw [hacts, List.append_assoc]
        _ = st.todo ++ found (a :: acts) := by rw [hfirst, found_cons, List.append_assoc]
    · rw [← List.singleton_append, List.countP_append]
      omega

theorem quiet (h : Course w st acts st') (hdead : ¬st.Alive) :
    called acts = [] ∧ found acts = [] := by
  induction h with
  | nil => exact ⟨rfl, rfl⟩
  | cons first _ ih =>
    obtain ⟨hcalled, hfound, hdead⟩ := first.quiet hdead
    obtain ⟨hcalls, hfinds⟩ := ih hdead
    exact ⟨by rw [called_cons, hcalled, hcalls]; rfl, by rw [found_cons, hfound, hfinds]; rfl⟩

theorem called_prefix (h : Course w st acts st') : called acts <+: st.todo ++ found acts := by
  induction h with
  | nil => exact List.nil_prefix
  | @cons st st₁ st' a acts first rest ih =>
    rw [called_cons, found_cons]
    by_cases halive : st₁.Alive
    · rw [← List.append_assoc, ← (first.account halive).2.1, List.append_assoc]
      exact (List.prefix_append_right_inj _).2 ih
    · rw [(quiet rest halive).1, List.append_nil]
      exact first.called_prefix.trans (List.prefix_append _ _)

theorem looping (h : Course w st acts st') (hloop : st'.Looping) :
    st.Looping ∨ .record w.startedEvent (some ()) ∈ acts := by
  induction h with
  | nil => exact .inl hloop
  | cons first _ ih =>
    rcases ih hloop with hone | hmem
    · exact (first.looping hone).imp_right fun hstart => by rw [hstart]; exact List.mem_cons_self
    · exact .inr (List.mem_cons_of_mem _ hmem)

theorem first (h : Course w st acts st') (hfirst : st'.First) :
    st.First ∧ .record w.startedEvent (some ()) ∉ acts := by
  induction h with
  | nil => exact ⟨hfirst, List.not_mem_nil⟩
  | cons first _ ih =>
    obtain ⟨hone, hnot⟩ := ih hfirst
    obtain ⟨hst, hne⟩ := first.first hone
    exact ⟨hst, by simp [hnot, hne.symm]⟩

theorem exists_of_append_cons (h : Course w st (front ++ a :: back) st') :
    ∃ st₁ st₂, Course w st front st₁ ∧ Next w st₁ a st₂ ∧ Course w st₂ back st' := by
  obtain ⟨st₁, hfront, hrest⟩ := Steps.exists_of_append h
  cases hrest with
  | cons hact hback => exact ⟨st₁, _, hfront, hact, hback⟩

theorem exists_last (h : Course w st acts st') (hne : st ≠ st') :
    ∃ front a st₁, acts = front ++ [a] ∧ Course w st front st₁ ∧ Next w st₁ a st' := by
  obtain rfl | ⟨front, a, rfl⟩ := List.eq_nil_or_concat acts
  · cases h
    exact absurd rfl hne
  · rw [List.concat_eq_append] at h ⊢
    obtain ⟨st₁, st₂, hfront, hact, hnil⟩ := exists_of_append_cons h
    cases hnil
    exact ⟨front, a, st₁, rfl, hfront, hact⟩

theorem of_ended (h : Course w (.ended result) acts st') : acts = [] ∧ st' = .ended result := by
  cases h with
  | nil => exact ⟨rfl, rfl⟩
  | cons first _ => cases first

end Course

/-- The ways in which a watch of no more than `bound` polls can end. -/
inductive Ending (w : Watcher) (bound : Nat) : List Act → Option (Except Fault Nat) → Prop where
  /-- A source that cannot be read. -/
  | unavailable (front : List Act) (source : Path) {f : Fault} {r : Report} (given : Option Unit)
    (reported : f.report? = some r) (kind : r.kind = .sourceUnavailable) :
    Ending w bound (front ++ [.process source (some (.error f)), .log r [] given])
      (given.map fun _ => .ok 1)
  /-- An interruption of the loop. -/
  | interrupted (front : List Act) {a : Act} (polls : Nat) (given : Option Unit)
    (cut : a.Interrupted) (loop : .record w.startedEvent (some ()) ∈ front) :
    Ending w bound (front ++ [a, .record (interruptedEvent polls) given])
      (given.map fun _ => .ok 0)
  /-- As many polls as there may be, after which nothing is left to be processed. -/
  | usedUp {acts : List Act} (polls : acts.countP Act.isLook = bound)
    (all : called acts = w.paths ++ found acts) : Ending w bound acts (some (.ok 0))
  /-- A failure that nobody foresees. -/
  | failed (front : List Act) {a : Act} {f : Fault} (unreported : f.report? = none)
    (fails : a.FailsWith f) : Ending w bound (front ++ [a]) (some (.error f))
  /-- An interruption before the loop. -/
  | early (front : List Act) {a : Act} (cut : a.Interrupted)
    (first : .record w.startedEvent (some ()) ∉ front) : Ending w bound (front ++ [a]) none

/-- What a watch does about failures and interruptions. -/
structure Policy (w : Watcher) (bound : Nat) (acts : List Act)
    (result : Option (Except Fault Nat)) : Prop where
  /-- Every document is processed once in the first pass, and then those that the polls so far have
  reported, in their order. -/
  inOrder : ∀ front, front <+: acts → called front <+: w.paths ++ found front
  /-- Before the next poll all of them are processed. -/
  upToDate : ∀ front given, front ++ [.look given] <+: acts →
    called front = w.paths ++ found front
  /-- A poll reports watched files in the order in which they are watched. -/
  watched : ∀ paths, .look (some (.ok paths)) ∈ acts → paths.Sublist w.paths
  /-- A failure with a report is logged, after which the watch goes on. -/
  logged : ∀ front source f r back, acts = front ++ .process source (some (.error f)) :: back →
    f.report? = some r → r.kind ≠ .sourceUnavailable →
      ∃ given more, back = .log r (context source) given :: more ∧ (given = some () → more ≠ [])
  /-- A source that cannot be read is logged as well, and ends the watch with status one. -/
  unavailable : ∀ front source f r back,
    acts = front ++ .process source (some (.error f)) :: back →
      f.report? = some r → r.kind = .sourceUnavailable →
        ∃ given, back = [.log r [] given] ∧ result = given.map fun _ => .ok 1
  /-- If there is none, whatever is interrupted in the loop ends the watch with status zero, unless
  it is the record of that. -/
  interrupted : ∀ front a back, acts = front ++ a :: back → a.Interrupted →
    .record w.startedEvent (some ()) ∈ front →
      (∀ source f r, .process source (some (.error f)) ∈ front → f.report? = some r →
        r.kind ≠ .sourceUnavailable) →
      (∀ polls, a ≠ .record (interruptedEvent polls) none) →
        ∃ polls given, back = [.record (interruptedEvent polls) given] ∧
          result = given.map fun _ => .ok 0
  ending : Ending w bound acts result

namespace Course

variable (hfinal : st'.Final bound result)

include hfinal

theorem of_failed {polls : Option Nat} (h : Course w (.failed polls source r todo) acts st') :
    ∃ given more, acts = .log r (context source) given :: more ∧
      (given = some () → more ≠ []) := by
  cases h with
  | nil => rcases hfinal with h | ⟨h, -⟩ <;> cases h
  | cons first rest =>
    cases first with
    | log =>
      refine ⟨_, _, rfl, fun _ hnil => ?_⟩
      subst hnil
      cases rest
      rcases hfinal with h | ⟨h, -⟩ <;> cases h
    | logCut => exact ⟨none, _, rfl, nofun⟩

theorem of_stopped (h : Course w (.stopped r) acts st') :
    ∃ given, acts = [.log r [] given] ∧ result = given.map fun _ => .ok 1 := by
  cases h with
  | nil => rcases hfinal with h | ⟨h, -⟩ <;> cases h
  | cons first rest =>
    cases first with
    | stop _ given =>
      obtain ⟨rfl, rfl⟩ := of_ended rest
      rcases hfinal with h | ⟨h, -⟩ <;> cases h
      exact ⟨given, rfl, rfl⟩

theorem of_interrupted (h : Course w (.interrupted polls) acts st') :
    ∃ given, acts = [.record (interruptedEvent polls) given] ∧
      result = given.map fun _ => .ok 0 := by
  cases h with
  | nil => rcases hfinal with h | ⟨h, -⟩ <;> cases h
  | cons first rest =>
    cases first with
    | breakOff _ given =>
      obtain ⟨rfl, rfl⟩ := of_ended rest
      rcases hfinal with h | ⟨h, -⟩ <;> cases h
      exact ⟨given, rfl, rfl⟩

theorem ending (h : Course w (.visiting none w.paths) acts st') : Ending w bound acts result := by
  obtain rfl | ⟨rfl, rfl⟩ := hfinal
  · obtain ⟨front, a, st₁, rfl, hfront, hact⟩ := exists_last h nofun
    obtain ⟨hcut, hfirst, rfl⟩ | ⟨f, hr, hfails, rfl⟩ | ⟨polls, given, rfl, rfl, rfl⟩ |
      ⟨r, given, rfl, rfl, rfl⟩ := hact.of_ended
    · exact .early front hcut (first hfront hfirst).2
    · exact .failed front hr hfails
    · -- the act before the record is the interrupted one
      obtain ⟨front, a, st₀, rfl, hfront', hact'⟩ := exists_last hfront nofun
      obtain ⟨hcut, hloop⟩ := hact'.of_interrupted
      rw [List.append_assoc]
      exact .interrupted front polls given hcut ((looping hfront' hloop).resolve_left id)
    · obtain ⟨front, a, st₀, rfl, -, hact'⟩ := exists_last hfront nofun
      obtain ⟨source, f, rfl, hr, hk⟩ := hact'.of_stopped
      rw [List.append_assoc]
      exact .unavailable front source given hr hk
  · obtain ⟨-, hall, hpolls⟩ := account h trivial
    exact .usedUp hpolls (by simpa [Stage.todo] using hall)

/-- Every course from the first pass to an end keeps to the policy. -/
theorem policy (h : Course w (.visiting none w.paths) acts st') : Policy w bound acts result where
  inOrder front hfront := by
    obtain ⟨back, rfl⟩ := hfront
    obtain ⟨st₁, hfront, -⟩ := Steps.exists_of_append h
    exact called_prefix hfront
  upToDate front given hfront := by
    obtain ⟨back, rfl⟩ := hfront
    rw [List.append_assoc] at h
    obtain ⟨st₁, st₂, hfront, hact, -⟩ := exists_of_append_cons h
    have hbetween : st₁.Alive ∧ st₁.todo = [] := by
      -- between two polls nothing is left to visit
      cases hact <;> exact ⟨trivial, rfl⟩
    obtain ⟨-, hall, -⟩ := account hfront hbetween.1
    rwa [hbetween.2, List.append_nil] at hall
  watched paths hmem := by
    obtain ⟨front, back, rfl⟩ := List.append_of_mem hmem
    obtain ⟨st₁, st₂, -, hact, -⟩ := exists_of_append_cons h
    cases hact with
    | find _ watched => exact watched
  logged front source f r back hacts hr hk := by
    subst hacts
    obtain ⟨st₁, st₂, -, hact, hback⟩ := exists_of_append_cons h
    obtain ⟨polls, todo, hanswer⟩ := hact.answer
    obtain ⟨hk', -⟩ | ⟨-, rfl⟩ := hanswer.of_reported hr
    · exact absurd hk' hk
    · exact of_failed hfinal hback
  unavailable front source f r back hacts hr hk := by
    subst hacts
    obtain ⟨st₁, st₂, -, hact, hback⟩ := exists_of_append_cons h
    obtain ⟨polls, todo, hanswer⟩ := hact.answer
    obtain ⟨-, rfl⟩ | ⟨hk', -⟩ := hanswer.of_reported hr
    · exact of_stopped hfinal hback
    · exact absurd hk hk'
  interrupted front a back hacts hcut hloop havailable hrecord := by
    subst hacts
    obtain ⟨st₁, st₂, hfront, hact, hback⟩ := exists_of_append_cons h
    obtain ⟨hfirst, -⟩ | ⟨polls, rfl⟩ | ⟨polls, rfl⟩ | ⟨r, rfl⟩ := hact.interruption hcut
    · exact absurd hloop (first hfront hfirst).2
    · exact ⟨polls, of_interrupted hfinal hback⟩
    · exact absurd rfl (hrecord polls)
    · -- a watch that has been stopped was stopped by a source that cannot be read
      obtain ⟨front, a, st₀, rfl, -, hact'⟩ := exists_last hfront nofun
      obtain ⟨source, f, rfl, hr, hk⟩ := hact'.of_stopped
      exact absurd hk (havailable source f r (by simp) hr)
  ending := ending hfinal h

end Course

end Literate.Watcher

import Literate.Watch.Loop

namespace Literate

/-- What a watch asks for and what it is given. -/
inductive Journal.Entry (τ : Type) where
  | now (given : Except Stop τ)
  | modified (p : Path) (given : Except Stop (Except PathFault τ))
  | record (e : Event) (given : Except Stop Unit)
  /-- The machine may stop a callback, which may also come to a stop of its own. -/
  | call (p : Path) (given : Except Stop (Except Stop Unit))
  | pause (seconds : τ) (given : Except Stop Bool)

/-- What is given, by what has been entered before. -/
structure Journal.Answers (τ : Type) where
  now : List (Entry τ) → Except Stop τ
  modified : List (Entry τ) → Path → Except Stop (Except PathFault τ)
  record : List (Entry τ) → Event → Except Stop Unit
  call : List (Entry τ) → Path → Except Stop (Except Stop Unit)
  pause : List (Entry τ) → τ → Except Stop Bool

structure Journal (τ : Type) where
  answers : Journal.Answers τ
  entries : List (Journal.Entry τ)

namespace Journal

variable {τ ε α β : Type} {j j' : Journal τ} {stop : Stop}

/-- How it stops what is being done; that a file is missing stops nothing. -/
def Entry.stop? : Entry τ → Option Stop
  | now (.error stop) | modified _ (.error stop) | record _ (.error stop) | call _ (.error stop)
  | call _ (.ok (.error stop)) | pause _ (.error stop) => some stop
  | modified _ (.ok (.error f)) =>
    if f.problem = .notFound then none else some (.failed (.unreachable f))
  | pause _ (.ok false) => some .interrupted
  | _ => none

/-- Nothing that was given stops anything. -/
def Calm (entries : List (Entry τ)) : Prop := ∀ e ∈ entries, e.stop? = none

/-- What was entered last is the first that stops anything. -/
def EndsWith (entries : List (Entry τ)) (stop : Stop) : Prop :=
  ∃ front e, entries = front ++ [e] ∧ Calm front ∧ e.stop? = some stop

section

variable {front back : List (Entry τ)} {e : Entry τ}

theorem Calm.single (h : e.stop? = none) : Calm [e] := List.forall_mem_singleton.2 h

theorem Calm.append (h : Calm front) (h' : Calm back) : Calm (front ++ back) :=
  List.forall_mem_append.2 ⟨h, h'⟩

theorem Calm.flatMap {l : List α} {f : α → List (Entry τ)} (h : ∀ a ∈ l, Calm (f a)) :
    Calm (l.flatMap f) := fun e he =>
  have ⟨a, ha, he⟩ := List.mem_flatMap.1 he
  h a ha e he

theorem Calm.unique {front' back' : List (Entry τ)} {e' : Entry τ} {stop' : Stop}
    (h : Calm front) (he : e.stop? = some stop) (h' : Calm front') (he' : e'.stop? = some stop')
    (heq : front ++ e :: back = front' ++ e' :: back') :
    front = front' ∧ e = e' ∧ back = back' := by
  -- what stops first in one of them would stand among what stops nothing in the other
  rcases List.append_eq_append_iff.1 heq with ⟨middle, hfront, heq⟩ | ⟨middle, hfront, heq⟩
  · rcases List.cons_eq_append_iff.1 heq with ⟨rfl, heq⟩ | ⟨rest, rfl, -⟩
    · cases heq
      exact ⟨(hfront.trans (List.append_nil _)).symm, rfl, rfl⟩
    · have hnone : e.stop? = none := h' e (by simp [hfront])
      cases he.symm.trans hnone
  · rcases List.cons_eq_append_iff.1 heq with ⟨rfl, heq⟩ | ⟨rest, rfl, -⟩
    · cases heq
      exact ⟨hfront.trans (List.append_nil _), rfl, rfl⟩
    · have hnone : e'.stop? = none := h e' (by simp [hfront])
      cases he'.symm.trans hnone

theorem EndsWith.single (h : e.stop? = some stop) : EndsWith [e] stop := ⟨[], e, rfl, nofun, h⟩

theorem EndsWith.prepend (hcalm : Calm front) (h : EndsWith back stop) :
    EndsWith (front ++ back) stop := by
  obtain ⟨front', e, rfl, hcalm', he⟩ := h
  exact ⟨front ++ front', e, (List.append_assoc ..).symm, hcalm.append hcalm', he⟩

end

def entered (j : Journal τ) (more : List (Entry τ)) : Journal τ :=
  { j with entries := j.entries ++ more }

theorem entered_nil (j : Journal τ) : j.entered [] = j :=
  congrArg (Journal.mk j.answers) (List.append_nil _)

theorem entered_entered (j : Journal τ) (first more : List (Entry τ)) :
    (j.entered first).entered more = j.entered (first ++ more) :=
  congrArg (Journal.mk j.answers) (List.append_assoc ..)

abbrev Machine (τ : Type) := ExceptT Stop (StateM (Journal τ))

/-- Asks for something that is entered with what is given. -/
def ask (given : Journal τ → Except Stop α) (entry : Except Stop α → Entry τ) : Machine τ α :=
  ExceptT.mk fun j => (given j, j.entered [entry (given j)])

instance : Observer τ (Machine τ) where
  modified p := ask (fun j => j.answers.modified j.entries p) (.modified p)
  now := ask (fun j => j.answers.now j.entries) .now
  pause seconds := ask (fun j => j.answers.pause j.entries seconds) (.pause seconds)
  record e := ask (fun j => j.answers.record j.entries e) (.record e)

theorem observer_modified (p : Path) : (Observer.modified p : Machine τ (Except PathFault τ)) =
    ask (fun j => j.answers.modified j.entries p) (.modified p) := rfl

theorem observer_now :
    (Observer.now : Machine τ τ) = ask (fun j => j.answers.now j.entries) .now := rfl

theorem observer_pause (seconds : τ) : (Observer.pause seconds : Machine τ Bool) =
    ask (fun j => j.answers.pause j.entries seconds) (.pause seconds) := rfl

theorem observer_record (e : Event) : (Observer.record e : Machine τ Unit) =
    ask (fun j => j.answers.record j.entries e) (.record e) := rfl

/-- Only an interruption is held up, and nothing else that stops a computation. -/
instance : Interruptible (Machine τ) where
  attempt m := ExceptT.mk (m.run >>= fun
    | .error .interrupted => pure (.ok none)
    | .error (.failed f) => pure (.error (.failed f))
    | .ok a => pure (.ok (some a)))

/-- A callback of which nothing is known. -/
def callback : Watcher.Callback (Machine τ) := fun p =>
  ExceptT.mk (ask (fun j => j.answers.call j.entries p) (.call p))

/-- How a computation ends or is stopped, also by a failure of its own, and the journal then. -/
def told (toStop : ε → Stop) (j : Journal τ) (x : ExceptT ε (Machine τ) α) :
    Except Stop α × Journal τ :=
  let ended := (x.run.run.run j).run
  (ended.1.bind (·.mapError toStop), ended.2)

theorem told_bind (toStop : ε → Stop) (j : Journal τ) (x : ExceptT ε (Machine τ) α)
    (f : α → ExceptT ε (Machine τ) β) : told toStop j (x >>= f) =
      match told toStop j x with
      | (.error stop, j') => (.error stop, j')
      | (.ok a, j') => told toStop j' (f a) := by
  unfold told
  rw [ExceptT.run_bind, ExceptT.run_bind, StateT.run_bind]
  rcases x.run.run.run j with ⟨_ | _ | _, j'⟩ <;> rfl

theorem told_lift (toStop : ε → Stop) (j : Journal τ) (m : Machine τ α) :
    told toStop j (ExceptT.lift m) = (m.run.run j).run := by
  unfold told
  rw [ExceptT.run_lift, ExceptT.run_map, StateT.run_map]
  rcases m.run.run j with ⟨_ | _, j'⟩ <;> rfl

/-- What is asked for is entered, and it is gone on with what is given. -/
theorem told_ask_bind (toStop : ε → Stop) (j : Journal τ) (given : Journal τ → Except Stop α)
    (entry : Except Stop α → Entry τ) (f : α → ExceptT ε (Machine τ) β) :
    told toStop j (ExceptT.lift (ask given entry) >>= f) =
      match given j with
      | .error stop => (.error stop, j.entered [entry (.error stop)])
      | .ok a => told toStop (j.entered [entry (.ok a)]) (f a) := by
  rw [told_bind, told_lift]
  show (match (given j, j.entered [entry (given j)]) with
    | (.error stop, j') => _
    | (.ok a, j') => _) = _
  cases given j <;> rfl

theorem told_adapt (j : Journal τ) (x : ExceptT Fault (Machine τ) α) :
    told id j (ExceptT.adapt Stop.failed x) = told Stop.failed j x := by
  have hrun : (ExceptT.adapt Stop.failed x).run.run.run j =
      (fun p => (p.1.map (Except.mapError Stop.failed), p.2)) <$> x.run.run.run j := by
    show ((Except.mapError Stop.failed <$> x.run).run.run j) = _
    rw [ExceptT.run_map, StateT.run_map]
  unfold told
  rw [hrun]
  rcases x.run.run.run j with ⟨_ | _ | _, j'⟩ <;> rfl

theorem run_attempt (j : Journal τ) (m : Machine τ α) :
    ((Interruptible.attempt m).run.run j).run =
      match (m.run.run j).run with
      | (.error .interrupted, j') => (.ok none, j')
      | (.error (.failed f), j') => (.error (.failed f), j')
      | (.ok a, j') => (.ok (some a), j') := by
  dsimp only [Interruptible.attempt]
  rw [ExceptT.run_mk, StateT.run_bind]
  rcases m.run.run j with ⟨(_ | _) | _, j'⟩ <;> rfl

theorem told_attempt_ask_bind (toStop : ε → Stop) (j : Journal τ)
    (given : Journal τ → Except Stop α) (entry : Except Stop α → Entry τ)
    (f : Option α → ExceptT ε (Machine τ) β) :
    told toStop j (ExceptT.lift (Interruptible.attempt (ask given entry)) >>= f) =
      match given j with
      | .error .interrupted => told toStop (j.entered [entry (.error .interrupted)]) (f none)
      | .error (.failed fault) =>
        (.error (.failed fault), j.entered [entry (.error (.failed fault))])
      | .ok a => told toStop (j.entered [entry (.ok a)]) (f (some a)) := by
  have hrun : ((ask given entry).run.run j).run = (given j, j.entered [entry (given j)]) := rfl
  rw [told_bind, told_lift, run_attempt, hrun]
  rcases given j with (_ | fault) | a <;> rfl

theorem told_callback (j : Journal τ) (p : Path) : told id j (callback p) =
    ((j.answers.call j.entries p).bind (·.mapError id),
      j.entered [.call p (j.answers.call j.entries p)]) := rfl

theorem told_attempt_bind (toStop : ε → Stop) (j : Journal τ) (x : ExceptT Stop (Machine τ) α)
    {f : Option (Except Stop α) → ExceptT ε (Machine τ) β}
    (hinterrupted : f (some (.error .interrupted)) = f none)
    (hfailed : ∀ fault j', told toStop j' (f (some (.error (.failed fault)))) =
      (.error (.failed fault), j')) :
    told toStop j (ExceptT.lift (Interruptible.attempt x.run) >>= f) =
      match told id j x with
      | (.error .interrupted, j') => told toStop j' (f none)
      | (.error (.failed fault), j') => (.error (.failed fault), j')
      | (.ok a, j') => told toStop j' (f (some (.ok a))) := by
  rw [told_bind, told_lift, run_attempt]
  unfold told
  rcases (x.run.run.run j).run with ⟨(_ | fault) | (_ | fault) | a, j'⟩
  · rfl
  · rfl
  -- a stop of its own is a result for the machine, which the computation after it has to notice
  · exact congrArg (told toStop j') hinterrupted
  · exact hfailed fault j'
  · rfl

/-- What a poll is given: the time, and of every file the time of its last change. -/
structure Poll (τ : Type) where
  time : τ
  found : List (Path × Except PathFault τ)

/-- The files are looked at in their order, and only missing ones are not examined. -/
structure Found (paths : List Path) (found : List (Path × Except PathFault τ)) : Prop where
  inOrder : found.map Prod.fst = paths
  missing : ∀ p f, (p, .error f) ∈ found → f.problem = .notFound

def look : Path × Except PathFault τ → List (Entry τ)
  | (p, .ok m) => [.modified p (.ok (.ok m))]
  | (p, .error f) =>
    [.modified p (.ok (.error f)), .record (Watcher.missingEvent p) (.ok ())]

def call (p : Path) : List (Entry τ) :=
  [.record (Watcher.changedEvent p) (.ok ()), .call p (.ok (.ok ()))]

/-- How a look at a file stops a poll. -/
inductive LookStops (p : Path) : List (Entry τ) → Stop → Prop where
  | modified {given : Except Stop (Except PathFault τ)} {stop : Stop}
    (stops : (Entry.modified p given).stop? = some stop) : LookStops p [.modified p given] stop
  | record {f : PathFault} (missing : f.problem = .notFound) (stop : Stop) :
    LookStops p [.modified p (.ok (.error f)), .record (Watcher.missingEvent p) (.error stop)] stop

/-- How a call for a file stops a poll. -/
inductive CallStops (p : Path) : List (Entry τ) → Stop → Prop where
  | record (stop : Stop) : CallStops p [.record (Watcher.changedEvent p) (.error stop)] stop
  | call {given : Except Stop (Except Stop Unit)} {stop : Stop}
    (stops : (Entry.call p given : Entry τ).stop? = some stop) :
    CallStops p [.record (Watcher.changedEvent p) (.ok ()), .call p given] stop

variable {p : Path} {paths : List Path} {new : List (Entry τ)}

theorem Found.nil : Found ([] : List Path) ([] : List (Path × Except PathFault τ)) :=
  ⟨rfl, fun _ _ hmem => absurd hmem List.not_mem_nil⟩

theorem Found.cons {given : Except PathFault τ} {found : List (Path × Except PathFault τ)}
    (hgiven : ∀ f, given = .error f → f.problem = .notFound) (h : Found paths found) :
    Found (p :: paths) ((p, given) :: found) := by
  refine ⟨congrArg (p :: ·) h.inOrder, fun q f hmem => ?_⟩
  rcases List.mem_cons.1 hmem with heq | hmem
  · exact hgiven f (Prod.mk.inj heq).2.symm
  · exact h.missing q f hmem

theorem calm_call (p : Path) : Calm (call p : List (Entry τ)) := by
  simp [Calm, call, Entry.stop?]

theorem calm_looks {found : List (Path × Except PathFault τ)} (h : Found paths found) :
    Calm (found.flatMap look) := by
  refine .flatMap fun (p, given) hmem => ?_
  cases given with
  | ok m => simp [Calm, look, Entry.stop?]
  | error f => simp [Calm, look, Entry.stop?, h.missing p f hmem]

theorem now_notMem_looks {found : List (Path × Except PathFault τ)} (time : τ) :
    .now (.ok time) ∉ found.flatMap look := by
  intro hmem
  obtain ⟨⟨p, given⟩, -, hmem⟩ := List.mem_flatMap.1 hmem
  cases given <;> simp [look] at hmem

theorem now_notMem_calls {paths : List Path} (time : τ) :
    .now (.ok time) ∉ paths.flatMap call := by
  simp [call]

theorem LookStops.endsWith {last : List (Entry τ)} (h : LookStops p last stop) :
    EndsWith last stop := by
  cases h with
  | modified stops => exact .single stops
  | record missing => exact ⟨[_], _, rfl, by simp [Calm, Entry.stop?, missing], rfl⟩

theorem CallStops.endsWith {last : List (Entry τ)} (h : CallStops p last stop) :
    EndsWith last stop := by
  cases h with
  | record => exact .single rfl
  | call stops => exact ⟨[_], _, rfl, by simp [Calm, Entry.stop?], stops⟩

/-- What is entered when the callback is called for files one after the other. -/
inductive Notified (paths : List Path) : List (Entry τ) → Except Stop Unit → Prop where
  | through : Notified paths (paths.flatMap call) (.ok ())
  | stopped {front back : List Path} {p : Path} {last : List (Entry τ)} {stop : Stop}
    (split : paths = front ++ p :: back) (stops : CallStops p last stop) :
    Notified paths (front.flatMap call ++ last) (.error stop)

theorem Notified.first {last : List (Entry τ)} (stops : CallStops p last stop) :
    Notified (p :: paths) last (.error stop) := .stopped (List.nil_append _).symm stops

theorem Notified.cons {given : Except Stop Unit} (p : Path) (h : Notified paths new given) :
    Notified (p :: paths) (call p ++ new) given := by
  cases h with
  | through => exact .through
  | stopped split stops =>
    rw [← List.append_assoc, ← List.flatMap_cons]
    exact .stopped (congrArg (p :: ·) split) stops

theorem notified_notify {given : Except Stop Unit}
    (h : told id j (Watcher.notify callback paths) = (given, j')) :
    ∃ new, j' = j.entered new ∧ Notified paths new given := by
  induction paths generalizing j j' given with
  | nil =>
    cases h
    exact ⟨[], (entered_nil j).symm, .through⟩
  | cons p ps ih =>
    rw [Watcher.notify, observer_record, told_ask_bind] at h
    cases hrecord : j.answers.record j.entries (Watcher.changedEvent p) with
    | error stop =>
      rw [hrecord] at h
      cases h
      exact ⟨_, rfl, .first (.record stop)⟩
    | ok _ =>
      rw [hrecord] at h
      dsimp only at h
      rw [told_bind, told_callback, entered_entered] at h
      -- the callback may stop of itself, or come back with a stop of its own
      cases hcall : Answers.call _ _ p with
      | error stop =>
        rw [hcall] at h
        cases h
        exact ⟨_, rfl, .first (.call rfl)⟩
      | ok came =>
        rw [hcall] at h
        cases came with
        | error stop =>
          cases h
          exact ⟨_, rfl, .first (.call rfl)⟩
        | ok _ =>
          obtain ⟨new, rfl, hnotified⟩ := ih h
          exact ⟨_, entered_entered .., hnotified.cons p⟩

section poll

variable [Sub τ] [LT τ] [DecidableLT τ]

/-- The file, if it is there and changed within the window before the time. -/
def due? (w : Watcher τ) (time : τ) : Path × Except PathFault τ → Option Path
  | (p, .ok m) => if isRecent time m w.window then some p else none
  | (_, .error _) => none

namespace Poll

variable (w : Watcher τ) (x : Poll τ)

/-- A poll of the watch that is got through. -/
def Of : Prop := Found w.paths x.found

def due : List Path := x.found.filterMap (due? w x.time)

def entries : List (Entry τ) :=
  .now (.ok x.time) :: (x.found.flatMap look ++ (x.due w).flatMap call)

end Poll

/-- What is entered by a poll that is stopped: all that came before, and what stops it. -/
inductive CutShort (w : Watcher τ) : List (Entry τ) → Stop → Prop where
  | now (stop : Stop) : CutShort w [.now (.error stop)] stop
  | look (time : τ) {front back : List Path} {p : Path} {found : List (Path × Except PathFault τ)}
    {last : List (Entry τ)} {stop : Stop} (paths : w.paths = front ++ p :: back)
    (before : Found front found) (stops : LookStops p last stop) :
    CutShort w (.now (.ok time) :: (found.flatMap look ++ last)) stop
  | call (x : Poll τ) {front back : List Path} {p : Path} {last : List (Entry τ)} {stop : Stop}
    (found : x.Of w) (due : x.due w = front ++ p :: back) (stops : CallStops p last stop) :
    CutShort w (.now (.ok x.time) :: (x.found.flatMap look ++ (front.flatMap call ++ last))) stop

theorem Poll.calm_entries {w : Watcher τ} {x : Poll τ} (h : x.Of w) : Calm (x.entries w) :=
  List.forall_mem_cons.2 ⟨rfl, (calm_looks h).append (.flatMap fun p _ => calm_call p)⟩

theorem CutShort.endsWith {w : Watcher τ} {cut : List (Entry τ)} (h : CutShort w cut stop) :
    EndsWith cut stop := by
  cases h with
  | now => exact .single rfl
  | look time paths before stops =>
    exact .prepend (.single rfl) (.prepend (calm_looks before) stops.endsWith)
  | call x found due stops =>
    exact .prepend (.single rfl) (.prepend (calm_looks found)
      (.prepend (.flatMap fun p _ => calm_call p) stops.endsWith))

/-- What is entered when files are looked at one after the other, and what comes of it. -/
inductive Looked (w : Watcher τ) (time : τ) (paths : List Path) :
    List (Entry τ) → Except Stop (List Path) → Prop where
  | through {found : List (Path × Except PathFault τ)} (all : Found paths found) :
    Looked w time paths (found.flatMap look) (.ok (found.filterMap (due? w time)))
  | stopped {front back : List Path} {p : Path} {found : List (Path × Except PathFault τ)}
    {last : List (Entry τ)} {stop : Stop} (split : paths = front ++ p :: back)
    (before : Found front found) (stops : LookStops p last stop) :
    Looked w time paths (found.flatMap look ++ last) (.error stop)

variable {w : Watcher τ} {time : τ}

theorem Looked.first {last : List (Entry τ)} (stops : LookStops p last stop) :
    Looked w time (p :: paths) last (.error stop) := .stopped (List.nil_append _).symm .nil stops

theorem Looked.cons {found : Except PathFault τ} {given : Except Stop (List Path)}
    (hfound : ∀ f, found = .error f → f.problem = .notFound) (h : Looked w time paths new given) :
    Looked w time (p :: paths) (look (p, found) ++ new)
      (given.map ((due? w time (p, found)).toList ++ ·)) := by
  cases h with
  | @through rest all =>
    have hdue : ((p, found) :: rest).filterMap (due? w time) =
        (due? w time (p, found)).toList ++ rest.filterMap (due? w time) := by
      rw [List.filterMap_cons]
      cases due? w time (p, found) <;> rfl
    have h : Looked w time (p :: paths) _ _ := .through (all.cons hfound)
    rw [hdue] at h
    exact h
  | stopped split before stops =>
    rw [← List.append_assoc]
    exact .stopped (congrArg (p :: ·) split) (before.cons hfound) stops

theorem looked_changedSince {given : Except Stop (List Path)}
    (h : told Stop.failed j (w.changedSince time paths) = (given, j')) :
    ∃ new, j' = j.entered new ∧ Looked w time paths new given := by
  -- one path is looked at in each step, and the journal grows by that look
  induction paths generalizing j j' given with
  | nil =>
    cases h
    exact ⟨[], (entered_nil j).symm, .through .nil⟩
  | cons p ps ih =>
    rw [Watcher.changedSince, observer_modified, told_ask_bind] at h
    cases hm : j.answers.modified j.entries p with
    | error stop =>
      rw [hm] at h
      cases h
      exact ⟨_, rfl, .first (.modified rfl)⟩
    | ok found =>
      rw [hm] at h
      cases found with
      | ok m =>
        dsimp only at h
        -- a file that was found: the rest is looked at before this path joins what it finds
        rcases hrest : told Stop.failed (j.entered [.modified p (.ok (.ok m))])
          (w.changedSince time ps) with ⟨rest, j₁⟩
        obtain ⟨new, rfl, hlooked⟩ := ih hrest
        have hall : Looked w time (p :: ps) (look (p, .ok m) ++ new) _ := hlooked.cons nofun
        rw [entered_entered] at hrest
        rw [told_bind, hrest] at h
        cases rest with
        | error stop =>
          cases h
          exact ⟨_, rfl, hall⟩
        | ok recent =>
          cases h
          have hdue : (due? w time (p, .ok m)).toList ++ recent =
              if isRecent time m w.window then p :: recent else recent := by
            rw [due?]
            split <;> rfl
          rw [← hdue]
          exact ⟨_, rfl, hall⟩
      | error f =>
        dsimp only at h
        -- only a missing file is told and passed over; any other trouble stops the poll
        by_cases hf : f.problem = .notFound
        · rw [if_pos hf, observer_record, told_ask_bind] at h
          cases hrecord : Answers.record _ _ (Watcher.missingEvent p) with
          | error stop =>
            rw [hrecord] at h
            cases h
            exact ⟨_, entered_entered .., .first (.record hf stop)⟩
          | ok _ =>
            rw [hrecord] at h
            obtain ⟨new, rfl, hlooked⟩ := ih h
            have hall : Looked w time (p :: ps) (look (p, .error f) ++ new) _ :=
              hlooked.cons fun _ heq => Except.error.inj heq ▸ hf
            have hmap : given.map ((due? w time (p, .error f)).toList ++ ·) = given := by
              cases given <;> rfl
            rw [hmap] at hall
            exact ⟨_, by rw [entered_entered, entered_entered]; rfl, hall⟩
        · rw [if_neg hf] at h
          cases h
          exact ⟨_, rfl, .first (.modified (if_neg hf))⟩

/-- What is entered by a poll, and what comes of it. -/
inductive Polled (w : Watcher τ) : List (Entry τ) → Except Stop (List Path) → Prop where
  | through (x : Poll τ) (of : x.Of w) : Polled w (x.entries w) (.ok (x.due w))
  | stopped {cut : List (Entry τ)} {stop : Stop} (short : CutShort w cut stop) :
    Polled w cut (.error stop)

theorem polled_poll {given : Except Stop (List Path)}
    (h : told id j (w.poll callback) = (given, j')) :
    ∃ new, j' = j.entered new ∧ Polled w new given := by
  unfold Watcher.poll Watcher.changed at h
  rw [told_bind, told_adapt, observer_now, told_ask_bind] at h
  cases hnow : j.answers.now j.entries with
  | error stop =>
    rw [hnow] at h
    cases h
    exact ⟨_, rfl, .stopped (.now stop)⟩
  | ok time =>
    rw [hnow] at h
    rcases hlook : told Stop.failed (j.entered [.now (.ok time)]) (w.changedSince time w.paths)
      with ⟨looked, j₁⟩
    dsimp only at h
    rw [hlook] at h
    obtain ⟨looks, rfl, hlooked⟩ := looked_changedSince hlook
    -- the looks come before all calls, so that a stop among them leaves no call
    cases hlooked with
    | stopped split before stops =>
      cases h
      exact ⟨_, entered_entered .., .stopped (.look time split before stops)⟩
    | @through found all =>
      dsimp only at h
      rcases hnotify : told id ((j.entered [.now (.ok time)]).entered (found.flatMap look))
        (Watcher.notify callback (found.filterMap (due? w time))) with ⟨notified, j₂⟩
      rw [told_bind, hnotify] at h
      obtain ⟨calls, rfl, hnotified⟩ := notified_notify hnotify
      cases hnotified with
      | stopped split stops =>
        cases h
        refine ⟨_, ?_, .stopped (.call ⟨time, found⟩ all split stops)⟩
        rw [entered_entered, entered_entered]
        rfl
      | through =>
        cases h
        refine ⟨_, ?_, .through ⟨time, found⟩ all⟩
        rw [entered_entered, entered_entered]
        rfl

end poll

end Journal

end Literate

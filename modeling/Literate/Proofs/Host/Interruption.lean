import Literate.Host.Basic

namespace Literate

variable {σ ε α β : Type} {s s' : σ}

/-- The result of a computation that starts in a state, unless it is interrupted, and the state that
is left. -/
def outcome (s : σ) (m : OptionT (StateM σ) α) : Option α × σ := (m.run.run s).run

theorem outcome_attempt (s : σ) (m : OptionT (StateM σ) α) :
    outcome s (Interruptible.attempt m) = (some (outcome s m).1, (outcome s m).2) := rfl

/-- A machine that is interrupted by nothing but the end of a pause. -/
instance {m : Type → Type} [Monad m] [Host m] : Host (OptionT m) where
  readFile p := OptionT.lift (Host.readFile p)
  writeFile p bytes := OptionT.lift (Host.writeFile p bytes)
  isFile p := OptionT.lift (Host.isFile p)
  isFolder p := OptionT.lift (Host.isFolder p)
  modified p := OptionT.lift (Host.modified p)
  resolve p := OptionT.lift (Host.resolve p)
  workingFolder := OptionT.lift Host.workingFolder
  now := OptionT.lift Host.now
  stopwatch := OptionT.lift Host.stopwatch
  nap seconds := OptionT.lift (Host.nap seconds)
  pause seconds := OptionT.lift (Host.pause seconds)
  record e := OptionT.lift (Host.record e)
  logging := OptionT.lift Host.logging
  say s := OptionT.lift (Host.say s)
  freshId := OptionT.lift Host.freshId

section bind

variable {x : ExceptT ε (OptionT (StateM σ)) α} {f : α → ExceptT ε (OptionT (StateM σ)) β}
  {m : OptionT (StateM σ) α}

theorem outcome_mk_pure (s : σ) (r : Except ε α) :
    outcome s (ExceptT.mk (pure r) : ExceptT ε (OptionT (StateM σ)) α).run = (some r, s) := rfl

theorem outcome_bind (s : σ) (x : ExceptT ε (OptionT (StateM σ)) α)
    (f : α → ExceptT ε (OptionT (StateM σ)) β) : outcome s (x >>= f).run =
      match outcome s x.run with
      | (none, s') => (none, s')
      | (some (.error e), s') => (some (.error e), s')
      | (some (.ok a), s') => outcome s' (f a).run := by
  unfold outcome
  rw [ExceptT.run_bind, OptionT.run_bind, Option.elimM, StateT.run_bind]
  rcases x.run.run.run s with ⟨_ | _ | _, s'⟩ <;> rfl

theorem outcome_lift (s : σ) (m : OptionT (StateM σ) α) :
    outcome s (ExceptT.lift m : ExceptT ε _ α).run =
      ((outcome s m).1.map .ok, (outcome s m).2) := by
  unfold outcome
  rw [ExceptT.run_lift, OptionT.run_map, StateT.run_map]
  rfl

theorem outcome_bind_none (h : outcome s x.run = (none, s')) :
    outcome s (x >>= f).run = (none, s') := by
  rw [outcome_bind, h]

theorem outcome_bind_error {e : ε} (h : outcome s x.run = (some (.error e), s')) :
    outcome s (x >>= f).run = (some (.error e), s') := by
  rw [outcome_bind, h]

theorem outcome_bind_ok {a : α} (h : outcome s x.run = (some (.ok a), s')) :
    outcome s (x >>= f).run = outcome s' (f a).run := by
  rw [outcome_bind, h]

theorem outcome_lift_bind_none {f : α → ExceptT ε (OptionT (StateM σ)) β}
    (h : outcome s m = (none, s')) : outcome s (ExceptT.lift m >>= f).run = (none, s') :=
  outcome_bind_none (by rw [outcome_lift, h]; rfl)

theorem outcome_lift_bind_some {a : α} {f : α → ExceptT ε (OptionT (StateM σ)) β}
    (h : outcome s m = (some a, s')) :
    outcome s (ExceptT.lift m >>= f).run = outcome s' (f a).run :=
  outcome_bind_ok (by rw [outcome_lift, h]; rfl)

theorem outcome_adapt {ε' : Type} (g : ε → ε') (s : σ) (x : ExceptT ε (OptionT (StateM σ)) α) :
    outcome s (ExceptT.adapt g x).run =
      ((outcome s x.run).1.map (·.mapError g), (outcome s x.run).2) := by
  unfold outcome
  show ((Except.mapError g <$> x.run).run.run s).run = _
  rw [OptionT.run_map, StateT.run_map]
  rfl

end bind

/-- From one state to another by a list of acts, each of which leads from one state to the next. -/
inductive Steps {γ δ : Type} (step : γ → δ → γ → Prop) : γ → List δ → γ → Prop where
  | nil {c : γ} : Steps step c [] c
  | cons {c c₁ c₂ : γ} {a : δ} {acts : List δ} (first : step c a c₁)
    (rest : Steps step c₁ acts c₂) : Steps step c (a :: acts) c₂

namespace Steps

variable {γ γ' δ : Type} {step : γ → δ → γ → Prop} {c c₁ c₂ : γ} {a : δ} {front back : List δ}

theorem single (h : step c a c₁) : Steps step c [a] c₁ := .cons h .nil

theorem append (h : Steps step c front c₁) (h' : Steps step c₁ back c₂) :
    Steps step c (front ++ back) c₂ := by
  induction h with
  | nil => exact h'
  | cons first _ ih => exact .cons first (ih h')

theorem exists_of_append (h : Steps step c (front ++ back) c₂) :
    ∃ c₁, Steps step c front c₁ ∧ Steps step c₁ back c₂ := by
  induction front generalizing c with
  | nil => exact ⟨c, .nil, h⟩
  | cons a front ih =>
    cases h with
    | cons first rest =>
      obtain ⟨c₁, hfront, hback⟩ := ih rest
      exact ⟨c₁, .cons first hfront, hback⟩

theorem map {step' : γ' → δ → γ' → Prop} (g : γ → γ')
    (hstep : ∀ c a c', step c a c' → step' (g c) a (g c')) (h : Steps step c front c₁) :
    Steps step' (g c) front (g c₁) := by
  induction h with
  | nil => exact .nil
  | cons first _ ih => exact .cons (hstep _ _ _ first) ih

end Steps

end Literate

import Literate.Fault.Basic
import Literate.Log.Event
import Literate.Validation.Check

namespace Literate

/-- The events are in the order in which they happened, also those before a failure. -/
structure Traced (α : Type) where
  events : List Event
  result : Except Fault α

namespace Traced

variable {α β : Type}

def ok (a : α) : Traced α := ⟨[], .ok a⟩

def fail (f : Fault) : Traced α := ⟨[], .error f⟩

def of (r : Except Fault α) : Traced α := ⟨[], r⟩

def ofChecked (r : Checked α) : Traced α := ⟨[], r.mapError .invalid⟩

def emit (e : Event) : Traced Unit := ⟨[e], .ok ()⟩

def bind (x : Traced α) (f : α → Traced β) : Traced β :=
  match x.result with
  | .error e => ⟨x.events, .error e⟩
  | .ok a => ⟨x.events ++ (f a).events, (f a).result⟩

instance : Monad Traced where
  pure := ok
  bind := bind

@[simp] theorem result_bind (x : Traced α) (f : α → Traced β) :
    (x >>= f).result = x.result.bind fun a => (f a).result := by
  show (Traced.bind x f).result = _
  unfold Traced.bind
  cases x.result <;> rfl

@[simp] theorem result_pure (a : α) : (pure a : Traced α).result = .ok a := rfl

@[simp] theorem result_of (r : Except Fault α) : (of r).result = r := rfl

@[simp] theorem result_ofChecked (r : Checked α) :
    (ofChecked r).result = r.mapError .invalid := rfl

@[simp] theorem result_emit (e : Event) : (emit e).result = .ok () := rfl

end Traced

end Literate

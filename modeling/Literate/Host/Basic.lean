import Literate.File.Tree
import Literate.Log.Trace

namespace Literate

class Host (n : Type → Type) where
  readFile : Path → n (Except PathFault Bytes)
  /-- Makes a file, or replaces the contents of one. -/
  writeFile : Path → Bytes → n (Except PathFault Unit)
  isFile : Path → n (Except PathFault Bool)
  isFolder : Path → n (Except PathFault Bool)
  /-- The time of the last change, in seconds. -/
  modified : Path → n (Except PathFault Number)
  /-- The absolute place that a path leads to, whether there is something or not. -/
  resolve : Path → n (Except PathFault (List Text))
  /-- The folder that relative paths start from. -/
  workingFolder : n (List Text)
  now : n Number
  /-- Milliseconds since some moment of the past. -/
  stopwatch : n Float
  /-- Waits a number of seconds before another attempt to read. -/
  nap : Float → n (Except Mishap Unit)
  /-- Waits a number of seconds for the next round of a watch; false when interrupted. -/
  pause : Number → n Bool
  record : Event → n Unit
  /-- Whether events are being logged. -/
  logging : n Bool
  /-- Shows a line to the user. -/
  say : Text → n Unit
  /-- An identifier that has not been used. -/
  freshId : n Text

/-- A machine on which what is being done may be interrupted by the user. -/
class Interruptible (n : Type → Type) where
  /-- The result of a computation, or nothing if it was interrupted. -/
  attempt {α : Type} : n α → n (Option α)

/-- Nothing is interrupted. -/
instance {σ : Type} : Interruptible (StateM σ) where
  attempt x := some <$> x

/-- Whatever gives no result was interrupted. -/
instance {m : Type → Type} [Monad m] : Interruptible (OptionT m) where
  attempt x := OptionT.lift x.run

namespace Traced

def run {n : Type → Type} [Monad n] [Host n] {α : Type} (t : Traced α) : ExceptT Fault n α := do
  t.events.forM fun e => ExceptT.lift (Host.record e)
  ExceptT.mk (pure t.result)

end Traced

end Literate

import Literate.Host.Basic
import Literate.Production.Libraries
import Literate.Settings.Basic

namespace Literate.Source

variable {n : Type → Type} [Monad n] [Host n]

def decode (lib : Libraries) (settings : Settings) (source : Path) (bytes : Bytes) :
    Except Fault Text :=
  match lib.codec settings.encoding with
  | .error m => .error (.ofMishap m)
  | .ok codec =>
    match codec.decode bytes with
    | .ok s => .ok (Text.universalNewlines s)
    | .error (.place f) => .error (.garbledSource source.toText settings.encoding f)
    | .error (.otherwise m) => .error (.ofMishap m)

def retryEvent (settings : Settings) (source : Path) (attempt : Nat) (f : PathFault) : Event :=
  ⟨.warning, "source_read_retry",
    [("file_path", .text source.toText), ("attempt", .int attempt),
     ("max_retries", .int settings.maxRetries), ("error", .text f.message)]⟩

/-- Attempts to read after `failed` attempts that failed, when as many more as given may fail. Only
failures of the file system are worth another one. -/
def attempts (lib : Libraries) (settings : Settings) (source : Path) (failed : Nat) :
    Nat → ExceptT Fault n Text
  | 0 => do
    match ← ExceptT.lift (Host.readFile source) with
    | .ok bytes => ExceptT.mk (pure (decode lib settings source bytes))
    | .error f =>
      if f.ofSystem then throw (.unreadableSource source.toText (failed + 1) f)
      else throw (.unreachable f)
  | left + 1 => do
    match ← ExceptT.lift (Host.readFile source) with
    | .ok bytes => ExceptT.mk (pure (decode lib settings source bytes))
    | .error f =>
      if f.ofSystem then
        ExceptT.lift (Host.record (retryEvent settings source (failed + 1) f))
        match ← ExceptT.lift (Host.nap settings.retryDelay) with
        | .ok _ => attempts lib settings source (failed + 1) left
        | .error m => throw (.ofMishap m)
      else throw (.unreachable f)

/-- The text of a source. Only a source that cannot be read at all is tried again. -/
def read (lib : Libraries) (settings : Settings) (source : Path) : ExceptT Fault n Text :=
  match Libraries.nameRefusal? settings.encoding with
  | some m => throw (.ofMishap m)
  | none => attempts lib settings source 0 settings.maxRetries

def readOnce (lib : Libraries) (encoding : Text) (source : Path) : ExceptT Fault n Text := do
  if let some m := Libraries.nameRefusal? encoding then throw (.ofMishap m)
  match ← ExceptT.lift (Host.readFile source) with
  | .error f => throw (.unreachable f)
  | .ok bytes =>
    match lib.codec encoding with
    | .error m => throw (.ofMishap m)
    | .ok codec =>
      match codec.decode bytes with
      | .ok s => return Text.universalNewlines s
      | .error (.place f) => throw (.undecodable f)
      | .error (.otherwise m) => throw (.ofMishap m)

end Literate.Source

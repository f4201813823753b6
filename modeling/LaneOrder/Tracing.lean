import LaneOrder.Config

/-!
This module contains the subscriber of a process, which writes its log lines.
-/

namespace LaneOrder

structure Tracing where
  format : Option LogFormat := none
deriving DecidableEq

namespace Tracing

def installedTwice : String :=
  "a global default trace dispatcher has already been set"

def install (t : Tracing) (f : LogFormat) : Except String Tracing :=
  match t.format with
  | some _ => .error installedTwice
  | none => .ok ⟨some f⟩

end Tracing

end LaneOrder

import LaneOrder.Cli.Run

/-!
This module contains the program. It reads its arguments and variables, and prints what becomes of them. It has
no driver for a server of its own, so it never gets further than to connect.
-/

namespace LaneOrder

def usage : String :=
  "Maintenance commands for lane ordering\n\n"
    ++ "Usage: lane-order <COMMAND>\n\n"
    ++ "Commands:\n"
    ++ "  migrate      Create the tables and indexes if they do not exist\n"
    ++ "  renormalize  Re-space every key of one lane\n"
    ++ "               (--workspace <UUID> --actor <UUID> --lane <LANE>)\n"
    ++ "  help         Print this message\n"

end LaneOrder

open LaneOrder

def main (args : List String) : IO UInt32 := do
  let mut given : List (String × String) := []
  for v in Config.Variable.all do
    if let some value ← IO.getEnv v.name then
      given := (v.name, value) :: given
  match Cli.plan args (fun name => given.lookup name) with
  | .exit parsed =>
    if parsed = .help then IO.print usage else IO.eprint usage
    return UInt32.ofNat parsed.exitCode
  | .fail f =>
    IO.eprint f.report
    return 1
  | .connect url _ _ =>
    IO.eprint (Cli.Failure.connect (.database ("there is no driver for " ++ url))).report
    return 1

import LatencyHiding.CommandLine

set_option autoImplicit false

open LatencyHiding CommandLine

def readText (path : String) : IO (Option String) := do
  try
    return some (← IO.FS.readFile path)
  catch _ =>
    return none

def main (args : List String) : IO UInt32 := do
  match parse args with
  | .error .help =>
    IO.println (Refusal.message .help)
    return 0
  | .error .version =>
    IO.println (Refusal.message .version)
    return 0
  | .error refusal =>
    IO.eprintln s!"error: {refusal.message}"
    return 2
  | .ok request =>
    match request.run (← readText request.modulePath) with
    | .ok text =>
      IO.print text
      return 0
    | .error failure =>
      IO.eprintln s!"lhsched error: {failure.message}"
      return 1

import LatencyHiding.Engine.Module
import LatencyHiding.ModuleFile.Loading
import LatencyHiding.Pattern.Reading
import LatencyHiding.Report

set_option autoImplicit false

/-!
The command line. Arguments are read from left to right. The value of an option may be attached with
an equals sign and is then judged at once; otherwise it is the next argument, and is judged when the
next known argument or the end is reached. So an unknown argument is reported even where the option
before it lacks its value.
-/

namespace LatencyHiding.CommandLine

inductive Setting where
  | module | mode | target | deviceMemory | computation | logLevel
  deriving DecidableEq

inductive Switch where
  | stats | dryRun
  deriving DecidableEq

inductive Refusal where
  | unknownArgument | missingValue | badChoice | badValue | repeated | unwantedValue
  | help | version
  deriving DecidableEq

def Refusal.message : Refusal → String
  | .unknownArgument => "unexpected argument"
  | .missingValue => "a value is required"
  | .badChoice => "invalid value"
  | .badValue => "invalid value"
  | .repeated => "the argument cannot be used multiple times"
  | .unwantedValue => "unexpected value"
  | .help => "Usage: lhsched [--module PATH] [--mode MODE] [--target TARGET] " ++
    "[--device-memory BYTES] [--stats] [--computation REGEX] [--log-level LEVEL] [--dry-run]"
  | .version => "lhsched 0.1.0"

inductive LogLevel where
  | error | warn | info | debug | trace
  deriving DecidableEq

def LogLevel.ofName? : String → Option LogLevel
  | "error" => some .error
  | "warn" => some .warn
  | "info" => some .info
  | "debug" => some .debug
  | "trace" => some .trace
  | _ => none

structure Request where
  path : Option String := none
  mode : Option Mode := none
  platform : Option Platform := none
  deviceMemory : Option UInt64 := none
  stats : Bool := false
  pattern : Option String := none
  logLevel : Option LogLevel := none
  dryRun : Bool := false

def readBytes? (text : String) : Option UInt64 :=
  let digits :=
    match text.toList with
    | '+' :: rest => rest
    | cs => cs
  if digits.isEmpty || !digits.all Char.isDigit then none
  else
    let n : Nat := digits.foldl (fun n d => 10 * n + (d.toNat - '0'.toNat)) 0
    if n < UInt64.size then some n.toUInt64 else none

namespace Request

def isGiven (r : Request) : Setting → Bool
  | .module => r.path.isSome
  | .mode => r.mode.isSome
  | .target => r.platform.isSome
  | .deviceMemory => r.deviceMemory.isSome
  | .computation => r.pattern.isSome
  | .logLevel => r.logLevel.isSome

/-- Enter a value; that the option was given before is noticed before the value is judged. -/
def put (r : Request) (s : Setting) (value : String) : Except Refusal Request :=
  if r.isGiven s then .error .repeated
  else
    match s with
    | .module => .ok { r with path := some value }
    | .computation => .ok { r with pattern := some value }
    | .mode =>
      match Mode.ofText value with
      | .ok mode => .ok { r with mode := some mode }
      | .error _ => .error .badValue
    | .target =>
      match Platform.ofText value with
      | .ok platform => .ok { r with platform := some platform }
      | .error _ => .error .badValue
    | .deviceMemory =>
      match readBytes? value with
      | some bytes => .ok { r with deviceMemory := some bytes }
      | none => .error .badValue
    | .logLevel =>
      match LogLevel.ofName? value with
      | some level => .ok { r with logLevel := some level }
      | none => .error .badChoice

def turnOn (r : Request) : Switch → Except Refusal Request
  | .stats => if r.stats then .error .repeated else .ok { r with stats := true }
  | .dryRun => if r.dryRun then .error .repeated else .ok { r with dryRun := true }

end Request

inductive Meaning where
  | setting (s : Setting)
  | switch (s : Switch)
  | explain (r : Refusal)

def long? : String → Option Meaning
  | "module" => some (.setting .module)
  | "mode" => some (.setting .mode)
  | "target" => some (.setting .target)
  | "device-memory" => some (.setting .deviceMemory)
  | "stats" => some (.switch .stats)
  | "computation" => some (.setting .computation)
  | "log-level" => some (.setting .logLevel)
  | "dry-run" => some (.switch .dryRun)
  | "help" => some (.explain .help)
  | "version" => some (.explain .version)
  | _ => none

structure Reading where
  request : Request := {}
  waiting : Option (Setting × Option String) := none
  /-- After a bare `--` nothing is an option. -/
  optionsEnded : Bool := false

namespace Reading

def settle (r : Reading) : Except Refusal Request :=
  match r.waiting with
  | none => .ok r.request
  | some (_, none) => .error .missingValue
  | some (s, some value) => r.request.put s value

def readLong (r : Reading) (name : String) (value : Option String) : Except Refusal Reading :=
  match long? name, value with
  | none, _ => .error .unknownArgument
  | some (.setting s), some v => do return { request := ← (← r.settle).put s v }
  | some (.setting s), none => do return { request := ← r.settle, waiting := some (s, none) }
  | some (.switch _), some _ | some (.explain _), some _ => .error .unwantedValue
  | some (.switch s), none => do return { request := ← (← r.settle).turnOn s }
  | some (.explain e), none => do
    let _ ← r.settle
    throw e

/-- An argument such as `-hV`, of which only the first letter can matter. -/
def readShort (r : Reading) (letter : Char) : Except Refusal Reading :=
  match letter with
  | 'h' => r.readLong "help" none
  | 'V' => r.readLong "version" none
  | _ => .error .unknownArgument

def readPlain (r : Reading) (arg : String) : Except Refusal Reading :=
  match r.waiting with
  | some (s, none) => .ok { r with waiting := some (s, some arg) }
  | _ => .error .unknownArgument

def read (r : Reading) (arg : String) : Except Refusal Reading :=
  if r.optionsEnded then .error .unknownArgument
  else
    match arg.toList with
    | ['-', '-'] => .ok { r with optionsEnded := true }
    | '-' :: '-' :: rest =>
      let value :=
        match rest.dropWhile (· ≠ '=') with
        | '=' :: value => some (String.ofList value)
        | _ => none
      r.readLong (String.ofList (rest.takeWhile (· ≠ '='))) value
    | '-' :: letter :: _ => r.readShort letter
    | _ => r.readPlain arg

end Reading

def parse (args : List String) : Except Refusal Request := do
  (← args.foldlM Reading.read {}).settle

inductive Failure where
  | loading (path : String) (why : Fault)
  | badPattern
  | scheduling (why : Fault)
  | overflow
  deriving DecidableEq

namespace Failure

def context? : Failure → Option String
  | .loading path _ => some s!"loading module file {path}"
  | .badPattern => some "invalid --computation regex"
  | .scheduling _ | .overflow => none

def fault? : Failure → Option Fault
  | .loading _ why | .scheduling why => some why
  | .badPattern | .overflow => none

def message (f : Failure) : String :=
  "\n".intercalate (f.context?.toList ++ (f.fault?.map Fault.message).toList)

end Failure

namespace Request

def modulePath (r : Request) : String := r.path.getD "module.toml"

def override (r : Request) (f : ModuleFile) : ModuleFile :=
  { f with
    mode := r.mode.getD f.mode
    platform := r.platform.getD f.platform
    device := { f.device with memoryBytes := r.deviceMemory.getD f.device.memoryBytes } }

def load (r : Request) (text : Option String) : Except Failure ModuleFile :=
  match text with
  | none => .error (.loading r.modulePath .unreadableFile)
  | some text =>
    match ModuleFile.ofToml text with
    | .error why => .error (.loading r.modulePath why)
    | .ok file => .ok (r.override file)

def filter (r : Request) : Except Failure (Option Pattern) :=
  match r.pattern with
  | none => .ok none
  | some text =>
    match Pattern.ofText? text with
    | some p => .ok (some p)
    | none => .error .badPattern

def run (r : Request) (text : Option String) : Except Failure String := do
  let file ← r.load text
  let filter ← r.filter
  if r.dryRun then
    return Report.overview file
  let (file, summary) ← match file.schedule with
    | none => .error .overflow
    | some outcome => outcome.mapError .scheduling
  return Report.schedule file.module filter ++
    if r.stats then Report.statistics summary filter else ""

end Request

end LatencyHiding.CommandLine

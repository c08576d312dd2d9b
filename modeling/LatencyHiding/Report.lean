import LatencyHiding.Decimal.Positional
import LatencyHiding.Digest.Blake3
import LatencyHiding.Pass
import LatencyHiding.Pattern.Automaton

set_option autoImplicit false

namespace LatencyHiding

namespace Computation

/-- The names in an order, each ended by a line feed; an unknown id counts as `?`. -/
def orderBytes (c : Computation) (sequence : List InstrId) : List UInt8 :=
  sequence.flatMap fun id =>
    (((c.instruction? id).map (·.name)).getD "?").toUTF8.toList ++ [10]

def fingerprint (c : Computation) (sequence : List InstrId) : String :=
  Blake3.hexDigest (c.orderBytes sequence)

end Computation

namespace Report

def lines (texts : List String) : String := String.join (texts.map (· ++ "\n"))

def picks (filter : Option Pattern) (name : String) : Bool := filter.all (·.foundIn name)

def orderLines (c : Computation) (sequence : List InstrId) : List String :=
  s!"computation {c.name} ({sequence.length} instructions, blake3 {c.fingerprint sequence})" ::
    (sequence.filterMap c.instruction?).map ("  " ++ ·.name)

def schedule (m : Module) (filter : Option Pattern) : String :=
  let orders := m.currentSchedule
  lines <| (m.computations.filter (picks filter ·.name)).flatMap fun c =>
    match orders.get? c.name with
    | some sequence => orderLines c sequence
    | none => []

def statisticsLines (s : Statistics Float) : List String :=
  s!"computation: {s.computation}" ::
    s.wasted.entries.map (fun (r, cycles) =>
      s!"  wasted cycles [{r.name}]: {Decimal.floatText cycles}") ++
    [s!"  total wasted cycles: {Decimal.floatText s.totalWasted}",
      s!"  total cycles: {Decimal.floatText s.totalCycles}",
      s!"  memory peak: {s.memoryPeak.toNat} bytes"]

def statisticsText (s : Statistics Float) : String := "\n".intercalate (statisticsLines s)

def statistics (s : Summary Float) (filter : Option Pattern) : String :=
  lines <| (s.statistics.filter (picks filter ·.computation)).flatMap statisticsLines ++
    [s!"module memory peak: {s.memoryPeak.toNat}"]

def settingsText (s : Settings) : String :=
  let fields :=
    s.limits.map (fun (name, limit) => s!"{name}: {limit.toNat}") ++
    s.switches.map (fun (name, on) => s!"{name}: {on}") ++
    [s!"memory_limit: {s.memoryLimit.toNat}"]
  "SchedulerConfig \x7b " ++ ", ".intercalate fields ++ " \x7d"

def instructionLine (c : Computation) (i : Instruction) : String :=
  let operands := i.operands.filterMap fun id => (c.instruction? id).map (·.name)
  let arguments := if operands.isEmpty then "" else "(" ++ ", ".intercalate operands ++ ")"
  s!"      {i.name} = {i.opcode.name}{arguments}"

def computationLines (entry : String) (c : Computation) : List String :=
  (s!"  - {c.name}" ++ if c.name = entry then " (entry)" else "") ::
    c.instructions.map fun i => instructionLine c i.toInstruction

def overview (f : ModuleFile) : String :=
  lines <| [
    "lhsched dry-run",
    s!"  module = {f.module.name}",
    s!"  mode = {f.mode.name}",
    s!"  target = {f.platform.name}",
    s!"  scheduler = {settingsText f.settings}",
    "",
    s!"computations ({f.module.computations.length}):"] ++
    f.module.computations.flatMap (computationLines f.module.entry.name)

end Report

end LatencyHiding

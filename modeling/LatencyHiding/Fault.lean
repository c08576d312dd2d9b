set_option autoImplicit false

namespace LatencyHiding

inductive BadOrder where
  | absent
  | wrongLength (given expected : Nat)
  | unknownId (id : Nat)
  | scheduledTwice (instruction : String)
  | appearsTwice (instruction : String)
  | afterUser (dependency user : String)
  deriving DecidableEq

def BadOrder.reason : BadOrder → String
  | .absent => "no sequence"
  | .wrongLength given expected =>
    s!"sequence has {given} instructions, computation has {expected}"
  | .unknownId id => s!"unknown instruction id {id}"
  | .scheduledTwice instruction => s!"instruction '{instruction}' scheduled twice"
  | .appearsTwice instruction => s!"instruction '{instruction}' appears twice"
  | .afterUser dependency user => s!"'{dependency}' is scheduled after its user '{user}'"

inductive BadFloat where
  | appearsTwice (id : Nat)
  | wrongLength (given expected : Nat)
  | unsettled
  | cycle
  deriving DecidableEq

def BadFloat.reason : BadFloat → String
  | .appearsTwice id => s!"instruction id {id} appears twice"
  | .wrongLength given expected =>
    s!"sequence has {given} instructions, computation has {expected}"
  | .unsettled => "placement did not settle"
  | .cycle => "dependency cycle among floating instructions"

inductive Fault where
  | unreadableFile
  | malformedFile
  | noComputationSection
  | emptyComputation (computation : String)
  | zeroLimit (field : String)
  | slopOutOfRange (percent : UInt32)
  | dependsOnItself (instruction computation : String)
  | unknownReference (instruction computation reference : String)
  | scheduleNamesUnknown (computation instruction : String)
  | duplicateInstruction (computation instruction : String)
  | undefinedReference (instruction computation : String)
  | emptyModule
  | duplicateComputation (computation : String)
  | unknownId (id : Nat) (computation : String)
  | unknownInstruction (instruction computation : String)
  | dependencyCycle (computation instruction : String)
  | recursiveCalls (computation : String)
  | unknownComputation (computation : String)
  | unknownEntry (entry : String)
  | unknownCallee (callee instruction computation : String)
  | unknownCalleeFrom (callee computation : String)
  | neverReady (computation : String) (remaining : Nat)
  | badOrder (computation : String) (why : BadOrder)
  | badFloat (computation : String) (why : BadFloat)
  deriving DecidableEq

namespace Fault

inductive Kind where
  | reading | syntactic | configuration | unknownInstruction | dependencyCycle
  | unknownComputation | neverReady | invalidSchedule | floating
  deriving DecidableEq

def kind : Fault → Kind
  | .unreadableFile => .reading
  | .malformedFile => .syntactic
  | .noComputationSection | .emptyComputation _ | .zeroLimit _ | .slopOutOfRange _
  | .dependsOnItself .. | .unknownReference .. | .scheduleNamesUnknown .. | .duplicateInstruction ..
  | .undefinedReference .. | .emptyModule | .duplicateComputation _ => .configuration
  | .unknownId .. | .unknownInstruction .. => .unknownInstruction
  | .dependencyCycle .. | .recursiveCalls _ => .dependencyCycle
  | .unknownComputation _ | .unknownEntry _ | .unknownCallee .. | .unknownCalleeFrom .. =>
    .unknownComputation
  | .neverReady .. => .neverReady
  | .badOrder .. => .invalidSchedule
  | .badFloat .. => .floating

def message : Fault → String
  | .unreadableFile => "IO error"
  | .malformedFile => "TOML parsing error"
  | .noComputationSection =>
    "Configuration error: module must contain at least one [[computation]] section"
  | .emptyComputation c => s!"Configuration error: computation '{c}' has no instructions"
  | .zeroLimit field => s!"Configuration error: [scheduler].{field} must be >= 1 (got 0)"
  | .slopOutOfRange percent =>
    s!"Configuration error: [gpu].memory_limit_slop_percent must be in 1..=100 (got {percent.toNat})"
  | .dependsOnItself i c => s!"Configuration error: instruction '{i}' in '{c}' cannot depend on itself"
  | .unknownReference i c reference =>
    s!"Configuration error: instruction '{i}' in '{c}' references unknown instruction '{reference}'"
  | .scheduleNamesUnknown c i =>
    s!"Configuration error: schedule of '{c}' names unknown instruction '{i}'"
  | .duplicateInstruction c i =>
    s!"Configuration error: computation '{c}' has duplicate instruction name '{i}'"
  | .undefinedReference i c => s!"Configuration error: instruction '{i}' in '{c}' " ++
    "references an instruction that is not defined before it"
  | .emptyModule => "Configuration error: module must contain at least one computation"
  | .duplicateComputation c => s!"Configuration error: duplicate computation name '{c}'"
  | .unknownId id c => s!"Instruction not found in schedule graph: id {id} in '{c}'"
  | .unknownInstruction i c => s!"Instruction not found in schedule graph: {i} in '{c}'"
  | .dependencyCycle c i => "Dependency cycle detected: " ++
    s!"cycle detected in computation '{c}' involving instruction '{i}'"
  | .recursiveCalls c =>
    s!"Dependency cycle detected: recursive call graph involving computation '{c}'"
  | .unknownComputation c => s!"Computation not found: {c}"
  | .unknownEntry c => s!"Computation not found: {c} (named as [module].entry)"
  | .unknownCallee callee i c => s!"Computation not found: {callee} (called by '{i}' in '{c}')"
  | .unknownCalleeFrom callee c => s!"Computation not found: {callee} (called from '{c}')"
  | .neverReady c remaining =>
    s!"Cycle detected in computation '{c}': {remaining} node(s) never became ready"
  | .badOrder c why => s!"Invalid schedule for computation '{c}': {why.reason}"
  | .badFloat c why => s!"Internal scheduler error: early/late pass on '{c}': {why.reason}"

end Fault

end LatencyHiding

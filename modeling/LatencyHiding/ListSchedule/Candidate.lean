import LatencyHiding.Buffer.LiveSet
import LatencyHiding.Bytes
import LatencyHiding.Dependence.Basic
import LatencyHiding.Settings

set_option autoImplicit false

namespace LatencyHiding

structure Candidate (τ : Type) where
  node : NodeIndex
  instr : InstrId
  position : Nat
  forceDelay : Bool
  asyncDepth : τ
  readyTime : τ
  isDone : Bool
  /-- No resource limit would be exceeded. -/
  feasible : Bool
  memory : LiveSet.Effect

inductive Reason where
  | onlyCandidate | platformRule | forceDelay | asyncDepth | memory | asyncDone | stall | position
  deriving DecidableEq

def Reason.name : Reason → String
  | .onlyCandidate => "only-candidate"
  | .platformRule => "target-rule"
  | .forceDelay => "force-delay"
  | .asyncDepth => "async-depth"
  | .memory => "memory"
  | .asyncDone => "async-done"
  | .stall => "stall"
  | .position => "original-position"

/-- A rule of the platform, asked before all others: whether it prefers the first candidate, if it
tells the two apart. -/
abbrev PlatformRule (τ : Type) := Candidate τ → Candidate τ → Option Bool

namespace Candidate

variable {τ : Type} [TimeScale τ]

def ofNode (index : NodeIndex) (n : Node τ) (feasible : Bool) (memory : LiveSet.Effect) :
    Candidate τ where
  node := index
  instr := n.instr.id
  position := n.position
  forceDelay := n.forceDelay
  asyncDepth := n.asyncDepth
  readyTime := n.readyTime
  isDone := n.isDone
  feasible
  memory

/-- The feasible candidates, or all of them if none is. -/
def shortlist (all : List (Candidate τ)) : List (Candidate τ) :=
  let feasible := all.filter (·.feasible)
  if feasible.isEmpty then all else feasible

abbrev Verdict := Bool × Reason

def choose (first second : Bool) (reason : Reason) : Option Verdict :=
  if first = second then none else some (first, reason)

def byPlatform (rule : Option (PlatformRule τ)) (a b : Candidate τ) : Option Verdict :=
  (rule.bind fun rule => rule a b).map (·, .platformRule)

def byForceDelay (a b : Candidate τ) : Option Verdict :=
  choose (!a.forceDelay) (!b.forceDelay) .forceDelay

def byAsyncDepth (a b : Candidate τ) : Option Verdict :=
  if a.asyncDepth == b.asyncDepth then none
  else some (b.asyncDepth < a.asyncDepth, .asyncDepth)

def fits (limit usage : UInt64) (c : Candidate τ) : Bool :=
  Bytes.addStopping usage c.memory.peak ≤ limit

/-- What fits the limit first; if neither does, what adds least to the usage. -/
def byMemory (limit usage : UInt64) (a b : Candidate τ) : Option Verdict :=
  if limit = Settings.unlimitedMemory then none
  else
    let aFits := a.fits limit usage
    let bFits := b.fits limit usage
    (choose aFits bFits .memory).or <|
      if !aFits && !bFits && a.memory.increase != b.memory.increase then
        some (a.memory.increase < b.memory.increase, .memory)
      else none

def byAsyncDone (aggressive : Bool) (a b : Candidate τ) : Option Verdict :=
  if aggressive then choose a.isDone b.isDone .asyncDone else none

def byStall (now : τ) (a b : Candidate τ) : Option Verdict :=
  (choose (a.readyTime ≤ now) (b.readyTime ≤ now) .stall).or <|
    if now < a.readyTime && a.readyTime != b.readyTime then
      some (a.readyTime < b.readyTime, .stall)
    else none

def byPosition (a b : Candidate τ) : Verdict := (b.position < a.position, .position)

end Candidate

end LatencyHiding

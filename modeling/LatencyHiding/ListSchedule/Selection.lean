import LatencyHiding.ListSchedule.State

set_option autoImplicit false

namespace LatencyHiding.Scheduler

variable {τ : Type} [TimeScale τ]

/-- Placing a done puts its resource in flight, which needs room for one more. -/
def releasesFit (st : ScheduleState τ) (n : Node τ) : Bool :=
  n.uses.all fun (r, usage) =>
    !(usage == .release) || st.inFlightOf r + 1 ≤ (st.limitOf r).toNat

/-- The same in counts of 32 bits. The first use that does not fit decides. -/
def releasesFit? (st : ScheduleState τ) (n : Node τ) : Option Bool :=
  n.uses.allM fun (r, usage) =>
    if usage = .release then
      (AsyncTracker.inRange (st.inFlightOf r + 1)).map (· ≤ st.limitOf r)
    else some true

/-- Sums of counts stop at the largest count of 32 bits. -/
def unitsFit (st : ScheduleState τ) (r : Resource) (needed limit : UInt32) : Bool :=
  needed == 0 || min (st.inFlightOf r + needed.toNat) (UInt32.size - 1) ≤ limit.toNat

def callsFit (s : Scheduler τ) (st : ScheduleState τ) (n : Node τ) : Bool :=
  st.limits.all fun (r, limit) =>
    unitsFit st r (s.tracker.unitsHeld r n.instr.toInstruction st.module) limit

def isFeasible (s : Scheduler τ) (st : ScheduleState τ) (n : Node τ) : Bool :=
  releasesFit st n && (n.instr.calls.isEmpty || !n.uses.isEmpty || s.callsFit st n)

def candidate (s : Scheduler τ) (st : ScheduleState τ) (index : NodeIndex) (n : Node τ) :
    Candidate τ :=
  .ofNode index n (s.isFeasible st n) (st.memory.effect n.instr)

def compare (s : Scheduler τ) (st : ScheduleState τ) (a b : Candidate τ) : Candidate.Verdict :=
  ((Candidate.byPlatform s.rule a b).or <|
    (Candidate.byForceDelay a b).or <|
    (Candidate.byAsyncDepth a b).or <|
    (Candidate.byMemory s.settings.memoryLimit st.memory.totalUsage a b).or <|
    (Candidate.byAsyncDone s.settings.aggressive a b).or <|
    Candidate.byStall st.time a b).getD (Candidate.byPosition a b)

def candidates (s : Scheduler τ) (st : ScheduleState τ) : List (Candidate τ) :=
  st.ready.filterMap fun index => (st.graph.node? index).map (s.candidate st index)

def pool (s : Scheduler τ) (st : ScheduleState τ) : List (Candidate τ) :=
  Candidate.shortlist (s.candidates st)

/-- Keep the better of the leader and a challenger. The reason is the rule by which the leader took
the lead, or first held it if it led from the start. -/
def challenge (s : Scheduler τ) (st : ScheduleState τ) (leader : Candidate τ × Reason)
    (challenger : Candidate τ) : Candidate τ × Reason :=
  let (wins, why) := s.compare st challenger leader.1
  if wins then (challenger, why)
  else if leader.2 = .onlyCandidate then (leader.1, why)
  else leader

def winner? (s : Scheduler τ) (st : ScheduleState τ) :
    List (Candidate τ) → Option (Candidate τ × Reason)
  | [] => none
  | first :: rest => some (rest.foldl (s.challenge st) (first, .onlyCandidate))

def best? (s : Scheduler τ) (st : ScheduleState τ) : Option (Candidate τ × Reason) :=
  s.winner? st (s.pool st)

end LatencyHiding.Scheduler

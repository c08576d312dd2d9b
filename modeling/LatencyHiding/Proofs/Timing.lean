import LatencyHiding.Proofs.Buffer.Checked
import LatencyHiding.Proofs.Dependence.Neighbours
import LatencyHiding.Proofs.KeyedList
import LatencyHiding.Timing
import Mathlib.Algebra.Order.Group.MinMax
import Mathlib.Algebra.Order.Ring.Rat
import Mathlib.Order.RelIso.Basic
import Mathlib.Tactic.Linarith

set_option autoImplicit false

namespace LatencyHiding

open TimeScale

def AsyncTracker.charged {τ : Type} (tracker : AsyncTracker τ) (p : Placed) : Resource :=
  (((tracker.uses p.toInstruction).find? (·.2 = .release)).map (·.1)).getD .unspecified

/-- `clock k` is the time when `k` instructions have finished, and `start k` the one when the next
starts. In a program where starts stand in front of their dones, each of these times is determined
by those before it. -/
structure InOrder (estimator : Estimator Rat) (tracker : AsyncTracker Rat) (program : List Placed)
    (clock start : Nat → Rat) : Prop where
  clock_zero : clock 0 = 0
  clock_succ : ∀ (k : Nat) (p : Placed), program[k]? = some p →
    clock (k + 1) = start k + estimator.cost p.toInstruction
  isGreatest_start : ∀ (k : Nat) (p : Placed), program[k]? = some p →
    IsGreatest (insert (clock k) {t | ∃ (i : Nat) (s : Placed), program[i]? = some s ∧
      (tracker.site s).isAsyncPair (tracker.site p) = true ∧
      t = clock (i + 1) + estimator.latency (tracker.site s) (tracker.site p)}) (start k)

namespace InOrder

variable {estimator : Estimator Rat} {tracker : AsyncTracker Rat} {program : List Placed}
  {clock start : Nat → Rat}

theorem clock_eq (inOrder : InOrder estimator tracker program clock start) {k : Nat}
    (hk : k ≤ program.length) : clock k =
      ((program.take k).map fun p => estimator.cost p.toInstruction).sum +
        ((List.range k).map fun i => start i - clock i).sum := by
  induction k with
  | zero => simp [inOrder.clock_zero]
  | succ k ih =>
    obtain ⟨p, hp⟩ : ∃ p, program[k]? = some p := ⟨_, List.getElem?_eq_getElem hk⟩
    have hbefore := ih (Nat.le_of_succ_le hk)
    rw [inOrder.clock_succ k p hp, List.take_add_one, hp, List.range_succ]
    simp only [Option.toList_some, List.map_append, List.map_cons, List.map_nil, List.sum_append,
      List.sum_singleton]
    linarith

end InOrder

namespace Resource

theorem rank_injective : Function.Injective rank := by
  intro r s h
  cases r with
  | target n =>
    cases s with
    | target m => exact congrArg target (UInt32.toNat_inj.1 (Nat.add_left_cancel h))
    | _ => simp [rank, number] at h <;> omega
  | _ => cases s <;> simp_all [rank, number]; omega

instance : IsStrictTotalOrder Resource (· < ·) :=
  (RelEmbedding.preimage ⟨rank, rank_injective⟩ (· < ·)).isStrictTotalOrder

end Resource

namespace Timing

theorem zero_eq : (zero : Rat) = 0 := Nat.cast_zero

theorem sum_eq (times : List Rat) : TimeScale.sum times = times.sum := List.sum_eq_foldl.symm

/-- `after` is `before` some time later, and that time is charged to `r`. -/
structure Waited (r : Resource) (before after : Machine Rat) : Prop where
  finished_eq : after.finished = before.finished
  getD_eq : ∀ r', after.wasted.getD r' 0 =
    before.wasted.getD r' 0 + if r' = r then after.time - before.time else 0
  sorted : before.wasted.Sorted → after.wasted.Sorted
  sum_eq : before.wasted.Sorted →
    after.wasted.values.sum = before.wasted.values.sum + (after.time - before.time)

namespace Waited

variable {r : Resource} {m₁ m₂ m₃ : Machine Rat}

theorem refl (r : Resource) (m : Machine Rat) : Waited r m m where
  finished_eq := rfl
  getD_eq r' := by simp
  sorted h := h
  sum_eq _ := by simp

theorem trans (first : Waited r m₁ m₂) (second : Waited r m₂ m₃) : Waited r m₁ m₃ where
  finished_eq := second.finished_eq.trans first.finished_eq
  getD_eq r' := by
    rw [second.getD_eq, first.getD_eq]
    split <;> linarith
  sorted h := second.sorted (first.sorted h)
  sum_eq h := by
    rw [second.sum_eq (first.sorted h), first.sum_eq h]
    linarith

end Waited

variable (g : Graph Rat) (n : Node Rat)

def arrival? (finished : List Rat) (e : Edge Rat) : Option Rat :=
  (g.node? e.target).bind fun s => finished[e.target]?.bind fun started =>
    if s.isAsyncPair n.toSite then some (started + e.latency) else none

theorem await_of_arrival {m : Machine Rat} {e : Edge Rat} {t : Rat}
    (h : arrival? g n m.finished e = some t) : await g n m e = { m with
      time := max m.time t
      wasted := m.wasted.alter (chargedTo n) 0 (· + (max m.time t - m.time)) } := by
  obtain ⟨s, hs, h⟩ := Option.bind_eq_some_iff.1 h
  obtain ⟨started, hstarted, h⟩ := Option.bind_eq_some_iff.1 h
  obtain ⟨hpair, ht⟩ := Option.ite_none_right_eq_some.1 h
  have hwait : later (e.latency - (m.time - started)) 0 = max m.time t - m.time := by
    have hlate : e.latency - (m.time - started) = t - m.time := by
      rw [← Option.some.inj ht]
      linarith
    rw [later_eq_max, hlate, ← sub_self m.time, max_sub_sub_right, max_comm]
  have htime : m.time + (max m.time t - m.time) = max m.time t := by linarith
  simp only [await, hs, hstarted, hpair, if_true, zero_eq, hwait, htime]

theorem await_of_no_arrival {m : Machine Rat} {e : Edge Rat}
    (h : arrival? g n m.finished e = none) : await g n m e = m := by
  unfold await
  split
  · next s started hs hstarted =>
    simp only [arrival?, hs, hstarted, Option.bind_some] at h
    rw [if_neg (by simpa using h)]
  · rfl

theorem waited_await (m : Machine Rat) (e : Edge Rat) :
    Waited (chargedTo n) m (await g n m e) ∧
      (await g n m e).time = latest m.time (arrival? g n m.finished e).toList := by
  cases harrival : arrival? g n m.finished e with
  | none =>
    rw [await_of_no_arrival g n harrival]
    exact ⟨Waited.refl _ m, rfl⟩
  | some t =>
    rw [await_of_arrival g n harrival]
    refine ⟨⟨rfl, ?_, ?_, ?_⟩, (later_eq_max m.time t).symm⟩
    · intro r
      rw [KeyedList.getD_alter]
      split
      · next hr => rw [hr]
      · exact (add_zero _).symm
    · intro sorted
      exact sorted.alter _ _ _
    · intro sorted
      exact sorted.sum_values_alter _ _

theorem waited_foldl_await (edges : List (Edge Rat)) (m : Machine Rat) :
    Waited (chargedTo n) m (edges.foldl (await g n) m) ∧
      (edges.foldl (await g n) m).time =
        latest m.time (edges.filterMap (arrival? g n m.finished)) := by
  induction edges generalizing m with
  | nil => exact ⟨Waited.refl _ m, rfl⟩
  | cons e edges ih =>
    obtain ⟨hfirst, htime⟩ := waited_await g n m e
    obtain ⟨hrest, htime'⟩ := ih (await g n m e)
    refine ⟨hfirst.trans hrest, ?_⟩
    rw [List.foldl_cons, htime', htime, hfirst.finished_eq, List.filterMap_cons]
    cases arrival? g n m.finished e <;> rfl

def waiting (m : Machine Rat) : Machine Rat :=
  if n.isDone then n.predecessors.foldl (await g n) m else m

/-- Only a done waits, and whatever does not wait has nothing to wait for. -/
theorem waited_waiting (m : Machine Rat) : Waited (chargedTo n) m (waiting g n m) ∧
    (waiting g n m).time = latest m.time (n.predecessors.filterMap (arrival? g n m.finished)) := by
  unfold waiting
  split
  · exact waited_foldl_await g n n.predecessors m
  · next hdone =>
    have hnone : n.predecessors.filterMap (arrival? g n m.finished) = [] := by
      rw [List.filterMap_eq_nil_iff]
      intro e _
      simp [arrival?, Site.isAsyncPair, hdone]
    rw [hnone]
    exact ⟨Waited.refl _ m, rfl⟩

def machine (k : Nat) : Machine Rat := (g.nodes.take k).foldl (execute g) { time := zero }

def clock (k : Nat) : Rat := (machine g k).time

def start (k : Nat) : Rat :=
  ((g.node? k).map fun n => (waiting g n (machine g k)).time).getD 0

variable {g n}

theorem machine_succ {k : Nat} (hn : g.node? k = some n) :
    machine g (k + 1) = execute g (machine g k) n := by
  have hk : g.nodes[k]? = some n := hn
  rw [machine, List.take_add_one, hk, List.foldl_append]
  rfl

theorem start_eq {k : Nat} (hn : g.node? k = some n) :
    start g k = (waiting g n (machine g k)).time := by
  rw [start, hn]
  rfl

theorem clock_succ {k : Nat} (hn : g.node? k = some n) : clock g (k + 1) = start g k + n.cost := by
  rw [clock, machine_succ hn, start_eq hn]
  rfl

structure Accounted (g : Graph Rat) (k : Nat) : Prop where
  finished_eq : (machine g k).finished = (List.range k).map fun i => clock g (i + 1)
  sorted : (machine g k).wasted.Sorted
  getD_eq : ∀ r, (machine g k).wasted.getD r 0 =
    (((g.nodes.take k).zipIdx.filter (chargedTo ·.1 = r)).map fun (_, i) =>
      start g i - clock g i).sum
  sum_eq : (machine g k).wasted.values.sum =
    ((List.range k).map fun i => start g i - clock g i).sum

theorem accounted_zero (g : Graph Rat) : Accounted g 0 where
  finished_eq := rfl
  sorted := List.Pairwise.nil
  getD_eq r := by simp [machine, KeyedList.getD]
  sum_eq := rfl

theorem Accounted.succ {k : Nat} (accounted : Accounted g k) (hn : g.node? k = some n) :
    Accounted g (k + 1) := by
  obtain ⟨waited, _⟩ := waited_waiting g n (machine g k)
  have hwait : (waiting g n (machine g k)).time - (machine g k).time = start g k - clock g k := by
    rw [start_eq hn, clock]
  have hk : g.nodes[k]? = some n := hn
  have hlength : (g.nodes.take k).length = k :=
    List.length_take_of_le (List.getElem?_eq_some_iff.1 hk).1.le
  have hwasted : (machine g (k + 1)).wasted = (waiting g n (machine g k)).wasted := by
    rw [machine_succ hn]
    rfl
  refine ⟨?_, ?_, ?_, ?_⟩
  · rw [List.range_succ, List.map_append, ← accounted.finished_eq, ← waited.finished_eq,
      List.map_singleton, clock, machine_succ hn]
    rfl
  · rw [hwasted]
    exact waited.sorted accounted.sorted
  · intro r
    rw [hwasted, waited.getD_eq, accounted.getD_eq, hwait, List.take_add_one, hk,
      Option.toList_some, List.zipIdx_append, hlength, List.filter_append, List.map_append,
      List.sum_append]
    by_cases hr : chargedTo n = r
    · simp [hr]
    · simp [hr, Ne.symm hr]
  · rw [hwasted, waited.sum_eq accounted.sorted, accounted.sum_eq, hwait, List.range_succ,
      List.map_append, List.sum_append, List.map_singleton, List.sum_singleton]

theorem accounted (g : Graph Rat) {k : Nat} (hk : k ≤ g.size) : Accounted g k := by
  induction k with
  | zero => exact accounted_zero g
  | succ k ih =>
    obtain ⟨n, hn⟩ := (Graph.lt_size_iff g k).1 hk
    exact (ih (Nat.le_of_succ_le hk)).succ hn

section Build

variable {c : Computation} {sequence : List Nat} {estimator : Estimator Rat}
  {tracker : AsyncTracker Rat} (hbuild : Graph.build c sequence estimator tracker = .ok g)

include hbuild

theorem statistics_of_build (sizing : Shape.Sizing) (pressure : Option Pressure) :
    c.statistics sequence estimator tracker sizing pressure = .ok {
      computation := c.name
      wasted := (machine g g.size).wasted
      totalCycles := clock g g.size
      memoryPeak := c.memoryPeak sequence sizing pressure } := by
  have hrun : machine g g.size = run g := by
    rw [machine, Graph.size, List.take_length, run]
  rw [Computation.statistics, hbuild, clock, hrun]
  rfl

variable (hc : c.Wired)

include hc

theorem program_eq : sequence.filterMap c.instruction? = g.nodes.map (·.instr) := by
  obtain ⟨_, represents⟩ := Graph.build_ok hc hbuild
  rw [← represents.order_eq, Graph.order, List.filterMap_map,
    List.filterMap_eq_map_iff_forall_eq_some]
  intro n hn
  obtain ⟨k, hk⟩ := List.mem_iff_getElem?.1 hn
  exact (Graph.label_of_build hc hbuild hk).1

theorem program_getElem?_iff (k : Nat) (p : Placed) :
    (sequence.filterMap c.instruction?)[k]? = some p ↔ ∃ n, g.node? k = some n ∧ n.instr = p := by
  rw [program_eq hbuild hc, List.getElem?_map, Option.map_eq_some_iff]
  rfl

theorem chargedTo_eq {k : Nat} (hn : g.node? k = some n) :
    chargedTo n = tracker.charged n.instr := by
  have huses : n.uses = tracker.uses n.instr.toInstruction :=
    congrArg (·.2.2.2) (Graph.label_of_build hc hbuild hn).2
  rw [chargedTo, huses]
  rfl

theorem waits_eq (r : Resource) (wait : Nat → Rat) :
    (g.nodes.zipIdx.filter (chargedTo ·.1 = r)).map (fun (_, k) => wait k) =
      ((sequence.filterMap c.instruction?).zipIdx.filter (tracker.charged ·.1 = r)).map
        fun (_, k) => wait k := by
  rw [program_eq hbuild hc, List.zipIdx_map, List.filter_map, List.map_map]
  refine congrArg (List.map _) (List.filter_congr ?_)
  rintro ⟨n, k⟩ hmem
  rw [chargedTo_eq hbuild hc (List.mk_mem_zipIdx_iff_getElem?.1 hmem)]
  rfl

variable (horder : c.IsOrder sequence) (free : ∀ c, tracker.demands c = [])

include horder free

theorem lt_of_leads {i k : Nat} (hlead : g.Leads i k) : i < k := by
  obtain ⟨_, represents⟩ := Graph.build_ok hc hbuild
  obtain ⟨a, b, ha, hb, hneeds⟩ :=
    ((Graph.depicts_of_build hc horder free hbuild).leads_iff i k).1 hlead
  rw [represents.order_eq] at ha hb
  have hlt := horder.idxOf_lt hc hneeds
  rwa [idxOf_of_getElem? horder.nodup ha,
    idxOf_of_getElem? horder.nodup hb] at hlt

theorem mem_arrivals_iff {k : Nat} (hn : g.node? k = some n) (t : Rat) :
    t ∈ n.predecessors.filterMap (arrival? g n (machine g k).finished) ↔
      ∃ (i : Nat) (s : Placed), (sequence.filterMap c.instruction?)[i]? = some s ∧
        (tracker.site s).isAsyncPair (tracker.site n.instr) = true ∧
        t = clock g (i + 1) + estimator.latency (tracker.site s) (tracker.site n.instr) := by
  have depicts := Graph.depicts_of_build hc horder free hbuild
  have hk : k < g.size := (Graph.lt_size_iff g k).2 ⟨n, hn⟩
  have hfinished {i : Nat} (hi : i < k) : (machine g k).finished[i]? = some (clock g (i + 1)) := by
    rw [(accounted g hk.le).finished_eq, List.getElem?_map, List.getElem?_range hi]
    rfl
  have hsite := (depicts.known k n hn).2
  simp only [List.mem_filterMap, program_getElem?_iff hbuild hc]
  constructor
  · rintro ⟨e, he, harrival⟩
    obtain ⟨s, hs, harrival⟩ := Option.bind_eq_some_iff.1 harrival
    obtain ⟨started, hstarted, harrival⟩ := Option.bind_eq_some_iff.1 harrival
    obtain ⟨hpair, ht⟩ := Option.ite_none_right_eq_some.1 harrival
    have hlead := (depicts.linked.mem_predecessors_iff hn e.target).1 (List.mem_map_of_mem he)
    rw [hfinished (lt_of_leads hbuild hc horder free hlead)] at hstarted
    have hstart := (depicts.known e.target s hs).2
    refine ⟨e.target, s.instr, ⟨s, hs, rfl⟩, ?_, ?_⟩
    · rwa [← hstart, ← hsite]
    · rw [← Option.some.inj ht, ← Option.some.inj hstarted, ← hstart, ← hsite,
        depicts.latency_predecessor hn he hs]
  · rintro ⟨i, _, ⟨s, hs, rfl⟩, hpair, rfl⟩
    have hstart := (depicts.known i s hs).2
    rw [← hstart, ← hsite] at hpair ⊢
    -- an asynchronous pair is an operand and its user, so there is an edge
    have hoperand : s.instr.id ∈ n.instr.operands := by
      simpa using (Bool.and_eq_true_iff.1 hpair).2
    have hneeds : c.Needs n.instr.id s.instr.id :=
      ⟨n.instr, (depicts.known k n hn).1, List.mem_append_left _ hoperand⟩
    have hlead := (depicts.leads_iff_needs hs hn).2 hneeds
    obtain ⟨e, he, rfl⟩ := List.mem_map.1 ((depicts.linked.mem_predecessors_iff hn i).2 hlead)
    refine ⟨e, he, ?_⟩
    rw [arrival?, hs, hfinished (lt_of_leads hbuild hc horder free hlead),
      depicts.latency_predecessor hn he hs]
    simp [hpair]

theorem inOrder_of_build :
    InOrder estimator tracker (sequence.filterMap c.instruction?) (clock g) (start g) where
  clock_zero := zero_eq
  clock_succ k p hp := by
    obtain ⟨n, hn, rfl⟩ := (program_getElem?_iff hbuild hc k p).1 hp
    have hcost : n.cost = estimator.cost n.instr.toInstruction :=
      congrArg (·.2.2.1) (Graph.label_of_build hc hbuild hn).2
    rw [clock_succ hn, hcost]
  isGreatest_start k p hp := by
    obtain ⟨n, hn, rfl⟩ := (program_getElem?_iff hbuild hc k p).1 hp
    rw [start_eq hn, (waited_waiting g n (machine g k)).2]
    convert isGreatest_latest (machine g k).time _ using 1
    ext t
    rw [Set.mem_insert_iff, Set.mem_ofPred_eq, Set.mem_ofPred_eq, List.mem_cons,
      mem_arrivals_iff hbuild hc horder free hn]
    rfl

end Build

end Timing

namespace Computation

open Timing

theorem gives_statistics {safe : Prop} {τ : Type} [TimeScale τ] {c : Computation}
    (sequence : List InstrId) (estimator : Estimator τ) (tracker : AsyncTracker τ)
    {sizing : Shape.Sizing} {pressure : Option Pressure}
    (h : safe → c.BytesFit sizing pressure) :
    Gives safe (c.statistics? sequence estimator.onNodes estimator tracker sizing pressure)
      (c.statistics sequence estimator tracker sizing pressure) := by
  unfold statistics? statistics Graph.build
  cases Graph.buildWith estimator.onNodes c sequence estimator tracker with
  | error fault => exact .some _
  | ok g => exact (gives_memoryPeak sequence h).map _

/-- The statistics of an order are the times of the machine that runs it forward. The machine
finishes when all costs and all waits have passed, and each wait is charged to one resource. There
are such statistics unless the bytes of all buffers, or those with a callee above them, leave the
range. -/
theorem statistics_inOrder {c : Computation} (built : c.Built) {sequence : List Nat}
    (horder : c.IsOrder sequence) (estimator : Estimator Rat) {tracker : AsyncTracker Rat}
    (free : ∀ c, tracker.demands c = []) (sizing : Shape.Sizing) (pressure : Option Pressure) :
    let program := sequence.filterMap c.instruction?
    let answer := c.statistics? sequence estimator.onNodes estimator tracker sizing pressure
    (c.BytesFit sizing pressure → answer ≠ none) ∧
      ∃ clock start, InOrder estimator tracker program clock start ∧
        ∀ outcome, answer = some outcome → ∃ stats, outcome = .ok stats ∧
          stats.totalCycles = clock program.length ∧
          (∀ r, stats.wasted.getD r 0 = ((program.zipIdx.filter (tracker.charged ·.1 = r)).map
            fun (_, k) => start k - clock k).sum) ∧
          stats.totalCycles = (program.map fun p => estimator.cost p.toInstruction).sum +
            stats.totalWasted := by
  intro program answer
  have hgives : Gives (c.BytesFit sizing pressure) answer
      (c.statistics sequence estimator tracker sizing pressure) :=
    gives_statistics sequence estimator tracker id
  obtain ⟨g, hbuild⟩ := Graph.exists_build built.wired (horder.admits built.wired) estimator tracker
  have inOrder := inOrder_of_build hbuild built.wired horder free
  have hlength : program.length = g.size := by
    change (sequence.filterMap c.instruction?).length = g.nodes.length
    rw [program_eq hbuild built.wired, List.length_map]
  have accounted := accounted g (Nat.le_refl g.size)
  refine ⟨fun fit => ?_, clock g, start g, inOrder, ?_⟩
  · rw [hgives.eq_some fit]
    exact Option.some_ne_none _
  intro outcome houtcome
  refine ⟨_, (hgives.eq_of_some houtcome).trans (statistics_of_build hbuild sizing pressure), ?_,
    ?_, ?_⟩
  · rw [hlength]
  · intro r
    rw [accounted.getD_eq, Graph.size, List.take_length]
    exact congrArg List.sum (waits_eq hbuild built.wired r fun k => start g k - clock g k)
  · have htotal := inOrder.clock_eq (Nat.le_refl _)
    rw [List.take_length] at htotal
    rw [Statistics.totalWasted, sum_eq, accounted.sum_eq, ← hlength]
    exact htotal

def twoStarts : Computation :=
  [{ name := "p", opcode := .parameter, shape := .array 4 },
    { name := "s", opcode := .allReduceStart, shape := .array 4, operands := [0] },
    { name := "t", opcode := .allReduceStart, shape := .array 4, operands := [0] },
    { name := "d", opcode := .allReduceDone, shape := .array 4, operands := [1, 2] }].foldl grown
    { name := "c" }

/-- The done waits for the later of its starts, which finishes at time 3. -/
theorem statistics_inOrder_twoStarts : twoStarts.Built ∧ twoStarts.IsOrder [0, 1, 2, 3] ∧
    twoStarts.BytesFit Shape.byteSize none ∧
    ∃ stats clock start, twoStarts.statistics? [0, 1, 2, 3]
        (Estimator.approximate : Estimator Rat).onNodes Estimator.approximate
        (AsyncTracker.generic {}) Shape.byteSize none = some (.ok stats) ∧
      InOrder Estimator.approximate (AsyncTracker.generic {}) twoStarts.instructions clock start ∧
      stats.totalCycles = clock 4 ∧ clock 4 = 5004 ∧ stats.wasted.getD .allReduce 0 = 5000 ∧
      stats.totalCycles = 4 + stats.totalWasted := by
  have built : twoStarts.Built := built_foldl_grown (.empty "c" false) _ rfl
  have horder : twoStarts.IsOrder [0, 1, 2, 3] := built.wired.isOrder_postOrder
  have free : ∀ c, (AsyncTracker.generic {} : AsyncTracker Rat).demands c = [] := fun _ => rfl
  have fit : twoStarts.BytesFit Shape.byteSize none := ⟨by decide +kernel, by decide +kernel⟩
  have hvalue : (twoStarts.statistics? [0, 1, 2, 3] (Estimator.approximate : Estimator Rat).onNodes
      Estimator.approximate (AsyncTracker.generic {}) Shape.byteSize none).bind (fun outcome =>
        outcome.toOption.map fun stats => (stats.totalCycles, stats.wasted.getD .allReduce 0)) =
      some (5004, 5000) := by decide +kernel
  obtain ⟨hsome, clock, start, inOrder, hstats⟩ :=
    statistics_inOrder built horder Estimator.approximate free Shape.byteSize none
  obtain ⟨outcome, houtcome⟩ := Option.ne_none_iff_exists'.1 (hsome fit)
  obtain ⟨stats, rfl, htotal, _, hsum⟩ := hstats outcome houtcome
  have hcosts : (([0, 1, 2, 3].filterMap twoStarts.instruction?).map fun p =>
      (Estimator.approximate : Estimator Rat).cost p.toInstruction).sum = 4 := by decide +kernel
  rw [hcosts] at hsum
  rw [houtcome] at hvalue
  obtain ⟨htime, hwasted⟩ := Prod.mk.inj (Option.some.inj hvalue)
  exact ⟨built, horder, fit, stats, clock, start, houtcome, inOrder, htotal, htotal ▸ htime,
    hwasted, hsum⟩

/-- There are no statistics of an order that needs more bytes than there are. -/
theorem no_statistics_halves : halves.Built ∧ halves.IsOrder [0, 1, 2] ∧
    (halves.statistics? [0, 1, 2] (Estimator.approximate : Estimator Rat).onNodes
      Estimator.approximate (AsyncTracker.generic {}) Shape.byteSize none) = none :=
  ⟨built_halves, built_halves.wired.isOrder_postOrder,
    Option.isNone_iff_eq_none.1 (by decide +kernel)⟩

end Computation

end LatencyHiding

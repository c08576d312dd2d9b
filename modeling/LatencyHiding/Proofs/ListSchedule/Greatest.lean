import LatencyHiding.Proofs.ListSchedule.Rescheduling
import LatencyHiding.Proofs.TimeScale.Binary64

set_option autoImplicit false

namespace LatencyHiding

open TimeScale

section Lexicographic

variable {α : Type}

def Lexicographic : List (α → α → Prop) → α → α → Prop
  | [], _, _ => False
  | better :: rest, a, b => better a b ∨ (¬ better b a ∧ Lexicographic rest a b)

theorem lexicographic_append (criteria rest : List (α → α → Prop)) (a b : α) :
    Lexicographic (criteria ++ rest) a b ↔ Lexicographic criteria a b ∨
      (¬ Lexicographic criteria b a ∧ Lexicographic rest a b) := by
  induction criteria with
  | nil => simp [Lexicographic]
  | cons better criteria ih =>
    simp only [List.cons_append, Lexicographic, ih]
    tauto

structure Follows (P : α → Prop) (rule : α → α → Option Bool) (criteria : List (α → α → Prop)) :
    Prop where
  ranks : Ranks P rule
  wins : ∀ {a b}, P a → P b → (rule a b = some true ↔ Lexicographic criteria a b)

namespace Follows

variable {P : α → Prop} {rule rule' : α → α → Option Bool}
  {criteria criteria' : List (α → α → Prop)}

theorem single {better : α → α → Prop} (ranks : Ranks P rule)
    (hwins : ∀ {a b}, P a → P b → (rule a b = some true ↔ better a b)) :
    Follows P rule [better] where
  ranks := ranks
  wins ha hb := by simp [hwins ha hb, Lexicographic]

theorem loses (h : Follows P rule criteria) {a b : α} (ha : P a) (hb : P b) :
    rule a b = some false ↔ Lexicographic criteria b a := by
  rw [← h.wins hb ha, h.ranks.swap ha hb]
  simp

theorem or (h : Follows P rule criteria) (h' : Follows P rule' criteria') :
    Follows P (fun a b => (rule a b).or (rule' a b)) (criteria ++ criteria') where
  ranks := h.ranks.or h'.ranks
  wins {a b} ha hb := by
    rw [lexicographic_append, ← h.wins ha hb, ← h.loses ha hb, ← h'.wins ha hb]
    cases rule a b with
    | none => simp
    | some better => cases better <;> simp

end Follows

end Lexicographic

namespace Candidate

variable {τ : Type}

def FitsWithin (limit usage : UInt64) (c : Candidate τ) : Prop :=
  usage.toNat + c.memory.peak.toNat ≤ limit.toNat

variable [TimeScale τ] [Ordered τ]

end Candidate

namespace Scheduler

open Candidate

variable {τ : Type} [TimeScale τ]

/-- What a candidate can be ahead by, the most important first. -/
def criteria (s : Scheduler τ) (st : ScheduleState τ) : List (Candidate τ → Candidate τ → Prop) :=
  let limit := s.settings.memoryLimit
  let usage := st.memory.totalUsage
  [fun a b => a.forceDelay = false ∧ b.forceDelay = true,
    fun a b => b.asyncDepth < a.asyncDepth,
    fun a b => limit ≠ Settings.unlimitedMemory ∧ a.FitsWithin limit usage ∧
      ¬ b.FitsWithin limit usage,
    fun a b => limit ≠ Settings.unlimitedMemory ∧ ¬ a.FitsWithin limit usage ∧
      ¬ b.FitsWithin limit usage ∧ a.memory.increase < b.memory.increase,
    fun a b => s.settings.aggressive = true ∧ a.isDone = true ∧ b.isDone = false,
    fun a b => a.readyTime ≤ st.time ∧ ¬ b.readyTime ≤ st.time,
    fun a b => st.time < a.readyTime ∧ a.readyTime < b.readyTime,
    fun a b => b.position < a.position]

end Scheduler

namespace ScheduleState

open LatencyHiding.Graph

variable {τ : Type} [TimeScale τ]

def Dated (s : ScheduleState τ) : Prop :=
  ∀ n ∈ s.graph.nodes, n.scheduled = false → IsReading n.readyTime

variable [Ordered τ] {s : ScheduleState τ}

theorem Dated.relieve (dated : s.Dated) (i : Nat) : (s.relieve i).Dated := by
  have hrelieved : ∀ n ∈ (s.graph.modify i relieved).nodes,
      n.scheduled = false → IsReading n.readyTime :=
    forall_nodes_modify (f := relieved) dated (fun _ h => h) i
  rw [relieve_eq]
  split
  · exact forall_nodes_modify hrelieved (fun _ _ _ => isReading_zero.latest _) i
  · exact hrelieved

theorem Dated.place (dated : s.Dated) (index : Nat) (n : Node τ) : (s.place index n).Dated := by
  have hput : (s.put index n (s.placingTime n)).Dated :=
    forall_nodes_modify dated (fun _ _ h => by cases h) index
  have hcleared : (s.cleared index n).Dated :=
    (keeps_settleSuccessors _ n fun _ _ => rfl).forall_nodes hput
  rw [place_eq]
  generalize s.cleared index n = s at hcleared
  induction n.predecessors.map (·.target) generalizing s with
  | nil => exact hcleared
  | cons i rest ih => exact ih _ (hcleared.relieve i)

end ScheduleState

namespace Scheduler

open Candidate

variable {τ : Type}

/-- Of a ready node that is feasible, or of any ready node if none is feasible. -/
def Contends (s : Scheduler τ) (st : ScheduleState τ) (x : Candidate τ) : Prop :=
  ∃ u ∈ st.ready, ∃ n, st.graph.node? u = some n ∧ x = s.candidate st u n ∧
    (s.isFeasible st n = true ∨
      ∀ v ∈ st.ready, ∀ p, st.graph.node? v = some p → s.isFeasible st p = false)

theorem contends_perm_iff (s : Scheduler τ) (st : ScheduleState τ) {ready : List Nat}
    (hperm : ready.Perm st.ready) (x : Candidate τ) :
    s.Contends { st with ready } x ↔ s.Contends st x := by
  unfold Contends
  simp only [hperm.mem_iff]
  rfl

variable [TimeScale τ]

structure Comparable (s : Scheduler τ) (st : ScheduleState τ) : Prop where
  timed : ∀ x, s.Contends st x → x.Timed
  apart : ∀ x y, s.Contends st x → s.Contends st y → x.position = y.position → x = y

variable {s : Scheduler τ} {c : Computation} {sequence : List Nat} {m : Option Module}
  {pressure : Option Pressure} {st : ScheduleState τ}

namespace Comparable

theorem perm (h : s.Comparable st) {ready : List Nat} (hperm : ready.Perm st.ready) :
    s.Comparable { st with ready } where
  timed x hx := h.timed x ((contends_perm_iff s st hperm x).1 hx)
  apart x y hx hy := h.apart x y ((contends_perm_iff s st hperm x).1 hx)
    ((contends_perm_iff s st hperm y).1 hy)

variable [Ordered τ]

end Comparable

end Scheduler

end LatencyHiding

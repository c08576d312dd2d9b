import LatencyHiding.Proofs.KeyedList
import LatencyHiding.Proofs.Program.Assembly

set_option autoImplicit false

namespace LatencyHiding.Module

variable {m m' : Module}

theorem checkSchedule_eq_ok_iff (wired : ∀ c ∈ m.computations, c.Wired) (schedule : Schedule) :
    m.checkSchedule schedule = .ok () ↔ ∀ c ∈ m.computations, ∃ sequence,
      schedule.get? c.name = some sequence ∧ c.IsOrder sequence := by
  unfold checkSchedule
  rw [forM_eq_ok_iff]
  apply forall₂_congr
  intro c hc
  cases schedule.get? c.name with
  | none => simp
  | some sequence => simpa using Computation.checkOrder_eq_ok_iff (wired c hc) sequence

theorem setSchedule_eq_ok_iff (wired : ∀ c ∈ m.computations, c.Wired) (schedule : Schedule) :
    m.setSchedule schedule = .ok m' ↔
      (∀ c ∈ m.computations, ∃ sequence,
        schedule.get? c.name = some sequence ∧ c.IsOrder sequence) ∧ m' = { m with schedule := some schedule } := by
  unfold setSchedule
  rw [bind_eq_ok_iff, ← checkSchedule_eq_ok_iff wired]
  constructor
  · rintro ⟨⟨⟩, hall, h⟩
    exact ⟨hall, (Except.ok.inj h).symm⟩
  · rintro ⟨hall, rfl⟩
    exact ⟨⟨⟩, hall, rfl⟩

theorem get?_postOrderSchedule (nodup : (m.computations.map (·.name)).Nodup) {c : Computation}
    (hc : c ∈ m.computations) : m.postOrderSchedule.get? c.name = some c.postOrder := by
  apply KeyedList.get?_ofList
  · rwa [List.map_map]
  · exact List.mem_map_of_mem hc

/-- Modules are assembled from computations, and may get a schedule afterwards. -/
inductive Made : Module → Prop where
  | assembled {name : String} {computations : List Computation} {entry : Option String} {m : Module}
    (built : ∀ c ∈ computations, c.Built) (h : assemble name computations entry = .ok m) : Made m
  | scheduled {m m' : Module} {schedule : Schedule} (made : Made m)
    (h : m.setSchedule schedule = .ok m') : Made m'

structure Sound (m : Module) : Prop where
  nodup : (m.computations.map (·.name)).Nodup
  callees_known : ∀ c ∈ m.computations, ∀ callee ∈ c.callees, callee ∈ m.computations.map (·.name)
  wired : ∀ c ∈ m.computations, c.Wired
  scheduled : ∀ c ∈ m.computations, c.IsOrder (orderIn m.currentSchedule c)

theorem orderIn_of_get? {schedule : Schedule} {c : Computation} {sequence : List InstrId}
    (h : schedule.get? c.name = some sequence) : orderIn schedule c = sequence := by
  rw [orderIn, KeyedList.getD, h, Option.getD_some]

theorem orderIn_set_self (schedule : Schedule) (c : Computation) (sequence : List InstrId) :
    orderIn (schedule.set c.name sequence) c = sequence :=
  orderIn_of_get? (KeyedList.get?_set_self _ _ _)

theorem orderIn_set_of_ne (schedule : Schedule) {c : Computation} {name : String}
    (h : c.name ≠ name) (sequence : List InstrId) :
    orderIn (schedule.set name sequence) c = orderIn schedule c := by
  unfold orderIn KeyedList.getD
  rw [KeyedList.get?_set_of_ne h]

theorem sound_of_assemble {name : String} {computations : List Computation} {entry : Option String}
    (wired : ∀ c ∈ computations, c.Wired) (h : assemble name computations entry = .ok m) :
    m.Sound := by
  obtain ⟨hnone, complete, hcomplete, halike⟩ := assemble_ok h
  have hfit := (exists_assemble_iff name computations entry).1 ⟨m, h⟩
  have hnames : m.computations.map (·.name) = computations.map (·.name) := by
    rw [hcomplete, List.map_map]
    exact List.map_congr_left fun c _ => (halike c).name_eq
  have hnodup : (m.computations.map (·.name)).Nodup := hnames ▸ hfit.nodup
  have hwired : ∀ c ∈ m.computations, c.Wired := by
    rw [hcomplete, List.forall_mem_map]
    exact fun c hc => (halike c).wired (wired c hc)
  refine ⟨hnodup, ?_, hwired, ?_⟩
  · rw [hnames, hcomplete, List.forall_mem_map]
    intro c hc
    rw [(halike c).callees_eq]
    exact hfit.callees_known c hc
  · intro c hc
    rw [currentSchedule, hnone, Option.getD_none,
      orderIn_of_get? (get?_postOrderSchedule hnodup hc)]
    exact (hwired c hc).isOrder_postOrder

theorem Sound.setSchedule (sound : m.Sound) {schedule : Schedule}
    (h : m.setSchedule schedule = .ok m') : m'.Sound := by
  obtain ⟨horders, rfl⟩ := (setSchedule_eq_ok_iff sound.wired schedule).1 h
  refine ⟨sound.nodup, sound.callees_known, sound.wired, ?_⟩
  intro c hc
  obtain ⟨sequence, hsequence, horder⟩ := horders c hc
  rw [currentSchedule, Option.getD_some, orderIn_of_get? hsequence]
  exact horder

theorem Made.sound (made : m.Made) : m.Sound := by
  induction made with
  | assembled built h => exact sound_of_assemble (fun c hc => (built c hc).wired) h
  | scheduled _ h ih => exact ih.setSchedule h

end LatencyHiding.Module

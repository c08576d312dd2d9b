import LatencyHiding.Pass
import LatencyHiding.Proofs.Buffer.Estimates
import LatencyHiding.Proofs.Program.ShapePaths

set_option autoImplicit false

namespace LatencyHiding

theorem Bytes.toNat_total_map {α : Type} {l : List α} {size : α → UInt64} {count : α → Nat}
    (hsize : ∀ a ∈ l, count a < UInt64.size → (size a).toNat = count a)
    (h : (l.map count).sum < UInt64.size) : (total (l.map size)).toNat = (l.map count).sum := by
  have hcounts : (l.map size).map UInt64.toNat = l.map count := by
    rw [List.map_map]
    apply List.map_congr_left
    intro a ha
    exact hsize a ha (Nat.lt_of_le_of_lt (List.le_sum_of_mem (List.mem_map_of_mem ha)) h)
  rw [toNat_total _ (by rwa [hcounts]), hcounts]

namespace Shape

def ownBytes : Shape → Nat
  | .array bytes => bytes.toNat
  | .tuple elements => 8 * elements.length

mutual

/-- Bytes of all arrays in a shape, and eight for each element of a tuple at any depth. -/
def wholeBytes : Shape → Nat
  | .array bytes => bytes.toNat
  | .tuple elements => 8 * elements.length + wholeBytesOf elements

def wholeBytesOf : List Shape → Nat
  | [] => 0
  | e :: rest => e.wholeBytes + wholeBytesOf rest

end

def parts (s : Shape) : List Shape := s.indices.filterMap s.at?

theorem parts_array (bytes : UInt64) : (array bytes).parts = [array bytes] := rfl

theorem filterMap_at?_indicesFrom (front back : List Shape) :
    (indicesFrom front.length back).filterMap (tuple (front ++ back)).at? =
      back.flatMap parts := by
  -- elements pass from the back to the front, where they only shift the first step of a path
  induction back generalizing front with
  | nil => rfl
  | cons e back ih =>
    have hthrough : (fun path => (tuple (front ++ e :: back)).at? (front.length :: path)) =
        e.at? := by
      funext path
      simp [at?, element?]
    have hrest := ih (front ++ [e])
    rw [List.length_append, List.length_singleton, List.append_assoc,
      List.singleton_append] at hrest
    rw [indicesFrom, List.filterMap_append, List.filterMap_map, hrest, List.flatMap_cons, parts,
      ← hthrough]
    rfl

theorem parts_tuple (elements : List Shape) :
    (tuple elements).parts = tuple elements :: elements.flatMap parts := by
  have hself : (tuple elements).at? [] = some (tuple elements) := rfl
  rw [parts, indices, List.filterMap_cons_some hself]
  exact congrArg _ (filterMap_at?_indicesFrom [] elements)

theorem sum_ownBytes_parts (s : Shape) : (s.parts.map ownBytes).sum = s.wholeBytes := by
  induction s using Shape.induction with
  | array bytes => simp [parts_array, ownBytes, wholeBytes]
  | tuple elements ih =>
    have hinside (l : List Shape) (h : ∀ e ∈ l, (e.parts.map ownBytes).sum = e.wholeBytes) :
        ((l.flatMap parts).map ownBytes).sum = wholeBytesOf l := by
      induction l with
      | nil => rfl
      | cons e l ihl =>
        obtain ⟨he, hl⟩ := List.forall_mem_cons.1 h
        rw [List.flatMap_cons, List.map_append, List.sum_append, he, ihl hl, wholeBytesOf]
    rw [parts_tuple, List.map_cons, List.sum_cons, hinside elements ih, ownBytes, wholeBytes]

theorem toNat_byteSize {s : Shape} (h : s.ownBytes < UInt64.size) :
    s.byteSize.toNat = s.ownBytes := by
  cases s with
  | array bytes => rfl
  | tuple elements =>
    change 8 * elements.length < UInt64.size at h
    rw [byteSize, UInt64.toNat_mul, Nat.toUInt64_eq, UInt64.toNat_ofNat_of_lt' (by omega)]
    exact Nat.mod_eq_of_lt h

/-- A shape that fits into the range is summed up without loss. -/
theorem toNat_totalSize {s : Shape} (h : s.wholeBytes < UInt64.size) :
    (s.totalSize byteSize).toNat = s.wholeBytes := by
  rw [← sum_ownBytes_parts] at h ⊢
  exact Bytes.toNat_total_map (fun t _ => toNat_byteSize) h

end Shape

namespace Computation

def parameterBytes (c : Computation) : Nat := (c.parameters.map (·.shape.wholeBytes)).sum

def resultBytes (c : Computation) : Nat := (c.root?.map (·.shape.wholeBytes)).getD 0

variable {c : Computation}

theorem toNat_total_parameters (h : c.parameterBytes < UInt64.size) :
    (Bytes.total (c.parameters.map (·.shape.totalSize Shape.byteSize))).toNat =
      c.parameterBytes :=
  Bytes.toNat_total_map (fun _ _ => Shape.toNat_totalSize) h

theorem toNat_total_root (h : c.resultBytes < UInt64.size) :
    ((c.root?.map (·.shape.totalSize Shape.byteSize)).getD (0 : UInt64)).toNat =
      c.resultBytes := by
  unfold resultBytes at h ⊢
  cases hroot : c.root? with
  | none => rfl
  | some p =>
    rw [hroot] at h
    exact Shape.toNat_totalSize h

end Computation

namespace Module

def entryBytes (m : Module) : Nat := m.entry.parameterBytes + m.entry.resultBytes

/-- So many percent of the device memory, less what the parameters and the result of the entry take,
in exact integers. -/
def exactMemoryLimit (m : Module) (deviceBytes : UInt64) (slopPercent : UInt32) : Int :=
  max 0 (((deviceBytes.toNat * slopPercent.toNat / 100 : Nat) : Int) - m.entryBytes)

variable {m : Module}

theorem toNat_deviceMemoryLimit (h : m.entryBytes < UInt64.size) (deviceBytes : UInt64)
    (slopPercent : UInt32) : (m.deviceMemoryLimit deviceBytes slopPercent).toNat =
      min (deviceBytes.toNat * slopPercent.toNat) (UInt64.size - 1) / 100 - m.entryBytes := by
  unfold entryBytes at h ⊢
  have hparameters : (Bytes.total _).toNat = m.entry.parameterBytes :=
    m.entry.toNat_total_parameters (Nat.lt_of_le_of_lt (Nat.le_add_right ..) h)
  have hresult : (Option.getD _ (0 : UInt64)).toNat = m.entry.resultBytes :=
    m.entry.toNat_total_root (Nat.lt_of_le_of_lt (Nat.le_add_left ..) h)
  unfold deviceMemoryLimit
  rw [Bytes.toNat_subStopping, UInt64.toNat_add, hparameters, hresult, Nat.mod_eq_of_lt h,
    UInt64.toNat_div, Bytes.toNat_mulStopping, UInt32.toNat_toUInt64]
  rfl

/-- The limit is the exact one if and only if the share of the device memory is at most a hundredth
of the range, or nothing is left of it anyway. Else it is what a hundredth of the range leaves. -/
theorem deviceMemoryLimit_exact_iff (h : m.entryBytes < UInt64.size) (deviceBytes : UInt64)
    (slopPercent : UInt32) :
    (((m.deviceMemoryLimit deviceBytes slopPercent).toNat : Int) =
        m.exactMemoryLimit deviceBytes slopPercent ↔
      deviceBytes.toNat * slopPercent.toNat / 100 ≤
        max ((UInt64.size - 1) / 100) m.entryBytes) ∧
    (m.deviceMemoryLimit deviceBytes slopPercent).toNat =
      min (deviceBytes.toNat * slopPercent.toNat / 100) ((UInt64.size - 1) / 100) -
        m.entryBytes := by
  have hlimit := toNat_deviceMemoryLimit h deviceBytes slopPercent
  have hshare : min (deviceBytes.toNat * slopPercent.toNat) (UInt64.size - 1) / 100 =
      min (deviceBytes.toNat * slopPercent.toNat / 100) ((UInt64.size - 1) / 100) := by
    omega
  rw [hshare] at hlimit
  refine ⟨?_, hlimit⟩
  rw [hlimit, exactMemoryLimit]
  omega

def wrappedParameter : Computation :=
  let nested : Shape := .tuple [.array 100, .tuple [.array 8, .array 8], .tuple []]
  [{ name := "p", opcode := .parameter, shape := nested },
    { name := "r", opcode := .tuple, shape := .tuple [nested], operands := [0] }].foldl
    Computation.grown { name := "main" }

theorem deviceMemoryLimit_wrappedParameter : ∃ m, assemble "m" [wrappedParameter] none = .ok m ∧
    m.entryBytes = 320 ∧ m.exactMemoryLimit 1000 95 = 630 ∧
    ((m.deviceMemoryLimit 1000 95).toNat : Int) = m.exactMemoryLimit 1000 95 := by
  refine ⟨_, rfl, by decide +kernel, by decide +kernel, ?_⟩
  exact (deviceMemoryLimit_exact_iff (by decide +kernel) 1000 95).1.2 (by decide +kernel)

def negatedParameter : Computation :=
  [{ name := "p", opcode := .parameter, shape := .array 100 },
    { name := "r", opcode := .negate, shape := .array 50, operands := [0] }].foldl
    Computation.grown { name := "main" }

/-- Of the largest device memory only a hundredth is counted. -/
theorem deviceMemoryLimit_negatedParameter : ∃ m, assemble "m" [negatedParameter] none = .ok m ∧
    m.entryBytes = 150 ∧
    (m.deviceMemoryLimit 0xFFFFFFFFFFFFFFFF 95).toNat = 184467440737095366 ∧
    m.exactMemoryLimit 0xFFFFFFFFFFFFFFFF 95 = 17524406870024073884 :=
  ⟨_, rfl, by decide +kernel, by decide +kernel, by decide +kernel⟩

end Module

end LatencyHiding

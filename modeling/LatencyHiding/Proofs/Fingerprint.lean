import LatencyHiding.Proofs.Program.Assembly
import LatencyHiding.Report

set_option autoImplicit false

/-!
What the fingerprint of an order tells apart. The bytes that are digested spell out the names of the
order and end each with a line feed, so two orders have the same bytes exactly if their names have
the same lines. A name of several lines may then pass for several names. If no name continues
another one after a line feed, none does, and different orders have different bytes.
-/

namespace LatencyHiding

section Words

variable {α β : Type}

theorem eq_of_flatMap_eq {word : α → List β} {l l' : List α} (hword : ∀ a, word a ≠ [])
    (hapart : ∀ a ∈ l, ∀ b ∈ l', word a <+: word b ∨ word b <+: word a → a = b)
    (h : l.flatMap word = l'.flatMap word) : l = l' := by
  induction l generalizing l' with
  | nil =>
    cases l' with
    | nil => rfl
    | cons b l' =>
      rw [List.flatMap_nil, List.flatMap_cons, eq_comm, List.append_eq_nil_iff] at h
      exact absurd h.1 (hword b)
  | cons a l ih =>
    cases l' with
    | nil =>
      rw [List.flatMap_nil, List.flatMap_cons, List.append_eq_nil_iff] at h
      exact absurd h.1 (hword a)
    | cons b l' =>
      rw [List.flatMap_cons, List.flatMap_cons] at h
      have hbegins : word a <+: word b ∨ word b <+: word a :=
        List.prefix_or_prefix_of_prefix ⟨_, h⟩ (List.prefix_append _ _)
      -- both rows begin with these two words, so one of them begins the other
      obtain rfl : a = b := hapart a List.mem_cons_self b List.mem_cons_self hbegins
      rw [ih (fun x hx y hy => hapart x (List.mem_cons_of_mem a hx) y (List.mem_cons_of_mem a hy))
        (List.append_cancel_left h)]

theorem prefix_ended_cases {l l' : List α} {mark : α}
    (h : l ++ [mark] <+: l' ++ [mark]) : l = l' ∨ l ++ [mark] <+: l' := by
  rcases List.prefix_concat_iff.1 h with heq | hinside
  · exact Or.inl (List.append_cancel_right heq)
  · exact Or.inr hinside

end Words

namespace Bytes

theorem toList_eq (bytes : ByteArray) : bytes.toList = bytes.data.toList := by
  -- the loop collects in reverse what it has seen
  have hloop (i : Nat) (seen : List UInt8) :
      ByteArray.toList.loop bytes i seen = seen.reverse ++ bytes.data.toList.drop i := by
    fun_induction ByteArray.toList.loop bytes i seen with
    | case1 i seen hi ih =>
      have hi' : i < bytes.data.toList.length := hi
      rw [ih, List.drop_eq_getElem_cons hi', List.reverse_cons, List.append_assoc]
      simp [ByteArray.get!, hi]
    | case2 i seen hi =>
      have hi' : bytes.data.toList.length ≤ i := Nat.le_of_not_lt hi
      rw [List.drop_eq_nil_of_le hi', List.append_nil]
  rw [ByteArray.toList, hloop]
  rfl

theorem toList_toUTF8_append (s t : String) :
    (s ++ t).toUTF8.toList = s.toUTF8.toList ++ t.toUTF8.toList := by
  simp [toList_eq]

theorem toList_toUTF8_inj {s t : String} : s.toUTF8.toList = t.toUTF8.toList ↔ s = t := by
  rw [toList_eq, toList_eq, Array.toList_inj, ← ByteArray.ext_iff, String.toUTF8_eq_toByteArray,
    String.toUTF8_eq_toByteArray, String.toByteArray_inj]

end Bytes

namespace Computation

def nameText (c : Computation) (id : InstrId) : List Char :=
  (((c.instruction? id).map (·.name)).getD "?").toList

def orderText (c : Computation) (sequence : List InstrId) : List Char :=
  sequence.flatMap fun id => c.nameText id ++ ['\n']

def nameLines (c : Computation) (id : InstrId) : List (List Char) := (c.nameText id).splitOn '\n'

theorem orderBytes_eq (c : Computation) (sequence : List InstrId) :
    c.orderBytes sequence = (String.ofList (c.orderText sequence)).toUTF8.toList := by
  induction sequence with
  | nil => rw [Bytes.toList_eq]; rfl
  | cons id rest ih =>
    have hfeed : ("\n" : String).toUTF8.toList = [10] := by rw [Bytes.toList_eq]; rfl
    unfold orderBytes orderText at ih ⊢
    rw [List.flatMap_cons, List.flatMap_cons, ih, String.ofList_append, String.ofList_append,
      Bytes.toList_toUTF8_append, Bytes.toList_toUTF8_append, nameText, String.ofList_toList,
      hfeed]

theorem orderBytes_eq_iff (c : Computation) (o o' : List InstrId) :
    c.orderBytes o = c.orderBytes o' ↔ c.orderText o = c.orderText o' := by
  rw [orderBytes_eq, orderBytes_eq, Bytes.toList_toUTF8_inj, String.ofList_inj]

theorem splitOn_orderText (c : Computation) (sequence : List InstrId) :
    (c.orderText sequence).splitOn '\n' = sequence.flatMap c.nameLines ++ [[]] := by
  induction sequence with
  | nil => rfl
  | cons id rest ih =>
    unfold orderText at ih ⊢
    rw [List.flatMap_cons, List.append_assoc, List.singleton_append, List.splitOn_append_cons_self,
      ih, List.flatMap_cons, List.append_assoc, nameLines]

theorem orderText_eq_iff (c : Computation) (o o' : List InstrId) :
    c.orderText o = c.orderText o' ↔ o.flatMap c.nameLines = o'.flatMap c.nameLines := by
  constructor
  · intro h
    have hlines := congrArg (List.splitOn '\n') h
    rw [splitOn_orderText, splitOn_orderText] at hlines
    exact List.append_cancel_right hlines
  · intro h
    calc
      c.orderText o = ['\n'].intercalate ((c.orderText o).splitOn '\n') :=
        (List.intercalate_splitOn '\n').symm
      _ = ['\n'].intercalate ((c.orderText o').splitOn '\n') := by
        rw [splitOn_orderText, splitOn_orderText, h]
      _ = c.orderText o' := List.intercalate_splitOn '\n'

/-- No name goes on behind another one and a line feed. -/
def Unextended (c : Computation) : Prop :=
  ∀ p ∈ c.instructions, ∀ q ∈ c.instructions, ¬ p.name.toList ++ ['\n'] <+: q.name.toList

instance (c : Computation) : Decidable c.Unextended :=
  inferInstanceAs (Decidable (∀ p ∈ c.instructions, ∀ q ∈ c.instructions,
    ¬ p.name.toList ++ ['\n'] <+: q.name.toList))

variable {c : Computation}

theorem Built.eq_of_name_eq (built : c.Built) {a b : Nat} {p q : Placed}
    (hp : c.instruction? a = some p) (hq : c.instruction? b = some q) (h : p.name = q.name) :
    a = b := by
  have hlt : a < c.names.length := by
    rw [length_names]
    exact lt_size_of_instruction? hp
  have hsame : c.names[a]? = c.names[b]? := by
    rw [getElem?_names, getElem?_names, hp, hq, Option.map_some, Option.map_some, h]
  exact (List.getElem?_inj hlt built.nodup_names).1 hsame

theorem Built.eq_of_prefix_nameText (built : c.Built) (hnames : c.Unextended) {a b : Nat}
    (ha : a < c.size) (hb : b < c.size)
    (h : c.nameText a ++ ['\n'] <+: c.nameText b ++ ['\n']) : a = b := by
  obtain ⟨p, hp⟩ := exists_instruction? ha
  obtain ⟨q, hq⟩ := exists_instruction? hb
  unfold nameText at h
  rw [hp, hq] at h
  rcases prefix_ended_cases h with hsame | hinside
  · exact built.eq_of_name_eq hp hq (String.toList_inj.1 hsame)
  · exact absurd hinside (hnames p ((mem_instructions_iff c p).2 ⟨a, hp⟩) q
      ((mem_instructions_iff c q).2 ⟨b, hq⟩))

/-- Two orders that pass the check have the same bytes exactly if their names, one after another,
have the same lines. If no name continues another one on a new line, different orders have different
bytes. -/
theorem orderBytes_tell_apart (built : c.Built) {o o' : List InstrId}
    (ho : c.checkOrder o = .ok ()) (ho' : c.checkOrder o' = .ok ()) :
    (c.orderBytes o = c.orderBytes o' ↔ o.flatMap c.nameLines = o'.flatMap c.nameLines) ∧
    (c.Unextended → o ≠ o' → c.orderBytes o ≠ c.orderBytes o') := by
  refine ⟨(orderBytes_eq_iff c o o').trans (orderText_eq_iff c o o'), ?_⟩
  intro hnames hne hbytes
  have hc := built.wired
  have hknown {sequence : List InstrId} (h : c.checkOrder sequence = .ok ()) :
      ∀ id ∈ sequence, id < c.size := by
    intro id hid
    have hperm := ((checkOrder_eq_ok_iff hc sequence).1 h).perm
    exact List.mem_range.1 (hperm.mem_iff.1 hid)
  refine hne (eq_of_flatMap_eq (fun _ => by simp) ?_ ((orderBytes_eq_iff c o o').1 hbytes))
  rintro a ha b hb (hbegins | hbegins)
  · exact built.eq_of_prefix_nameText hnames (hknown ho a ha) (hknown ho' b hb) hbegins
  · exact (built.eq_of_prefix_nameText hnames (hknown ho' b hb) (hknown ho a ha) hbegins).symm

def stanza : Computation :=
  [{ name := "a\nb", opcode := .constant, shape := .array 4 },
    { name := "b", opcode := .constant, shape := .array 4 }].foldl grown { name := "c" }

theorem orderBytes_stanza : stanza.Built ∧ stanza.checkOrder [0, 1] = .ok () ∧
    stanza.checkOrder [1, 0] = .ok () ∧ stanza.Unextended ∧
    stanza.orderBytes [0, 1] ≠ stanza.orderBytes [1, 0] := by
  have built : stanza.Built := built_foldl_grown (.empty "c" false) _ rfl
  have hnames : stanza.Unextended := by decide
  exact ⟨built, rfl, rfl, hnames, (orderBytes_tell_apart built rfl rfl).2 hnames (by decide)⟩

def echo : Computation :=
  [{ name := "a", opcode := .customCall, shape := .array 4, hint := some .latest },
    { name := "a\na", opcode := .constant, shape := .array 4 },
    { name := "r", opcode := .add, shape := .array 4, operands := [0, 1] }].foldl grown
    { name := "c" }

theorem orderBytes_echo : echo.Built ∧ echo.checkOrder [0, 1, 2] = .ok () ∧
    echo.checkOrder [1, 0, 2] = .ok () ∧
    echo.orderBytes [0, 1, 2] = echo.orderBytes [1, 0, 2] := by
  refine ⟨built_foldl_grown (.empty "c" false) _ rfl, rfl, rfl, ?_⟩
  rw [orderBytes_eq_iff]
  decide

end Computation

end LatencyHiding

import LatencyHiding.Digraph
import LatencyHiding.Proofs.Dependence.Cycles

set_option autoImplicit false

namespace LatencyHiding.Digraph

open Relation

variable {α : Type}

def Steps (next : α → List α) (a b : α) : Prop := b ∈ next a

def visit [DecidableEq α] (next : α → List α) : (depth : Nat) → Walk α → α → Walk α
  | 0, w, _ => w
  | depth + 1, w, n =>
    if n ∈ w.discovered then w
    else
      let below := (next n).foldl (visit next depth) { w with discovered := n :: w.discovered }
      { below with finished := n :: below.finished }

structure Walk.Sound (next : α → List α) (nodes stack : List α) (w : Walk α) : Prop where
  stack_nodup : stack.Nodup
  finished_nodup : w.finished.Nodup
  not_finished : ∀ a ∈ stack, a ∉ w.finished
  discovered_iff : ∀ a, a ∈ w.discovered ↔ a ∈ stack ∨ a ∈ w.finished
  mem_nodes : ∀ a ∈ w.discovered, a ∈ nodes
  closed : ∀ a ∈ w.finished, ∀ b ∈ next a, b ∈ w.discovered
  grounded : (∀ a, ¬ TransGen (Steps next) a a) → Grounded (Steps next) w.finished

namespace Walk.Sound

variable {next : α → List α} {nodes stack : List α} {w : Walk α} {n : α}

theorem empty (next : α → List α) (nodes : List α) : Sound next nodes [] {} where
  stack_nodup := List.nodup_nil
  finished_nodup := List.nodup_nil
  not_finished := by simp
  discovered_iff := by simp
  mem_nodes := by simp
  closed := by simp
  grounded _ := trivial

theorem length_stack_le (sound : Sound next nodes stack w) : stack.length ≤ nodes.length := by
  have hsub : stack ⊆ nodes := fun a ha =>
    sound.mem_nodes a ((sound.discovered_iff a).2 (Or.inl ha))
  exact (List.subperm_of_subset sound.stack_nodup hsub).length_le

theorem push (sound : Sound next nodes stack w) (hn : n ∈ nodes) (hnew : n ∉ w.discovered) :
    Sound next nodes (n :: stack) { w with discovered := n :: w.discovered } := by
  have hstack : n ∉ stack := fun h => hnew ((sound.discovered_iff n).2 (Or.inl h))
  have hfinished : n ∉ w.finished := fun h => hnew ((sound.discovered_iff n).2 (Or.inr h))
  exact
    { stack_nodup := List.nodup_cons.2 ⟨hstack, sound.stack_nodup⟩
      finished_nodup := sound.finished_nodup
      not_finished := List.forall_mem_cons.2 ⟨hfinished, sound.not_finished⟩
      discovered_iff := by
        intro a
        simp only [List.mem_cons, sound.discovered_iff a, or_assoc]
      mem_nodes := List.forall_mem_cons.2 ⟨hn, sound.mem_nodes⟩
      closed := fun a ha b hb => List.mem_cons_of_mem n (sound.closed a ha b hb)
      grounded := sound.grounded }

theorem pop (sound : Sound next nodes (n :: stack) w)
    (hpath : ∀ a ∈ stack, TransGen (Steps next) a n) (hnext : ∀ b ∈ next n, b ∈ w.discovered) :
    Sound next nodes stack { w with finished := n :: w.finished } := by
  obtain ⟨hn, hstack⟩ := List.nodup_cons.1 sound.stack_nodup
  obtain ⟨hfinished, hrest⟩ := List.forall_mem_cons.1 sound.not_finished
  exact
    { stack_nodup := hstack
      finished_nodup := List.nodup_cons.2 ⟨hfinished, sound.finished_nodup⟩
      not_finished := by
        intro a ha
        have hne : a ≠ n := fun h => hn (h ▸ ha)
        simp [hne, hrest a ha]
      discovered_iff := by
        intro a
        simp only [sound.discovered_iff a, List.mem_cons]
        tauto
      mem_nodes := sound.mem_nodes
      closed := List.forall_mem_cons.2 ⟨hnext, sound.closed⟩
      grounded := by
        intro acyclic
        refine ⟨?_, sound.grounded acyclic⟩
        intro b hb
        -- a neighbour that is still on the stack would close a cycle
        rcases (sound.discovered_iff b).1 (hnext b hb) with hopen | hdone
        · rcases List.mem_cons.1 hopen with rfl | hopen
          · exact (acyclic b (TransGen.single hb)).elim
          · exact (acyclic b ((hpath b hopen).tail hb)).elim
        · exact hdone }

theorem foldl (step : Walk α → α → Walk α)
    (hstep : ∀ w n, Sound next nodes stack w → n ∈ nodes →
      (∀ a ∈ stack, TransGen (Steps next) a n) → Sound next nodes stack (step w n) ∧ n ∈ (step w n).discovered ∧
        w.discovered ⊆ (step w n).discovered)
    (l : List α) (sound : Sound next nodes stack w)
    (hl : ∀ b ∈ l, b ∈ nodes ∧ ∀ a ∈ stack, TransGen (Steps next) a b) :
    Sound next nodes stack (l.foldl step w) ∧ l ⊆ (l.foldl step w).discovered ∧
      w.discovered ⊆ (l.foldl step w).discovered := by
  induction l generalizing w with
  | nil => exact ⟨sound, List.nil_subset _, List.Subset.refl _⟩
  | cons b rest ih =>
    obtain ⟨⟨hb, hpath⟩, hrest⟩ := List.forall_mem_cons.1 hl
    obtain ⟨hsound, hmet, hgrow⟩ := hstep w b sound hb hpath
    obtain ⟨hsound', hmet', hgrow'⟩ := ih hsound hrest
    exact ⟨hsound', List.cons_subset.2 ⟨hgrow' hmet, hmet'⟩, fun a ha => hgrow' (hgrow ha)⟩

variable [DecidableEq α]

theorem visit (hnodes : ∀ a ∈ nodes, ∀ b ∈ next a, b ∈ nodes) (depth : Nat)
    (sound : Sound next nodes stack w) (hn : n ∈ nodes)
    (hpath : ∀ a ∈ stack, TransGen (Steps next) a n)
    (hdepth : nodes.length < depth + stack.length) :
    Sound next nodes stack (Digraph.visit next depth w n) ∧
      n ∈ (Digraph.visit next depth w n).discovered ∧
      w.discovered ⊆ (Digraph.visit next depth w n).discovered := by
  induction depth generalizing w n stack with
  | zero =>
    have := sound.length_stack_le
    omega
  | succ depth ih =>
    by_cases hmet : n ∈ w.discovered
    · rw [Digraph.visit, if_pos hmet]
      exact ⟨sound, hmet, List.Subset.refl _⟩
    · rw [Digraph.visit, if_neg hmet]
      obtain ⟨hsound, hneighbours, hgrow⟩ := foldl (Digraph.visit next depth)
        (fun w b hw hb hpath => ih hw hb hpath (by simp only [List.length_cons]; omega))
        (next n) (sound.push hn hmet) (by
          intro b hb
          refine ⟨hnodes n hn b hb, List.forall_mem_cons.2 ⟨TransGen.single hb, ?_⟩⟩
          exact fun a ha => (hpath a ha).tail hb)
      refine ⟨hsound.pop hpath hneighbours, hgrow List.mem_cons_self, ?_⟩
      exact fun a ha => hgrow (List.mem_cons_of_mem n ha)

theorem foldl_visit (hnodes : ∀ a ∈ nodes, ∀ b ∈ next a, b ∈ nodes) (roots : List α)
    (hroots : roots ⊆ nodes) (sound : Sound next nodes [] w) :
    Sound next nodes [] (roots.foldl (Digraph.visit next (nodes.length + 1)) w) ∧
      roots ⊆ (roots.foldl (Digraph.visit next (nodes.length + 1)) w).finished := by
  obtain ⟨hsound, hmet, _⟩ := foldl (Digraph.visit next (nodes.length + 1))
    (fun w n hw hn hpath => visit hnodes (nodes.length + 1) hw hn hpath (by simp)) roots sound
    fun b hb => ⟨hroots hb, by simp⟩
  refine ⟨hsound, ?_⟩
  intro a ha
  simpa using (hsound.discovered_iff a).1 (hmet ha)

end Walk.Sound

/-- `w'` is `w` gone on with: what it has met beyond `w` satisfies `P`, and what `w` had finished
stays finished first. -/
structure Walk.Continues (P : α → Prop) (w w' : Walk α) : Prop where
  suffix : w.finished <:+ w'.finished
  met : ∀ a ∈ w'.discovered, a ∈ w.discovered ∨ P a

namespace Walk.Continues

variable {P Q : α → Prop} {next : α → List α} {nodes : List α} {w w' w'' : Walk α} {root : α}

theorem refl (P : α → Prop) (w : Walk α) : Continues P w w := ⟨List.suffix_rfl, fun _ => Or.inl⟩

theorem trans (h : Continues P w w') (h' : Continues P w' w'') : Continues P w w'' where
  suffix := h.suffix.trans h'.suffix
  met a ha := (h'.met a ha).elim (h.met a) Or.inr

theorem mono (h : Continues P w w') (hPQ : ∀ a, P a → Q a) : Continues Q w w' where
  suffix := h.suffix
  met a ha := (h.met a ha).imp id (hPQ a)

theorem foldl {step : Walk α → α → Walk α} (l : List α)
    (hstep : ∀ w, ∀ b ∈ l, Continues P w (step w b)) (w : Walk α) :
    Continues P w (l.foldl step w) := by
  induction l generalizing w with
  | nil => exact refl P w
  | cons b rest ih =>
    exact (hstep w b List.mem_cons_self).trans
      (ih (fun w c hc => hstep w c (List.mem_cons_of_mem b hc)) (step w b))

variable [DecidableEq α]

theorem visit (next : α → List α) (depth : Nat) (w : Walk α) (n : α) :
    Continues (ReflTransGen (Steps next) n) w (Digraph.visit next depth w n) := by
  induction depth generalizing w n with
  | zero => exact refl _ w
  | succ depth ih =>
    rw [Digraph.visit]
    split
    · exact refl _ w
    · have hpush : Continues (ReflTransGen (Steps next) n) w
          { w with discovered := n :: w.discovered } := by
        refine ⟨List.suffix_rfl, List.forall_mem_cons.2 ⟨Or.inr ReflTransGen.refl, ?_⟩⟩
        exact fun a ha => Or.inl ha
      have hbelow := foldl (next n)
        (fun w b hb => (ih w b).mono fun a ha => ReflTransGen.head (show Steps next n b from hb) ha)
        { w with discovered := n :: w.discovered }
      exact ⟨(hpush.trans hbelow).suffix.trans (List.suffix_cons _ _), (hpush.trans hbelow).met⟩

theorem mem_finished_visit_iff (hnodes : ∀ a ∈ nodes, ∀ b ∈ next a, b ∈ nodes)
    (hroot : root ∈ nodes) (a : α) :
    a ∈ (Digraph.visit next (nodes.length + 1) {} root).finished ↔
      ReflTransGen (Steps next) root a := by
  obtain ⟨sound, hmet, _⟩ := (Sound.empty next nodes).visit hnodes (nodes.length + 1) hroot
    (by simp) (by simp)
  have hiff (a : α) := sound.discovered_iff a
  simp only [List.not_mem_nil, false_or] at hiff
  rw [← hiff]
  constructor
  · intro ha
    simpa using (visit next (nodes.length + 1) {} root).met a ha
  · intro ha
    induction ha with
    | refl => exact hmet
    | tail _ hstep ih => exact sound.closed _ ((hiff _).1 ih) _ hstep

end Walk.Continues

end LatencyHiding.Digraph

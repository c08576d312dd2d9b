import LatencyHiding.Program.Module
import Mathlib

set_option autoImplicit false

namespace LatencyHiding.Module

variable {m : Module} {w : Walk} {name : String} {c : Computation}

/-- Visit a computation unless it was visited: first everything it calls, then finish it. A walk
goes down at most once per computation, which bounds `depth`. -/
def visit (m : Module) : (depth : Nat) → Walk → String → Walk
  | 0, w, _ => w
  | depth + 1, w, name =>
    match m.find? name with
    | none => w
    | some c =>
      if name ∈ w.visited then w
      else
        let below := c.callees.foldl (m.visit depth) { w with visited := name :: w.visited }
        { below with finished := below.finished ++ [name] }

theorem visit_of_unknown (h : m.find? name = none) (depth : Nat) (w : Walk) :
    m.visit depth w name = w := by
  cases depth with
  | zero => rfl
  | succ depth => simp only [visit, h]

theorem visit_of_visited (h : name ∈ w.visited) (depth : Nat) : m.visit depth w name = w := by
  cases depth with
  | zero => rfl
  | succ depth =>
    cases hfind : m.find? name with
    | none => exact visit_of_unknown hfind _ w
    | some c => simp only [visit, hfind, if_pos h]

theorem visit_of_new (hfind : m.find? name = some c) (hnew : name ∉ w.visited) (depth : Nat) :
    m.visit (depth + 1) w name =
      let below := c.callees.foldl (m.visit depth) { w with visited := name :: w.visited }
      { below with finished := below.finished ++ [name] } := by
  simp only [visit, hfind, if_neg hnew]

theorem visited_subset_foldl {step : Walk → String → Walk}
    (hstep : ∀ w name, w.visited ⊆ (step w name).visited) (l : List String) (w : Walk) :
    w.visited ⊆ (l.foldl step w).visited := by
  induction l generalizing w with
  | nil => exact List.Subset.refl _
  | cons name rest ih => exact List.Subset.trans (hstep w name) (ih _)

theorem visited_subset_visit (m : Module) (depth : Nat) (w : Walk) (name : String) :
    w.visited ⊆ (m.visit depth w name).visited := by
  induction depth generalizing w name with
  | zero => exact List.Subset.refl _
  | succ depth ih =>
    cases hfind : m.find? name with
    | none => rw [visit_of_unknown hfind]; exact List.Subset.refl _
    | some c =>
      by_cases hvisited : name ∈ w.visited
      · rw [visit_of_visited hvisited]
        exact List.Subset.refl _
      · rw [visit_of_new hfind hvisited]
        exact List.Subset.trans (List.subset_cons_self name _)
          (visited_subset_foldl ih c.callees { w with visited := name :: w.visited })

theorem mem_visited_of_visit (hfind : m.find? name = some c) (depth : Nat) (w : Walk) :
    name ∈ (m.visit (depth + 1) w name).visited := by
  by_cases hvisited : name ∈ w.visited
  · exact visited_subset_visit m _ w name hvisited
  · rw [visit_of_new hfind hvisited]
    exact visited_subset_foldl (m.visited_subset_visit depth) c.callees _ List.mem_cons_self

/-- It makes no difference if those are left out that a visit would leave at once. -/
theorem foldl_visit_filter {keeps : String → Bool} (depth : Nat) (l : List String) (w : Walk)
    (hkeeps : ∀ name ∈ l, keeps name = false → m.find? name = none ∨ name ∈ w.visited) :
    (l.filter keeps).foldl (m.visit depth) w = l.foldl (m.visit depth) w := by
  induction l generalizing w with
  | nil => rfl
  | cons name rest ih =>
    obtain ⟨hname, hrest⟩ := List.forall_mem_cons.1 hkeeps
    have hlater (w' : Walk) (hgrow : w.visited ⊆ w'.visited) :
        (rest.filter keeps).foldl (m.visit depth) w' = rest.foldl (m.visit depth) w' :=
      ih w' fun a ha h => (hrest a ha h).imp_right fun hvisited => hgrow hvisited
    cases hkeep : keeps name with
    | true =>
      rw [List.filter_cons_of_pos hkeep, List.foldl_cons, List.foldl_cons]
      exact hlater _ (visited_subset_visit m depth w name)
    | false =>
      have hstay : m.visit depth w name = w :=
        (hname hkeep).elim (fun h => visit_of_unknown h depth w) fun h => visit_of_visited h depth
      rw [List.filter_cons_of_neg (by simp [hkeep]), List.foldl_cons, hstay]
      exact hlater w (List.Subset.refl _)

def dues (m : Module) (w : Walk) : Nat :=
  ((m.computations.filter (·.name ∉ w.visited)).map fun c => c.callees.length + 1).sum

def turnsLeft (m : Module) (stack : List Errand) (w : Walk) : Nat := stack.length + m.dues w

theorem dues_le (m : Module) (w : Walk) : m.dues w ≤ m.errandBound := by
  have hbound : m.errandBound = (m.computations.map fun c => c.callees.length + 1).sum :=
    List.foldr_map.symm
  rw [hbound]
  exact (List.filter_sublist.map _).sum_le_sum (by simp)

theorem dues_visited (hfind : m.find? name = some c) (hnew : name ∉ w.visited) :
    m.dues { w with visited := name :: w.visited } + (c.callees.length + 1) ≤ m.dues w := by
  have hname : c.name = name := by simpa using List.find?_some hfind
  have hc : c ∈ m.computations := List.mem_of_find?_eq_some hfind
  unfold dues
  obtain ⟨before, after, hsplit⟩ := List.append_of_mem hc
  have hless (l : List Computation) : ((l.filter (·.name ∉ name :: w.visited)).map fun c =>
      c.callees.length + 1).sum ≤
        ((l.filter (·.name ∉ w.visited)).map fun c => c.callees.length + 1).sum := by
    refine ((List.monotone_filter_right l ?_).map _).sum_le_sum (by simp)
    intro d hd
    have hd : d.name ∉ name :: w.visited := by simpa using hd
    simpa using fun h => hd (List.mem_cons_of_mem _ h)
  have hbefore := hless before
  have hafter := hless after
  rw [hsplit, List.filter_append, List.filter_append,
    List.filter_cons_of_neg (by simp [hname]), List.filter_cons_of_pos (by simpa [hname] using hnew)]
  simp only [List.map_append, List.map_cons, List.sum_append, List.sum_cons]
  omega

theorem turnsLeft_errands (hfind : m.find? name = some c) (hnew : name ∉ w.visited)
    (rest : List Errand) :
    m.turnsLeft (m.errands { w with visited := name :: w.visited } c ++ (name, true) :: rest)
      { w with visited := name :: w.visited } < m.turnsLeft ((name, false) :: rest) w := by
  have hdues := dues_visited hfind hnew
  have herrands : (m.errands { w with visited := name :: w.visited } c).length ≤
      c.callees.length := by
    rw [errands, List.length_map]
    exact List.length_filter_le _ _
  simp only [turnsLeft, List.length_append, List.length_cons]
  omega

/-- Turns beyond those that are left make no difference. -/
theorem runErrands_congr {turns turns' : Nat} {stack : List Errand}
    (h : m.turnsLeft stack w ≤ turns) (h' : m.turnsLeft stack w ≤ turns') :
    m.runErrands turns stack w = m.runErrands turns' stack w := by
  induction turns generalizing turns' stack w with
  | zero =>
    obtain rfl : stack = [] := List.length_eq_zero_iff.1 (by unfold turnsLeft at h; omega)
    cases turns' <;> rfl
  | succ turns ih =>
    rcases stack with _ | ⟨⟨name, entered⟩, rest⟩
    · cases turns' <;> rfl
    · have hrest (w' : Walk) (hdues : m.dues w' = m.dues w) :
          m.turnsLeft rest w' + 1 = m.turnsLeft ((name, entered) :: rest) w := by
        simp only [turnsLeft, hdues, List.length_cons]
        omega
      obtain ⟨turns', rfl⟩ : ∃ k, turns' = k + 1 :=
        ⟨turns' - 1, by have := hrest w rfl; omega⟩
      cases entered with
      | true =>
        have := hrest { w with finished := w.finished ++ [name] } rfl
        rw [runErrands, runErrands]
        exact ih (by omega) (by omega)
      | false =>
        have := hrest w rfl
        rw [runErrands, runErrands]
        cases hfind : m.find? name with
        | none => exact ih (by omega) (by omega)
        | some c =>
          by_cases hvisited : name ∈ w.visited
          · simp only [if_pos hvisited]
            exact ih (by omega) (by omega)
          · have hless := turnsLeft_errands hfind hvisited rest
            simp only [if_neg hvisited]
            exact ih (by omega) (by omega)

def settled (m : Module) (stack : List Errand) (w : Walk) : Walk :=
  m.runErrands (m.turnsLeft stack w) stack w

theorem runErrands_eq_settled {turns : Nat} {stack : List Errand}
    (h : m.turnsLeft stack w ≤ turns) : m.runErrands turns stack w = m.settled stack w :=
  runErrands_congr h (Nat.le_refl _)

theorem settled_nil (m : Module) (w : Walk) : m.settled [] w = w := by
  unfold settled
  cases m.turnsLeft [] w <;> rfl

theorem settled_cons {entered : Bool} {rest stack' : List Errand} {w' : Walk}
    (hturn : ∀ turns, m.runErrands (turns + 1) ((name, entered) :: rest) w =
      m.runErrands turns stack' w')
    (hless : m.turnsLeft stack' w' < m.turnsLeft ((name, entered) :: rest) w) :
    m.settled ((name, entered) :: rest) w = m.settled stack' w' := by
  rw [← runErrands_eq_settled (Nat.le_succ _), hturn]
  exact runErrands_eq_settled (Nat.le_of_lt hless)

theorem settled_finish (m : Module) (name : String) (rest : List Errand) (w : Walk) :
    m.settled ((name, true) :: rest) w =
      m.settled rest { w with finished := w.finished ++ [name] } :=
  settled_cons (fun _ => rfl) (by simp [turnsLeft, dues])

theorem settled_skip (h : m.find? name = none ∨ name ∈ w.visited) (rest : List Errand) :
    m.settled ((name, false) :: rest) w = m.settled rest w := by
  refine settled_cons (fun turns => ?_) (by simp [turnsLeft])
  rw [runErrands]
  cases hfind : m.find? name with
  | none => rfl
  | some c => exact if_pos (h.resolve_left (by simp [hfind]))

theorem settled_visit (hfind : m.find? name = some c) (hnew : name ∉ w.visited)
    (rest : List Errand) : m.settled ((name, false) :: rest) w =
      m.settled (m.errands { w with visited := name :: w.visited } c ++ (name, true) :: rest)
        { w with visited := name :: w.visited } := by
  refine settled_cons (fun turns => ?_) (turnsLeft_errands hfind hnew rest)
  rw [runErrands, hfind]
  exact if_neg hnew

def unvisited (m : Module) (w : Walk) : Nat :=
  ((m.computations.map (·.name)).filter (· ∉ w.visited)).length

theorem unvisited_le_of_subset {w' : Walk} (h : w.visited ⊆ w'.visited) :
    m.unvisited w' ≤ m.unvisited w := by
  refine (List.monotone_filter_right _ ?_).length_le
  intro name hname
  have hname : name ∉ w'.visited := by simpa using hname
  simpa using fun hmem => hname (h hmem)

theorem unvisited_lt (hfind : m.find? name = some c) (hnew : name ∉ w.visited) :
    m.unvisited { w with visited := name :: w.visited } < m.unvisited w := by
  have hmem : name ∈ (m.computations.map (·.name)).filter (· ∉ w.visited) := by
    have hname : c.name = name := by simpa using List.find?_some hfind
    refine List.mem_filter.2 ⟨hname ▸ List.mem_map_of_mem (List.mem_of_find?_eq_some hfind), ?_⟩
    simpa using hnew
  have hfilter : (m.computations.map (·.name)).filter (· ∉ name :: w.visited) =
      ((m.computations.map (·.name)).filter (· ∉ w.visited)).filter (· ≠ name) := by
    rw [List.filter_filter]
    apply List.filter_congr
    intro a _
    simp [not_or]
  unfold unvisited
  rw [hfilter]
  exact List.length_filter_lt_length_iff_exists.2 ⟨name, hmem, by simp⟩

/-- Errands are done one by one, each with all that comes from it, before what lies below them. By
induction on the depth, which is more than there is to visit. -/
theorem settled_append {depth : Nat} (hdepth : m.unvisited w < depth) (l : List String)
    (rest : List Errand) :
    m.settled (l.map (·, false) ++ rest) w = m.settled rest (l.foldl (m.visit depth) w) := by
  induction depth generalizing w l rest with
  | zero => omega
  | succ depth ih =>
    induction l generalizing w with
    | nil => rfl
    | cons name l ihl =>
      rw [List.map_cons, List.cons_append, List.foldl_cons]
      by_cases hskip : m.find? name = none ∨ name ∈ w.visited
      · have hstay : m.visit (depth + 1) w name = w :=
          hskip.elim (fun h => visit_of_unknown h _ w) fun h => visit_of_visited h _
        rw [settled_skip hskip, hstay]
        exact ihl hdepth
      · rw [not_or] at hskip
        obtain ⟨c, hfind⟩ := Option.ne_none_iff_exists'.1 hskip.1
        have hless := unvisited_lt hfind hskip.2
        have hkept : (c.callees.filter fun callee =>
            (m.find? callee).isSome && callee ∉ name :: w.visited).foldl (m.visit depth)
              { w with visited := name :: w.visited } =
            c.callees.foldl (m.visit depth) { w with visited := name :: w.visited } := by
          apply foldl_visit_filter
          intro callee _ hcallee
          cases hfound : m.find? callee with
          | none => exact Or.inl rfl
          | some d =>
            have hvisited : callee ∈ name :: w.visited := by
              by_contra hnot
              simp [hfound, hnot] at hcallee
            exact Or.inr hvisited
        have hgrow := visited_subset_visit m (depth + 1) w name
        rw [visit_of_new hfind hskip.2] at hgrow ⊢
        rw [settled_visit hfind hskip.2, errands, ih (by omega), hkept, settled_finish]
        exact ihl (Nat.lt_of_le_of_lt (unvisited_le_of_subset hgrow) hdepth)

theorem walkFrom_eq_visit (m : Module) (w : Walk) (root : String) :
    m.walkFrom (m.errandBound + 1) w root = m.visit (m.computations.length + 1) w root := by
  unfold walkFrom
  split
  · next hvisited => rw [visit_of_visited hvisited]
  · have hturns : m.turnsLeft [(root, false)] w ≤ m.errandBound + 1 := by
      have := m.dues_le w
      simp only [turnsLeft, List.length_singleton]
      omega
    have hdepth : m.unvisited w < m.computations.length + 1 := by
      have := List.length_filter_le (· ∉ w.visited) (m.computations.map (·.name))
      rw [List.length_map] at this
      exact Nat.lt_succ_of_le this
    have hone := settled_append hdepth [root] []
    rw [settled_nil] at hone
    rw [runErrands_eq_settled hturns]
    exact hone

/-- The stack finishes computations in the order of the recursion. -/
theorem calleeFirstNames_eq (m : Module) : m.calleeFirstNames =
    ((m.entry.name :: m.computations.map (·.name)).foldl (m.visit (m.computations.length + 1))
      {}).finished := by
  have hwalk : m.walkFrom (m.errandBound + 1) = m.visit (m.computations.length + 1) :=
    funext₂ m.walkFrom_eq_visit
  simp only [calleeFirstNames, hwalk, List.foldl_cons]
  rw [foldl_visit_filter]
  intro name _ hname
  obtain rfl : name = m.entry.name := by simpa using hname
  cases hfind : m.find? m.entry.name with
  | none => exact Or.inl rfl
  | some c => exact Or.inr (mem_visited_of_visit hfind _ _)

end LatencyHiding.Module

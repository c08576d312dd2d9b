import LatencyHiding.Pattern.Basic

set_option autoImplicit false

/-!
Searching for a pattern. A pattern is laid out as a graph of nodes, each of which knows what comes
after it, and all nodes that a match can have reached are followed through the text together. A
search thus takes no longer than the number of nodes times the length of the text.
-/

namespace LatencyHiding.Pattern

open Text (CharRanges)

inductive Node where
  | done
  | char (set : CharRanges) (next : Nat)
  | look (condition : Look) (next : Nat)
  | fork (first second : Nat)

structure Layout where
  nodes : Array Node
  entry : Nat

namespace Layout

def push : Layout → Node → Layout
  | ⟨nodes, _⟩, n =>
    let entry := nodes.size
    ⟨nodes.push n, entry⟩

def final : Layout := ⟨#[.done], 0⟩

end Layout

/-- Lay out a pattern in front of the entry. A loop gets its node first and its way into the body
afterwards. -/
def layOut : Pattern → Layout → Layout
  | empty, l => l
  | look condition, ⟨nodes, next⟩ => Layout.push ⟨nodes, next⟩ (.look condition next)
  | char set, ⟨nodes, next⟩ => Layout.push ⟨nodes, next⟩ (.char set next)
  | marked p, l => p.layOut l
  | both p q, l => p.layOut (q.layOut l)
  | either p q, ⟨nodes, next⟩ =>
    let ⟨nodes, second⟩ := q.layOut ⟨nodes, next⟩
    let ⟨nodes, first⟩ := p.layOut ⟨nodes, next⟩
    Layout.push ⟨nodes, first⟩ (.fork first second)
  | times least none p, ⟨nodes, next⟩ =>
    let ⟨nodes, loop⟩ := Layout.push ⟨nodes, next⟩ (.fork next next)
    let ⟨nodes, body⟩ := p.layOut ⟨nodes, loop⟩
    Nat.repeat p.layOut least ⟨nodes.setIfInBounds loop (.fork body next), loop⟩
  | times least (some most) p, ⟨nodes, next⟩ =>
    let optional (later : Layout) : Layout :=
      let ⟨nodes, body⟩ := p.layOut later
      Layout.push ⟨nodes, body⟩ (.fork body next)
    Nat.repeat p.layOut least (Nat.repeat optional (most - least) ⟨nodes, next⟩)

structure Reached where
  seen : Array Bool
  waiting : List (CharRanges × Nat) := []
  isDone : Bool := false

/-- Follow nodes between two characters. Every node is entered once and leads to at most two, which
bounds the number of steps. -/
def follow (nodes : Array Node) (before after : Option Char) : (steps : Nat) → List Nat → Reached →
    Reached
  | 0, _, r => r
  | _, [], r => r
  | steps + 1, i :: rest, r =>
    if r.seen.getD i true then follow nodes before after steps rest r
    else
      let r := { r with seen := r.seen.setIfInBounds i true }
      match nodes[i]? with
      | none => follow nodes before after steps rest r
      | some .done => { r with isDone := true }
      | some (.char set next) =>
        follow nodes before after steps rest { r with waiting := (set, next) :: r.waiting }
      | some (.look condition next) =>
        follow nodes before after steps (if condition.holds before after then next :: rest else rest) r
      | some (.fork first second) => follow nodes before after steps (first :: second :: rest) r

def reach (l : Layout) (before after : Option Char) (active : List Nat) : Reached :=
  follow l.nodes before after (active.length + 2 * l.nodes.size + 2) (active ++ [l.entry])
    { seen := Array.replicate l.nodes.size false }

def Reached.take (r : Reached) (c : Char) : List Nat :=
  r.waiting.filterMap fun (set, next) => if set.contains c then some next else none

def search (l : Layout) (before : Option Char) (active : List Nat) : List Char → Bool
  | [] => (reach l before none active).isDone
  | c :: rest =>
    let reached := reach l before (some c) active
    reached.isDone || search l (some c) (reached.take c) rest

def foundIn (p : Pattern) (text : String) : Bool := search (p.layOut .final) none [] text.toList

end LatencyHiding.Pattern

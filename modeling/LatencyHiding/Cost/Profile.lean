import LatencyHiding.KeyedList

set_option autoImplicit false

namespace LatencyHiding

structure Profile (τ : Type) where
  costs : KeyedList String τ := .empty
  latencies : KeyedList String (KeyedList String τ) := .empty

namespace Profile

variable {τ : Type}

def setCost (p : Profile τ) (name : String) (cost : τ) : Profile τ :=
  { p with costs := p.costs.set name cost }

def setLatency (p : Profile τ) (source sink : String) (latency : τ) : Profile τ :=
  { p with latencies := p.latencies.alter source .empty (·.set sink latency) }

def cost? (p : Profile τ) (name : String) : Option τ := p.costs.get? name

def latency? (p : Profile τ) (source sink : String) : Option τ :=
  (p.latencies.get? source).bind (·.get? sink)

def isEmpty (p : Profile τ) : Bool := p.costs.isEmpty && p.latencies.isEmpty

def ofLists (costs : List (String × τ)) (latencies : List (String × String × τ)) : Profile τ :=
  latencies.foldl (fun p (source, sink, latency) => p.setLatency source sink latency)
    (costs.foldl (fun p (name, cost) => p.setCost name cost) {})

end Profile

end LatencyHiding

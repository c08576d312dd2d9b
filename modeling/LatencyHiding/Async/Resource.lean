set_option autoImplicit false

namespace LatencyHiding

inductive Resource where
  | unspecified
  | allToAll
  | allGather
  | allReduce
  | collectivePermute
  | sendRecv
  | sendHost
  | recvHost
  | target (number : UInt32)
  deriving DecidableEq

namespace Resource

def name : Resource → String
  | .unspecified => "no-resource"
  | .allToAll => "all-to-all"
  | .allGather => "all-gather"
  | .allReduce => "all-reduce"
  | .collectivePermute => "collective-permute"
  | .sendRecv => "send-recv"
  | .sendHost => "send-host"
  | .recvHost => "recv-host"
  | .target number => s!"target-{number.toNat}"

def targetBase : UInt32 := 10000

def number : Resource → UInt32
  | .unspecified => 0
  | .allToAll => 1
  | .allGather => 2
  | .allReduce => 3
  | .collectivePermute => 4
  | .sendRecv => 5
  | .sendHost => 6
  | .recvHost => 7
  | .target n => targetBase + n

def number? : Resource → Option UInt32
  | .target n => if targetBase.toNat + n.toNat < UInt32.size then some (targetBase + n) else none
  | r => some r.number

def isTarget : Resource → Bool
  | .target _ => true
  | _ => false

/-- Known resources come in the order of their declaration, those of the platform behind them. -/
def rank : Resource → Nat
  | .target n => 8 + n.toNat
  | r => r.number.toNat

instance : LT Resource := ⟨fun a b => a.rank < b.rank⟩

instance : DecidableLT Resource := fun a b => inferInstanceAs (Decidable (a.rank < b.rank))

def limited : List Resource :=
  [.allToAll, .allGather, .allReduce, .collectivePermute, .sendRecv, .sendHost, .recvHost]

end Resource

inductive Usage where
  | occupy | release
  deriving DecidableEq

end LatencyHiding

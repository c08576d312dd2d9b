import LatencyHiding.Pass

set_option autoImplicit false

namespace LatencyHiding

/-- Something done to a module. What was done before a fault stays done. -/
abbrev Session := ExceptT Fault (StateM Module)

namespace Session

def on {α : Type} (session : Session α) (m : Module) : Except Fault α × Module :=
  session.run.run m

def install (schedule : Schedule) : Session Unit := do
  (← get).checkSchedule schedule
  modify fun m => { m with schedule := some schedule }

variable {τ : Type} [TimeScale τ]

def pass (p : Pass τ) : Session (Summary τ) := do
  let (schedule, summary) ← p.plan (← get)
  install schedule
  return summary

def devicePass (settings : Settings) (device : DeviceSettings) (mode : Mode)
    (profile : Option (Profile τ)) : Session (Summary τ) := do
  pass (Pass.forDevice (← get) settings device mode profile)

end Session

inductive Request (τ : Type) where
  | install (schedule : Schedule)
  | pass (p : Pass τ)
  | devicePass (settings : Settings) (device : DeviceSettings) (mode : Mode)
    (profile : Option (Profile τ))

variable {τ : Type} [TimeScale τ]

def Request.perform : Request τ → Session (Option (Summary τ))
  | install schedule => do
    Session.install schedule
    return none
  | pass p => some <$> Session.pass p
  | devicePass settings device mode profile =>
    some <$> Session.devicePass settings device mode profile

def Module.history (m : Module) (requests : List (Request τ)) : Module :=
  requests.foldl (fun m r => (r.perform.on m).2) m

end LatencyHiding

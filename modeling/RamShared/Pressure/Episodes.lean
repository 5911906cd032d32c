import RamShared.Pressure.Signals

/-! The loop of the supervisor. A new emergency begins with a `TERM` exactly if no record of an earlier
one is left. -/
namespace RamShared.Pressure
open Lib Workload

def applyDecisionWith (decision : SupervisorDecision) (paths : ActionPaths) (writtenAtUnixMs : ℕ) :
    Action (List ActionResult × Option String) := do
  let results ← executeActionsWith decision paths (closeAdmission decision writtenAtUnixMs)
  let state ← (ask (.publishState decision results paths.daemonInstanceId writtenAtUnixMs)).attempt
  if decision.state=.healthy then
    match state with
    | .error detail => return (results,some detail)
    | .ok _ =>
      match ← (ask (.publishAdmission decision.state.asStr writtenAtUnixMs)).attempt with
      | .error detail => return (results,some detail)
      | .ok _ => return (results,none)
  else
    match state with
    | .error state => return (results,
        some s!"pressure actions ran but their definitive state publication failed: {state}")
    | .ok _ =>
      match results.find? fun result => result.1=.closeAdmission && !result.2.toBool with
      | some (_,.error detail) => return (results,
          some s!"admission close failed after pressure actions were recorded: {detail}")
      | _ => return (results,none)

/-- A round of the loop of `run`, from the sample on; the error, if any, ends the loop. -/
def iteration (s : Supervisor) (sample : PressureSample) (writtenAtUnixMs : ℕ) :
    Action (Supervisor × SupervisorDecision × Option String) := do
  let frozen ← readFrozenTarget
  let emergency ← readEmergencyTarget
  let s ← Prog.ofExcept (s.recoverActionState frozen emergency writtenAtUnixMs sample.elapsedMs)
  let observed := s.observe sample
  let daemonInstanceId ← (ask (.daemonInstance writtenAtUnixMs)).attempt
  let (results,err) ← applyDecisionWith observed.2 ⟨daemonInstanceId.toOption,some writtenAtUnixMs⟩
    writtenAtUnixMs
  return (observed.1.commitActionResults results sample.elapsedMs,observed.2,err)

structure Round where
  sample : PressureSample
  nowMs : ℕ
  answers : ℕ → Answer

structure Loop where
  supervisor : Supervisor
  world : World
  previous : Option SupervisorDecision
  stopped : Bool

namespace Loop

def new (w : World) : Loop := ⟨.default,w,none,false⟩

def round (l : Loop) (r : Round) : Loop :=
  if l.stopped then l
  else
    match (iteration l.supervisor r.sample r.nowMs).eval World.exec r.answers
      {l.world with issuedAt := some r.nowMs} with
    | (.error _,w) => {l with world := w, stopped := true}
    | (.ok (s,decision,err),w) => ⟨s,w,some decision,err.isSome⟩

end Loop

variable {sample : PressureSample} {s : Supervisor}

namespace Supervisor

end Supervisor

namespace Loop

end Loop
end RamShared.Pressure

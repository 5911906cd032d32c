import RamShared.Lib.Programs
import RamShared.Pressure.Decision

/-! The actions of the supervisor, as programs over its files and the unit manager. -/
namespace RamShared.Pressure
open Lib Workload

/-- What `systemctl` is asked to do with a unit: `freeze`, `thaw`, or `kill` of all its processes with
one of two signals. -/
inductive Verb
  | freeze
  | thaw
  | term
  | kill
  deriving DecidableEq, Repr

structure CriticalRequest where
  schemaVersion : ℕ
  reason : String
  daemonInstanceId : String
  issuedAtUnixMs : ℕ
  targetBytes : Option ℕ
  deriving DecidableEq, Repr

abbrev ActionResult := SupervisorAction × Except String Unit

inductive Effect
  | readLedger
  | writeRequest (name : String) (request : CriticalRequest)
  | readFrozen
  | writeFrozen (record : FrozenTargetRecord)
  | removeFrozen
  | readEmergency
  | writeEmergency (record : EmergencyTargetRecord)
  | currentInvocationId (unit : String)
  | run (verb : Verb) (unit : String)
  | daemonInstance (nowMs : ℕ)
  | publishState (decision : SupervisorDecision) (results : List ActionResult)
    (daemonInstanceId : Option String) (writtenAtUnixMs : ℕ)
  | publishAdmission (state : String) (writtenAtUnixMs : ℕ)

abbrev Effect.Result : Effect → Type
  | .readLedger => List Reservation
  | .readFrozen => Option FrozenTargetRecord
  | .readEmergency => Option EmergencyTargetRecord
  | .currentInvocationId _ | .daemonInstance _ => String
  | _ => Unit

abbrev Action := Prog Effect (fun e => Except String e.Result) String

abbrev ask (e : Effect) : Action e.Result := Prog.ask e

structure ActionPaths where
  daemonInstanceId : Option String
  issuedAtUnixMs : Option ℕ
  deriving DecidableEq, Repr

def discardPriority : String → Option ℕ
  | "batch" => some 0
  | "browser-test" => some 1
  | "build" => some 2
  | "interactive" => some 3
  | _ => none

structure Candidate where
  priority : ℕ
  memoryBytes : ℕ
  issuedOrdinal : ℕ
  victim : VictimIdentity
  deriving DecidableEq, Repr

/-- The order of the tuples that the source sorts, with the memory reversed. -/
def Candidate.le (a b : Candidate) : Bool :=
  a.priority<b.priority || (a.priority = b.priority &&
    (b.memoryBytes<a.memoryBytes || (a.memoryBytes = b.memoryBytes &&
      (a.issuedOrdinal<b.issuedOrdinal || (a.issuedOrdinal = b.issuedOrdinal &&
        (a.victim.unit<b.victim.unit || (a.victim.unit = b.victim.unit &&
          a.victim.invocationId≤b.victim.invocationId)))))))

def candidate (r : Reservation) : Option Candidate := do
  let priority ← discardPriority r.class_.asStr
  let invocationId ← r.invocationId.filter validSystemdInvocationId
  if validScopeUnit r.unit then
    some ⟨priority,r.memoryBytes,r.issuedOrdinal,⟨r.unit,invocationId⟩⟩
  else none

def selectVictim : Action (Option VictimIdentity) := do
  let reservations ← ask .readLedger
  return (((reservations.filterMap candidate).insertionSort fun a b => a.le b=true).head?).map
    Candidate.victim

def requiredVictim (victim : Except String (Option VictimIdentity)) (missingReason : String) :
    Except String VictimIdentity :=
  match victim with
  | .ok (some victim) => .ok victim
  | .ok none => .error missingReason
  | .error err => .error err

def readFrozenTarget : Action (Option (FrozenPhase × VictimIdentity)) := do
  Prog.ofExcept (checkFrozenTarget (← ask .readFrozen))

def writeFrozenTarget (phase : FrozenPhase) (victim : VictimIdentity) (nowMs : ℕ) : Action Unit :=
  ask (.writeFrozen ⟨3,phase,victim.unit,victim.invocationId,nowMs⟩)

def readEmergencyTarget : Action (Option EmergencyTargetRecord) := do
  Prog.ofExcept (checkEmergencyTarget (← ask .readEmergency))

def emergencyRecordVictim (record : EmergencyTargetRecord) : Except String VictimIdentity :=
  validateRecordVictim record.unit record.invocationId

def writeEmergencyTarget (phase : EmergencyPhase) (victim : VictimIdentity)
    (termSucceededAtUnixMs : Option ℕ) (nowMs : ℕ) : Action Unit :=
  ask (.writeEmergency ⟨1,phase,victim.unit,victim.invocationId,termSucceededAtUnixMs,nowMs⟩)

variable (victim : VictimIdentity)

def runIdentityBoundAction (verb : Verb) : Action Unit := do
  let current ← ask (.currentInvocationId victim.unit)
  if current=victim.invocationId then ask (.run verb victim.unit)
  else .fail "managed scope InvocationID changed; action refused"

/-- The effects of `execute_freeze`, once its victim is known. -/
def freezeVictim (nowMs : ℕ) : Action Unit := do
  writeFrozenTarget .pending victim nowMs
  runIdentityBoundAction victim .freeze
  writeFrozenTarget .applied victim nowMs

variable (paths : ActionPaths)

def executeFreeze (selected : Except String (Option VictimIdentity)) : Action Unit :=
  match paths.issuedAtUnixMs with
  | none => .fail "freeze evidence timestamp is unavailable"
  | some nowMs => do
    match ← readFrozenTarget with
    | some (.applied,_) => return ()
    | some (.pending,victim) => freezeVictim victim nowMs
    | none => freezeVictim (← Prog.ofExcept (requiredVictim selected "no_discardable_scope")) nowMs

def executeThaw : Action Unit := do
  match ← readFrozenTarget with
  | none => .fail "no_frozen_scope"
  | some (_,victim) =>
    runIdentityBoundAction victim .thaw
    ask .removeFrozen

/-- The effects of `execute_term`, once its victim is known. -/
def termVictim (nowMs : ℕ) : Action Unit := do
  writeEmergencyTarget .pendingTerm victim none nowMs
  runIdentityBoundAction victim .term
  writeEmergencyTarget .termed victim (some nowMs) nowMs

def executeTerm (selected : Except String (Option VictimIdentity)) : Action Unit :=
  match paths.issuedAtUnixMs with
  | none => .fail "TERM outcome timestamp is unavailable"
  | some nowMs => do
    match ← readEmergencyTarget with
    | none => termVictim (← Prog.ofExcept (requiredVictim selected "no_discardable_scope")) nowMs
    | some record =>
      match record.phase with
      | .termed => return ()
      | .killed => .fail "emergency target is already durably killed"
      | .pendingTerm => termVictim (← Prog.ofExcept (emergencyRecordVictim record)) nowMs

def executeKill : Action Unit :=
  match paths.issuedAtUnixMs with
  | none => .fail "KILL outcome timestamp is unavailable"
  | some nowMs => do
    match ← readEmergencyTarget with
    | none => .fail "no successfully terminated emergency target"
    | some record =>
      match record.phase with
      | .killed => return ()
      | .pendingTerm => .fail "emergency target has no successful TERM outcome"
      | .termed =>
        match record.termSucceededAtUnixMs with
        | none => .fail "emergency target TERM timestamp is unavailable"
        | some termSucceededAt =>
          if nowMs<saturatingAdd 64 termSucceededAt emergencyTermGraceMs then
            .fail "emergency target TERM grace has not elapsed"
          else do
            let victim ← Prog.ofExcept (emergencyRecordVictim record)
            runIdentityBoundAction victim .kill
            writeEmergencyTarget .killed victim (some termSucceededAt) nowMs

/-- The request files that `ReduceVramCache` and `RequestReclaim` write. -/
def writeRuntimeRequest (name : String) (targetBytes : Option ℕ) : Action Unit :=
  match paths.daemonInstanceId, paths.issuedAtUnixMs with
  | some daemonInstanceId, some issuedAtUnixMs =>
    ask (.writeRequest name ⟨1,"control_pressure",daemonInstanceId,issuedAtUnixMs,targetBytes⟩)
  | _, _ => .fail "daemon_instance_unavailable"

def executeAction (closeAdmission : Action Unit)
    (victim : Except String (Option VictimIdentity)) : SupervisorAction → Action Unit
  | .closeAdmission => closeAdmission
  | .reduceVramCache => writeRuntimeRequest paths "cache-target.json" (some 0)
  | .requestReclaim => writeRuntimeRequest paths "reclaim-request.json" none
  | .freezeDiscardable => executeFreeze paths victim
  | .thawDiscardable => executeThaw
  | .terminateDiscardable => executeTerm paths victim
  | .killDiscardable => executeKill paths

/-- The loop of `execute_actions_with`: a failed action does not keep the later ones from running. -/
def executeAll (paths : ActionPaths) (closeAdmission : Action Unit)
    (victim : Except String (Option VictimIdentity)) : List SupervisorAction → Action (List ActionResult)
  | [] => return []
  | action::actions => do
    let result ← (executeAction paths closeAdmission victim action).attempt
    return (action,result)::(← executeAll paths closeAdmission victim actions)

def executeActionsWith (decision : SupervisorDecision) (paths : ActionPaths)
    (closeAdmission : Action Unit) : Action (List ActionResult) := do
  let victim ← selectVictim.attempt
  executeAll paths closeAdmission victim decision.actions

def closeAdmission (decision : SupervisorDecision) (writtenAtUnixMs : ℕ) : Action Unit :=
  if decision.state=.healthy then .fail "CloseAdmission is invalid in a healthy decision"
  else ask (.publishAdmission decision.state.asStr writtenAtUnixMs)

/-- A signal, or a change of the freezer state, with the identity that was asked for right before. -/
structure Signal where
  verb : Verb
  victim : Option VictimIdentity
  ok : Bool
  issuedAt : Option ℕ
  deriving DecidableEq, Repr

/-- The durable records, and what has been done to the units. `asked` is the identity that the last
call has returned, if that was `current_invocation_id`, and `issuedAt` the time of the current
execution. -/
structure World where
  frozen : Option FrozenTargetRecord
  emergency : Option EmergencyTargetRecord
  asked : Option VictimIdentity
  issuedAt : Option ℕ
  log : List Signal
  deriving DecidableEq, Repr

/-- What the environment answers to a call. A write or a removal that fails may have been applied. -/
structure Answer where
  error : Option String
  applied : Bool
  text : String
  ledger : List Reservation
  deriving DecidableEq, Repr

def Answer.result {α : Type} (a : Answer) (x : α) : Except String α :=
  match a.error with
  | some err => .error err
  | none => .ok x

def Answer.lands (a : Answer) : Bool := a.error.isNone || a.applied

namespace World

def new : World := ⟨none,none,none,none,[]⟩

def quiet (w : World) : World := {w with asked := none}

def exec (w : World) : (e : Effect) → Answer → World × Except String e.Result
  | .readLedger, a => (w.quiet,a.result a.ledger)
  | .writeRequest _ _, a => (w.quiet,a.result ())
  | .readFrozen, a => (w.quiet,a.result w.frozen)
  | .writeFrozen record, a =>
    ({w.quiet with frozen := if a.lands then some record else w.frozen},a.result ())
  | .removeFrozen, a => ({w.quiet with frozen := if a.lands then none else w.frozen},a.result ())
  | .readEmergency, a => (w.quiet,a.result w.emergency)
  | .writeEmergency record, a =>
    ({w.quiet with emergency := if a.lands then some record else w.emergency},a.result ())
  | .currentInvocationId unit, a =>
    ({w with asked := if a.error.isNone then some ⟨unit,a.text⟩ else none},a.result a.text)
  | .run verb unit, a =>
    ({ w.quiet with
        log := w.log++[⟨verb,w.asked.filter fun v => v.unit=unit,a.error.isNone,w.issuedAt⟩]},
      a.result ())
  | .daemonInstance _, a => (w.quiet,a.result a.text)
  | .publishState _ _ _ _, a => (w.quiet,a.result ())
  | .publishAdmission _ _, a => (w.quiet,a.result ())

end World
end RamShared.Pressure

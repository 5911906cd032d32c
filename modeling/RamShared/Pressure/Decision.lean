import RamShared.Workload.Ledger
import Mathlib.Data.Rat.Defs

/-! The pressure state machine of the control plane: what it decides on a sample, what it remembers of
the outcomes, and what it takes over from the durable records. -/
namespace RamShared.Pressure
open Lib Workload

inductive SupervisorState
  | healthy
  | guarded
  | critical
  | emergency
  deriving DecidableEq, Repr

def SupervisorState.asStr : SupervisorState → String
  | .healthy => "HEALTHY"
  | .guarded => "GUARDED"
  | .critical => "CRITICAL"
  | .emergency => "EMERGENCY"

/-- The share of stalled time is `none` if it is not a number; an infinite one compares like any large
number. -/
structure PressureSample where
  memoryAvailableBytes : ℕ
  controlReserveBytes : ℕ
  psiFullAvg10 : Option ℚ
  sampleDelayMs : ℕ
  elapsedMs : ℕ
  deriving DecidableEq, Repr

def PressureSample.psiAtLeast (s : PressureSample) (bound : ℚ) : Bool :=
  s.psiFullAvg10.any fun psi => bound≤psi

def PressureSample.psiBelow (s : PressureSample) (bound : ℚ) : Bool :=
  s.psiFullAvg10.any fun psi => psi<bound

inductive SupervisorAction
  | closeAdmission
  | reduceVramCache
  | freezeDiscardable
  | thawDiscardable
  | requestReclaim
  | terminateDiscardable
  | killDiscardable
  deriving DecidableEq, Repr

structure SupervisorDecision where
  state : SupervisorState
  actions : List SupervisorAction
  healthySamples : ℕ
  deriving DecidableEq, Repr

structure Supervisor where
  state : SupervisorState
  guardedPsiSamples : ℕ
  criticalPsiSamples : ℕ
  emergencyPsiSamples : ℕ
  healthySamples : ℕ
  emergencyKillEligibleMs : Option ℕ
  emergencyKillSent : Bool
  discardableFrozen : Bool
  discardableFreezePending : Bool
  deriving DecidableEq, Repr

def emergencyTermGraceMs : ℕ := 5000

def streak (current : ℕ) (condition : Bool) : ℕ :=
  if condition then saturatingAdd 32 current 1 else 0

variable (s : Supervisor) (sample : PressureSample)

namespace Supervisor

def default : Supervisor := ⟨.healthy,0,0,0,0,none,false,false,false⟩

def count : Supervisor :=
  { s with
    guardedPsiSamples := streak s.guardedPsiSamples (sample.psiAtLeast 2)
    criticalPsiSamples := streak s.criticalPsiSamples (sample.psiAtLeast 5)
    emergencyPsiSamples := streak s.emergencyPsiSamples (sample.psiAtLeast 10)}

/-- The state that the sample asks for, once it is counted. -/
def requested : SupervisorState :=
  if sample.memoryAvailableBytes<sample.controlReserveBytes/2 || 5 ≤ s.emergencyPsiSamples ||
      3000 ≤ sample.sampleDelayMs then .emergency
  else if sample.memoryAvailableBytes<saturatingMul 64 sample.controlReserveBytes 3/4 ||
      5 ≤ s.criticalPsiSamples then .critical
  else if sample.memoryAvailableBytes<sample.controlReserveBytes || 3 ≤ s.guardedPsiSamples then
    .guarded
  else .healthy

def fullyHealthy : Bool :=
  saturatingAdd 64 sample.controlReserveBytes gibBytes ≤ sample.memoryAvailableBytes &&
    sample.psiBelow 1 && sample.sampleDelayMs<3000

/-- A healthy sample opens the admission only at the end of the recovery window. -/
def settle (requested : SupervisorState) : Supervisor :=
  if requested=.healthy then
    let healthySamples := streak s.healthySamples (fullyHealthy sample)
    { s with
      healthySamples
      state := if s.state=.healthy || 60≤healthySamples then .healthy else .guarded}
  else {s with healthySamples := 0, state := requested}

def actions : List SupervisorAction :=
  (if (s.discardableFrozen || s.discardableFreezePending) && s.state≠.critical then
    [.thawDiscardable] else []) ++
  match s.state with
  | .healthy => []
  | .guarded => [.closeAdmission]
  | .critical =>
    [.closeAdmission,.reduceVramCache] ++
      (if !s.discardableFrozen then [.freezeDiscardable] else [])++[.requestReclaim]
  | .emergency =>
    [.closeAdmission,.reduceVramCache,.requestReclaim] ++
      match s.emergencyKillEligibleMs with
      | some eligible =>
        if eligible ≤ sample.elapsedMs && !s.emergencyKillSent then [.killDiscardable] else []
      | none => [.terminateDiscardable]

def observe : Supervisor × SupervisorDecision :=
  let s := s.count sample
  let requested := s.requested sample
  let s := s.settle sample requested
  let s :=
    if requested≠.emergency then {s with emergencyKillEligibleMs := none, emergencyKillSent := false}
    else s
  (s,⟨s.state,s.actions sample,s.healthySamples⟩)

def commit (elapsedMs : ℕ) (s : Supervisor) : SupervisorAction → Supervisor
  | .freezeDiscardable => {s with discardableFrozen := true, discardableFreezePending := false}
  | .thawDiscardable => {s with discardableFrozen := false, discardableFreezePending := false}
  | .terminateDiscardable =>
    {s with emergencyKillEligibleMs := some (saturatingAdd 64 elapsedMs emergencyTermGraceMs)}
  | .killDiscardable => {s with emergencyKillSent := true}
  | .closeAdmission | .reduceVramCache | .requestReclaim => s

def commitActionResults (results : List (SupervisorAction × Except String Unit)) (elapsedMs : ℕ) : Supervisor :=
  results.foldl (fun s result => if result.2.toBool then s.commit elapsedMs result.1 else s) s

end Supervisor

inductive FrozenPhase
  | pending
  | applied
  deriving DecidableEq, Repr

structure FrozenTargetRecord where
  schemaVersion : ℕ
  phase : FrozenPhase
  unit : String
  invocationId : String
  updatedAtUnixMs : ℕ
  deriving DecidableEq, Repr

inductive EmergencyPhase
  | pendingTerm
  | termed
  | killed
  deriving DecidableEq, Repr

structure EmergencyTargetRecord where
  schemaVersion : ℕ
  phase : EmergencyPhase
  unit : String
  invocationId : String
  termSucceededAtUnixMs : Option ℕ
  updatedAtUnixMs : ℕ
  deriving DecidableEq, Repr

structure VictimIdentity where
  unit : String
  invocationId : String
  deriving DecidableEq, Repr

def FrozenTargetRecord.victim (r : FrozenTargetRecord) : VictimIdentity := ⟨r.unit,r.invocationId⟩

def EmergencyTargetRecord.victim (r : EmergencyTargetRecord) : VictimIdentity :=
  ⟨r.unit,r.invocationId⟩

def validScopeUnit (unit : String) : Bool :=
  "ramshared-".toList.isPrefixOf unit.toList && ".scope".toList.isSuffixOf unit.toList &&
    unit.toList.all fun c => c.isAlphanum || c = '.' || c = '_' || c = '-' || c = '@'

def validateRecordVictim (unit invocationId : String) : Except String VictimIdentity := do
  if !validScopeUnit unit || !validSystemdInvocationId invocationId then
    throw "durable scope target identity is invalid"
  return ⟨unit,invocationId⟩

/-- The check that `read_frozen_target` makes of a record. -/
def checkFrozenTarget : Option FrozenTargetRecord → Except String (Option (FrozenPhase × VictimIdentity))
  | none => return none
  | some record => do
    if record.schemaVersion ≠ 3 || record.updatedAtUnixMs=0 then
      throw "frozen scope evidence has an unsupported schema or timestamp"
    return some (record.phase,←validateRecordVictim record.unit record.invocationId)

/-- The check that `read_emergency_target` makes of a record. -/
def checkEmergencyTarget : Option EmergencyTargetRecord → Except String (Option EmergencyTargetRecord)
  | none => return none
  | some record => do
    if record.schemaVersion ≠ 1 || record.updatedAtUnixMs = 0 ||
        !(validateRecordVictim record.unit record.invocationId).toBool ||
        (record.phase=.pendingTerm && record.termSucceededAtUnixMs.isSome) ||
        (record.phase≠.pendingTerm && record.termSucceededAtUnixMs.isNone) then
      throw "emergency target evidence is invalid"
    return some record

namespace Supervisor

/-- `recover_action_state`, on the records as they were read. -/
def recoverActionState (frozen : Option (FrozenPhase × VictimIdentity))
    (emergency : Option EmergencyTargetRecord) (nowUnixMs elapsedMs : ℕ) :
    Except String Supervisor := do
  let s : Supervisor :=
    match frozen with
    | some (.pending,_) => {s with discardableFrozen := false, discardableFreezePending := true}
    | some (.applied,_) => {s with discardableFrozen := true, discardableFreezePending := false}
    | none => {s with discardableFrozen := false, discardableFreezePending := false}
  match emergency with
  | some record =>
    match record.phase with
    | .termed =>
      let some termTime := record.termSucceededAtUnixMs
        | throw "durable TERM record omitted its successful time"
      if nowUnixMs<termTime then throw "durable TERM record is from the future"
      let age := nowUnixMs-termTime
      return { s with
        emergencyKillEligibleMs := some (saturatingAdd 64 elapsedMs (emergencyTermGraceMs-age))
        emergencyKillSent := false}
    | .killed =>
      return {s with emergencyKillEligibleMs := some elapsedMs, emergencyKillSent := true}
    | .pendingTerm => return {s with emergencyKillEligibleMs := none, emergencyKillSent := false}
  | none => return {s with emergencyKillEligibleMs := none, emergencyKillSent := false}

end Supervisor
end RamShared.Pressure

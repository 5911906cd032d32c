import RamShared.N3.Types

/-! The lease machine: the host-led lease protocol behind the preflight. -/
namespace RamShared.N3
open Lib

inductive EventFingerprint
  | grant (grant : Grant)
  | revoke (revoke : Revoke)
  deriving DecidableEq

def EventFingerprint.eventId : EventFingerprint → EventId
  | .grant g => g.eventId
  | .revoke r => r.eventId

structure SeenEvent where
  eventId : EventId
  fingerprint : EventFingerprint
  deriving DecidableEq

structure ActiveLease where
  leaseId : LeaseId
  generation : ℕ
  grantEventId : EventId
  capacityBytes : ℕ
  revoke : Option Revoke
  deriving DecidableEq

inductive ScrubState
  | pending
  | succeeded
  | failed
  deriving DecidableEq, Repr

def ScrubResult.toState : ScrubResult → ScrubState
  | .pending => .pending
  | .succeeded => .succeeded
  | .failed => .failed

structure LeaseMachine where
  preflight : PreflightModel := .new
  leaseState : LeaseState := .absent
  pendingGrant : Option Grant := none
  activeLease : Option ActiveLease := none
  seenEvents : List SeenEvent := []
  acceptedGrantAcks : List GrantAck := []
  completedRevokes : List RevokeCompletion := []
  generationHistory : List (LeaseId × ℕ) := []
  restoredRestartEpoch : Option ℕ := none
  inFlight : ℕ := 0
  callbacksPending : ℕ := 0
  unknownInFlight : Bool := false
  scrubState : ScrubState := .pending
  sentDrainAck : Bool := false
  deriving DecidableEq

inductive EventRegistration
  | new
  | duplicate
  | conflict
  | overflow
  deriving DecidableEq, Repr

variable (m : LeaseMachine) (leaseId : LeaseId)

namespace LeaseMachine

def new : LeaseMachine := {}

def scrubbed : Bool := decide (m.scrubState=.succeeded)

def activeGeneration : Option ℕ := m.activeLease.map (·.generation)

def failForActive (reason : FailureReason) : ProtocolDecision × LeaseMachine :=
  let ack : FailAck :=
    match m.activeLease, m.pendingGrant with
    | some active, _ =>
      ⟨some active.leaseId,some active.generation,
        some (active.revoke.elim active.grantEventId (·.eventId)),reason⟩
    | none, some grant => ⟨some grant.leaseId,some grant.generation,some grant.eventId,reason⟩
    | none, none => ⟨none,none,none,reason⟩
  (.failAck ack,{m with leaseState := .failed reason})

def failForEvent (leaseId : Option LeaseId) (generation : Option ℕ)
    (eventId : Option EventId) (reason : FailureReason) : ProtocolDecision × LeaseMachine :=
  (.failAck ⟨leaseId,generation,eventId,reason⟩,
    {m with pendingGrant := none, leaseState := .failed reason})

def failRestartRestore (reason : FailureReason) : Except FailureReason Unit × LeaseMachine :=
  (.error reason,
    {m with pendingGrant := none, activeLease := none, leaseState := .failed reason})

def knownGeneration : Option ℕ :=
  (m.generationHistory.find? fun entry => entry.1 == leaseId).map (·.2)

def validateGeneration (generation : ℕ) : Except FailureReason Unit :=
  match m.knownGeneration leaseId with
  | some previous =>
    if generation≤previous then
      .error (.stateTransition (.staleGeneration generation previous))
    else if generation ≠ saturatingAdd 64 previous 1 then .error .generationGap
    else .ok ()
  | none =>
    if maxGenerationHistory ≤ m.generationHistory.length then .error .malformedRecord else .ok ()

def setGeneration (leaseId : LeaseId) (generation : ℕ) :
    List (LeaseId × ℕ) → List (LeaseId × ℕ)
  | [] => []
  | entry::rest =>
    if entry.1=leaseId then (entry.1,generation)::rest
    else entry::setGeneration leaseId generation rest

def rememberGeneration (generation : ℕ) : LeaseMachine :=
  if (m.knownGeneration leaseId).isSome then
    {m with generationHistory := setGeneration leaseId generation m.generationHistory}
  else if m.generationHistory.length < maxGenerationHistory then
    {m with generationHistory := m.generationHistory++[(leaseId,generation)]}
  else m

def registerEvent (fingerprint : EventFingerprint) : EventRegistration × LeaseMachine :=
  let eventId := fingerprint.eventId
  match m.seenEvents.find? fun seen => seen.eventId == eventId with
  | some seen => (if seen.fingerprint=fingerprint then .duplicate else .conflict,m)
  | none =>
    if maxProtocolEventHistory ≤ m.seenEvents.length then (.overflow,m)
    else (.new,{m with seenEvents := m.seenEvents++[⟨eventId,fingerprint⟩]})

/-- A current observation backs the grant, and its generation is the next one. -/
def checkAuthority (grant : Grant) (now : ℕ) : Except FailureReason Unit :=
  match m.preflight.lastObservation with
  | none => .error .noFreshHostObservation
  | some observation =>
    if observation.validate now≠.ok () ∨ observation.hostEpoch≠grant.hostEpoch ∨
        observation.budgetBytes<grant.capacityBytes ∨
        ¬(m.preflight.state=.observing ∨ m.preflight.state=.constrained ∨
          m.preflight.state=.demotionRequested) then .error .noFreshHostObservation
    else if !validCapacity grant.capacityBytes then .error .invalidCapacity
    else m.validateGeneration grant.leaseId grant.generation

/-- The checks of `receive_grant` in their order, with the reason of the first that fails. -/
def checkGrant (grant : Grant) (now : ℕ) : Except FailureReason Unit :=
  if m.leaseState≠.absent then
    .error (.stateTransition (.illegalTransition (some .absent) m.leaseState.tag))
  else if grant.expectedState.any fun state => decide (state≠.absent) then
    .error (.stateTransition (.illegalTransition (some .absent) m.leaseState.tag))
  else if grant.contractVersion≠n3SchemaVersion ∨ grant.leaseId.bytes=[] ∨
      grant.eventId.bytes=[] ∨ grant.generation=0 ∨ grant.hostEpoch=0 ∨
      grant.deadline≤grant.issuedAt ∨ now<grant.issuedAt ∨ grant.deadline≤now then
    .error .malformedRecord
  else if m.restoredRestartEpoch.any fun epoch => decide (grant.hostEpoch<epoch) then
    .error (.stateTransition
      (.staleGeneration grant.hostEpoch (m.restoredRestartEpoch.getD 0)))
  else m.checkAuthority grant now

def receiveGrant (grant : Grant) (now : ℕ) : ProtocolDecision × LeaseMachine :=
  let (registration,m) := m.registerEvent (.grant grant)
  let fail := m.failForEvent (some grant.leaseId) (some grant.generation) (some grant.eventId)
  match registration with
  | .duplicate => (.noop,m)
  | .conflict => fail .conflictingDuplicate
  | .overflow => fail .malformedRecord
  | .new =>
    match m.checkGrant grant now with
    | .error reason => fail reason
    | .ok () =>
      let m := m.rememberGeneration grant.leaseId grant.generation
      (.grantAck ⟨grant.contractVersion,grant.leaseId,grant.generation,grant.eventId⟩,
        {m with leaseState := .negotiating grant.generation, pendingGrant := some grant})

def acceptGrantAck (ack : GrantAck) : ProtocolDecision × LeaseMachine :=
  let fail := m.failForEvent (some ack.leaseId) (some ack.generation) (some ack.eventId)
  if m.acceptedGrantAcks.any fun seen => seen == ack then (.noop,m)
  else
    match m.pendingGrant with
    | none =>
      fail (.stateTransition (.illegalTransition (some .negotiating) m.leaseState.tag))
    | some grant =>
      if m.leaseState≠.negotiating grant.generation ∨
          ack.contractVersion≠grant.contractVersion ∨ ack.leaseId≠grant.leaseId ∨
          ack.generation≠grant.generation ∨ ack.eventId≠grant.eventId then
        fail .leaseIdentityMismatch
      else if maxProtocolEventHistory ≤ m.acceptedGrantAcks.length then
        m.failForActive .malformedRecord
      else
        (.accepted (.granted grant.generation),
          { m with
            acceptedGrantAcks := m.acceptedGrantAcks++[ack]
            activeLease :=
              some ⟨grant.leaseId,grant.generation,grant.eventId,grant.capacityBytes,none⟩
            pendingGrant := none
            leaseState := .granted grant.generation})

def receiveRevoke (revoke : Revoke) : ProtocolDecision × LeaseMachine :=
  let (registration,m) := m.registerEvent (.revoke revoke)
  let fail := m.failForEvent (some revoke.leaseId) (some revoke.generation) (some revoke.eventId)
  match registration with
  | .duplicate => (.noop,m)
  | .conflict => fail .conflictingDuplicate
  | .overflow => fail .malformedRecord
  | .new =>
    match m.activeLease with
    | none => fail (.stateTransition (.illegalTransition (some .granted) m.leaseState.tag))
    | some active =>
      if m.leaseState≠.granted active.generation ∨ revoke.leaseId≠active.leaseId ∨
          revoke.generation≠active.generation ∨ revoke.deadline=0 then
        fail .leaseIdentityMismatch
      else if revoke.expectedState.any fun state => decide (state≠.granted) then
        fail (.stateTransition (.illegalTransition (some .granted) m.leaseState.tag))
      else
        (.beginDrain,
          { m with
            activeLease := some {active with revoke := some revoke}
            leaseState := .quiescing active.generation
            scrubState := .pending
            sentDrainAck := false})

def beginIo : Except FailureReason Unit × LeaseMachine :=
  if m.leaseState≠.granted (m.activeGeneration.getD 0) then (.error .ioNotGranted,m)
  else if maxInFlight ≤ m.inFlight then
    (.error .unknownInFlight,{m with unknownInFlight := true})
  else (.ok (),{m with inFlight := m.inFlight+1})

def setInFlight (count : ℕ) : Except FailureReason Unit × LeaseMachine :=
  if maxInFlight<count then (.error .unknownInFlight,{m with unknownInFlight := true})
  else (.ok (),{m with inFlight := count})

def completeIo : Except FailureReason Unit × LeaseMachine :=
  if m.inFlight=0 then (.error .unknownInFlight,{m with unknownInFlight := true})
  else (.ok (),{m with inFlight := m.inFlight-1})

def setCallbacksPending (count : ℕ) : Except FailureReason Unit × LeaseMachine :=
  if maxInFlight<count then (.error .unknownInFlight,{m with unknownInFlight := true})
  else (.ok (),{m with callbacksPending := count})

def markUnknownInFlight : LeaseMachine := {m with unknownInFlight := true}

def scrubGuestData (result : ScrubResult) : ProtocolDecision × LeaseMachine :=
  let m := {m with scrubState := result.toState}
  if result=.failed then m.failForActive .scrubFailed else (.noop,m)

def drain (now : ℕ) : ProtocolDecision × LeaseMachine :=
  match m.activeLease with
  | none =>
    m.failForEvent none none none
      (.stateTransition (.illegalTransition (some .granted) m.leaseState.tag))
  | some active =>
    let illegal : FailureReason :=
      .stateTransition (.illegalTransition (some .quiescing) m.leaseState.tag)
    match active.revoke with
    | none => m.failForActive illegal
    | some revoke =>
      if m.leaseState≠.quiescing active.generation then m.failForActive illegal
      else if revoke.deadline≤now then m.failForActive .drainTimeout
      else if m.unknownInFlight then m.failForActive .unknownInFlight
      else if m.inFlight≠0 then m.failForActive .inFlightNotDrained
      else if m.callbacksPending≠0 then m.failForActive .callbackNotDrained
      else
        match m.scrubState with
        | .pending => (.blocked .scrubPending,m)
        | .failed => m.failForActive .scrubFailed
        | .succeeded =>
          (.drainAck ⟨active.leaseId,active.generation,revoke.eventId,m.inFlight,
              m.callbacksPending,true⟩,
            {m with sentDrainAck := true, leaseState := .drained active.generation})

def confirmRevoke (completion : RevokeCompletion) : ProtocolDecision × LeaseMachine :=
  let fail := m.failForEvent (some completion.leaseId) (some completion.generation)
    (some completion.eventId) .missingRevokeCompletion
  if m.completedRevokes.any fun seen => seen == completion then (.noop,m)
  else
    match m.activeLease with
    | none => fail
    | some active =>
      match active.revoke with
      | none => m.failForActive .missingRevokeCompletion
      | some revoke =>
        if m.leaseState≠.drained active.generation ∨ completion.leaseId≠active.leaseId ∨
            completion.generation≠active.generation ∨ completion.eventId≠revoke.eventId then
          fail
        else if maxProtocolEventHistory ≤ m.completedRevokes.length then
          m.failForActive .malformedRecord
        else
          (.revoked,
            { m with
              completedRevokes := m.completedRevokes++[completion]
              leaseState := .revoked})

def cleanable : LeaseState → Bool
  | .revoked => true
  | .failed _ => true
  | _ => false

def completeCleanup : LeaseMachine :=
  if m.activeLease.isSome ∧ m.scrubState≠.succeeded then m
  else if cleanable m.leaseState then
    { m with
      pendingGrant := none
      activeLease := none
      inFlight := 0
      callbacksPending := 0
      unknownInFlight := false
      scrubState := .pending
      sentDrainAck := false
      leaseState := .absent}
  else m

def restart : LeaseMachine :=
  { m with
    pendingGrant := none
    activeLease := none
    seenEvents := []
    acceptedGrantAcks := []
    completedRevokes := []
    inFlight := 0
    callbacksPending := 0
    unknownInFlight := false
    scrubState := .pending
    sentDrainAck := false
    leaseState := .absent
    preflight := .new}

def failClosed (event : LifecycleEvent) : ProtocolDecision × LeaseMachine :=
  if m.activeLease.isNone ∧ m.pendingGrant.isNone then
    (.failAck ⟨none,none,none,event.reason⟩,{m with leaseState := .failed event.reason})
  else m.failForActive event.reason

def fresh : Bool :=
  decide (m.leaseState=.absent) && m.pendingGrant.isNone && m.activeLease.isNone &&
    m.seenEvents.isEmpty && m.acceptedGrantAcks.isEmpty && m.completedRevokes.isEmpty &&
    m.generationHistory.isEmpty && m.restoredRestartEpoch.isNone &&
    decide (m.preflight.observationCount=0)

def restoreRestartRecord (record : RestartRecord) : Except FailureReason Unit × LeaseMachine :=
  match record.validate with
  | .error reason => m.failRestartRestore reason
  | .ok () =>
    if !m.fresh then
      m.failRestartRestore
        (.stateTransition (.illegalTransition (some .absent) m.leaseState.tag))
    else
      (.ok (),
        { m with
          generationHistory := record.checkpoints.map fun c => (c.leaseId,c.generation)
          restoredRestartEpoch := some record.hostEpoch})

def restoreRestartBytes (bytes : List UInt8) : Except FailureReason Unit × LeaseMachine :=
  match RestartRecord.fromBytes bytes with
  | .error reason => m.failRestartRestore reason
  | .ok record => m.restoreRestartRecord record

def observe (observation : HostObservation) (now : ℕ) : PreflightDecision × LeaseMachine :=
  let (decision,preflight) := m.preflight.observe observation now
  (decision,{m with preflight := preflight})

def requestDemotion : PreflightDecision × LeaseMachine :=
  let (decision,preflight) := m.preflight.requestDemotion
  (decision,{m with preflight := preflight})

def refuseGuestClaim (_ : GuestClaim) : PreflightDecision × LeaseMachine :=
  let (decision,preflight) := m.preflight.refuseGuestClaim
  (decision,{m with preflight := preflight})

def refuseProductTransport (_ : ProductTransport) : PreflightDecision × LeaseMachine :=
  let (decision,preflight) := m.preflight.refuseProductScope
  (decision,{m with preflight := preflight})

def hostAcceptsGrantAck (ack : GrantAck) : ProtocolDecision × LeaseMachine :=
  m.acceptGrantAck ack

def applyHostEvent (event : HostEvent) (now : ℕ) : ProtocolDecision × LeaseMachine :=
  match event with
  | .grant grant => m.receiveGrant grant now
  | .grantAckAccepted ack => m.acceptGrantAck ack
  | .revoke revoke => m.receiveRevoke revoke
  | .revokeCompleted completion => m.confirmRevoke completion
  | .lifecycle event => m.failClosed event

inductive Op
  | observe (observation : HostObservation) (now : ℕ)
  | requestDemotion
  | refuseGuestClaim (claim : GuestClaim)
  | refuseProductTransport (transport : ProductTransport)
  | restoreRestartBytes (bytes : List UInt8)
  | restoreRestartRecord (record : RestartRecord)
  | applyHostEvent (event : HostEvent) (now : ℕ)
  | receiveGrant (grant : Grant) (now : ℕ)
  | acceptGrantAck (ack : GrantAck)
  | hostAcceptsGrantAck (ack : GrantAck)
  | receiveRevoke (revoke : Revoke)
  | beginIo
  | setInFlight (count : ℕ)
  | completeIo
  | setCallbacksPending (count : ℕ)
  | markUnknownInFlight
  | scrubGuestData (result : ScrubResult)
  | drain (now : ℕ)
  | confirmRevoke (completion : RevokeCompletion)
  | completeCleanup
  | restart
  | failClosed (event : LifecycleEvent)

inductive Reply
  | preflight (decision : PreflightDecision)
  | protocol (decision : ProtocolDecision)
  | result (result : Except FailureReason Unit)
  | none

def perform : Op → Reply × LeaseMachine
  | .observe observation now => (m.observe observation now).map .preflight id
  | .requestDemotion => m.requestDemotion.map .preflight id
  | .refuseGuestClaim claim => (m.refuseGuestClaim claim).map .preflight id
  | .refuseProductTransport transport => (m.refuseProductTransport transport).map .preflight id
  | .restoreRestartBytes bytes => (m.restoreRestartBytes bytes).map .result id
  | .restoreRestartRecord record => (m.restoreRestartRecord record).map .result id
  | .applyHostEvent event now => (m.applyHostEvent event now).map .protocol id
  | .receiveGrant grant now => (m.receiveGrant grant now).map .protocol id
  | .acceptGrantAck ack => (m.acceptGrantAck ack).map .protocol id
  | .hostAcceptsGrantAck ack => (m.hostAcceptsGrantAck ack).map .protocol id
  | .receiveRevoke revoke => (m.receiveRevoke revoke).map .protocol id
  | .beginIo => m.beginIo.map .result id
  | .setInFlight count => (m.setInFlight count).map .result id
  | .completeIo => m.completeIo.map .result id
  | .setCallbacksPending count => (m.setCallbacksPending count).map .result id
  | .markUnknownInFlight => (.none,m.markUnknownInFlight)
  | .scrubGuestData result => (m.scrubGuestData result).map .protocol id
  | .drain now => (m.drain now).map .protocol id
  | .confirmRevoke completion => (m.confirmRevoke completion).map .protocol id
  | .completeCleanup => (.none,m.completeCleanup)
  | .restart => (.none,m.restart)
  | .failClosed event => (m.failClosed event).map .protocol id

def step (op : Op) : LeaseMachine := (m.perform op).2

end LeaseMachine
end RamShared.N3

import RamShared.Lib.Word
import RamShared.Lib.Bytes

/-! The records of the N3 contract: identities, observations, grants, revokes and the
decisions that answer them. -/
namespace RamShared.N3

section

def n3SchemaVersion : ℕ := 1
def maxOpaqueIdBytes : ℕ := 64
def maxCapacityBytes : ℕ := 2^50
def capacityAlignmentBytes : ℕ := 4096
def maxObservationAge : ℕ := 3600
def maxObservationEvents : ℕ := 16
def maxInFlight : ℕ := 1000000
def maxProtocolEventHistory : ℕ := 256
def maxGenerationHistory : ℕ := 256

inductive StateTag
  | absent
  | negotiating
  | granted
  | quiescing
  | drained
  | revoked
  | failed
  deriving DecidableEq, Repr

/-- None of these means that host memory was granted. -/
inductive PreflightState
  | hostUnavailable
  | productOff
  | observing
  | constrained
  | demotionRequested
  | refused
  deriving DecidableEq, Repr

inductive StateTransitionError
  | illegalTransition (expected : Option StateTag) (actual : StateTag)
  | illegalPreflight (expected : Option PreflightState) (actual : PreflightState)
  | staleGeneration (provided expected : ℕ)
  deriving DecidableEq, Repr

inductive FailureReason
  | unknownSchema
  | malformedRecord
  | hostAuthorityRequired
  | staleObservation
  | invalidObservationClock
  | epochRegression
  | impossibleBudget
  | noFreshHostObservation
  | generationGap
  | conflictingDuplicate
  | leaseIdentityMismatch
  | invalidCapacity
  | stateTransition (error : StateTransitionError)
  | ioNotGranted
  | inFlightNotDrained
  | callbackNotDrained
  | unknownInFlight
  | drainTimeout
  | scrubFailed
  | scrubPending
  | missingRevokeCompletion
  | reset
  | channelLoss
  | leaseExpired
  | wslRestart
  | suspend
  | driverUpgrade
  | guestCrash
  | guestResidencyClaim
  | productScope
  deriving DecidableEq, Repr

inductive Authority
  | host
  | guest
  | unknown
  deriving DecidableEq, Repr

/-- A bounded identity that is compared and never interpreted. -/
structure OpaqueId where
  bytes : List UInt8
  bytes_ne_nil : bytes≠[]
  length_le : bytes.length ≤ maxOpaqueIdBytes
  deriving DecidableEq

def OpaqueId.new (bytes : List UInt8) : Except FailureReason OpaqueId :=
  if h : bytes=[] ∨ maxOpaqueIdBytes<bytes.length then .error .malformedRecord
  else .ok ⟨bytes,fun hb => h (.inl hb),not_lt.mp fun hl => h (.inr hl)⟩

abbrev LeaseId := OpaqueId
abbrev EventId := OpaqueId
abbrev AdapterId := OpaqueId

inductive ObservationEventKind
  | healthy
  | pressure
  | reset
  | channelLoss
  | offline
  | migrate
  | unknown
  deriving DecidableEq, Repr

structure ObservationEvent where
  eventId : EventId
  kind : ObservationEventKind
  deriving DecidableEq

structure HostObservation where
  schemaVersion : ℕ
  hostEpoch : ℕ
  adapterId : AdapterId
  authority : Authority
  budgetBytes : ℕ
  residentBytes : ℕ
  availableBytes : ℕ
  observedAt : ℕ
  maxAge : ℕ
  eventId : EventId
  events : List ObservationEvent
  deriving DecidableEq

def validCounter (value : ℕ) : Bool :=
  decide (value ≤ maxCapacityBytes) && decide (capacityAlignmentBytes ∣ value)

def validCapacity (value : ℕ) : Bool := decide (value≠0) && validCounter value

namespace HostObservation

def validate (o : HostObservation) (now : ℕ) : Except FailureReason Unit :=
  if o.schemaVersion≠n3SchemaVersion then .error .unknownSchema
  else if o.hostEpoch=0 ∨ o.adapterId.bytes=[] ∨ o.eventId.bytes=[] then
    .error .malformedRecord
  else if o.authority≠.host then .error .hostAuthorityRequired
  else if o.maxAge=0 ∨ maxObservationAge<o.maxAge then .error .malformedRecord
  else if now<o.observedAt then .error .invalidObservationClock
  else if o.maxAge<now-o.observedAt then .error .staleObservation
  else if maxObservationEvents<o.events.length ∨
      (o.events.any fun e => decide (e.eventId.bytes=[]) || decide (e.kind=.unknown)) then
    .error .malformedRecord
  else if !validCounter o.budgetBytes || !validCounter o.residentBytes ||
      !validCounter o.availableBytes || decide (o.budgetBytes<o.residentBytes) ||
      decide (o.budgetBytes<o.availableBytes) then .error .impossibleBudget
  else .ok ()

def hasPressure (o : HostObservation) : Bool :=
  o.events.any fun e => decide (e.kind=.pressure)

def hasOfflineSignal (o : HostObservation) : Bool :=
  o.events.any fun e =>
    decide (e.kind=.reset) || decide (e.kind=.channelLoss) || decide (e.kind=.offline)

end HostObservation

structure Grant where
  contractVersion : ℕ
  leaseId : LeaseId
  generation : ℕ
  eventId : EventId
  capacityBytes : ℕ
  hostEpoch : ℕ
  issuedAt : ℕ
  deadline : ℕ
  expectedState : Option StateTag
  deriving DecidableEq

structure Revoke where
  leaseId : LeaseId
  generation : ℕ
  eventId : EventId
  deadline : ℕ
  expectedState : Option StateTag
  deriving DecidableEq

structure RevokeCompletion where
  leaseId : LeaseId
  generation : ℕ
  eventId : EventId
  deriving DecidableEq

structure GrantAck where
  contractVersion : ℕ
  leaseId : LeaseId
  generation : ℕ
  eventId : EventId
  deriving DecidableEq

structure DrainAck where
  leaseId : LeaseId
  generation : ℕ
  eventId : EventId
  inFlight : ℕ
  callbacksPending : ℕ
  scrubbed : Bool
  deriving DecidableEq

structure FailAck where
  leaseId : Option LeaseId
  generation : Option ℕ
  eventId : Option EventId
  reason : FailureReason
  deriving DecidableEq

inductive LeaseState
  | absent
  | negotiating (generation : ℕ)
  | granted (generation : ℕ)
  | quiescing (generation : ℕ)
  | drained (generation : ℕ)
  | revoked
  | failed (reason : FailureReason)
  deriving DecidableEq, Repr

def LeaseState.tag : LeaseState → StateTag
  | .absent => .absent
  | .negotiating _ => .negotiating
  | .granted _ => .granted
  | .quiescing _ => .quiescing
  | .drained _ => .drained
  | .revoked => .revoked
  | .failed _ => .failed

inductive LifecycleEvent
  | reset
  | channelLoss
  | leaseExpired
  | wslRestart
  | suspend
  | driverUpgrade
  | guestCrash
  deriving DecidableEq, Repr

def LifecycleEvent.reason : LifecycleEvent → FailureReason
  | .reset => .reset
  | .channelLoss => .channelLoss
  | .leaseExpired => .leaseExpired
  | .wslRestart => .wslRestart
  | .suspend => .suspend
  | .driverUpgrade => .driverUpgrade
  | .guestCrash => .guestCrash

inductive GuestClaim
  | pfnRange (start count : ℕ)
  | numaNode (node : ℕ)
  | devicePrivate
  | physicalResidency
  deriving DecidableEq, Repr

inductive ProductTransport
  | nbd
  | ublk
  | windowsDriver
  | upstreamContribution
  deriving DecidableEq, Repr

inductive ScrubResult
  | pending
  | succeeded
  | failed
  deriving DecidableEq, Repr

inductive HostEvent
  | grant (grant : Grant)
  | grantAckAccepted (ack : GrantAck)
  | revoke (revoke : Revoke)
  | revokeCompleted (completion : RevokeCompletion)
  | lifecycle (event : LifecycleEvent)
  deriving DecidableEq

inductive ProtocolDecision
  | noop
  | grantAck (ack : GrantAck)
  | accepted (state : LeaseState)
  | beginDrain
  | drainAck (ack : DrainAck)
  | revoked
  | failAck (ack : FailAck)
  | blocked (reason : FailureReason)
  | refused (reason : FailureReason)
  deriving DecidableEq

/-! The preflight model: which host observation, if any, is current. -/
open Lib

inductive PreflightAction
  | observed
  | constrained
  | demotionRequested
  | idempotent
  | refused (reason : FailureReason)
  | unavailable (reason : FailureReason)
  deriving DecidableEq, Repr

structure PreflightDecision where
  state : PreflightState
  action : PreflightAction
  retryAllowed : Bool
  deriving DecidableEq, Repr

namespace PreflightDecision

def observed (state : PreflightState) : PreflightDecision :=
  ⟨state,if state=.constrained then .constrained else .observed,true⟩

def idempotent (state : PreflightState) : PreflightDecision := ⟨state,.idempotent,true⟩

def refused (reason : FailureReason) : PreflightDecision := ⟨.refused,.refused reason,false⟩

def unavailable (reason : FailureReason) : PreflightDecision :=
  ⟨.hostUnavailable,.unavailable reason,true⟩

end PreflightDecision

structure PreflightModel where
  state : PreflightState := .hostUnavailable
  lastObservation : Option HostObservation := none
  observationCount : ℕ := 0
  refusalCount : ℕ := 0
  deriving DecidableEq

namespace PreflightModel

def new : PreflightModel := {}

def refuse (p : PreflightModel) (reason : FailureReason) : PreflightDecision × PreflightModel :=
  (.refused reason,
    {p with state := .refused, refusalCount := saturatingAdd 64 p.refusalCount 1})

/-- What the previous observation already decides about the next one. -/
def replayDecision (p : PreflightModel) (observation previous : HostObservation) :
    Option (PreflightDecision × PreflightModel) :=
  if observation.eventId=previous.eventId ∧ observation≠previous then
    some (p.refuse .conflictingDuplicate)
  else if observation.hostEpoch<previous.hostEpoch then some (p.refuse .epochRegression)
  else if observation.hostEpoch=previous.hostEpoch then
    if observation=previous then some (.idempotent p.state,p)
    else some (p.refuse .conflictingDuplicate)
  else if observation.adapterId≠previous.adapterId then some (p.refuse .hostAuthorityRequired)
  else none

def accept (p : PreflightModel) (observation : HostObservation) :
    PreflightDecision × PreflightModel :=
  let p := { p with
    observationCount := saturatingAdd 64 p.observationCount 1
    lastObservation := some observation}
  if observation.hasOfflineSignal then
    (.unavailable .channelLoss,{p with state := .hostUnavailable})
  else
    let state : PreflightState :=
      if observation.hasPressure || decide (observation.budgetBytes=0) then .constrained
      else .observing
    (.observed state,{p with state := state})

def observeNew (p : PreflightModel) (observation : HostObservation) (now : ℕ) :
    PreflightDecision × PreflightModel :=
  match observation.validate now with
  | .ok () => p.accept observation
  | .error .staleObservation =>
    (.unavailable .staleObservation,{p with state := .hostUnavailable})
  | .error .invalidObservationClock =>
    (.unavailable .invalidObservationClock,{p with state := .hostUnavailable})
  | .error reason => p.refuse reason

def observe (p : PreflightModel) (observation : HostObservation) (now : ℕ) :
    PreflightDecision × PreflightModel :=
  match p.lastObservation.bind fun previous => p.replayDecision observation previous with
  | some decided => decided
  | none => p.observeNew observation now

def requestDemotion (p : PreflightModel) : PreflightDecision × PreflightModel :=
  if p.state≠.constrained then
    (⟨p.state,.unavailable (.stateTransition (.illegalPreflight (some .constrained) p.state)),true⟩,
      p)
  else (⟨.demotionRequested,.demotionRequested,true⟩,{p with state := .demotionRequested})

def refuseGuestClaim (p : PreflightModel) : PreflightDecision × PreflightModel :=
  p.refuse .guestResidencyClaim

def refuseProductScope (p : PreflightModel) : PreflightDecision × PreflightModel :=
  p.refuse .productScope

end PreflightModel

end

/-! The restart record: the host's generation checkpoints and their byte encoding. -/
open Lib

def restartRecordHeaderBytes : ℕ := 17
def maxRestartRecordBytes : ℕ :=
  restartRecordHeaderBytes+maxGenerationHistory*(1+maxOpaqueIdBytes+8)

def restartRecordMagic : List UInt8 := [0x52,0x53,0x4e,0x33]
def hostAuthorityMarker : UInt8 := 1
def guestAuthorityMarker : UInt8 := 2

structure GenerationCheckpoint where
  leaseId : LeaseId
  generation : ℕ
  deriving DecidableEq

structure RestartRecord where
  schemaVersion : ℕ
  authority : Authority
  hostEpoch : ℕ
  checkpoints : List GenerationCheckpoint
  deriving DecidableEq

def authorityMarker : Authority → UInt8
  | .host => hostAuthorityMarker
  | .guest => guestAuthorityMarker
  | .unknown => 0

/-- The bytes from the cursor on, and the cursor behind them. -/
def readExact (bytes : List UInt8) (cursor length : ℕ) :
    Except FailureReason (List UInt8 × ℕ) :=
  match (checkedAdd 64 cursor length).filter fun stop => stop≤bytes.length with
  | none => .error .malformedRecord
  | some stop => .ok ((bytes.drop cursor).take (stop-cursor),stop)

def readBe (n : ℕ) (bytes : List UInt8) (cursor : ℕ) : Except FailureReason (ℕ × ℕ) := do
  let (value,cursor) ← readExact bytes cursor n
  return (fromBeBytes value,cursor)

def readU8 := readBe 1
def readU16 := readBe 2
def readU64 := readBe 8

def readAuthority (bytes : List UInt8) (cursor : ℕ) : Except FailureReason (Authority × ℕ) := do
  let (marker,cursor) ← readU8 bytes cursor
  return (if marker=hostAuthorityMarker.toNat then .host
    else if marker=guestAuthorityMarker.toNat then .guest else .unknown,cursor)

/-- One round of the checkpoint loop of `from_bytes`. -/
def readCheckpoint (bytes : List UInt8) (cursor : ℕ) : Except FailureReason (GenerationCheckpoint × ℕ) := do
  let (identityLength,cursor) ← readU8 bytes cursor
  if identityLength=0 ∨ maxOpaqueIdBytes < identityLength then throw .malformedRecord
  let (identity,cursor) ← readExact bytes cursor identityLength
  let leaseId ← OpaqueId.new identity
  let (generation,cursor) ← readU64 bytes cursor
  return (⟨leaseId,generation⟩,cursor)

def readCheckpoints (bytes : List UInt8) :
    ℕ → ℕ → Except FailureReason (List GenerationCheckpoint × ℕ)
  | 0, cursor => .ok ([],cursor)
  | count+1, cursor => do
    let (checkpoint,cursor) ← readCheckpoint bytes cursor
    let (rest,cursor) ← readCheckpoints bytes count cursor
    return (checkpoint::rest,cursor)

namespace RestartRecord

def toBytes (r : RestartRecord) : List UInt8 :=
  restartRecordMagic++toBeBytes 2 r.schemaVersion++[authorityMarker r.authority] ++
    toBeBytes 8 r.hostEpoch++toBeBytes 2 r.checkpoints.length ++
    r.checkpoints.flatMap fun c =>
      UInt8.ofNat c.leaseId.bytes.length::(c.leaseId.bytes++toBeBytes 8 c.generation)

/-- Neighbours in the list are in strict order of their identities. -/
def ordered (checkpoints : List GenerationCheckpoint) : Bool :=
  (checkpoints.zip checkpoints.tail).all fun p => decide (p.1.leaseId.bytes<p.2.leaseId.bytes)

def validate (r : RestartRecord) : Except FailureReason Unit :=
  if r.schemaVersion≠n3SchemaVersion then .error .unknownSchema
  else if r.authority≠.host then .error .hostAuthorityRequired
  else if r.hostEpoch=0 ∨ maxGenerationHistory < r.checkpoints.length then
    .error .malformedRecord
  else if r.checkpoints.any fun c =>
      decide (c.leaseId.bytes=[]) || decide (c.generation=0) then .error .malformedRecord
  else if !ordered r.checkpoints then .error .malformedRecord
  else if maxRestartRecordBytes < r.toBytes.length then .error .malformedRecord
  else .ok ()

def host (hostEpoch : ℕ) (checkpoints : List GenerationCheckpoint) :
    Except FailureReason RestartRecord := do
  let record : RestartRecord :=
    { schemaVersion := n3SchemaVersion
      authority := .host
      hostEpoch := hostEpoch
      checkpoints := checkpoints.insertionSort fun a b => a.leaseId.bytes≤b.leaseId.bytes}
  record.validate
  return record

def fromBytes (bytes : List UInt8) : Except FailureReason RestartRecord := do
  if bytes.length < restartRecordHeaderBytes ∨ maxRestartRecordBytes<bytes.length ∨
      bytes.take 4≠restartRecordMagic then throw .malformedRecord
  let (schemaVersion,cursor) ← readU16 bytes 4
  let (authority,cursor) ← readAuthority bytes cursor
  let (hostEpoch,cursor) ← readU64 bytes cursor
  let (checkpointCount,cursor) ← readU16 bytes cursor
  if maxGenerationHistory<checkpointCount then throw .malformedRecord
  let (checkpoints,cursor) ← readCheckpoints bytes checkpointCount cursor
  if cursor≠bytes.length then throw .malformedRecord
  let record : RestartRecord := ⟨schemaVersion,authority,hostEpoch,checkpoints⟩
  record.validate
  return record

end RestartRecord

end RamShared.N3

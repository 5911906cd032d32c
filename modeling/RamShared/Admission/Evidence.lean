import RamShared.Lib.Fallible
import RamShared.Pressure.Actions

/-! The evidence on which a workload is admitted: the status of the supervisor, the admission state and
the resume lease, with the checks that are made of each of them. -/
namespace RamShared.Admission
open Lib Workload Pressure

inductive SupervisorActionStatus
  | succeeded
  | failed
  deriving DecidableEq, Repr

structure SupervisorActionResult where
  action : SupervisorAction
  status : SupervisorActionStatus
  error : Option String
  deriving DecidableEq, Repr

def SupervisorActionResult.fromResult (result : ActionResult) : SupervisorActionResult :=
  match result.2 with
  | .ok () => ⟨result.1,.succeeded,none⟩
  | .error err => ⟨result.1,.failed,some err⟩

structure SupervisorStatus where
  schemaVersion : ℕ
  controlState : String
  healthySamples : ℕ
  actionResults : List SupervisorActionResult
  supervisorIdentity : OwnerIdentity
  writtenAtUnixMs : ℕ
  deriving DecidableEq, Repr

structure AdmissionState where
  schemaVersion : ℕ
  admissionOpen : Bool
  controlState : String
  supervisorIdentity : OwnerIdentity
  writtenAtUnixMs : ℕ
  deriving DecidableEq, Repr

structure ResumeLease where
  schemaVersion : ℕ
  bootId : String
  incidentId : String
  distro : String
  supervisorIdentity : OwnerIdentity
  issuedAtEpochMs : ℕ
  expiresAtEpochMs : ℕ
  deriving DecidableEq, Repr

structure GuestSafeModeGate where
  schemaVersion : ℕ
  incidentId : String
  distro : String
  bootId : String
  deriving DecidableEq, Repr

structure HostSafeModeGate where
  schemaVersion : ℕ
  incidentId : String
  distro : String
  priorBootId : String
  reason : String
  timestampUtc : String
  deriving DecidableEq, Repr

/-- What `publish_at` writes, as it is read back; the id of the daemon is not read. -/
def publishAt (decision : SupervisorDecision) (results : List ActionResult) (identity : OwnerIdentity)
    (writtenAtUnixMs : ℕ) : SupervisorStatus :=
  ⟨3,decision.state.asStr,decision.healthySamples,results.map .fromResult,identity,writtenAtUnixMs⟩

def publishAdmissionStateAt (identity : OwnerIdentity) (controlState : String) (writtenAtUnixMs : ℕ) :
    AdmissionState :=
  ⟨1,controlState = "HEALTHY",controlState,identity,writtenAtUnixMs⟩

def maxControlEvidenceAgeMs : ℕ := 15000

def isHexDigit (c : Char) : Bool := c.isDigit || ('a' ≤ c && c ≤ 'f') || ('A' ≤ c && c ≤ 'F')

def validIncidentId (value : String) : Bool := value.utf8ByteSize = 32 && value.toList.all isHexDigit

def validDistro (value : String) : Bool :=
  !value.isEmpty && value.toList.all fun c => c.isAlphanum || c = '.' || c = '_' || c = '-'

def identityIsCurrent (identity : OwnerIdentity) (bootId : String) (isAlive : OwnerIdentity → Bool) : Bool :=
  identity.bootId = bootId && identity.pid ≠ 0 && identity.startTime ≠ 0 && !identity.nonce.isEmpty &&
    (identity.nonce.toList.all fun c => isHexDigit c || c = '-') && isAlive identity

inductive ReadError
  | notFound
  | unavailable
  | malformed
  deriving DecidableEq, Repr

def required {α : Type} (unavailable malformed : String) : Except ReadError α → Except String α
  | .ok a => .ok a
  | .error .malformed => .error malformed
  | .error _ => .error unavailable

def optional {α : Type} (unavailable malformed : String) : Except ReadError α → Except String (Option α)
  | .ok a => .ok (some a)
  | .error .notFound => .ok none
  | .error .unavailable => .error unavailable
  | .error .malformed => .error malformed

def readCurrentSupervisorStatus (file : Except ReadError SupervisorStatus) (current : OwnerIdentity)
    (nowMs minimumHealthySamples : ℕ) (isAlive : OwnerIdentity → Bool) :
    Except String SupervisorStatus := do
  let status ← required "supervisor health evidence is unavailable"
    "supervisor health evidence is malformed" file
  if status.schemaVersion ≠ 3 || nowMs<status.writtenAtUnixMs ||
      maxControlEvidenceAgeMs<nowMs-status.writtenAtUnixMs ||
      !identityIsCurrent status.supervisorIdentity current.bootId isAlive ||
      status.actionResults.any fun result =>
        match result.status with
        | .succeeded => result.error.isSome
        | .failed => result.error.isNone then
    throw "supervisor health evidence is stale, foreign, or invalid"
  if status.controlState ≠ "HEALTHY" then
    throw s!"workload admission is closed by control state {status.controlState}"
  if status.healthySamples < minimumHealthySamples then
    throw "supervisor health evidence has too few healthy samples"
  return status

def validateResumeLease (lease : ResumeLease) (current : OwnerIdentity) (supervisor : SupervisorStatus)
    (nowMs : ℕ) (isAlive : OwnerIdentity → Bool) : Except String Unit := do
  if lease.schemaVersion ≠ 2 || lease.bootId ≠ current.bootId || !validIncidentId lease.incidentId ||
      !validDistro lease.distro || lease.supervisorIdentity ≠ supervisor.supervisorIdentity ||
      !identityIsCurrent lease.supervisorIdentity current.bootId isAlive ||
      nowMs<lease.issuedAtEpochMs || lease.expiresAtEpochMs<nowMs ||
      maxControlEvidenceAgeMs<lease.expiresAtEpochMs-lease.issuedAtEpochMs ||
      maxControlEvidenceAgeMs<nowMs-lease.issuedAtEpochMs then
    throw "resume lease is stale, foreign, or invalid"

def readResumeLeaseIfPresent (file : Except ReadError ResumeLease) (current : OwnerIdentity)
    (supervisor : SupervisorStatus) (nowMs : ℕ) (isAlive : OwnerIdentity → Bool) :
    Except String (Option ResumeLease) := do
  match ← optional "resume lease is unavailable" "resume lease is malformed" file with
  | none => return none
  | some lease =>
    validateResumeLease lease current supervisor nowMs isAlive
    return some lease

def admissionStateAllows (file : Except ReadError AdmissionState) (current : OwnerIdentity)
    (supervisor : SupervisorStatus) (nowMs : ℕ) (isAlive : OwnerIdentity → Bool) : Except String Unit := do
  let state ← required "admission state evidence is unavailable" "admission state evidence is malformed" file
  if state.schemaVersion ≠ 1 || nowMs<state.writtenAtUnixMs ||
      maxControlEvidenceAgeMs<nowMs-state.writtenAtUnixMs ||
      state.supervisorIdentity ≠ supervisor.supervisorIdentity ||
      !identityIsCurrent state.supervisorIdentity current.bootId isAlive then
    throw "admission state evidence is stale, foreign, or invalid"
  if !state.admissionOpen || state.controlState ≠ "HEALTHY" then
    throw s!"admission state closes new workloads for control state {state.controlState}"

section Checks
variable {current : OwnerIdentity} {nowMs : ℕ} {isAlive : OwnerIdentity → Bool}

lemma required_ok {α : Type} {unavailable malformed : String} {file : Except ReadError α} {a : α}
    (h : required unavailable malformed file=.ok a) : file=.ok a := by
  cases file with
  | ok b => exact congrArg Except.ok (Except.ok.inj h)
  | error err => cases err <;> cases h

lemma identityIsCurrent_alive {identity : OwnerIdentity} {bootId : String}
    (h : identityIsCurrent identity bootId isAlive=true) : isAlive identity=true := by
  unfold identityIsCurrent at h
  exact (Bool.and_eq_true_iff.mp h).2

structure Accepted (status : SupervisorStatus) (nowMs minimumHealthySamples : ℕ)
    (isAlive : OwnerIdentity → Bool) : Prop where
  written : status.writtenAtUnixMs≤nowMs
  recent : nowMs ≤ status.writtenAtUnixMs+maxControlEvidenceAgeMs
  alive : isAlive status.supervisorIdentity=true
  healthy : status.controlState = "HEALTHY"
  samples : minimumHealthySamples ≤ status.healthySamples

lemma readCurrentSupervisorStatus_ok {file : Except ReadError SupervisorStatus}
    {minimumHealthySamples : ℕ} {status : SupervisorStatus}
    (h : readCurrentSupervisorStatus file current nowMs minimumHealthySamples isAlive=.ok status) :
    file=.ok status ∧ Accepted status nowMs minimumHealthySamples isAlive := by
  obtain ⟨s,hs,h₁⟩ := bind_ok.mp h
  simp only [ite_throw_ok] at h₁
  obtain ⟨hvalid,hstate,hsamples,h₂⟩ := h₁
  obtain rfl := Except.ok.inj h₂
  simp only [Bool.or_eq_true,not_or,decide_eq_true_eq,Bool.not_eq_true',Bool.not_eq_false] at hvalid
  obtain ⟨⟨⟨⟨-,hwritten⟩,hrecent⟩,hidentity⟩,-⟩ := hvalid
  exact ⟨required_ok hs,by omega,by omega,identityIsCurrent_alive hidentity,
    Decidable.not_not.mp hstate,by omega⟩

lemma validateResumeLease_ok {lease : ResumeLease} {supervisor : SupervisorStatus}
    (h : validateResumeLease lease current supervisor nowMs isAlive=.ok ()) :
    lease.supervisorIdentity=supervisor.supervisorIdentity ∧ lease.issuedAtEpochMs≤nowMs ∧
      nowMs≤lease.issuedAtEpochMs+maxControlEvidenceAgeMs := by
  unfold validateResumeLease at h
  split_ifs at h with hvalid
  simp only [Bool.or_eq_true,not_or,decide_eq_true_eq] at hvalid
  obtain ⟨⟨⟨⟨⟨⟨-,hsame⟩,-⟩,hissued⟩,-⟩,-⟩,hrecent⟩ := hvalid
  exact ⟨Decidable.not_not.mp hsame,by omega,by omega⟩

lemma readResumeLeaseIfPresent_ok {file : Except ReadError ResumeLease} {supervisor : SupervisorStatus}
    {lease : ResumeLease}
    (h : readResumeLeaseIfPresent file current supervisor nowMs isAlive=.ok (some lease)) :
    file=.ok lease ∧ validateResumeLease lease current supervisor nowMs isAlive=.ok () := by
  cases file with
  | error err => cases err <;> cases h
  | ok l =>
    obtain ⟨⟨⟩,hvalid,h₁⟩ := bind_ok.mp (show (validateResumeLease l current supervisor nowMs isAlive >>=
      fun _ => pure (some l))=.ok (some lease) from h)
    obtain rfl := Option.some.inj (Except.ok.inj h₁)
    exact ⟨rfl,hvalid⟩

end Checks
end RamShared.Admission

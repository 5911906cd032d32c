import RamShared.Admission.Evidence
import RamShared.Pressure.Episodes

/-! The processes around an admission: supervisors, `recover --resume`, and the admissions themselves.
They share the evidence files, the lock of the ledger and the gates; a process may be overtaken by the
others before each of its calls, and may be killed there. The clock of a call may show any time. -/
namespace RamShared.Admission
open Lib Workload Pressure

inductive Access
  | bootId
  | clock
  | probe
  | lock (owner : OwnerIdentity)
  | markerPresent
  | readStatus
  | readAdmissionState
  | readLease
  | readGuestGate
  | readHostGate (distro : String)
  | readPending
  | writePending (transaction : ResumeLease)
  | writeLease (lease : ResumeLease)
  | removeHostGate (distro : String)
  | removeGuestGate
  | removePending
  | loadLedger
  | nonce
  | storeLedger (ledger : ReservationLedger)

abbrev Access.Answer : Access → Type
  | .bootId => Except String String
  | .clock => Except String ℕ
  | .probe => OwnerIdentity → Bool
  | .markerPresent => Except String Bool
  | .readStatus => Except ReadError SupervisorStatus
  | .readAdmissionState => Except ReadError AdmissionState
  | .readLease | .readPending => Except ReadError ResumeLease
  | .readGuestGate => Except ReadError GuestSafeModeGate
  | .readHostGate _ => Except ReadError HostSafeModeGate
  | .loadLedger => Except String ReservationLedger
  | .nonce => String
  | _ => Except String Unit

abbrev Program := Prog Access Access.Answer String

abbrev Trace := Prog.Trace Access Access.Answer

def demand {α : Type} (x : Except String α) : Program α := Prog.ofExcept x

def refuseIf (c : Bool) (reason : String) : Program Unit := if c then .fail reason else .ok ()

open Prog (perform)

def admitReservationAt (owner : OwnerIdentity) (class_ : WorkloadClass) (memoryBytes aggregateMax : ℕ) :
    Program Reservation := do
  demand (← perform (.lock owner))
  refuseIf (← demand (← perform .markerPresent))
    "safe mode closes new workload admission until recover --resume"
  let nowMs ← demand (← perform .clock)
  let supervisor ← demand
    (readCurrentSupervisorStatus (← perform .readStatus) owner nowMs 0 (← perform .probe))
  demand (admissionStateAllows (← perform .readAdmissionState) owner supervisor nowMs (← perform .probe))
  match ← demand (readResumeLeaseIfPresent (← perform .readLease) owner supervisor nowMs
    (← perform .probe)) with
  | none => .fail "boot-ephemeral resume lease is required for workload admission"
  | some _ => do
    let (ledger,reservation) ← demand (admitReservation (← demand (← perform .loadLedger))
      (← perform .probe) (← perform .nonce) owner class_ memoryBytes aggregateMax)
    demand (← perform (.storeLedger ledger))
    return reservation

/-- How `recover_resume_at` reports that the status of the supervisor does not do. -/
def recoveryError (err : String) : String :=
  if err = "supervisor health evidence is unavailable" || err = "supervisor health evidence is malformed" then
    err
  else "recover requires 60 consecutive current healthy supervisor samples"

/-- The checks of `recover_resume_at` on the two gates of the safe mode. -/
def guestGateValid (gate : GuestSafeModeGate) : Bool :=
  gate.schemaVersion = 1 && validIncidentId gate.incidentId && validDistro gate.distro

def hostGateMatches (record : HostSafeModeGate) (gate : GuestSafeModeGate) (bootId : String) : Bool :=
  record.schemaVersion = 1 && record.incidentId = gate.incidentId && record.distro = gate.distro &&
    !record.priorBootId.isEmpty && record.priorBootId ≠ bootId && !record.reason.isEmpty &&
    !record.timestampUtc.isEmpty

/-- The transaction of `recover_resume_at` is recorded, or found on record. -/
def recordTransaction (current : OwnerIdentity) (supervisor : SupervisorStatus) (gate : GuestSafeModeGate)
    (lease : ResumeLease) : Option HostSafeModeGate → Option ResumeLease → Program Unit
  | some record, _ => do
    refuseIf (!hostGateMatches record gate lease.bootId)
      "Windows and guest safe-mode identities do not match"
    demand (← perform (.writePending lease))
  | none, none => .fail "matching Windows safe-mode gate or recovery transaction is unavailable"
  | none, some transaction => do
    demand (validateResumeLease transaction current supervisor lease.issuedAtEpochMs (← perform .probe))
    refuseIf (transaction.incidentId ≠ gate.incidentId || transaction.distro ≠ gate.distro ||
      transaction.bootId≠lease.bootId) "recovery transaction identity is invalid"

def removeHostGate (distro : String) : Option HostSafeModeGate → Program Unit
  | some _ => do
    demand (Except.mapError (fun err => s!"remove matching Windows safe-mode gate: {err}")
      (← perform (.removeHostGate distro)))
  | none => .ok ()

def recoverResumeAt (current : OwnerIdentity) : Program Unit := do
  let bootId ← demand (← perform .bootId)
  refuseIf (bootId≠current.bootId) "recovery boot identity is not current"
  let nowMs ← demand (← perform .clock)
  let supervisor ← demand ((readCurrentSupervisorStatus (← perform .readStatus) current nowMs 60
    (← perform .probe)).mapError recoveryError)
  let gate ← demand (required "guest safe-mode marker is unavailable"
    "guest safe-mode marker is malformed" (← perform .readGuestGate))
  refuseIf (!guestGateValid gate) "guest safe-mode identity is invalid"
  refuseIf (gate.bootId≠bootId) "safe-mode marker does not belong to the current boot"
  let hostGate ← demand (optional "Windows safe-mode gate is unavailable"
    "Windows safe-mode gate is malformed" (← perform (.readHostGate gate.distro)))
  let pending ← demand (optional "recovery transaction is unavailable"
    "recovery transaction is malformed" (← perform .readPending))
  let lease : ResumeLease := ⟨2,bootId,gate.incidentId,gate.distro,supervisor.supervisorIdentity,nowMs,
    saturatingAdd 64 nowMs maxControlEvidenceAgeMs⟩
  recordTransaction current supervisor gate lease hostGate pending
  demand (← perform (.writeLease lease))
  removeHostGate gate.distro hostGate
  demand (Except.mapError (fun err => s!"remove guest safe-mode gate: {err}")
    (← perform .removeGuestGate))
  demand (← perform .removePending)

def collectSample (total available : UInt64) (psi : Option ℚ) (delayMs elapsedMs : ℕ) : PressureSample :=
  ⟨available.toNat,max (divCeil total.toNat 4) (4*gibBytes),psi,delayMs,elapsedMs⟩

/-- A process in the loop of `supervise`; `running` is the round it is in. -/
structure Supervising where
  identity : OwnerIdentity
  machine : Supervisor
  samples : List PressureSample
  running : Option (Action (Supervisor × SupervisorDecision × Option String))
  stopped : Bool

structure Running (α : Type) where
  prog : Program α
  trace : Trace

inductive Party
  | supervisor (s : Supervising)
  | recovery (r : Running Unit)
  | admission (r : Running Reservation)

def Party.identity : Party → Option OwnerIdentity
  | .supervisor s => some s.identity
  | .recovery _ | .admission _ => none

structure Files where
  status : Option SupervisorStatus
  admissionState : Option AdmissionState
  lease : Option ResumeLease
  pending : Option ResumeLease
  guestGate : Option GuestSafeModeGate
  hostGate : String → Option HostSafeModeGate
  ledger : ReservationLedger
  records : World

/-- A status that was published: by whom, and on which samples. -/
structure Publication where
  process : ℕ
  samples : List PressureSample
  status : SupervisorStatus

/-- The files, who has the lock of the ledger, and all publications so far. -/
structure Shared where
  files : Files
  lock : Option ℕ
  published : List Publication

/-- What a call of an admission or a recovery meets. A write or a removal that fails may have been
applied. -/
structure Reply where
  error : Option String
  fault : Option ReadError
  applied : Bool
  text : String
  nowMs : ℕ
  isAlive : OwnerIdentity → Bool

def Reply.result {α : Type} (r : Reply) (a : α) : Except String α :=
  match r.error with
  | some err => .error err
  | none => .ok a

def Reply.read {α : Type} (r : Reply) (file : Option α) : Except ReadError α :=
  match r.fault, file with
  | some err, _ => .error err
  | none, some a => .ok a
  | none, none => .error .notFound

def Reply.lands (r : Reply) : Bool := r.error.isNone || r.applied

variable (d : Shared)

namespace Shared

/-- What a call of process `n` does, and what it returns. -/
def access (n : ℕ) : (e : Access) → Reply → Shared × e.Answer
  | .bootId, r => (d,r.result r.text)
  | .clock, r => (d,r.result r.nowMs)
  | .probe, r => (d,r.isAlive)
  | .lock _, r =>
    if d.lock.isSome then (d,.error "reservation ledger transition is busy or ambiguous")
    else ({d with lock := if r.error.isNone then some n else none},r.result ())
  | .markerPresent, r => (d,r.result d.files.guestGate.isSome)
  | .readStatus, r => (d,r.read d.files.status)
  | .readAdmissionState, r => (d,r.read d.files.admissionState)
  | .readLease, r => (d,r.read d.files.lease)
  | .readGuestGate, r => (d,r.read d.files.guestGate)
  | .readHostGate distro, r => (d,r.read (d.files.hostGate distro))
  | .readPending, r => (d,r.read d.files.pending)
  | .writePending transaction, r =>
    ({d with files.pending := if r.lands then some transaction else d.files.pending},r.result ())
  | .writeLease lease, r =>
    ({d with files.lease := if r.lands then some lease else d.files.lease},r.result ())
  | .removeHostGate distro, r =>
    ({ d with files.hostGate := if r.lands then Function.update d.files.hostGate distro none
        else d.files.hostGate},r.result ())
  | .removeGuestGate, r =>
    ({d with files.guestGate := if r.lands then none else d.files.guestGate},r.result ())
  | .removePending, r =>
    ({d with files.pending := if r.lands then none else d.files.pending},r.result ())
  | .loadLedger, r => (d,r.result d.files.ledger)
  | .nonce, r => (d,r.text)
  | .storeLedger ledger, r =>
    ({d with files.ledger := if r.lands then ledger else d.files.ledger},r.result ())

def unlock (n : ℕ) : Shared := {d with lock := if d.lock=some n then none else d.lock}

/-- What a call of a supervisor meets: the admission state is written under the lock. -/
def answer : Effect → Answer → Answer
  | .publishAdmission _ _, a =>
    if d.lock.isSome then
      { a with error := some "reservation ledger transition is busy or ambiguous", applied := false}
    else a
  | _, a => a

/-- What a call of a supervisor does to its records, and what it returns. -/
def exec (e : Effect) (a : Answer) : Shared × Except String e.Result :=
  ({d with files.records := (d.files.records.exec e (d.answer e a)).1},
    (d.files.records.exec e (d.answer e a)).2)

def publish (n : ℕ) (s : Supervising) (a : Answer) : Effect → Shared
  | .publishState decision results _ writtenAtUnixMs =>
    let status := publishAt decision results s.identity writtenAtUnixMs
    if a.lands then
      {d with files.status := some status, published := d.published++[⟨n,s.samples,status⟩]}
    else d
  | .publishAdmission state writtenAtUnixMs =>
    if a.lands then
      {d with files.admissionState := some (publishAdmissionStateAt s.identity state writtenAtUnixMs)}
    else d
  | _ => d

end Shared

def Supervising.resume (s : Supervising) :
    Action (Supervisor × SupervisorDecision × Option String) → Supervising
  | .ok (machine,_,err) => {s with machine, running := none, stopped := err.isSome}
  | .fail _ => {s with running := none, stopped := true}
  | .call e next => {s with running := some (.call e next)}

def Supervising.effect (a : Answer) (n : ℕ) (d : Shared) (s : Supervising) : Shared × Supervising :=
  match s.running with
  | some (.call e next) =>
    ((d.exec e a).1.publish n s (d.answer e a) e,s.resume (next (d.exec e a).2))
  | _ => (d,s)

/-- A call of an admission or a recovery. A failure drops the lock. -/
def Running.step {α : Type} (r : Reply) (n : ℕ) (d : Shared) (x : Running α) : Shared × Running α :=
  match x.prog with
  | .call e next =>
    let (d,answer) := d.access n e r
    let prog := next answer
    let d := match prog with
      | .fail _ => d.unlock n
      | _ => d
    (d,⟨prog,x.trace++[⟨e,answer⟩]⟩)
  | _ => (d,x)

inductive Turn
  /-- A supervisor takes a sample, and begins a round. -/
  | round (total available : UInt64) (psi : Option ℚ) (delayMs elapsedMs nowMs : ℕ)
  | effect (a : Answer)
  | access (r : Reply)
  /-- The lock that came with a reservation is dropped. -/
  | unlock
  | kill

def Supervising.turn (n : ℕ) (d : Shared) (s : Supervising) : Turn → Shared × Supervising
  | .round total available psi delayMs elapsedMs nowMs =>
    if s.stopped || s.running.isSome then (d,s)
    else
      let sample := collectSample total available psi delayMs elapsedMs
      (d,{s with samples := s.samples++[sample], running := some (iteration s.machine sample nowMs)})
  | .effect a => s.effect a n d
  | .kill => (d,{s with running := none, stopped := true})
  | _ => (d,s)

def Running.turn {α : Type} (n : ℕ) (d : Shared) (x : Running α) : Turn → Shared × Running α
  | .access r => x.step r n d
  | .unlock =>
    match x.prog with
    | .ok _ => (d.unlock n,x)
    | _ => (d,x)
  | .kill =>
    match x.prog with
    | .call _ _ => (d.unlock n,⟨.fail "killed",x.trace⟩)
    | _ => (d.unlock n,x)
  | _ => (d,x)

def act (t : Turn) (n : ℕ) (d : Shared) : Party → Shared × Party
  | .supervisor s => (s.turn n d t).map id .supervisor
  | .recovery x => (x.turn n d t).map id .recovery
  | .admission x => (x.turn n d t).map id .admission

inductive Move
  | supervise (identity : OwnerIdentity)
  | recover (current : OwnerIdentity)
  | admitting (owner : OwnerIdentity) (class_ : WorkloadClass) (memoryBytes aggregateMax : ℕ)
  | turn (n : ℕ) (t : Turn)
  /-- The gates of the safe mode are set from outside. -/
  | gates (guestGate : Option GuestSafeModeGate) (hostGate : String → Option HostSafeModeGate)
    (pending : Option ResumeLease)

abbrev System := Threads Shared Party

namespace System

def new (ledger : ReservationLedger) (records : World) : System :=
  ⟨⟨⟨none,none,none,none,none,fun _ => none,ledger,records⟩,none,[]⟩,[]⟩

def step (w : System) : Move → System
  | .supervise identity => w.spawn (.supervisor ⟨identity,.default,[],none,false⟩)
  | .recover current => w.spawn (.recovery ⟨recoverResumeAt current,[]⟩)
  | .admitting owner class_ memoryBytes aggregateMax =>
    w.spawn (.admission ⟨admitReservationAt owner class_ memoryBytes aggregateMax,[]⟩)
  | .turn n t => w.turn (act t) n
  | .gates guestGate hostGate pending =>
    ⟨{w.shared with files.guestGate := guestGate, files.hostGate := hostGate, files.pending := pending},
      w.threads⟩

def Distinct (w : System) : Move → Prop
  | .supervise identity => ∀ p∈w.threads, p.identity≠some identity
  | _ => True

end System
end RamShared.Admission

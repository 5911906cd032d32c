import RamShared.Lib.Word
import Mathlib.Data.List.Sort
import RamShared.Lib.Threads

/-! The ledger of the memory that managed workloads have reserved, and the transitions that are made of
it under its lock. -/
namespace RamShared.Workload
open Lib

def gibBytes : ℕ := 1024*1024*1024

structure WorkloadBudget where
  controlPlaneReserveBytes : ℕ
  memoryHighBytes : ℕ
  memoryMaxBytes : ℕ
  deriving DecidableEq, Repr

def calculateBudget (memoryTotalBytes : ℕ) : Except String WorkloadBudget := do
  if memoryTotalBytes=0 then throw "invalid memory snapshot"
  let reserve := max (divCeil memoryTotalBytes 4) (4*gibBytes)
  let memoryMax := memoryTotalBytes-reserve
  if memoryMax<gibBytes then
    let mib := reserve>>>20
    throw s!"less than 1 GiB remains after the {mib} MiB control-plane reserve"
  let highGap := max (divCeil memoryTotalBytes 10) gibBytes
  return ⟨reserve,memoryMax-highGap,memoryMax⟩

inductive WorkloadClass
  | interactive
  | build
  | browserTest
  | batch
  deriving DecidableEq, Repr

def WorkloadClass.asStr : WorkloadClass → String
  | .interactive => "interactive"
  | .build => "build"
  | .browserTest => "browser-test"
  | .batch => "batch"

structure OwnerIdentity where
  bootId : String
  pid : ℕ
  startTime : ℕ
  nonce : String
  deriving DecidableEq, Repr

structure Reservation where
  id : String
  owner : OwnerIdentity
  class_ : WorkloadClass
  memoryBytes : ℕ
  unit : String
  invocationId : Option String
  issuedOrdinal : ℕ
  deriving DecidableEq, Repr

structure ReservationLedger where
  schemaVersion : ℕ
  nextOrdinal : ℕ
  reservations : List Reservation
  deriving DecidableEq, Repr

def ledgerSchemaVersion : ℕ := 3

def validSystemdInvocationId (value : String) : Bool :=
  value.utf8ByteSize = 32 && value.toList.all fun c => c.isDigit || ('a' ≤ c && c ≤ 'f')

variable (ledger : ReservationLedger)

def validateLedger : Except String Unit := do
  if ledger.schemaVersion≠ledgerSchemaVersion then
    throw s!"unsupported reservation ledger schema: {ledger.schemaVersion}"
  if ledger.nextOrdinal = 0 || ledger.reservations.any fun r =>
      r.issuedOrdinal = 0 || ledger.nextOrdinal ≤ r.issuedOrdinal then
    throw "reservation ledger ordinal sequence is invalid"
  let ordinals := (ledger.reservations.map Reservation.issuedOrdinal).insertionSort (· ≤ ·)
  if (ordinals.zip ordinals.tail).any fun pair => pair.1=pair.2 then
    throw "reservation ledger contains duplicate issued ordinals"

/-- `load_ledger_locked`, of a file that could be read as a ledger. -/
def loadLedger : Except String ReservationLedger := do
  validateLedger ledger
  return ledger

/-- What `admit_reservation_at` does with the ledger, once the evidence for the admission is checked:
the entries of dead owners are dropped, and the request is entered if it fits. -/
def admitReservation (isAlive : OwnerIdentity → Bool) (nonce : String)
    (owner : OwnerIdentity) (class_ : WorkloadClass) (memoryBytes aggregateMax : ℕ) :
    Except String (ReservationLedger × Reservation) := do
  let ledger ← loadLedger ledger
  let kept := ledger.reservations.filter fun item => isAlive item.owner
  let some reserved := kept.foldlM (fun sum item => checkedAdd 64 sum item.memoryBytes) 0
    | throw "reservation sum overflow"
  if memoryBytes = 0 || aggregateMax<saturatingAdd 64 reserved memoryBytes then
    throw s!"aggregate workload budget exceeded: reserved={reserved} requested={memoryBytes} max={aggregateMax}"
  let some nextOrdinal := checkedAdd 64 ledger.nextOrdinal 1
    | throw "reservation ordinal sequence exhausted"
  let reservation := ⟨nonce,owner,class_,memoryBytes,s!"ramshared-{class_.asStr}-{nonce}.scope",none,
    ledger.nextOrdinal⟩
  let ledger := {ledger with nextOrdinal, reservations := kept++[reservation]}
  validateLedger ledger
  return (ledger,reservation)

/-- `release_reservation_at`: `none` if there is nothing to release. -/
def releaseReservation (reservation : Reservation) : Except String (Option ReservationLedger) := do
  let ledger ← loadLedger ledger
  let some index := ledger.reservations.findIdx? fun item => item.id=reservation.id
    | return none
  if (ledger.reservations[index]?).map Reservation.owner≠some reservation.owner then
    throw "reservation owner identity mismatch"
  let ledger := {ledger with reservations := ledger.reservations.eraseIdx index}
  validateLedger ledger
  return some ledger

def bindReservation (reservation : Reservation) (invocationId : String) :
    Except String (ReservationLedger × Reservation) := do
  if !validSystemdInvocationId invocationId then
    throw "managed scope InvocationID is not canonical"
  let ledger ← loadLedger ledger
  let some index := ledger.reservations.findIdx? fun item => item.id=reservation.id
    | throw "managed scope reservation disappeared before identity binding"
  let some entry := ledger.reservations[index]?
    | throw "managed scope reservation disappeared before identity binding"
  if entry.owner ≠ reservation.owner || entry.unit≠reservation.unit then
    throw "managed scope reservation identity changed before binding"
  if entry.invocationId.any (· ≠ invocationId) then
    throw "managed scope reservation already has another InvocationID"
  let entry := {entry with invocationId := some invocationId}
  let ledger := {ledger with reservations := ledger.reservations.set index entry}
  validateLedger ledger
  return (ledger,entry)

/-! `ramshared run` by any number of processes over one ledger. A section of `run_with` under the lock
of the ledger is taken as a few turns, during which no other process gets the lock; a process can be
killed between any two turns, and its scope goes on without it. -/

structure WorkloadRequest where
  class_ : WorkloadClass
  memoryMaxBytes : ℕ
  deriving DecidableEq, Repr

inductive Stage
  | start
  | admitted
  | launched
  | waiting
  | releasing
  | returned
  | exited
  deriving DecidableEq, Repr

inductive Scope
  | absent
  | live
  | terminal
  deriving DecidableEq, Repr

structure Process where
  owner : OwnerIdentity
  request : WorkloadRequest
  stage : Stage
  reservation : Option Reservation
  scope : Scope
  deriving DecidableEq, Repr

/-- The ledger, who holds its lock, and the processes that are alive. -/
structure Shared where
  ledger : ReservationLedger
  lock : Option ℕ
  alive : List OwnerIdentity
  deriving DecidableEq, Repr

/-- What a turn meets. `refused` is an error of the lock, of a check that comes before the ledger, or of
the reading of the ledger; a store that fails may have been applied. -/
structure Input where
  refused : Option String
  nonce : String
  storeError : Option String
  applied : Bool
  launchError : Option String
  acknowledgement : Except String String
  queryError : Option String

variable (d : Shared)

namespace Shared

def isAlive (owner : OwnerIdentity) : Bool :=
  d.alive.any fun p => p.bootId = owner.bootId && p.pid = owner.pid && p.startTime=owner.startTime

def store (i : Input) (ledger : ReservationLedger) : Shared :=
  if i.storeError.isNone || i.applied then {d with ledger} else d

def unlock (n : ℕ) : Shared :=
  {d with lock := if d.lock=some n then none else d.lock}

end Shared

def leave (n : ℕ) (d : Shared) (p : Process) : Shared × Process :=
  (d.unlock n,{p with stage := .returned})

def exit (n : ℕ) (d : Shared) (p : Process) : Shared × Process :=
  ({d.unlock n with alive := d.alive.erase p.owner},{p with stage := .exited})

def act (memoryTotalBytes : ℕ) (i : Input) (n : ℕ) (d : Shared) (p : Process) : Shared × Process :=
  match p.stage with
  | .start =>
    match calculateBudget memoryTotalBytes with
    | .error _ => leave n d p
    | .ok budget =>
      if d.lock.isSome || i.refused.isSome then leave n d p
      else
        match admitReservation d.ledger d.isAlive i.nonce p.owner p.request.class_
          p.request.memoryMaxBytes budget.memoryMaxBytes with
        | .error _ => leave n d p
        | .ok (ledger,reservation) =>
          if i.storeError.isSome then leave n (d.store i ledger) p
          else ({d with ledger, lock := some n},
            {p with stage := .admitted, reservation := some reservation})
  | .admitted =>
    if i.launchError.isSome then ({d with lock := none},{p with stage := .releasing})
    else (d,{p with stage := .launched, scope := .live})
  | .launched =>
    match i.acknowledgement, p.reservation with
    | .ok invocationId, some reservation =>
      match bindReservation d.ledger reservation invocationId with
      | .error _ => leave n d p
      | .ok (ledger,reservation) =>
        if i.storeError.isSome then leave n (d.store i ledger) p
        else ({d with ledger, lock := none},
          {p with stage := .waiting, reservation := some reservation})
    | _, _ => leave n d p
  | .waiting =>
    if i.queryError.isSome then leave n d p
    else if p.scope=.terminal then (d,{p with stage := .releasing})
    else (d,p)
  | .releasing =>
    if d.lock.isSome || i.refused.isSome then leave n d p
    else
      match p.reservation with
      | none => leave n d p
      | some reservation =>
        match releaseReservation d.ledger reservation with
        | .ok (some ledger) => leave n (d.store i ledger) p
        | _ => leave n d p
  | .returned => exit n d p
  | .exited => (d,p)

def kill (n : ℕ) (d : Shared) (p : Process) : Shared × Process :=
  if p.stage=.exited then (d,p) else exit n d p

def finish (p : Process) : Shared × Process :=
  (d,if p.scope=.live then {p with scope := .terminal} else p)

inductive Move
  | spawn (owner : OwnerIdentity) (request : WorkloadRequest)
  | turn (n : ℕ) (i : Input)
  | kill (n : ℕ)
  | finish (n : ℕ)

abbrev Fleet := Threads Shared Process

namespace Fleet

def enter (w : Fleet) (owner : OwnerIdentity) (request : WorkloadRequest) : Fleet :=
  ⟨{w.shared with alive := owner::w.shared.alive},w.threads++[⟨owner,request,.start,none,.absent⟩]⟩

def step (memoryTotalBytes : ℕ) (w : Fleet) : Move → Fleet
  | .spawn owner request => w.enter owner request
  | .turn n i => w.turn (act memoryTotalBytes i) n
  | .kill n => w.turn Workload.kill n
  | .finish n => w.turn (fun _ => Workload.finish) n

end Fleet

/-- What a scope that was launched and has not ended may use. -/
def Process.liveBytes (p : Process) : ℕ := if p.scope=.live then p.request.memoryMaxBytes else 0

end RamShared.Workload

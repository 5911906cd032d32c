import RamShared.Lib.Threads

/-! The request queue of the Windows driver: `QSubmit`, `QCommitAndFetch`, the cancellation of a
pended fetch, and `QTeardownOnCrash`. Each call is a thread; a section under the lock of the queue is
one turn, and so is every call to the kernel outside it. What user space writes into the rings is read
as part of a turn. -/
namespace RamShared.Driver
open Lib

inductive Op
  | read
  | write
  | flush
  deriving DecidableEq, Repr

structure Request where
  op : Op
  offset : ℕ
  dataTransferLength : ℕ
  deriving DecidableEq, Repr

/-- The `Len` with which the disk calls `QSubmit`. -/
def Request.len (r : Request) : ℕ :=
  match r.op with
  | .flush => 0
  | _ => r.dataTransferLength

structure Srb where
  id : ℕ
  request : Request
  deriving DecidableEq, Repr

inductive SlotState
  | free
  | reserved
  | submitted
  | completing
  deriving DecidableEq, Repr

inductive QState
  | idle
  | registered
  | closing
  | failed
  deriving DecidableEq, Repr

inductive Status
  | success
  | pending
  | cancelled
  | deviceNotConnected
  | invalidParameter
  | insufficientResources
  | deviceBusy
  deriving DecidableEq, Repr

structure Inflight where
  srb : Option Srb
  op : Op
  bufSlot : ℕ
  state : SlotState
  deriving DecidableEq, Repr

structure Cqe where
  tag : ℕ
  status : ℤ
  reserved : ℕ
  deriving DecidableEq, Repr

/-- What happens to the requests (`SRB`s), and to the fetches (`IRP`s), each of them named by the
thread that calls `QCommitAndFetch` with it. -/
inductive Event
  | bounced (srb : Srb) (slot len : ℕ)
  | assigned (srb : Srb) (tag : ℕ)
  | consumed (srb : Option Srb) (tag : ℕ)
  | copied (srb : Srb) (slot len : ℕ)
  | completed (srb : Srb) (ok : Bool)
  | removed (irp thread : ℕ)
  | fetched (irp thread : ℕ) (status : Status)
  deriving DecidableEq, Repr

/-- The queue, the flags of the fetches, and the history. `mapped` stands for `Sq`, `Cq` and `Data`,
which are mapped and unmapped together, `holders` and `runDown` for `IoRundown`, `adapter` for what
`VdGetAdapterExt` returns, and `routine` for the cancel routine of a fetch being set. -/
structure Device where
  inflight : List Inflight
  pendedFetch : Option ℕ
  queueDepth : ℕ
  maxIoBytes : ℕ
  registered : Bool
  qState : QState
  mapped : Bool
  holders : ℕ
  runDown : Bool
  adapter : Bool
  cancel : ℕ → Bool
  routine : ℕ → Bool
  log : List Event

/-- A completion that `QCommitAndFetch` has taken off the ring. -/
structure Taken where
  tag : ℕ
  srb : Option Srb
  op : Op
  bufSlot : ℕ
  status : ℤ
  deriving DecidableEq, Repr

def Taken.ok (t : Taken) : Bool := t.status=0

inductive Pc
  -- `QSubmit`
  | submitAcquire (srb : Srb)
  | submitCheck (srb : Srb)
  | insert (srb : Srb)
  | wake (srb : Srb) (irp : ℕ)
  | woken (srb : Srb) (irp : ℕ)
  | submitRelease (srb : Srb) (status : Status)
  | submitReturned (srb : Srb) (status : Status)
  -- `QCommitAndFetch`
  | commitAcquire
  | commitCheck
  | drain (completed : ℕ) (sawFailed : Bool)
  | reject (srb : Option Srb) (completed : ℕ)
  | copy (taken : Taken) (completed : ℕ) (sawFailed : Bool)
  | free (taken : Taken) (completed : ℕ) (sawFailed : Bool)
  | notify (taken : Taken) (completed : ℕ) (sawFailed : Bool)
  | pend (irp : ℕ)
  | arm (irp : ℕ)
  | recheck (irp : ℕ)
  | disarm (irp : ℕ)
  | unpend (irp : ℕ)
  | cancelled (irp : ℕ)
  | commitRelease (status : Status)
  | commitReturned (status : Status)
  -- `IoCancelIrp` with `QCommitCancel`
  | flag (irp : ℕ)
  | swap (irp : ℕ)
  | claim (irp : ℕ)
  | claimed (irp : ℕ)
  | cancelReturned
  -- `QTeardownOnCrash`
  | snapshot
  | fail (failed : List Srb) (pending : Option ℕ)
  | dropFetch (pending : Option ℕ)
  | dropped (irp : ℕ)
  | waitRundown
  | unlock
  | tornDown
  deriving DecidableEq, Repr

/-- What a turn reads from outside: the entries of the completion ring up to the end of the section
under the lock, whether the submission ring is empty, and whether `StorPortGetSystemAddress` gives an
address. -/
structure Input where
  cqes : List Cqe
  sqEmpty : Bool
  address : Bool
  deriving DecidableEq, Repr

def maxQd : ℕ := 256

variable (d : Device)

namespace Device

def new (queueDepth maxIoBytes : ℕ) (adapter : Bool) : Device :=
  ⟨List.replicate maxQd ⟨none,.read,0,.free⟩,none,queueDepth,maxIoBytes,true,.registered,true,0,false,
    adapter,fun _ => false,fun _ => false,[]⟩

def record (es : List Event) : Device := {d with log := d.log++es}

/-- The check that `QSubmit` and `QCommitAndFetch` make without the lock. -/
def isOpen : Bool :=
  d.registered && d.mapped && d.qState≠.failed && d.qState≠.closing

def requestComplete (srb : Option Srb) (ok : Bool) : Device :=
  d.record (if d.adapter then srb.toList.map fun s => .completed s ok else [])

def setRoutine (irp : ℕ) (set : Bool) : Device :=
  {d with routine := Function.update d.routine irp set}

def acquire : Device := {d with holders := d.holders+1}

def release : Device := {d with holders := d.holders-1}

def takeFetch (irp n : ℕ) : Device :=
  {d with pendedFetch := none, log := d.log++[.removed irp n]}

/-- The section under the lock of `QSubmit`. The slot that is found free is free when it is tested
again. -/
def insert (n : ℕ) (srb : Srb) : Device × Pc :=
  match (d.inflight.take d.queueDepth).findIdx? fun x => x.state=.free with
  | none => (d,.submitRelease srb .insufficientResources)
  | some tag =>
    let bounced :=
      if srb.request.op=.write ∧ 0<srb.request.len then [.bounced srb tag srb.request.len] else []
    let d := {d with inflight := d.inflight.set tag ⟨some srb,srb.request.op,tag,.submitted⟩}
    let d := d.record (bounced++[.assigned srb tag])
    match d.pendedFetch with
    | some irp => (d.takeFetch irp n,.wake srb irp)
    | none => (d,.submitRelease srb .pending)

def submittedAt (tag : ℕ) : Option Inflight :=
  if tag<d.queueDepth then (d.inflight[tag]?).filter fun x => x.state=.submitted else none

/-- The loop over the completion ring, up to the first entry of a submitted slot. -/
def skip (d : Device) (sawFailed : Bool) : List Cqe → Device × Bool × Option (Cqe × Inflight)
  | [] => (d,sawFailed,none)
  | c::cqes =>
    match d.submittedAt c.tag with
    | some x => (d,sawFailed,some (c,x))
    | none =>
      if c.reserved≠0 then skip {d with qState := .failed} true cqes else skip d sawFailed cqes

def endDrain (n completed : ℕ) (sawFailed sqEmpty : Bool) : Device × Pc :=
  if sawFailed || d.qState=.failed then (d,.commitRelease .invalidParameter)
  else if completed = 0 && d.mapped && sqEmpty then
    match d.pendedFetch with
    | some _ => (d,.commitRelease .deviceBusy)
    | none => ({d with pendedFetch := some n},.pend n)
  else (d,.commitRelease .success)

def drain (i : Input) (n completed : ℕ) (sawFailed : Bool) : Device × Pc :=
  match d.skip sawFailed i.cqes with
  | (d,sawFailed,none) => d.endDrain n completed sawFailed i.sqEmpty
  | (d,sawFailed,some (c,x)) =>
    let d := d.record [.consumed x.srb c.tag]
    if c.reserved≠0 then
      ({ d with
          qState := .failed
          inflight := d.inflight.set c.tag { x with srb := none, state := .free}},
        .reject x.srb completed)
    else
      ({d with inflight := d.inflight.set c.tag {x with srb := none, state := .completing}},
        .copy ⟨c.tag,x.srb,x.op,x.bufSlot,c.status⟩ ((completed+1)%2^32) sawFailed)

def copyOut (t : Taken) (address : Bool) : Device :=
  d.record (if t.op=.read ∧ t.ok=true ∧ d.adapter=true ∧ address=true ∧ d.mapped=true then
    t.srb.toList.map fun s => .copied s t.bufSlot s.request.dataTransferLength else [])

def setFree (tag : ℕ) : Device :=
  {d with inflight := d.inflight.modify tag fun x => {x with state := .free}}

def snapshot (n : ℕ) : Device × Pc :=
  ({ d.record (d.pendedFetch.toList.map fun irp => .removed irp n) with
      pendedFetch := none
      registered := false
      qState := .closing
      inflight := d.inflight.map fun x =>
        if x.state≠.free ∧ x.srb.isSome=true then { x with state := .free, srb := none} else x},
    .fail (d.inflight.filterMap fun x => if x.state≠.free then x.srb else none) d.pendedFetch)

def unlockAll : Device :=
  {d with mapped := false, registered := false, qState := .idle}

end Device

def act (i : Input) (n : ℕ) (d : Device) : Pc → Device × Pc
  | .submitAcquire srb =>
    if d.runDown then (d,.submitReturned srb .deviceNotConnected) else (d.acquire,.submitCheck srb)
  | .submitCheck srb =>
    if !d.isOpen then (d,.submitRelease srb .deviceNotConnected)
    else if d.maxIoBytes<srb.request.len then (d,.submitRelease srb .invalidParameter)
    else if srb.request.op≠.flush ∧ 0<srb.request.len ∧ i.address=false then
      (d,.submitRelease srb .invalidParameter)
    else (d,.insert srb)
  | .insert srb => d.insert n srb
  | .wake srb irp =>
    if d.routine irp then (d.setRoutine irp false,.woken srb irp)
    else (d.setRoutine irp false,.submitRelease srb .pending)
  | .woken srb irp => (d.record [.fetched irp n .success],.submitRelease srb .pending)
  | .submitRelease srb status => (d.release,.submitReturned srb status)
  | .commitAcquire =>
    if d.runDown then (d,.commitReturned .deviceNotConnected) else (d.acquire,.commitCheck)
  | .commitCheck =>
    if d.isOpen then (d,.drain 0 false) else (d,.commitRelease .deviceNotConnected)
  | .drain completed sawFailed => d.drain i n completed sawFailed
  | .reject srb completed => (d.requestComplete srb false,.drain completed true)
  | .copy t completed sawFailed => (d.copyOut t i.address,.free t completed sawFailed)
  | .free t completed sawFailed => (d.setFree t.tag,.notify t completed sawFailed)
  | .notify t completed sawFailed => (d.requestComplete t.srb t.ok,.drain completed sawFailed)
  | .pend irp => (d.release,.arm irp)
  | .arm irp => (d.setRoutine irp true,.recheck irp)
  | .recheck irp => if d.cancel irp then (d,.disarm irp) else (d,.commitReturned .pending)
  | .disarm irp =>
    if d.routine irp then (d.setRoutine irp false,.unpend irp)
    else (d.setRoutine irp false,.commitReturned .pending)
  | .unpend irp =>
    if d.pendedFetch=some irp then (d.takeFetch irp n,.cancelled irp) else (d,.cancelled irp)
  | .cancelled irp => (d.record [.fetched irp n .cancelled],.commitReturned .pending)
  | .commitRelease status => (d.release,.commitReturned status)
  | .flag irp => ({d with cancel := Function.update d.cancel irp true},.swap irp)
  | .swap irp =>
    if d.routine irp then (d.setRoutine irp false,.claim irp)
    else (d.setRoutine irp false,.cancelReturned)
  | .claim irp =>
    if d.pendedFetch=some irp then (d.takeFetch irp n,.claimed irp) else (d,.cancelReturned)
  | .claimed irp => (d.record [.fetched irp n .cancelled],.cancelReturned)
  | .snapshot => d.snapshot n
  | .fail [] pending => (d,.dropFetch pending)
  | .fail (srb::failed) pending => (d.requestComplete (some srb) false,.fail failed pending)
  | .dropFetch none => (d,.waitRundown)
  | .dropFetch (some irp) =>
    if d.routine irp then (d.setRoutine irp false,.dropped irp)
    else (d.setRoutine irp false,.waitRundown)
  | .dropped irp => (d.record [.fetched irp n .deviceNotConnected],.waitRundown)
  | .waitRundown =>
    if d.holders=0 then ({d with runDown := true},.unlock)
    else ({d with runDown := true},.waitRundown)
  | .unlock => (d.unlockAll,.tornDown)
  | pc => (d,pc)

inductive Move
  | submit (r : Request)
  | commit
  | cancel (irp : ℕ)
  | teardown
  | turn (n : ℕ) (i : Input)
  deriving DecidableEq, Repr

abbrev Machine := Threads Device Pc

namespace Machine

def new (queueDepth maxIoBytes : ℕ) (adapter : Bool) : Machine :=
  ⟨.new queueDepth maxIoBytes adapter,[]⟩

def step (w : Machine) : Move → Machine
  | .submit r => w.spawn (.submitAcquire ⟨w.threads.length,r⟩)
  | .commit => w.spawn .commitAcquire
  | .cancel irp => w.spawn (.flag irp)
  | .teardown => w.spawn .snapshot
  | .turn n i => w.turn (act i) n

def quiet : Input := ⟨[],true,true⟩

def turns (n k : ℕ) : List Move := List.replicate k (.turn n quiet)

end Machine
end RamShared.Driver

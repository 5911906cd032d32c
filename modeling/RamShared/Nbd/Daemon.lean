import RamShared.Nbd.Worker
import RamShared.Lib.Run

/-! The life of the NBD daemon over a sparse backend: the serving loop with its two kinds of child,
`swapoff` and the recovery `swapon`, and the teardown that ends with the release of the backend.
What the loop learns from outside (signals, messages, children, probes) is its input. -/
namespace RamShared.Nbd
open Lib

inductive ChildPoll
  | empty
  | disconnected
  | sent (ok : Bool)
  deriving DecidableEq, Repr

structure RecoveryTracker where
  required : ℕ
  streak : ℕ
  deriving DecidableEq, Repr

namespace RecoveryTracker

def new (required : ℕ) : RecoveryTracker := ⟨max required 1,0⟩

def reset (r : RecoveryTracker) : RecoveryTracker := {r with streak := 0}

def observe (r : RecoveryTracker) (budgetHealthy tierEmpty : Bool) : Bool × RecoveryTracker :=
  if budgetHealthy=false ∨ tierEmpty=false then (false,r.reset)
  else
    let streak := min (r.streak+1) (2^32-1)
    (decide (r.required ≤ streak),{r with streak := streak})

end RecoveryTracker

inductive RecoveryActivationPoll
  | idle
  | pending
  | succeeded
  | failed
  deriving DecidableEq, Repr

/-- Owns at most one recovery child; `resultRx` tells whether there is one. -/
structure RecoveryActivation where
  resultRx : Bool := false
  failedEpoch : Bool := false
  shutdownRequested : Bool := false
  deriving DecidableEq, Repr

variable (a : RecoveryActivation)

namespace RecoveryActivation

def start : Except String RecoveryActivation :=
  if a.resultRx then .error "recovery activation is already pending"
  else if a.failedEpoch then .error "recovery activation is parked for this healthy epoch"
  else .ok {a with resultRx := true}

def poll (child : ChildPoll) : RecoveryActivationPoll × RecoveryActivation :=
  if a.resultRx then
    match child with
    | .sent true => (.succeeded,{a with resultRx := false, failedEpoch := false})
    | .sent false | .disconnected => (.failed,{a with resultRx := false, failedEpoch := true})
    | .empty => (.pending,a)
  else (.idle,a)

def launchAllowed (healthy tierEmpty : Bool) : Bool × RecoveryActivation :=
  if healthy=false ∨ tierEmpty=false then (false,{a with failedEpoch := false})
  else (!a.resultRx && !a.failedEpoch,a)

def isPending : Bool := a.resultRx

def markDispatchFailure : RecoveryActivation :=
  {a with failedEpoch := true}

def requestShutdown : RecoveryActivation :=
  {a with shutdownRequested := true}

def backendReleaseAllowed : Bool := !a.shutdownRequested || !a.resultRx

end RecoveryActivation

/-- Zero use alone does not tell an absent device from an active one without use. -/
def backendReleaseAllowed (swapoffAttempted swapoffConfirmed : Bool) (usedKb : ℕ)
    (explicitlyAbsent : Bool) : Bool :=
  decide (usedKb=0) && (explicitlyAbsent || (swapoffAttempted && swapoffConfirmed))

structure LiveCount where
  live : ℕ := 0
  opened : Bool := false
  deriving DecidableEq, Repr

namespace LiveCount

def onOpen (c : LiveCount) : LiveCount := ⟨(c.live+1)%2^32,true⟩

def onClose (c : LiveCount) : Bool × LiveCount :=
  if c.live=0 then (false,c)
  else (decide (c.live-1=0) && c.opened,{c with live := c.live-1})

end LiveCount

def sparseResidencyRequestsSwapoff (reason : DemoteReason) : Bool := decide (reason≠.latency)

/-- A message of the connections. A job comes with the error of its reply and with what the
residency check says about it. -/
inductive WMsg
  | opened
  | closed
  | shutdown
  | job (touchesVram : Bool) (replyErrno : UInt32) (verdict : Option DemoteReason)
  | zeroExport
  deriving DecidableEq, Repr

inductive Received
  | timeout
  | disconnected
  | msg (m : WMsg)
  deriving DecidableEq, Repr

/-- What one iteration of the serving loop learns, in the order in which it asks. -/
structure Tick where
  signal : Bool := false
  activation : ChildPoll := .empty
  demote : ChildPoll := .empty
  received : Received := .timeout
  budgetRefuses : ℕ := 0
  demoteAgain : ChildPoll := .empty
  usedKb : ℕ := 0
  heartbeatDue : Bool := false
  gpuLost : Bool := false
  budgetHealthy : Bool := true
  globalConstrained : Bool := false
  globalHealthy : Bool := true
  chunksLive : ℕ := 0
  spawned : Bool := true
  deriving DecidableEq, Repr

inductive DaemonPhase
  | serving
  | leaving
  | releasing (usedKb : ℕ) (explicitlyAbsent : Bool)
  | freed
  deriving DecidableEq, Repr

structure NbdDaemon where
  dxg : Bool
  phase : DaemonPhase := .serving
  demoted : Bool := false
  demoteRx : Bool := false
  swapoffAttempted : Bool := false
  swapoffConfirmed : Bool := false
  observedBudgetRefuses : ℕ := 0
  recovery : RecoveryTracker := .new 3
  recoveryActivation : RecoveryActivation := {}
  shutdownRequested : Bool := false
  live : LiveCount := {}
  consecutiveIoErrors : ℕ := 0
  deriving DecidableEq, Repr

/-- `swapoff` and `swapon` are launched, and their children heard of; the device is observed; the
backend is freed. -/
inductive DaemonEvent
  | swapoff
  | swapoffConfirmed
  | swapon
  | swaponReported (ok : Bool)
  | usedKb (kb : ℕ)
  | explicitlyAbsent (absent : Bool)
  | freeAllLive
  deriving DecidableEq, Repr

inductive DaemonInput
  | tick (t : Tick)
  | leave (demote : Option Bool) (usedKb : ℕ) (explicitlyAbsent : Bool)
  | release (swapoff : Option Bool) (usedKb : ℕ) (explicitlyAbsent : Bool)
  deriving DecidableEq, Repr

variable (d : NbdDaemon) (t : Tick) (child : ChildPoll)

namespace NbdDaemon

def andThen (x : NbdDaemon × List DaemonEvent) (f : NbdDaemon → NbdDaemon × List DaemonEvent) :
    NbdDaemon × List DaemonEvent :=
  ((f x.1).1,x.2++(f x.1).2)

def leaveLoop : NbdDaemon × List DaemonEvent := ({d with phase := .leaving},[])

def requestShutdown : NbdDaemon :=
  { d with
    shutdownRequested := true
    recoveryActivation := d.recoveryActivation.requestShutdown}

def launchSwapoff : NbdDaemon × List DaemonEvent :=
  ({d with demoteRx := true, swapoffAttempted := true},[.swapoff])

/-- The launch that every trigger of a demotion makes. -/
def demoteWhen (trigger : Bool) : NbdDaemon × List DaemonEvent :=
  if trigger=true ∧ d.demoted=false ∧ d.demoteRx=false then d.launchSwapoff else (d,[])

def pollActivation : NbdDaemon × List DaemonEvent :=
  let (poll,activation) := d.recoveryActivation.poll child
  let d := {d with recoveryActivation := activation}
  match poll with
  | .succeeded =>
    let d := { d with
      demoted := false, swapoffAttempted := false, swapoffConfirmed := false
      recovery := d.recovery.reset}
    andThen (d,[.swaponReported true]) fun d =>
      if d.shutdownRequested then d.launchSwapoff else (d,[])
  | .failed => ({d with recovery := d.recovery.reset},[.swaponReported false])
  | .idle | .pending => (d,[])

def pollDemote : NbdDaemon × List DaemonEvent :=
  if d.demoteRx then
    match child with
    | .sent true =>
      ({d with demoteRx := false, demoted := true, swapoffConfirmed := true},[.swapoffConfirmed])
    | .sent false | .disconnected => ({d with demoteRx := false},[])
    | .empty => (d,[])
  else (d,[])

/-- The second poll of the iteration also restarts the recovery streak. -/
def pollDemoteAgain : NbdDaemon × List DaemonEvent :=
  if d.demoteRx=true ∧ child≠.empty then
    {d with recovery := d.recovery.reset}.pollDemote child
  else d.pollDemote child

/-- Three failed transfers in a row trigger a demotion. -/
def countIoErrors (touchesVram : Bool) (replyErrno : UInt32) : NbdDaemon × List DaemonEvent :=
  if touchesVram=true ∧ replyErrno=nbdEio then
    let d := {d with consecutiveIoErrors := min (d.consecutiveIoErrors+1) (2^32-1)}
    d.demoteWhen (decide (maxConsecutiveIoErrors≤d.consecutiveIoErrors))
  else if touchesVram=true ∧ replyErrno=nbdOk then ({d with consecutiveIoErrors := 0},[])
  else (d,[])

def checkResidency (touchesVram : Bool) (verdict : Option DemoteReason) : NbdDaemon × List DaemonEvent :=
  d.demoteWhen (touchesVram && verdict.any sparseResidencyRequestsSwapoff)

def checkBudgetRefuses (budgetRefuses : ℕ) : NbdDaemon × List DaemonEvent :=
  if d.observedBudgetRefuses<budgetRefuses then
    {d with observedBudgetRefuses := budgetRefuses}.demoteWhen true
  else (d,[])

/-- `spawn_recovery_activation` and what becomes of its child. -/
def launchRecovery (spawned : Bool) : NbdDaemon × List DaemonEvent :=
  let parked := { d with
    recoveryActivation := d.recoveryActivation.markDispatchFailure
    recovery := d.recovery.reset}
  if spawned then
    match d.recoveryActivation.start with
    | .ok activation => ({d with recoveryActivation := activation},[.swapon])
    | .error _ => (parked,[.swapon])
  else (parked,[])

/-- The WDDM poll: demotes a constrained tier, and recovers a demoted one. -/
def pollBudget : NbdDaemon × List DaemonEvent :=
  if d.dxg=false then (d,[])
  else if d.demoted=false ∧ d.demoteRx=false ∧
      (t.budgetHealthy=false ∨ t.globalConstrained=true) then d.launchSwapoff
  else if d.demoted=true ∧ d.demoteRx=false then
    let healthy := t.budgetHealthy && t.globalHealthy
    let tierEmpty := decide (t.chunksLive=0)
    let (ready,recovery) := d.recovery.observe healthy tierEmpty
    let (allowed,activation) := d.recoveryActivation.launchAllowed healthy tierEmpty
    let d := {d with recovery := recovery, recoveryActivation := activation}
    if d.shutdownRequested=false ∧ ready=true ∧ allowed=true then d.launchRecovery t.spawned
    else (d,[])
  else (d,[])

/-- The part of the iteration that runs with or without a message. -/
def housekeep (d : NbdDaemon) : NbdDaemon × List DaemonEvent :=
  andThen (andThen (andThen (d.pollDemoteAgain t.demoteAgain) fun d => (d,[.usedKb t.usedKb]))
    fun d => d.demoteWhen (t.heartbeatDue && t.gpuLost)) fun d => d.pollBudget t

/-- What follows every message that is not answered with `continue` or `break`. -/
def afterMessage (d : NbdDaemon) : NbdDaemon × List DaemonEvent :=
  andThen (d.checkBudgetRefuses t.budgetRefuses) (housekeep t)

def handleMsg (d : NbdDaemon) : WMsg → NbdDaemon × List DaemonEvent
  | .opened => {d with live := d.live.onOpen}.afterMessage t
  | .closed =>
    let (quiescent,live) := d.live.onClose
    if quiescent then ({d with live := live},[]) else {d with live := live}.afterMessage t
  | .shutdown =>
    let d := d.requestShutdown
    if d.recoveryActivation.backendReleaseAllowed then d.leaveLoop else (d,[])
  | .job touchesVram replyErrno verdict =>
    andThen (andThen (d.countIoErrors touchesVram replyErrno) fun d =>
      d.checkResidency touchesVram verdict) (afterMessage t)
  | .zeroExport => d.afterMessage t

def receive (d : NbdDaemon) : NbdDaemon × List DaemonEvent :=
  match t.received with
  | .msg m => handleMsg t d m
  | .timeout => if d.recoveryActivation.isPending then (d,[]) else d.housekeep t
  | .disconnected =>
    let d := d.requestShutdown
    if d.recoveryActivation.backendReleaseAllowed then d.leaveLoop
    else if d.recoveryActivation.isPending then (d,[])
    else d.housekeep t

def serveOnce : NbdDaemon × List DaemonEvent :=
  let d := if t.signal=true ∧ d.shutdownRequested=false then d.requestShutdown else d
  andThen (andThen (d.pollActivation t.activation) fun d => d.pollDemote t.demote) fun d =>
    if d.shutdownRequested=true ∧ d.recoveryActivation.backendReleaseAllowed=true ∧
        d.demoteRx=false then d.leaveLoop
    else d.receive t

/-- After the loop: a pending `swapoff` gets five seconds, then the device is observed. -/
def leave (demote : Option Bool) (usedKb : ℕ) (explicitlyAbsent : Bool) :
    NbdDaemon × List DaemonEvent :=
  let d := {d with recoveryActivation := d.recoveryActivation.requestShutdown}
  let confirmed := d.demoteRx && demote == some true
  ({ d with
      demoteRx := false
      swapoffConfirmed := d.swapoffConfirmed || confirmed
      phase := .releasing usedKb explicitlyAbsent},
    (if confirmed then [.swapoffConfirmed] else []) ++
      [.usedKb usedKb,.explicitlyAbsent explicitlyAbsent])

def release (usedKb : ℕ) (explicitlyAbsent : Bool) (swapoff : Option Bool)
    (usedKb' : ℕ) (explicitlyAbsent' : Bool) : NbdDaemon × List DaemonEvent :=
  if backendReleaseAllowed d.swapoffAttempted d.swapoffConfirmed usedKb explicitlyAbsent then
    ({d with phase := .freed},[.freeAllLive])
  else
    let confirmed := !d.swapoffConfirmed && swapoff == some true
    ({ d with
        swapoffAttempted := true
        swapoffConfirmed := d.swapoffConfirmed || confirmed
        phase := .releasing usedKb' explicitlyAbsent'},
      (if d.swapoffConfirmed then [] else [.swapoff]) ++
        (if confirmed then [.swapoffConfirmed] else []) ++
        [.usedKb usedKb',.explicitlyAbsent explicitlyAbsent'])

def act (i : DaemonInput) : NbdDaemon × List DaemonEvent :=
  match d.phase, i with
  | .serving, .tick t => d.serveOnce t
  | .leaving, .leave demote usedKb explicitlyAbsent => d.leave demote usedKb explicitlyAbsent
  | .releasing usedKb explicitlyAbsent, .release swapoff usedKb' explicitlyAbsent' =>
    d.release usedKb explicitlyAbsent swapoff usedKb' explicitlyAbsent'
  | _, _ => (d,[])

def step (i : DaemonInput) : NbdDaemon := (d.act i).1

def trace (is : List DaemonInput) : List DaemonEvent :=
  outputs step (fun d i => (d.act i).2) d is

end NbdDaemon

namespace RecoveryActivation
variable (a : RecoveryActivation) (healthy tierEmpty : Bool)

@[simp] lemma launchAllowed_resultRx : (a.launchAllowed healthy tierEmpty).2.resultRx=a.resultRx := by
  unfold launchAllowed
  split_ifs <;> rfl

@[simp] lemma launchAllowed_shutdownRequested :
    (a.launchAllowed healthy tierEmpty).2.shutdownRequested=a.shutdownRequested := by
  unfold launchAllowed
  split_ifs <;> rfl

@[simp] lemma launchAllowed_failedEpoch : (a.launchAllowed healthy tierEmpty).2.failedEpoch =
    (a.failedEpoch && (healthy && tierEmpty)) := by
  unfold launchAllowed
  cases healthy <;> cases tierEmpty <;> simp

variable {a healthy tierEmpty}

lemma launchAllowed_idle (h : (a.launchAllowed healthy tierEmpty).1=true) :
    (a.launchAllowed healthy tierEmpty).2.resultRx=false ∧
      (a.launchAllowed healthy tierEmpty).2.failedEpoch=false := by
  unfold launchAllowed at h ⊢
  split_ifs at h ⊢
  simpa using h

end RecoveryActivation

end RamShared.Nbd

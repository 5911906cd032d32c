import RamShared.Broker.LeaseHistory
import RamShared.Broker.Protocol

/-! The session core of the Windows broker: one registered session at a time, all of them sessions
of the one allowed tenant, over the book of logical leases. -/
namespace RamShared.Winbroker
open Broker Lib

def defaultLeaseTtl : ℕ := 30*10^9

inductive BrokerEffect (F : Type)
  | reply (msg : Msg F)
  | close
  | audit (event : String)
  | leaseReleased (lease : ℕ)

structure BrokerSessionCore where
  allowedTenant : String
  brokerInstanceId : String
  liveSession : Option ℕ
  leaseBook : LeaseBook
  leaseTtl : ℕ
  deriving DecidableEq, Repr

def debugDeny : LeaseDeny → String
  | .zeroBytes => "ZeroBytes"
  | .overCapacity => "OverCapacity"
  | .alreadyHeld => "AlreadyHeld"
  | .wrongHolder => "WrongHolder"
  | .wrongLease => "WrongLease"
  | .insufficientGrant => "InsufficientGrant"
  | .leaseIdExhausted => "LeaseIdExhausted"
  | .invalidTtl => "InvalidTtl"
  | .deadlineOverflow => "DeadlineOverflow"

namespace BrokerSessionCore
variable {F : Type}

def newWithLeaseTtl (capacityBytes : ℕ) (allowedTenant brokerInstanceId : String) (leaseTtl : ℕ) :
    BrokerSessionCore :=
  ⟨allowedTenant,brokerInstanceId,none,LeaseBook.new capacityBytes,leaseTtl⟩

def new (capacityBytes : ℕ) (allowedTenant brokerInstanceId : String) : BrokerSessionCore :=
  newWithLeaseTtl capacityBytes allowedTenant brokerInstanceId defaultLeaseTtl

def denied (reason : LeaseDeny) : BrokerEffect F :=
  .reply (.leaseDenied ((debugDeny reason).map Char.toLower))

def errorAndClose (reason : LeaseDeny) : BrokerEffect F :=
  .reply (.error ((debugDeny reason).map Char.toLower))

def registrationRefused : List (BrokerEffect F) := [.reply (.error "registration_refused"),.close]

variable (c : BrokerSessionCore) (sessionId : ℕ)

def onUnregisteredMsg : Msg F → List (BrokerEffect F) × BrokerSessionCore
  | .register proto tenant transport =>
    if c.liveSession.isSome then (registrationRefused,c)
    else if proto≠protoVersion then (registrationRefused,c)
    else if tenant≠c.allowedTenant then (registrationRefused,c)
    else if transport≠.winDrive then (registrationRefused,c)
    else
      ([.audit "registered_ready",.reply (.registered 1)],{c with liveSession := some sessionId})
  | _ => ([.reply (.error "register_required"),.close],c)

/-- A request of the live session. A grant that fails leaves the request pending in the book. -/
def onLeaseRequest (bytes now : ℕ) : List (BrokerEffect F) × BrokerSessionCore :=
  match c.leaseBook.beginRequest 1 bytes with
  | (.denied reason,book) => ([denied reason],{c with leaseBook := book})
  | (.pending _,book) =>
    match book.grantPending bytes now c.leaseTtl with
    | (.error reason,book) => ([denied reason],{c with leaseBook := book})
    | (.ok lease,book) =>
      ([.audit "lease_granted",.reply (.leaseGranted lease.id lease.bytes)],
        {c with leaseBook := book})

def onLeaseRelease (lease : ℕ) : List (BrokerEffect F) × BrokerSessionCore :=
  match c.leaseBook.release 1 lease with
  | (.error .wrongLease,book) => ([.audit "lease_release_idempotent"],{c with leaseBook := book})
  | (.error reason,book) => ([errorAndClose reason,.close],{c with leaseBook := book})
  | (.ok true,book) =>
    ([.audit "lease_released_explicit",.leaseReleased lease],{c with leaseBook := book})
  | (.ok false,book) => ([.audit "lease_release_idempotent"],{c with leaseBook := book})

def onAuthenticatedMsgAt (message : Msg F) (now : ℕ) : List (BrokerEffect F) × BrokerSessionCore :=
  if c.liveSession≠some sessionId then c.onUnregisteredMsg sessionId message
  else
    match message with
    | .leaseRequest bytes => c.onLeaseRequest bytes now
    | .leaseRelease lease => c.onLeaseRelease lease
    -- the sample itself is not read: the message is only a sign of life
    | .psi _ _ _ => ([],{c with leaseBook := (c.leaseBook.renewActive 1 now c.leaseTtl).2})
    | _ => ([.reply (.error "unexpected_message"),.close],c)

def onDisconnect : List (BrokerEffect F) × BrokerSessionCore :=
  if c.liveSession≠some sessionId then ([],c)
  else
    let (disconnected,book) := c.leaseBook.disconnect 1
    (.audit "session_disconnected" ::
        if disconnected.retainedActive.isSome then [.audit "lease_retained_until_expiry"] else [],
      {c with liveSession := none, leaseBook := book})

def onTick (now : ℕ) : List (BrokerEffect F) × BrokerSessionCore :=
  match c.leaseBook.expire now with
  | (none,book) => ([],{c with leaseBook := book})
  | (some lease,book) =>
    (.audit "lease_expired" :: .leaseReleased lease.id ::
        if c.liveSession.isSome then [.close] else [],
      {c with leaseBook := book})

end BrokerSessionCore

inductive Move (F : Type)
  | msg (sessionId : ℕ) (message : Msg F) (now : ℕ)
  | disconnect (sessionId : ℕ)
  | tick (now : ℕ)

namespace BrokerSessionCore
variable {F : Type} (c : BrokerSessionCore)

def perform : Move F → List (BrokerEffect F) × BrokerSessionCore
  | .msg sessionId message now => c.onAuthenticatedMsgAt sessionId message now
  | .disconnect sessionId => c.onDisconnect sessionId
  | .tick now => c.onTick now

def step (m : Move F) : BrokerSessionCore := (c.perform m).2

def calls : Move F → List LeaseCall
  | .msg sessionId message now =>
    if c.liveSession≠some sessionId then []
    else
      match message with
      | .leaseRequest bytes =>
        match (c.leaseBook.beginRequest 1 bytes).1 with
        | .denied _ => [.beginRequest 1 bytes]
        | .pending _ => [.beginRequest 1 bytes,.grantPending bytes now c.leaseTtl]
      | .leaseRelease lease => [.release 1 lease]
      | .psi _ _ _ => [.renewActive 1 now c.leaseTtl]
      | _ => []
  | .disconnect sessionId => if c.liveSession≠some sessionId then [] else [.disconnect 1]
  | .tick now => [.expire now]

lemma onUnregisteredMsg_frame (sessionId : ℕ) (message : Msg F) :
    (c.onUnregisteredMsg sessionId message).2.leaseBook=c.leaseBook ∧
      (c.onUnregisteredMsg sessionId message).2.leaseTtl=c.leaseTtl := by
  cases message with
  | register proto tenant transport =>
    simp only [onUnregisteredMsg]
    split_ifs <;> exact ⟨rfl,rfl⟩
  | _ => exact ⟨rfl,rfl⟩

lemma onLeaseRequest_denied {c : BrokerSessionCore} {bytes : ℕ} {reason : LeaseDeny}
    (h : (c.leaseBook.beginRequest 1 bytes).1=.denied reason) (now : ℕ) : c.onLeaseRequest (F := F) bytes now =
      ([denied reason],{c with leaseBook := (c.leaseBook.beginRequest 1 bytes).2}) := by
  unfold onLeaseRequest
  generalize c.leaseBook.beginRequest 1 bytes = r at h ⊢
  obtain ⟨d,book⟩ := r
  obtain rfl := h
  rfl

lemma onLeaseRequest_pending {c : BrokerSessionCore} {bytes : ℕ} {p : PendingLease}
    (h : (c.leaseBook.beginRequest 1 bytes).1=.pending p) (now : ℕ) :
    c.onLeaseRequest (F := F) bytes now =
      (match ((c.leaseBook.beginRequest 1 bytes).2.grantPending bytes now c.leaseTtl).1 with
        | .error reason => [denied reason]
        | .ok lease => [.audit "lease_granted",.reply (.leaseGranted lease.id lease.bytes)],
        { c with leaseBook :=
          ((c.leaseBook.beginRequest 1 bytes).2.grantPending bytes now c.leaseTtl).2}) := by
  unfold onLeaseRequest
  generalize c.leaseBook.beginRequest 1 bytes = r at h ⊢
  obtain ⟨d,book⟩ := r
  obtain rfl := h
  dsimp only
  rcases book.grantPending bytes now c.leaseTtl with ⟨e | lease,book⟩ <;> rfl

lemma onLeaseRelease_snd (lease : ℕ) : (c.onLeaseRelease (F := F) lease).2 =
      {c with leaseBook := (c.leaseBook.release 1 lease).2} := by
  unfold onLeaseRelease
  rcases c.leaseBook.release 1 lease with ⟨e | ok,book⟩
  · cases e <;> rfl
  · cases ok <;> rfl

/-- A move changes the book by its calls, and never the lifetime of a lease. -/
theorem step_frame (m : Move F) : (c.step m).leaseBook = run LeaseBook.step c.leaseBook (c.calls m) ∧
      (c.step m).leaseTtl=c.leaseTtl := by
  cases m with
  | msg sessionId message now =>
    by_cases hlive : c.liveSession=some sessionId
    · cases message with
      | leaseRequest bytes =>
        cases h : (c.leaseBook.beginRequest 1 bytes).1 with
        | denied reason =>
          simp [step,perform,onAuthenticatedMsgAt,calls,hlive,onLeaseRequest_denied h,h,
            LeaseBook.step,LeaseBook.perform]
        | pending p =>
          simp [step,perform,onAuthenticatedMsgAt,calls,hlive,onLeaseRequest_pending h,h,
            LeaseBook.step,LeaseBook.perform]
      | leaseRelease lease =>
        simp [step,perform,onAuthenticatedMsgAt,calls,hlive,onLeaseRelease_snd,
          LeaseBook.step,LeaseBook.perform]
      | psi sample swaps mem =>
        simp [step,perform,onAuthenticatedMsgAt,calls,hlive,LeaseBook.step,LeaseBook.perform]
      | _ => simp [step,perform,onAuthenticatedMsgAt,calls,hlive]
    · simp [step,perform,onAuthenticatedMsgAt,calls,hlive,onUnregisteredMsg_frame]
  | disconnect sessionId =>
    by_cases hlive : c.liveSession=some sessionId
    · simp [step,perform,onDisconnect,calls,hlive,LeaseBook.step,LeaseBook.perform]
    · simp [step,perform,onDisconnect,calls,hlive]
  | tick now =>
    simp only [step,perform,onTick,calls,run_cons,run_nil,LeaseBook.step,LeaseBook.perform]
    rcases c.leaseBook.expire now with ⟨_ | lease,book⟩ <;> exact ⟨rfl,rfl⟩

end BrokerSessionCore
end RamShared.Winbroker

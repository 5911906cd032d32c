import RamShared.N3.LeaseMachine
import RamShared.Lib.Run

/-! The lease protocol without its bookkeeping: what an operation may do to the lease, the
generation history and the counters. The lease machine refines it. -/
namespace RamShared.N3
open LeaseMachine

structure Lease where
  state : LeaseState
  pending : Option Grant
  active : Option ActiveLease
  completed : List RevokeCompletion
  history : List (LeaseId × ℕ)
  epoch : Option ℕ
  inFlight : ℕ
  scrub : ScrubState

def LeaseMachine.lease (m : LeaseMachine) : Lease :=
  ⟨m.leaseState,m.pendingGrant,m.activeLease,m.completedRevokes,m.generationHistory,
    m.restoredRestartEpoch,m.inFlight,m.scrubState⟩

variable (history : List (LeaseId × ℕ)) (leaseId : LeaseId)

def known : Option ℕ :=
  (history.find? fun entry => entry.1 == leaseId).map (·.2)

/-- A history with the generation of one lease replaced or added. -/
def remember (generation : ℕ) : List (LeaseId × ℕ) :=
  if (known history leaseId).isSome then setGeneration leaseId generation history
  else history++[(leaseId,generation)]

/-- The generation that a history asks for next, if it knows the lease; else there is room. -/
def Next (generation : ℕ) : Prop :=
  match known history leaseId with
  | some previous => generation = previous+1
  | none => history.length < maxGenerationHistory

def Lease.cleans (l : Lease) : Bool :=
  (l.active.isNone || decide (l.scrub=.succeeded)) && cleanable l.state

namespace LeaseMachine

/-- An event of the dispatcher is the operation it dispatches to. -/
def Op.plain : Op → Op
  | .applyHostEvent (.grant grant) now => .receiveGrant grant now
  | .applyHostEvent (.grantAckAccepted ack) _ => .acceptGrantAck ack
  | .applyHostEvent (.revoke revoke) _ => .receiveRevoke revoke
  | .applyHostEvent (.revokeCompleted completion) _ => .confirmRevoke completion
  | .applyHostEvent (.lifecycle event) _ => .failClosed event
  | .hostAcceptsGrantAck ack => .acceptGrantAck ack
  | op => op

lemma perform_plain (m : LeaseMachine) (op : Op) : m.perform op.plain = m.perform op := by
  cases op with
  | applyHostEvent event now => cases event <;> rfl
  | _ => rfl

def Op.record : Op → Option RestartRecord
  | .restoreRestartRecord record => some record
  | .restoreRestartBytes bytes => (RestartRecord.fromBytes bytes).toOption
  | _ => none

def Op.restores : Op → Bool
  | .restoreRestartRecord _ => true
  | .restoreRestartBytes _ => true
  | _ => false

def Op.message : Op → Bool
  | .receiveGrant _ _ => true
  | .acceptGrantAck _ => true
  | .receiveRevoke _ => true
  | .drain _ => true
  | .confirmRevoke _ => true
  | .failClosed _ => true
  | _ => false

lemma Op.eq_of_plain {op op' : Op} (h : op.plain=op') (hm : op'.message=false) : op=op' := by
  subst h
  cases op with
  | applyHostEvent event now => cases event <;> cases hm
  | hostAcceptsGrantAck ack => cases hm
  | _ => rfl

/-- Replies after which nothing of the lease has changed. -/
def silent : Op → Reply → Bool
  | .beginIo, .result (.ok ()) => false
  | .completeIo, .result (.ok ()) => false
  | .setInFlight _, .result (.ok ()) => false
  | .scrubGuestData _, _ => false
  | .restoreRestartBytes _, _ => false
  | .restoreRestartRecord _, _ => false
  | .completeCleanup, _ => false
  | .restart, _ => false
  | _, .protocol .noop => true
  | _, .protocol (.blocked _) => true
  | _, .protocol _ => false
  | _, _ => true

end LeaseMachine

inductive Move : Lease → Op → Reply → Lease → Prop
  | quiet {l : Lease} {op : Op} {reply : Reply} (h : silent op reply) : Move l op reply l
  | failed {l : Lease} {op : Op} {ack : FailAck} {reason : FailureReason} {p : Option Grant}
      (hop : op.message) (hp : p=l.pending ∨ p=none) :
      Move l op (.protocol (.failAck ack)) {l with state := .failed reason, pending := p}
  | lost {l : Lease} {op : Op} {reason : FailureReason} (hop : op.restores) :
      Move l op (.result (.error reason))
        {l with state := .failed reason, pending := none, active := none}
  | restored {l : Lease} {op : Op} {record : RestartRecord} (hop : op.record=some record)
      (hvalid : record.validate=.ok ()) (hstate : l.state=.absent)
      (hhistory : l.history=[]) (hepoch : l.epoch=none) :
      Move l op (.result (.ok ()))
        { l with
          history := record.checkpoints.map fun c => (c.leaseId,c.generation)
          epoch := some record.hostEpoch}
  | granted {l : Lease} {grant : Grant} {now : ℕ} (hstate : l.state=.absent)
      (hepoch : ∀ epoch, l.epoch=some epoch → epoch≤grant.hostEpoch)
      (hnext : Next l.history grant.leaseId grant.generation) :
      Move l (.receiveGrant grant now)
        (.protocol (.grantAck
          ⟨grant.contractVersion,grant.leaseId,grant.generation,grant.eventId⟩))
        { l with
          history := remember l.history grant.leaseId grant.generation
          state := .negotiating grant.generation
          pending := some grant}
  | accepted {l : Lease} {grant : Grant} {ack : GrantAck} (hpending : l.pending=some grant)
      (hstate : l.state=.negotiating grant.generation) (hid : ack.leaseId=grant.leaseId)
      (hgen : ack.generation=grant.generation) :
      Move l (.acceptGrantAck ack) (.protocol (.accepted (.granted grant.generation)))
        { l with
          active := some ⟨grant.leaseId,grant.generation,grant.eventId,grant.capacityBytes,none⟩
          pending := none
          state := .granted grant.generation}
  | revoking {l : Lease} {revoke : Revoke} {active : ActiveLease} (hactive : l.active=some active)
      (hstate : l.state=.granted active.generation) (hid : revoke.leaseId=active.leaseId)
      (hgen : revoke.generation=active.generation) :
      Move l (.receiveRevoke revoke) (.protocol .beginDrain)
        { l with
          active := some {active with revoke := some revoke}
          state := .quiescing active.generation
          scrub := .pending}
  | begun {l : Lease} (hstate : l.state=.granted ((l.active.map (·.generation)).getD 0)) :
      Move l .beginIo (.result (.ok ())) {l with inFlight := l.inFlight+1}
  | completed {l : Lease} (h : 0<l.inFlight) :
      Move l .completeIo (.result (.ok ())) {l with inFlight := l.inFlight-1}
  | counted {l : Lease} {count : ℕ} :
      Move l (.setInFlight count) (.result (.ok ())) {l with inFlight := count}
  | scrubbed {l : Lease} {result : ScrubResult} (h : result≠.failed) :
      Move l (.scrubGuestData result) (.protocol .noop) {l with scrub := result.toState}
  | scrubFailed {l : Lease} {ack : FailAck} {reason : FailureReason} :
      Move l (.scrubGuestData .failed) (.protocol (.failAck ack))
        {l with scrub := .failed, state := .failed reason}
  | drained {l : Lease} {now : ℕ} {active : ActiveLease} {revoke : Revoke} {callbacks : ℕ}
      (hactive : l.active=some active) (hrevoke : active.revoke=some revoke)
      (hstate : l.state=.quiescing active.generation) (hflight : l.inFlight=0)
      (hscrub : l.scrub=.succeeded) :
      Move l (.drain now)
        (.protocol (.drainAck
          ⟨active.leaseId,active.generation,revoke.eventId,l.inFlight,callbacks,true⟩))
        {l with state := .drained active.generation}
  | revoked {l : Lease} {completion : RevokeCompletion} {active : ActiveLease} {revoke : Revoke}
      (hactive : l.active=some active) (hrevoke : active.revoke=some revoke)
      (hstate : l.state=.drained active.generation) (hid : completion.leaseId=active.leaseId)
      (hgen : completion.generation=active.generation)
      (hevent : completion.eventId=revoke.eventId) :
      Move l (.confirmRevoke completion) (.protocol .revoked)
        {l with completed := l.completed++[completion], state := .revoked}
  | uncleaned {l : Lease} (h : l.cleans=false) : Move l .completeCleanup .none l
  | cleaned {l : Lease} (h : l.cleans) :
      Move l .completeCleanup .none
        { l with
          state := .absent, pending := none, active := none, inFlight := 0, scrub := .pending}
  | restarted {l : Lease} :
      Move l .restart .none
        { l with
          state := .absent, pending := none, active := none, completed := [], inFlight := 0
          scrub := .pending}

namespace LeaseMachine

variable (m : LeaseMachine)

lemma failForActive_move (reason : FailureReason) {op : Op} (hop : op.message) :
    Move m.lease op (.protocol (m.failForActive reason).1) (m.failForActive reason).2.lease :=
  .failed (l := m.lease) hop (.inl rfl)

lemma failForEvent_move (leaseId : Option LeaseId) (generation : Option ℕ)
    (eventId : Option EventId) (reason : FailureReason) {op : Op} (hop : op.message) :
    Move m.lease op (.protocol (m.failForEvent leaseId generation eventId reason).1)
      (m.failForEvent leaseId generation eventId reason).2.lease :=
  .failed (l := m.lease) hop (.inr rfl)

lemma registerEvent_lease (fingerprint : EventFingerprint) : (m.registerEvent fingerprint).2.lease=m.lease := by
  simp only [registerEvent]
  split
  · rfl
  · split_ifs <;> rfl

lemma validateGeneration_ok {m : LeaseMachine} {leaseId : LeaseId} {generation : ℕ}
    (h : m.validateGeneration leaseId generation=.ok ()) : Next m.generationHistory leaseId generation := by
  change (match known m.generationHistory leaseId with
    | some previous => _
    | none => _) = _ at h
  unfold Next
  cases hk : known m.generationHistory leaseId with
  | some previous =>
    rw [hk] at h
    dsimp only at h ⊢
    split_ifs at h with h₁ h₂
    have h₂ := not_not.mp h₂
    unfold Lib.saturatingAdd at h₂
    omega
  | none =>
    rw [hk] at h
    dsimp only at h ⊢
    split_ifs at h with h₁
    exact not_le.mp h₁

lemma checkAuthority_ok {m : LeaseMachine} {grant : Grant} {now : ℕ} (h : m.checkAuthority grant now=.ok ()) :
    Next m.generationHistory grant.leaseId grant.generation := by
  unfold checkAuthority at h
  split at h
  · cases h
  · split_ifs at h
    exact validateGeneration_ok h

/-- What the checks of a grant leave: no lease, an epoch that is not older than the restored
one, and the generation that the history asks for. -/
lemma checkGrant_ok {m : LeaseMachine} {grant : Grant} {now : ℕ} (h : m.checkGrant grant now=.ok ()) :
    m.leaseState=.absent ∧
      (∀ epoch, m.restoredRestartEpoch=some epoch → epoch≤grant.hostEpoch) ∧
      Next m.generationHistory grant.leaseId grant.generation := by
  unfold checkGrant at h
  split_ifs at h with h₁ h₂ h₃ h₄
  refine ⟨not_not.mp h₁,fun epoch he => ?_,checkAuthority_ok h⟩
  simpa [he] using h₄

lemma rememberGeneration_lease {m : LeaseMachine} {leaseId : LeaseId} {generation : ℕ}
    (h : Next m.generationHistory leaseId generation) : (m.rememberGeneration leaseId generation).lease =
      {m.lease with history := remember m.generationHistory leaseId generation} := by
  unfold rememberGeneration remember
  show (if (known m.generationHistory leaseId).isSome then _ else _ : LeaseMachine).lease=_
  unfold Next at h
  split_ifs with h₁ h₂
  · rfl
  · rfl
  · rw [Option.not_isSome_iff_eq_none.mp h₁] at h
    exact absurd h h₂

lemma receiveGrant_move (grant : Grant) (now : ℕ) :
    Move m.lease (.receiveGrant grant now) (.protocol (m.receiveGrant grant now).1)
      (m.receiveGrant grant now).2.lease := by
  have hl := m.registerEvent_lease (.grant grant)
  unfold receiveGrant
  generalize m.registerEvent (.grant grant) = x at hl
  obtain ⟨registration,m'⟩ := x
  dsimp only at hl ⊢
  rw [←hl]
  cases registration with
  | duplicate => exact .quiet rfl
  | conflict => exact m'.failForEvent_move _ _ _ _ rfl
  | overflow => exact m'.failForEvent_move _ _ _ _ rfl
  | new =>
    dsimp only
    cases hc : m'.checkGrant grant now with
    | error reason => exact m'.failForEvent_move _ _ _ _ rfl
    | ok _ =>
      obtain ⟨hstate,hepoch,hnext⟩ := checkGrant_ok hc
      have hr := rememberGeneration_lease hnext
      have hm : Move m'.lease (.receiveGrant grant now) _ _ := .granted hstate hepoch hnext
      dsimp only
      generalize m'.rememberGeneration grant.leaseId grant.generation = m'' at hr
      simp only [lease,Lease.mk.injEq] at hr
      obtain ⟨-,-,ha,hcomp,hh,he,hf,hsc⟩ := hr
      convert hm using 1
      simp only [lease,ha,hcomp,hh,he,hf,hsc]

lemma acceptGrantAck_move (ack : GrantAck) :
    Move m.lease (.acceptGrantAck ack) (.protocol (m.acceptGrantAck ack).1) (m.acceptGrantAck ack).2.lease := by
  cases hp : m.pendingGrant with
  | none =>
    simp only [acceptGrantAck,hp]
    split_ifs
    · exact .quiet rfl
    · exact m.failForEvent_move _ _ _ _ rfl
  | some grant =>
    simp only [acceptGrantAck,hp]
    split_ifs with h₀ h₁ h₂
    · exact .quiet rfl
    · exact m.failForEvent_move _ _ _ _ rfl
    · exact m.failForActive_move _ rfl
    · push Not at h₁
      exact .accepted (l := m.lease) hp h₁.1 h₁.2.2.1 h₁.2.2.2.1

lemma receiveRevoke_move (revoke : Revoke) :
    Move m.lease (.receiveRevoke revoke) (.protocol (m.receiveRevoke revoke).1)
      (m.receiveRevoke revoke).2.lease := by
  have hl := m.registerEvent_lease (.revoke revoke)
  unfold receiveRevoke
  generalize m.registerEvent (.revoke revoke) = x at hl
  obtain ⟨registration,m'⟩ := x
  dsimp only at hl ⊢
  rw [←hl]
  cases registration with
  | duplicate => exact .quiet rfl
  | conflict => exact m'.failForEvent_move _ _ _ _ rfl
  | overflow => exact m'.failForEvent_move _ _ _ _ rfl
  | new =>
    dsimp only
    cases ha : m'.activeLease with
    | none => exact m'.failForEvent_move _ _ _ _ rfl
    | some active =>
      dsimp only
      split_ifs with h₁ h₂
      · exact m'.failForEvent_move _ _ _ _ rfl
      · exact m'.failForEvent_move _ _ _ _ rfl
      · push Not at h₁
        exact .revoking (l := m'.lease) ha h₁.1 h₁.2.1 h₁.2.2.1

lemma drain_move (now : ℕ) : Move m.lease (.drain now) (.protocol (m.drain now).1) (m.drain now).2.lease := by
  unfold drain
  cases ha : m.activeLease with
  | none => exact m.failForEvent_move _ _ _ _ rfl
  | some active =>
    dsimp only
    cases hr : active.revoke with
    | none => exact m.failForActive_move _ rfl
    | some revoke =>
      dsimp only
      split_ifs with h₁ h₂ h₃ h₄ h₅
      · exact m.failForActive_move _ rfl
      · exact m.failForActive_move _ rfl
      · exact m.failForActive_move _ rfl
      · exact m.failForActive_move _ rfl
      · exact m.failForActive_move _ rfl
      · cases hs : m.scrubState with
        | pending => exact .quiet rfl
        | failed => exact m.failForActive_move _ rfl
        | succeeded =>
          have hm : Move m.lease (.drain now) (.protocol (.drainAck ⟨active.leaseId,
            active.generation,revoke.eventId,m.inFlight,m.callbacksPending,true⟩)) _ :=
            .drained (l := m.lease) ha hr (not_not.mp h₁) (not_not.mp h₄) hs
          simpa only [lease,ha,hs] using hm

lemma confirmRevoke_move (completion : RevokeCompletion) :
    Move m.lease (.confirmRevoke completion) (.protocol (m.confirmRevoke completion).1)
      (m.confirmRevoke completion).2.lease := by
  cases ha : m.activeLease with
  | none =>
    simp only [confirmRevoke,ha]
    split_ifs
    · exact .quiet rfl
    · exact m.failForEvent_move _ _ _ _ rfl
  | some active =>
    cases hr : active.revoke with
    | none =>
      simp only [confirmRevoke,ha,hr]
      split_ifs
      · exact .quiet rfl
      · exact m.failForActive_move _ rfl
    | some revoke =>
      simp only [confirmRevoke,ha,hr]
      split_ifs with h₀ h₁ h₂
      · exact .quiet rfl
      · exact m.failForEvent_move _ _ _ _ rfl
      · exact m.failForActive_move _ rfl
      · push Not at h₁
        have hm := Move.revoked (l := m.lease) ha hr h₁.1 h₁.2.1 h₁.2.2.1 h₁.2.2.2
        simpa only [lease,ha] using hm

lemma restoreRestartRecord_move (op : Op) {record : RestartRecord} (hop : op.restores)
    (hr : op.record=some record) : Move m.lease op (.result (m.restoreRestartRecord record).1)
      (m.restoreRestartRecord record).2.lease := by
  unfold restoreRestartRecord
  cases hv : record.validate with
  | error reason => exact .lost (l := m.lease) hop
  | ok _ =>
    dsimp only
    split_ifs with hf
    · exact .lost (l := m.lease) hop
    · simp only [fresh,Bool.not_eq_true',Bool.not_eq_false,Bool.and_eq_true,decide_eq_true_eq,
        List.isEmpty_iff,Option.isNone_iff_eq_none] at hf
      obtain ⟨⟨⟨⟨⟨⟨⟨⟨hstate,-⟩,-⟩,-⟩,-⟩,-⟩,hhistory⟩,hepoch⟩,-⟩ := hf
      exact .restored (l := m.lease) hr hv hstate hhistory hepoch

lemma restoreRestartBytes_move (bytes : List UInt8) :
    Move m.lease (.restoreRestartBytes bytes) (.result (m.restoreRestartBytes bytes).1)
      (m.restoreRestartBytes bytes).2.lease := by
  unfold restoreRestartBytes
  cases hb : RestartRecord.fromBytes bytes with
  | error reason => exact .lost (l := m.lease) rfl
  | ok record =>
    exact m.restoreRestartRecord_move (.restoreRestartBytes bytes) rfl
      (by simp [Op.record,hb,Except.toOption])

lemma beginIo_move : Move m.lease .beginIo (.result m.beginIo.1) m.beginIo.2.lease := by
  unfold beginIo
  split_ifs with h₁
  · exact .quiet rfl
  · exact .quiet (l := m.lease) rfl
  · exact .begun (l := m.lease) (not_not.mp h₁)

lemma completeIo_move : Move m.lease .completeIo (.result m.completeIo.1) m.completeIo.2.lease := by
  unfold completeIo
  split_ifs with h
  · exact .quiet (l := m.lease) rfl
  · exact .completed (l := m.lease) (Nat.pos_of_ne_zero h)

lemma scrubGuestData_move (result : ScrubResult) :
    Move m.lease (.scrubGuestData result) (.protocol (m.scrubGuestData result).1)
      (m.scrubGuestData result).2.lease := by
  cases result with
  | failed => exact .scrubFailed (l := m.lease)
  | pending => exact .scrubbed (l := m.lease) (by decide)
  | succeeded => exact .scrubbed (l := m.lease) (by decide)

lemma completeCleanup_move : Move m.lease .completeCleanup .none m.completeCleanup.lease := by
  unfold completeCleanup
  split_ifs with h₁ h₂
  · refine .uncleaned ?_
    obtain ⟨active,ha⟩ := Option.isSome_iff_exists.mp h₁.1
    simp [Lease.cleans,lease,ha,h₁.2]
  · refine .cleaned (l := m.lease) ?_
    rw [not_and_or,Option.not_isSome_iff_eq_none,not_not] at h₁
    rcases h₁ with h₁ | h₁ <;> simp [Lease.cleans,lease,h₁,h₂]
  · refine .uncleaned ?_
    simp [Lease.cleans,lease,h₂]

lemma failClosed_move (event : LifecycleEvent) :
    Move m.lease (.failClosed event) (.protocol (m.failClosed event).1) (m.failClosed event).2.lease := by
  unfold failClosed
  split_ifs
  · exact .failed (l := m.lease) rfl (.inl rfl)
  · exact m.failForActive_move _ rfl

/-- Every operation of the machine is one of the protocol. -/
theorem perform_move (op : Op) : Move m.lease op.plain (m.perform op).1 (m.step op).lease := by
  rw [step,←perform_plain]
  cases op with
  | observe observation now => exact .quiet (l := m.lease) rfl
  | requestDemotion => exact .quiet (l := m.lease) rfl
  | refuseGuestClaim claim => exact .quiet (l := m.lease) rfl
  | refuseProductTransport transport => exact .quiet (l := m.lease) rfl
  | restoreRestartBytes bytes => exact m.restoreRestartBytes_move bytes
  | restoreRestartRecord record => exact m.restoreRestartRecord_move _ rfl rfl
  | applyHostEvent event now =>
    cases event with
    | grant grant => exact m.receiveGrant_move grant now
    | grantAckAccepted ack => exact m.acceptGrantAck_move ack
    | revoke revoke => exact m.receiveRevoke_move revoke
    | revokeCompleted completion => exact m.confirmRevoke_move completion
    | lifecycle event => exact m.failClosed_move event
  | receiveGrant grant now => exact m.receiveGrant_move grant now
  | acceptGrantAck ack => exact m.acceptGrantAck_move ack
  | hostAcceptsGrantAck ack => exact m.acceptGrantAck_move ack
  | receiveRevoke revoke => exact m.receiveRevoke_move revoke
  | beginIo => exact m.beginIo_move
  | setInFlight count =>
    simp only [Op.plain,perform,setInFlight]
    split_ifs
    · exact .quiet (l := m.lease) rfl
    · exact .counted (l := m.lease)
  | completeIo => exact m.completeIo_move
  | setCallbacksPending count =>
    simp only [Op.plain,perform,setCallbacksPending]
    split_ifs <;> exact .quiet (l := m.lease) rfl
  | markUnknownInFlight => exact .quiet (l := m.lease) rfl
  | scrubGuestData result => exact m.scrubGuestData_move result
  | drain now => exact m.drain_move now
  | confirmRevoke completion => exact m.confirmRevoke_move completion
  | completeCleanup => exact m.completeCleanup_move
  | restart => exact .restarted (l := m.lease)
  | failClosed event => exact m.failClosed_move event

end LeaseMachine

/-! The state of the lease tells which grant is pending and which lease is active. -/
open Lib

/-- The pending grant and the active lease are those that the state announces. -/
structure Coherent (l : Lease) : Prop where
  absent : l.state=.absent → l.pending=none ∧ l.active=none
  negotiating : ∀ g, l.state=.negotiating g →
    (∃ grant, l.pending=some grant ∧ grant.generation=g) ∧ l.active=none
  granted : ∀ g, l.state=.granted g →
    (∃ active, l.active=some active ∧ active.generation=g ∧ active.revoke=none) ∧
      l.pending=none
  quiescing : ∀ g, l.state=.quiescing g ∨ l.state=.drained g →
    ∃ active revoke, l.active=some active ∧ active.generation=g ∧
      active.revoke=some revoke ∧ revoke.leaseId=active.leaseId ∧ revoke.generation=g
  revoked : l.state=.revoked →
    ∃ active revoke, l.active=some active ∧ active.revoke=some revoke ∧
      ⟨active.leaseId,active.generation,revoke.eventId⟩∈l.completed

lemma Coherent.of_failed {l : Lease} {reason : FailureReason} (h : l.state=.failed reason) : Coherent l := by
  constructor <;> simp [h]

lemma Coherent.congr {l l' : Lease} (h : Coherent l) (hs : l'.state=l.state)
    (hp : l'.pending=l.pending) (ha : l'.active=l.active) (hc : l'.completed=l.completed) : Coherent l' := by
  obtain ⟨h₁,h₂,h₃,h₄,h₅⟩ := h
  constructor <;> rw [hs] <;> simp only [hp,ha,hc] <;> assumption

theorem Move.coherent {l l' : Lease} {op : Op} {reply : Reply} (hm : Move l op reply l')
    (h : Coherent l) : Coherent l' := by
  cases hm with
  | quiet | uncleaned => exact h
  | failed | lost | scrubFailed => exact .of_failed rfl
  | restored | begun | completed | counted | scrubbed => exact h.congr rfl rfl rfl rfl
  | @granted grant now hstate =>
    refine ⟨?_,?_,?_,?_,?_⟩ <;> try simp
    exact (h.absent hstate).2
  | accepted hpending hstate =>
    constructor <;> simp
  | revoking hactive hstate hid hgen =>
    constructor <;> simp
    exact ⟨hid,hgen⟩
  | drained hactive hrevoke hstate =>
    obtain ⟨a,r,ha,-,hr,hid,hgen⟩ := h.quiescing _ (.inl hstate)
    constructor <;> simp
    exact ⟨a,ha,by rw [hactive] at ha; cases ha; rfl,r,hr,hid,hgen⟩
  | revoked hactive hrevoke hstate hid hgen hevent =>
    constructor <;> simp
    refine ⟨_,hactive,_,hrevoke,.inr ?_⟩
    rw [←hid,←hgen,←hevent]
  | cleaned | restarted => constructor <;> simp

namespace LeaseMachine

lemma run_coherent (ops : List Op) : Coherent (run step new ops).lease := by
  refine run_induction step (P := fun m => Coherent m.lease) (fun m op h => ?_) ?_ ops
  · exact (m.perform_move op).coherent h
  · constructor <;> simp [lease,new]

/-- The state, the pending grant and the active lease agree after every sequence of
operations, and an I/O operation begins only under a granted lease. -/
theorem lease_coherent (ops : List Op) :
    Coherent (run step new ops).lease ∧
      ((run step new ops).beginIo.1 = .ok () → ∃ g, (run step new ops).leaseState = .granted g) := by
  refine ⟨run_coherent ops,fun hb => ?_⟩
  generalize run step new ops = m at hb
  unfold beginIo at hb
  split_ifs at hb with h₁
  exact ⟨_,not_not.mp h₁⟩

def sampleId (b : UInt8) : OpaqueId := ⟨[b],by simp,by simp [maxOpaqueIdBytes]⟩

def sampleObservation : HostObservation :=
  ⟨1,7,sampleId 1,.host,8192,0,8192,100,50,sampleId 2,[]⟩

def sampleGrant (lease : UInt8) (generation : ℕ) (event : UInt8) : Grant :=
  ⟨1,sampleId lease,generation,sampleId event,4096,7,100,200,none⟩

def sampleRevoke (lease : UInt8) (generation : ℕ) (event : UInt8) : Revoke :=
  ⟨sampleId lease,generation,sampleId event,200,none⟩

def grantLease (lease : UInt8) (generation : ℕ) (event : UInt8) : List Op :=
  [.receiveGrant (sampleGrant lease generation event) 120,
    .acceptGrantAck ⟨1,sampleId lease,generation,sampleId event⟩]

theorem lease_coherent_granted :
    (run step new (.observe sampleObservation 110::grantLease 3 1 4)).leaseState = .granted 1 ∧
      ∃ active, (run step new (.observe sampleObservation 110::grantLease 3 1 4)).activeLease =
        some active ∧ active.generation=1 ∧ active.revoke=none := by
  have hs : (run step new (.observe sampleObservation 110::grantLease 3 1 4)).leaseState =
      .granted 1 := by decide +kernel
  have h := (lease_coherent (.observe sampleObservation 110::grantLease 3 1 4)).1
  exact ⟨hs,(h.granted 1 hs).1⟩

end LeaseMachine

end RamShared.N3

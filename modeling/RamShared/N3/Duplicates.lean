import RamShared.N3.Lease

/-! Repeated messages. The machine remembers the grants and revokes it has seen, the
acknowledgements it has accepted and the completed revokes, until the next restart. -/
namespace RamShared.N3
open Lib

variable (m : LeaseMachine)

namespace LeaseMachine

def deliver : EventFingerprint → ℕ → ProtocolDecision × LeaseMachine
  | .grant grant, now => m.receiveGrant grant now
  | .revoke revoke, _ => m.receiveRevoke revoke

/-- The grant or revoke that an operation delivers. -/
def Op.delivers : Op → Option EventFingerprint
  | .receiveGrant grant _ => some (.grant grant)
  | .receiveRevoke revoke => some (.revoke revoke)
  | _ => none

def Op.ofPreflight : Op → Bool
  | .observe _ _ => true
  | .requestDemotion => true
  | .refuseGuestClaim _ => true
  | .refuseProductTransport _ => true
  | _ => false

/-- What the lease protocol leaves alone: it never asks the preflight to change, and it only adds
to its records. -/
structure Keeps (m m' : LeaseMachine) : Prop where
  preflight : m'.preflight=m.preflight
  seen : m'.seenEvents=m.seenEvents ∨ ∃ fingerprint : EventFingerprint,
    (m.seenEvents.find? fun seen => seen.eventId == fingerprint.eventId)=none ∧
      m'.seenEvents = m.seenEvents++[⟨fingerprint.eventId,fingerprint⟩]
  acks : m.acceptedGrantAcks <+: m'.acceptedGrantAcks
  completed : m.completedRevokes <+: m'.completedRevokes

namespace Keeps
variable {m m' m'' : LeaseMachine}

lemma of_eq (hp : m'.preflight=m.preflight) (hs : m'.seenEvents=m.seenEvents)
    (ha : m'.acceptedGrantAcks=m.acceptedGrantAcks)
    (hc : m'.completedRevokes=m.completedRevokes) : Keeps m m' :=
  ⟨hp,.inl hs,ha ▸ List.prefix_rfl,hc ▸ List.prefix_rfl⟩

lemma trans_eq (h : Keeps m m') (hp : m''.preflight=m'.preflight)
    (hs : m''.seenEvents=m'.seenEvents) (ha : m''.acceptedGrantAcks=m'.acceptedGrantAcks)
    (hc : m''.completedRevokes=m'.completedRevokes) : Keeps m m'' :=
  ⟨hp.trans h.preflight,by rw [hs]; exact h.seen,ha ▸ h.acks,hc ▸ h.completed⟩

end Keeps

lemma registerEvent_keeps (fingerprint : EventFingerprint) : Keeps m (m.registerEvent fingerprint).2 := by
  simp only [registerEvent]
  split
  · exact .of_eq rfl rfl rfl rfl
  · rename_i hnone
    split_ifs
    · exact .of_eq rfl rfl rfl rfl
    · exact ⟨rfl,.inr ⟨fingerprint,hnone,rfl⟩,List.prefix_rfl,List.prefix_rfl⟩

lemma rememberGeneration_records (m : LeaseMachine) (leaseId : LeaseId) (generation : ℕ) :
    let m' := m.rememberGeneration leaseId generation
    m'.preflight=m.preflight ∧ m'.seenEvents=m.seenEvents ∧
      m'.acceptedGrantAcks=m.acceptedGrantAcks ∧ m'.completedRevokes=m.completedRevokes := by
  simp only [rememberGeneration]
  split_ifs <;> exact ⟨rfl,rfl,rfl,rfl⟩

lemma receiveGrant_keeps (grant : Grant) (now : ℕ) : Keeps m (m.receiveGrant grant now).2 := by
  have hk := m.registerEvent_keeps (.grant grant)
  unfold receiveGrant
  generalize m.registerEvent (.grant grant) = x at hk
  obtain ⟨registration,m'⟩ := x
  cases registration with
  | duplicate => exact hk
  | conflict => exact hk.trans_eq rfl rfl rfl rfl
  | overflow => exact hk.trans_eq rfl rfl rfl rfl
  | new =>
    dsimp only
    cases m'.checkGrant grant now with
    | error reason => exact hk.trans_eq rfl rfl rfl rfl
    | ok _ =>
      obtain ⟨hp,hs,ha,hc⟩ := m'.rememberGeneration_records grant.leaseId grant.generation
      exact hk.trans_eq hp hs ha hc

lemma receiveRevoke_keeps (revoke : Revoke) : Keeps m (m.receiveRevoke revoke).2 := by
  have hk := m.registerEvent_keeps (.revoke revoke)
  unfold receiveRevoke
  generalize m.registerEvent (.revoke revoke) = x at hk
  obtain ⟨registration,m'⟩ := x
  cases registration with
  | duplicate => exact hk
  | conflict => exact hk.trans_eq rfl rfl rfl rfl
  | overflow => exact hk.trans_eq rfl rfl rfl rfl
  | new =>
    dsimp only
    cases m'.activeLease with
    | none => exact hk.trans_eq rfl rfl rfl rfl
    | some active =>
      dsimp only
      split_ifs <;> exact hk.trans_eq rfl rfl rfl rfl

lemma acceptGrantAck_keeps (ack : GrantAck) : Keeps m (m.acceptGrantAck ack).2 := by
  cases hp : m.pendingGrant with
  | none =>
    simp only [acceptGrantAck,hp]
    split_ifs <;> exact .of_eq rfl rfl rfl rfl
  | some grant =>
    simp only [acceptGrantAck,hp]
    split_ifs
    · exact .of_eq rfl rfl rfl rfl
    · exact .of_eq rfl rfl rfl rfl
    · exact .of_eq rfl rfl rfl rfl
    · exact ⟨rfl,.inl rfl,List.prefix_append _ _,List.prefix_rfl⟩

lemma confirmRevoke_keeps (completion : RevokeCompletion) : Keeps m (m.confirmRevoke completion).2 := by
  cases ha : m.activeLease with
  | none =>
    simp only [confirmRevoke,ha]
    split_ifs <;> exact .of_eq rfl rfl rfl rfl
  | some active =>
    cases hr : active.revoke with
    | none =>
      simp only [confirmRevoke,ha,hr]
      split_ifs <;> exact .of_eq rfl rfl rfl rfl
    | some revoke =>
      simp only [confirmRevoke,ha,hr]
      split_ifs
      · exact .of_eq rfl rfl rfl rfl
      · exact .of_eq rfl rfl rfl rfl
      · exact .of_eq rfl rfl rfl rfl
      · exact ⟨rfl,.inl rfl,List.prefix_rfl,List.prefix_append _ _⟩

lemma drain_keeps (now : ℕ) : Keeps m (m.drain now).2 := by
  unfold drain
  cases m.activeLease with
  | none => exact .of_eq rfl rfl rfl rfl
  | some active =>
    dsimp only
    cases active.revoke with
    | none => exact .of_eq rfl rfl rfl rfl
    | some revoke =>
      dsimp only
      split_ifs
      case neg => cases m.scrubState <;> exact .of_eq rfl rfl rfl rfl
      all_goals exact .of_eq rfl rfl rfl rfl

lemma restoreRestartRecord_keeps (record : RestartRecord) : Keeps m (m.restoreRestartRecord record).2 := by
  unfold restoreRestartRecord
  cases record.validate with
  | error reason => exact .of_eq rfl rfl rfl rfl
  | ok _ =>
    dsimp only
    split_ifs <;> exact .of_eq rfl rfl rfl rfl

variable {op : Op} {m : LeaseMachine} {fingerprint : EventFingerprint}

lemma step_keeps (m : LeaseMachine) (hp : op.ofPreflight=false) (hr : op≠.restart) : Keeps m (m.step op) := by
  cases op with
  | observe observation now => cases hp
  | requestDemotion => cases hp
  | refuseGuestClaim claim => cases hp
  | refuseProductTransport transport => cases hp
  | restoreRestartBytes bytes =>
    simp only [step,perform,restoreRestartBytes]
    split
    · exact .of_eq rfl rfl rfl rfl
    · exact m.restoreRestartRecord_keeps _
  | restoreRestartRecord record => exact m.restoreRestartRecord_keeps record
  | applyHostEvent event now =>
    cases event with
    | grant grant => exact m.receiveGrant_keeps grant now
    | grantAckAccepted ack => exact m.acceptGrantAck_keeps ack
    | revoke revoke => exact m.receiveRevoke_keeps revoke
    | revokeCompleted completion => exact m.confirmRevoke_keeps completion
    | lifecycle event =>
      simp only [step,perform,applyHostEvent,failClosed]
      split_ifs <;> exact .of_eq rfl rfl rfl rfl
  | receiveGrant grant now => exact m.receiveGrant_keeps grant now
  | acceptGrantAck ack => exact m.acceptGrantAck_keeps ack
  | hostAcceptsGrantAck ack => exact m.acceptGrantAck_keeps ack
  | receiveRevoke revoke => exact m.receiveRevoke_keeps revoke
  | drain now => exact m.drain_keeps now
  | confirmRevoke completion => exact m.confirmRevoke_keeps completion
  | restart => exact absurd rfl hr
  | markUnknownInFlight => exact .of_eq rfl rfl rfl rfl
  | beginIo =>
    simp only [step,perform,beginIo]
    split_ifs <;> exact .of_eq rfl rfl rfl rfl
  | setInFlight count =>
    simp only [step,perform,setInFlight]
    split_ifs <;> exact .of_eq rfl rfl rfl rfl
  | completeIo =>
    simp only [step,perform,completeIo]
    split_ifs <;> exact .of_eq rfl rfl rfl rfl
  | setCallbacksPending count =>
    simp only [step,perform,setCallbacksPending]
    split_ifs <;> exact .of_eq rfl rfl rfl rfl
  | scrubGuestData result =>
    simp only [step,perform,scrubGuestData]
    split_ifs <;> exact .of_eq rfl rfl rfl rfl
  | completeCleanup =>
    simp only [step,perform,completeCleanup]
    split_ifs <;> exact .of_eq rfl rfl rfl rfl
  | failClosed event =>
    simp only [step,perform,failClosed]
    split_ifs <;> exact .of_eq rfl rfl rfl rfl

lemma step_ofPreflight (m : LeaseMachine) (hp : op.ofPreflight=true) :
    ∃ preflight, m.step op = {m with preflight := preflight} := by
  cases op with
  | observe observation now => exact ⟨_,rfl⟩
  | requestDemotion => exact ⟨_,rfl⟩
  | refuseGuestClaim claim => exact ⟨_,rfl⟩
  | refuseProductTransport transport => exact ⟨_,rfl⟩
  | _ => cases hp

/-- A record of the machine is of this content, and the only one of its event. -/
def HasSeen (m : LeaseMachine) (fingerprint : EventFingerprint) : Prop :=
  (m.seenEvents.find? fun seen => seen.eventId == fingerprint.eventId) =
    some ⟨fingerprint.eventId,fingerprint⟩

lemma hasSeen_of_new (h : (m.registerEvent fingerprint).1=.new) :
    (m.registerEvent fingerprint).2.HasSeen fingerprint := by
  unfold registerEvent at h ⊢
  cases hs : m.seenEvents.find? fun seen => seen.eventId == fingerprint.eventId with
  | some seen =>
    simp only [hs] at h
    split_ifs at h
  | none =>
    simp only [hs] at h ⊢
    split_ifs at h ⊢
    simp [HasSeen,List.find?_append,hs]

lemma deliver_seenEvents (m : LeaseMachine) (fingerprint : EventFingerprint) (now : ℕ) :
    (m.deliver fingerprint now).2.seenEvents = (m.registerEvent fingerprint).2.seenEvents := by
  cases fingerprint with
  | grant grant =>
    change (m.receiveGrant grant now).2.seenEvents=_
    unfold receiveGrant
    generalize m.registerEvent (.grant grant)=x
    obtain ⟨registration,m'⟩ := x
    cases registration with
    | new =>
      dsimp only
      cases m'.checkGrant grant now with
      | error reason => rfl
      | ok _ => exact (m'.rememberGeneration_records grant.leaseId grant.generation).2.1
    | _ => rfl
  | revoke revoke =>
    change (m.receiveRevoke revoke).2.seenEvents=_
    unfold receiveRevoke
    generalize m.registerEvent (.revoke revoke)=x
    obtain ⟨registration,m'⟩ := x
    cases registration with
    | new =>
      dsimp only
      cases m'.activeLease with
      | none => rfl
      | some active =>
        dsimp only
        split_ifs <;> rfl
    | _ => rfl

lemma step_of_delivers (m : LeaseMachine) (h : op.plain.delivers=some fingerprint) :
    ∃ now, m.step op = (m.deliver fingerprint now).2 := by
  rw [step,←perform_plain]
  generalize op.plain = op at h
  cases op <;> cases h
  · exact ⟨_,rfl⟩
  · exact ⟨0,rfl⟩

lemma deliver_of_hasSeen (h : m.HasSeen fingerprint) (now : ℕ) : m.deliver fingerprint now = (.noop,m) := by
  have hreg : m.registerEvent fingerprint = (.duplicate,m) := by
    simp only [registerEvent,show _ = _ from h,if_true]
  cases fingerprint with
  | grant grant => simp only [deliver,receiveGrant,hreg]
  | revoke revoke => simp only [deliver,receiveRevoke,hreg]

lemma deliver_of_conflict {other : EventFingerprint} (h : m.HasSeen fingerprint)
    (hid : other.eventId=fingerprint.eventId) (hne : other≠fingerprint) (now : ℕ) :
    (∃ ack, (m.deliver other now).1=.failAck ack ∧ ack.reason=.conflictingDuplicate) ∧
      (m.deliver other now).2.leaseState=.failed .conflictingDuplicate := by
  have hreg : m.registerEvent other = (.conflict,m) := by
    rw [HasSeen,←hid] at h
    simp only [registerEvent,h,if_neg (Ne.symm hne)]
  cases other with
  | grant grant =>
    simp only [deliver,receiveGrant,hreg,failForEvent]
    exact ⟨⟨_,rfl,rfl⟩,trivial⟩
  | revoke revoke =>
    simp only [deliver,receiveRevoke,hreg,failForEvent]
    exact ⟨⟨_,rfl,rfl⟩,trivial⟩

/-- What a machine remembers until it restarts. -/
structure Remembers (m m' : LeaseMachine) : Prop where
  seen (fingerprint : EventFingerprint) (h : m.HasSeen fingerprint) : m'.HasSeen fingerprint
  acks : m.acceptedGrantAcks <+: m'.acceptedGrantAcks
  completed : m.completedRevokes <+: m'.completedRevokes

lemma step_remembers (m : LeaseMachine) (hr : op≠.restart) : Remembers m (m.step op) := by
  cases hp : op.ofPreflight with
  | true =>
    obtain ⟨preflight,h⟩ := m.step_ofPreflight hp
    rw [h]
    exact ⟨fun _ h => h,List.prefix_rfl,List.prefix_rfl⟩
  | false =>
    have hk := m.step_keeps hp hr
    refine ⟨fun fingerprint h => ?_,hk.acks,hk.completed⟩
    rcases hk.seen with hs | ⟨_,-,hs⟩
    · rw [HasSeen,hs]
      exact h
    · rw [HasSeen,hs,List.find?_append,h]
      rfl

lemma run_remembers (m : LeaseMachine) {ops : List Op} (hr : .restart∉ops) : Remembers m (run step m ops) := by
  induction ops generalizing m with
  | nil => exact ⟨fun _ h => h,List.prefix_rfl,List.prefix_rfl⟩
  | cons op ops ih =>
    rw [List.mem_cons,not_or] at hr
    have hstep := m.step_remembers (Ne.symm hr.1)
    have hrest := ih (m.step op) hr.2
    exact ⟨fun f h => hrest.seen f (hstep.seen f h),hstep.acks.trans hrest.acks,
      hstep.completed.trans hrest.completed⟩

lemma acceptGrantAck_accepted {ack : GrantAck} {state : LeaseState}
    (h : (m.acceptGrantAck ack).1=.accepted state) : ack∈(m.acceptGrantAck ack).2.acceptedGrantAcks := by
  cases hp : m.pendingGrant with
  | none =>
    simp only [acceptGrantAck,hp] at h
    split_ifs at h
    cases h
  | some grant =>
    simp only [acceptGrantAck,hp] at h ⊢
    split_ifs at h ⊢
    · cases h
    · cases h
    · simp

lemma confirmRevoke_revoked {completion : RevokeCompletion} (h : (m.confirmRevoke completion).1=.revoked) :
    completion∈(m.confirmRevoke completion).2.completedRevokes := by
  cases ha : m.activeLease with
  | none =>
    simp only [confirmRevoke,ha] at h
    split_ifs at h
    cases h
  | some active =>
    cases hr : active.revoke with
    | none =>
      simp only [confirmRevoke,ha,hr] at h
      split_ifs at h
      cases h
    | some revoke =>
      simp only [confirmRevoke,ha,hr] at h ⊢
      split_ifs at h ⊢
      · cases h
      · cases h
      · simp

/-- Until the machine restarts, whatever else happens, it answers the repetition of a grant or
revoke that it has registered, of an acknowledgement that it has accepted and of a revoke that it
has completed with `Noop` and stays as it is; another content under a registered event fails
the lease. -/
theorem duplicates_harmless (pre post : List Op) (op : Op) (hr : .restart ∉ post) :
    let m := run step new pre
    let m' := run step new (pre++op::post)
    (∀ fingerprint, op.plain.delivers = some fingerprint → (m.registerEvent fingerprint).1 = .new →
      (∀ now, m'.deliver fingerprint now = (.noop,m')) ∧
      ∀ other now, other.eventId = fingerprint.eventId → other≠fingerprint →
        (∃ ack, (m'.deliver other now).1 = .failAck ack ∧ ack.reason=.conflictingDuplicate) ∧
        (m'.deliver other now).2.leaseState = .failed .conflictingDuplicate) ∧
    (∀ ack state, op.plain = .acceptGrantAck ack → (m.acceptGrantAck ack).1 = .accepted state →
      m'.acceptGrantAck ack = (.noop,m')) ∧
    (∀ completion, op.plain = .confirmRevoke completion →
      (m.confirmRevoke completion).1 = .revoked → m'.confirmRevoke completion = (.noop,m')) := by
  intro m m'
  have hm : m' = run step (m.step op) post := by
    change run step new (pre++op::post) = _
    rw [run_append,run_cons]
  have hrem : Remembers (m.step op) m' := hm ▸ run_remembers (m.step op) hr
  refine ⟨fun fingerprint hd hnew => ?_,fun ack state hop ha => ?_,fun completion hop hc => ?_⟩
  · have hrec : m'.HasSeen fingerprint := by
      refine hrem.seen fingerprint ?_
      obtain ⟨now,hstep⟩ := m.step_of_delivers hd
      rw [HasSeen,hstep,m.deliver_seenEvents]
      exact hasSeen_of_new hnew
    exact ⟨deliver_of_hasSeen hrec,fun other now hid hne => deliver_of_conflict hrec hid hne now⟩
  · have hmem : ack ∈ m'.acceptedGrantAcks := by
      refine hrem.acks.subset ?_
      rw [step,← perform_plain,hop]
      exact acceptGrantAck_accepted ha
    simp [acceptGrantAck,hmem]
  · have hmem : completion ∈ m'.completedRevokes := by
      refine hrem.completed.subset ?_
      rw [step,← perform_plain,hop]
      exact confirmRevoke_revoked hc
    simp [confirmRevoke,hmem]

/-- The completion of a lease whose grant was observed, accepted and revoked. -/
def sampleCompletion : RevokeCompletion := ⟨sampleId 3,1,sampleId 5⟩

def revokedLease : List Op :=
  [.observe sampleObservation 110,.receiveGrant (sampleGrant 3 1 4) 120,
    .acceptGrantAck ⟨1,sampleId 3,1,sampleId 4⟩,.receiveRevoke (sampleRevoke 3 1 5),
    .scrubGuestData .succeeded,.drain 130,.confirmRevoke sampleCompletion,.completeCleanup]

theorem duplicates_harmless_revokedLease :
    let m := run step new revokedLease
    m.leaseState = .absent ∧
    m.deliver (.grant (sampleGrant 3 1 4)) 500 = (.noop,m) ∧
    (m.deliver (.revoke (sampleRevoke 3 1 4)) 0).2.leaseState = .failed .conflictingDuplicate ∧
    m.acceptGrantAck ⟨1,sampleId 3,1,sampleId 4⟩ = (.noop,m) ∧
    m.confirmRevoke sampleCompletion = (.noop,m) := by
  have hgrant := (duplicates_harmless (revokedLease.take 1) (revokedLease.drop 2)
    (.receiveGrant (sampleGrant 3 1 4) 120) (by simp [revokedLease])).1
    (.grant (sampleGrant 3 1 4)) rfl (by decide +kernel)
  have hack := (duplicates_harmless (revokedLease.take 2) (revokedLease.drop 3)
    (.acceptGrantAck ⟨1,sampleId 3,1,sampleId 4⟩) (by simp [revokedLease])).2.1
    ⟨1,sampleId 3,1,sampleId 4⟩ (.granted 1) rfl (by decide +kernel)
  have hrevoke := (duplicates_harmless (revokedLease.take 6) (revokedLease.drop 7)
    (.confirmRevoke sampleCompletion) (by simp [revokedLease])).2.2
    sampleCompletion rfl (by decide +kernel)
  exact ⟨by decide +kernel,hgrant.1 500,
    (hgrant.2 (.revoke (sampleRevoke 3 1 4)) 0 rfl (by simp)).2,hack,hrevoke⟩

end LeaseMachine
end RamShared.N3

import RamShared.N3.Replay

/-! The operations in flight, beside the one counter that stands for them. A cleanup or a
restart sets the counter to zero and forgets the operations that have not completed yet. -/
namespace RamShared.N3
open Lib LeaseMachine

/-- An I/O operation and the lease that it was begun under. It is fresh as long as the counter
has not been reset under it. -/
structure Operation where
  leaseId : LeaseId
  generation : ℕ
  fresh : Bool
  deriving DecidableEq

def Operation.aged (o : Operation) : Operation := {o with fresh := false}

/-- The operations in flight after a plain operation of the machine. -/
def outstandingAfter (l : Lease) (ops : List Operation) : Op → Reply → List Operation
  | .beginIo, .result (.ok ()) =>
    match l.active with
    | some active => ops++[⟨active.leaseId,active.generation,true⟩]
    | none => ops
  | .completeCleanup, _ => if l.cleans then ops.map Operation.aged else ops
  | .restart, _ => ops.map Operation.aged
  | _, _ => ops

/-- The machine and the operations that have not called `complete_io` yet. -/
structure Tracked where
  machine : LeaseMachine
  outstanding : List Operation

/-- A call of the machine; completions are made by one of the operations in flight. -/
inductive Call
  | op (op : Op)
  | complete (i : ℕ)

variable (t : Tracked)

namespace Tracked

def new : Tracked := ⟨.new,[]⟩

def reply : Call → Reply
  | .op op => (t.machine.perform op).1
  | .complete _ => (t.machine.perform .completeIo).1

def step : Call → Tracked
  | .op op =>
    ⟨t.machine.step op,
      outstandingAfter t.machine.lease t.outstanding op.plain (t.machine.perform op).1⟩
  | .complete i => ⟨t.machine.step .completeIo,t.outstanding.eraseIdx i⟩

/-- The counter is left to `begin_io` and `complete_io`, and a completion is that of an
operation in flight, unless there is none. -/
def attributed : Call → Bool
  | .op (.setInFlight _) => false
  | .op .completeIo => false
  | .op _ => true
  | .complete i => decide (i<t.outstanding.length) || t.outstanding.isEmpty

/-- No operation that the counter was reset under takes a count that is not its own. -/
def timely : Call → Bool
  | .op _ => true
  | .complete i => decide (t.machine.inFlight=0) || t.outstanding[i]?.all (·.fresh)

end Tracked

/-- The counter counts the fresh operations, and the others belong to older generations than the
lease that is pending or active. -/
structure Fits (l : Lease) (ops : List Operation) : Prop where
  coherent : Coherent l
  count : ops.countP (·.fresh)=l.inFlight
  active_known : ∀ active, l.active=some active →
    known l.history active.leaseId=some active.generation
  pending_known : ∀ grant, l.pending=some grant →
    known l.history grant.leaseId=some grant.generation
  op_known : ∀ o∈ops, ∃ last, known l.history o.leaseId=some last ∧ o.generation≤last
  active_newer : ∀ o∈ops, o.fresh=false → ∀ active, l.active=some active →
    active.leaseId=o.leaseId → o.generation<active.generation
  pending_newer : ∀ o∈ops, o.fresh=false → ∀ grant, l.pending=some grant →
    grant.leaseId=o.leaseId → o.generation<grant.generation

namespace Fits
variable {l l' : Lease} {ops : List Operation}

variable (h : Fits l ops)
include h

lemma congr (hc : Coherent l') (hp : l'.pending=l.pending ∨ l'.pending=none)
    (ha : l'.active=l.active ∨ l'.active=none) (hh : l'.history=l.history)
    (hf : l'.inFlight=l.inFlight) : Fits l' ops := by
  have hactive {active : ActiveLease} (h' : l'.active=some active) : l.active=some active := by
    rcases ha with ha | ha
    · rw [←ha,h']
    · rw [ha] at h'
      cases h'
  have hpending {grant : Grant} (h' : l'.pending=some grant) : l.pending=some grant := by
    rcases hp with hp | hp
    · rw [←hp,h']
    · rw [hp] at h'
      cases h'
  refine ⟨hc,by rw [hf]; exact h.count,?_,?_,?_,?_,?_⟩
  · intro active ha
    rw [hh]
    exact h.active_known active (hactive ha)
  · intro grant hg
    rw [hh]
    exact h.pending_known grant (hpending hg)
  · rw [hh]
    exact h.op_known
  · intro o ho hs active ha
    exact h.active_newer o ho hs active (hactive ha)
  · intro o ho hs grant hg
    exact h.pending_newer o ho hs grant (hpending hg)

lemma aged (hc : Coherent l') (hp : l'.pending=none) (ha : l'.active=none)
    (hh : l'.history=l.history) (hf : l'.inFlight=0) : Fits l' (ops.map Operation.aged) := by
  refine ⟨hc,?_,?_,?_,?_,?_,?_⟩
  · rw [hf,List.countP_eq_zero]
    intro o ho
    obtain ⟨o',-,rfl⟩ := List.mem_map.mp ho
    exact Bool.false_ne_true
  · simp [ha]
  · simp [hp]
  · intro o ho
    obtain ⟨o',ho',rfl⟩ := List.mem_map.mp ho
    rw [hh]
    exact h.op_known o' ho'
  · simp [ha]
  · simp [hp]

lemma restored (hstate : l.state=.absent) (hhistory : l.history=[])
    (hc : Coherent l') (hp : l'.pending=l.pending) (ha : l'.active=l.active)
    (hf : l'.inFlight=l.inFlight) : Fits l' ops := by
  have hnil : ops=[] := by
    refine List.eq_nil_iff_forall_not_mem.mpr fun o ho => ?_
    obtain ⟨last,hk,-⟩ := h.op_known o ho
    rw [hhistory] at hk
    cases hk
  obtain ⟨hpn,han⟩ := h.coherent.absent hstate
  subst hnil
  exact ⟨hc,by rw [hf]; exact h.count,by simp [ha,han],by simp [hp,hpn],by simp,by simp,by simp⟩

lemma granted (hstate : l.state=.absent) {grant : Grant}
    (hnext : Next l.history grant.leaseId grant.generation) (hc : Coherent l')
    (hp : l'.pending=some grant) (ha : l'.active=l.active)
    (hh : l'.history = remember l.history grant.leaseId grant.generation)
    (hf : l'.inFlight=l.inFlight) : Fits l' ops := by
  obtain ⟨-,han⟩ := h.coherent.absent hstate
  have hold : ∀ o∈ops, o.leaseId=grant.leaseId → o.generation<grant.generation := by
    intro o ho hid
    obtain ⟨last,hk,hle⟩ := h.op_known o ho
    unfold Next at hnext
    rw [←hid,hk] at hnext
    dsimp only at hnext
    omega
  refine ⟨hc,by rw [hf]; exact h.count,by simp [ha,han],?_,?_,by simp [ha,han],?_⟩
  · intro g hg
    rw [hp] at hg
    cases hg
    rw [hh,known_remember,if_pos rfl]
  · intro o ho
    rw [hh,known_remember]
    split_ifs with hid
    · exact ⟨_,rfl,(hold o ho hid).le⟩
    · exact h.op_known o ho
  · intro o ho _ g hg hid
    rw [hp] at hg
    cases hg
    exact hold o ho hid.symm

lemma activated {active : ActiveLease} (hc : Coherent l')
    (hp : l'.pending=none ∨ l'.pending=l.pending) (ha : l'.active=some active)
    (hh : l'.history=l.history) (hf : l'.inFlight=l.inFlight)
    (hknown : known l.history active.leaseId=some active.generation)
    (hnewer : ∀ o∈ops, o.fresh=false → active.leaseId=o.leaseId →
      o.generation<active.generation) : Fits l' ops := by
  refine ⟨hc,by rw [hf]; exact h.count,?_,?_,by rw [hh]; exact h.op_known,?_,?_⟩
  · intro a ha'
    rw [ha] at ha'
    cases ha'
    rwa [hh]
  · rcases hp with hp | hp
    · simp [hp]
    · rw [hp,hh]
      exact h.pending_known
  · intro o ho hs a ha' hid
    rw [ha] at ha'
    cases ha'
    exact hnewer o ho hs hid
  · rcases hp with hp | hp
    · simp [hp]
    · rw [hp]
      exact h.pending_newer

lemma begun {active : ActiveLease} (hactive : l.active=some active) : Fits {l with inFlight := l.inFlight+1}
      (ops++[⟨active.leaseId,active.generation,true⟩]) := by
  refine ⟨h.coherent.congr rfl rfl rfl rfl,by simp [h.count],h.active_known,h.pending_known,
    fun o ho => ?_,fun o ho hs => ?_,fun o ho hs => ?_⟩
  · rcases List.mem_append.mp ho with ho | ho
    · exact h.op_known o ho
    · obtain rfl := List.mem_singleton.mp ho
      exact ⟨_,h.active_known active hactive,le_rfl⟩
  all_goals
    rcases List.mem_append.mp ho with ho | ho
    · first | exact h.active_newer o ho hs | exact h.pending_newer o ho hs
    · obtain rfl := List.mem_singleton.mp ho
      cases hs

lemma completed {i : ℕ} (ht : l.inFlight=0 ∨ ∀ o, ops[i]?=some o → o.fresh) (hi : i<ops.length ∨ ops=[]) :
    Fits {l with inFlight := l.inFlight-1} (ops.eraseIdx i) := by
  have hsub : ∀ o∈ops.eraseIdx i, o∈ops := fun o ho => List.mem_of_mem_eraseIdx ho
  refine ⟨h.coherent.congr rfl rfl rfl rfl,?_,h.active_known,h.pending_known,
    fun o ho => h.op_known o (hsub o ho),fun o ho => h.active_newer o (hsub o ho),
    fun o ho => h.pending_newer o (hsub o ho)⟩
  have hcount := h.count
  rcases hi with hi | rfl
  · have hperm := (List.getElem_cons_eraseIdx_perm hi).countP_eq (·.fresh)
    rw [List.countP_cons,hcount] at hperm
    dsimp only
    rcases ht with hz | ht
    · omega
    · rw [if_pos (ht _ (List.getElem?_eq_getElem hi))] at hperm
      omega
  · simpa using (congrArg (· - 1) hcount)

end Fits
variable {l : Lease} {ops : List Operation} {op : Op}

lemma outstandingAfter_of_silent {reply : Reply} (h : silent op reply) :
    outstandingAfter l ops op reply=ops := by
  cases op with
  | beginIo =>
    rcases reply with d | d | (e | ⟨⟨⟩⟩) | _
    · rfl
    · rfl
    · rfl
    · cases h
    · rfl
  | completeCleanup => cases h
  | restart => cases h
  | _ => rfl

lemma outstandingAfter_of_plain (reply : Reply) (h : op.message ∨ op.restores) :
    outstandingAfter l ops op reply=ops := by
  cases op with
  | beginIo => simp [Op.message,Op.restores] at h
  | completeCleanup => simp [Op.message,Op.restores] at h
  | restart => simp [Op.message,Op.restores] at h
  | _ => rfl

lemma restores_of_record {record : RestartRecord} (h : op.record=some record) : op.restores := by
  cases op <;> first | rfl | cases h

/-- Every operation but a bare count keeps the counter and the operations in flight together. -/
theorem Move.fits {l' : Lease} {reply : Reply} (hm : Move l op reply l') (h : Fits l ops)
    (hcount : ∀ count, op≠.setInFlight count) (hio : op≠.completeIo) :
    Fits l' (outstandingAfter l ops op reply) := by
  have hc := hm.coherent h.coherent
  cases hm with
  | quiet hs =>
    rw [outstandingAfter_of_silent hs]
    exact h
  | failed hop hp =>
    rw [outstandingAfter_of_plain _ (.inl hop)]
    exact h.congr hc hp (.inl rfl) rfl rfl
  | lost hop =>
    rw [outstandingAfter_of_plain _ (.inr hop)]
    exact h.congr hc (.inr rfl) (.inr rfl) rfl rfl
  | restored hop hvalid hstate hhistory =>
    rw [outstandingAfter_of_plain _ (.inr (restores_of_record hop))]
    exact h.restored hstate hhistory hc rfl rfl rfl
  | granted hstate hepoch hnext => exact h.granted hstate hnext hc rfl rfl rfl rfl
  | accepted hpending =>
    exact h.activated hc (.inl rfl) rfl rfl rfl (h.pending_known _ hpending) fun o ho hs hid =>
      h.pending_newer o ho hs _ hpending hid
  | revoking hactive =>
    have hknown := h.active_known _ hactive
    have hnewer := fun o ho hs => h.active_newer o ho hs _ hactive
    exact h.activated hc (.inr rfl) rfl rfl rfl hknown hnewer
  | begun hstate =>
    obtain ⟨⟨active,hactive,-⟩,-⟩ := h.coherent.granted _ hstate
    simp only [outstandingAfter,hactive]
    simpa only [hactive] using h.begun hactive
  | completed => exact absurd rfl hio
  | counted => exact absurd rfl (hcount _)
  | scrubbed | scrubFailed | drained | revoked =>
    exact h.congr hc (.inl rfl) (.inl rfl) rfl rfl
  | uncleaned hn =>
    simp only [outstandingAfter,hn]
    exact h
  | cleaned hcl =>
    simp only [outstandingAfter,hcl]
    exact h.aged hc rfl rfl rfl rfl
  | restarted => exact h.aged hc rfl rfl rfl rfl

namespace Tracked

lemma completeIo_lease (m : LeaseMachine) :
    (m.step .completeIo).lease = {m.lease with inFlight := m.lease.inFlight-1} := by
  simp only [LeaseMachine.step,perform,completeIo]
  split_ifs with h
  · simp [lease,h]
  · rfl

lemma plain_of_attributed {t : Tracked} {op : Op} (h : t.attributed (.op op)) :
    (∀ count, op.plain≠.setInFlight count) ∧ op.plain≠.completeIo := by
  constructor
  · intro count he
    obtain rfl := Op.eq_of_plain he rfl
    cases h
  · intro he
    obtain rfl := Op.eq_of_plain he rfl
    cases h

lemma step_fits {t : Tracked} {c : Call} (ha : t.attributed c) (ht : t.timely c)
    (h : Fits t.machine.lease t.outstanding) : Fits (t.step c).machine.lease (t.step c).outstanding := by
  cases c with
  | op op =>
    obtain ⟨hcount,hio⟩ := plain_of_attributed ha
    exact (t.machine.perform_move op).fits h hcount hio
  | complete i =>
    simp only [timely,Bool.or_eq_true,decide_eq_true_eq] at ht
    simp only [attributed,Bool.or_eq_true,decide_eq_true_eq,List.isEmpty_iff] at ha
    show Fits (t.machine.step .completeIo).lease (t.outstanding.eraseIdx i)
    rw [completeIo_lease]
    refine h.completed (ht.imp id fun ht o ho => ?_) ha
    simpa [ho] using ht

lemma new_fits : Fits new.machine.lease new.outstanding := by
  refine ⟨run_coherent [],rfl,?_,?_,?_,?_,?_⟩ <;> simp [new,LeaseMachine.new,lease]

/-- When a drain is acknowledged, no operation begun under that lease and generation is still in
flight: in every run in which no operation completes against a counter that was reset under
it. -/
theorem drain_law {calls : List Call}
    (hcalls : AllSteps step (fun t c => t.attributed c ∧ t.timely c) new calls) {now : ℕ}
    {ack : DrainAck} (hd : ((run step new calls).machine.drain now).1 = .drainAck ack) :
    ∀ o ∈ (run step new calls).outstanding,
      ¬(o.leaseId=ack.leaseId ∧ o.generation=ack.generation) := by
  have h := AllSteps.invariant step (P := fun t => Fits t.machine.lease t.outstanding)
    (fun t c h hc => step_fits hc.1 hc.2 h) new_fits hcalls
  generalize run step new calls = t at h hd
  have hm := t.machine.drain_move now
  rw [hd] at hm
  rintro o ho ⟨hid,hgen⟩
  generalize (t.machine.drain now).2.lease = l' at hm
  cases hm with
  | quiet hs => cases hs
  | drained hactive hrevoke hstate hflight =>
    have hstale : o.fresh=false := by
      have hz := h.count.trans hflight
      simpa using List.countP_eq_zero.mp hz o ho
    have := h.active_newer o ho hstale _ hactive hid.symm
    exact absurd hgen this.ne

/-- One lease with one operation, which completes before the drain. -/
def drainedRun : List Call :=
  [.op (.observe sampleObservation 110),.op (.receiveGrant (sampleGrant 3 1 4) 120),
    .op (.acceptGrantAck ⟨1,sampleId 3,1,sampleId 4⟩),.op .beginIo,.op (.receiveRevoke
      (sampleRevoke 3 1 5)),.complete 0,.op (.scrubGuestData .succeeded)]

theorem drain_law_drainedRun :
    ((run step new drainedRun).machine.drain 130).1 =
      .drainAck ⟨sampleId 3,1,sampleId 5,0,0,true⟩ ∧
    ∀ o ∈ (run step new drainedRun).outstanding, ¬(o.leaseId = sampleId 3 ∧ o.generation=1) := by
  have hd : ((run step new drainedRun).machine.drain 130).1 =
      .drainAck ⟨sampleId 3,1,sampleId 5,0,0,true⟩ := by decide +kernel
  have hcalls : AllSteps step (fun t c => t.attributed c ∧ t.timely c) new drainedRun := by
    decide +kernel
  exact ⟨hd,drain_law hcalls hd⟩

/-- The first lease fails with an operation in flight; it completes under the second lease and
takes the count of the operation begun there. -/
def lateCompletion : List Call :=
  [.op (.observe sampleObservation 110),.op (.receiveGrant (sampleGrant 3 1 4) 120),
    .op (.acceptGrantAck ⟨1,sampleId 3,1,sampleId 4⟩),.op .beginIo,.op (.failClosed .reset),
    .op (.scrubGuestData .succeeded),.op .completeCleanup,
    .op (.receiveGrant (sampleGrant 3 2 5) 120),
    .op (.acceptGrantAck ⟨1,sampleId 3,2,sampleId 5⟩),.op .beginIo,.complete 0,
    .op (.receiveRevoke (sampleRevoke 3 2 6)),.op (.scrubGuestData .succeeded)]

/-- The drain of the second lease is acknowledged while its only operation is in flight. -/
theorem drained_with_operation_in_flight :
    AllSteps step (fun t c => t.attributed c) new lateCompletion ∧
    ((run step new lateCompletion).machine.drain 130).1 =
      .drainAck ⟨sampleId 3,2,sampleId 6,0,0,true⟩ ∧
    (run step new lateCompletion).outstanding = [⟨sampleId 3,2,true⟩] := by
  decide +kernel

end Tracked
end RamShared.N3

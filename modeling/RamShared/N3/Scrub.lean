import RamShared.N3.InFlight

/-! Between the I/O of one lease and the acknowledgement of a later grant the guest data is
scrubbed, unless the flag that says so was set too early or the lease was forgotten. -/
namespace RamShared.N3
open Lib LeaseMachine

/-- The steps at which the flag keeps its meaning: no lease starts and no I/O begins while it is
up, it is raised only when nothing is in flight, and no record is restored over a lease. -/
def Lease.careful (l : Lease) : Op → Bool
  | .acceptGrantAck _ => decide (l.state.tag=.negotiating → l.scrub≠.succeeded)
  | .beginIo => decide (l.state.tag=.granted → l.scrub≠.succeeded)
  | .scrubGuestData .succeeded => decide (l.inFlight=0)
  | .restoreRestartBytes _ => l.active.isNone
  | .restoreRestartRecord _ => l.active.isNone
  | _ => true

def Tracked.careful (t : Tracked) : Call → Bool
  | .op op => t.machine.lease.careful op.plain
  | .complete _ => true

def Tracked.running (_ : Tracked) : Call → Bool
  | .op .restart => false
  | _ => true

/-- The counter is exact, and it is zero where cleanup may discard the lease. -/
structure Settled (l : Lease) (ops : List Operation) : Prop where
  coherent : Coherent l
  length_eq : ops.length=l.inFlight
  quiet : l.active=none ∨ l.scrub=.succeeded → l.inFlight=0

/-- The lease is held, and its data has not been scrubbed since it was last used. -/
def Owed (leaseId : LeaseId) (generation : ℕ) (l : Lease) : Prop :=
  (∃ active, l.active=some active ∧ active.leaseId=leaseId ∧
    active.generation=generation) ∧ l.scrub≠.succeeded

variable {l : Lease} {op : Op}

lemma careful_restores (h : l.careful op) (hop : op.restores) : l.active=none := by
  cases op <;> first | simpa [Lease.careful] using h | cases hop

lemma Lease.cleans_iff : l.cleans ↔ (l.active=none ∨ l.scrub=.succeeded) ∧ cleanable l.state := by
  simp [Lease.cleans]

theorem Move.settled {l' : Lease} {reply : Reply} {ops : List Operation} (hm : Move l op reply l')
    (h : Settled l ops) (hcareful : l.careful op) (hcount : ∀ count, op≠.setInFlight count)
    (hio : op≠.completeIo) (hr : op≠.restart) : Settled l' (outstandingAfter l ops op reply) := by
  have hc := hm.coherent h.coherent
  cases hm with
  | quiet hs =>
    rw [outstandingAfter_of_silent hs]
    exact h
  | failed hop hp =>
    rw [outstandingAfter_of_plain _ (.inl hop)]
    exact ⟨hc,h.length_eq,h.quiet⟩
  | lost hop =>
    rw [outstandingAfter_of_plain _ (.inr hop)]
    exact ⟨hc,h.length_eq,fun _ => h.quiet (.inl (careful_restores hcareful hop))⟩
  | restored hop =>
    rw [outstandingAfter_of_plain _ (.inr (restores_of_record hop))]
    exact ⟨hc,h.length_eq,h.quiet⟩
  | granted => exact ⟨hc,h.length_eq,h.quiet⟩
  | accepted hpending hstate =>
    refine ⟨hc,h.length_eq,fun hn => ?_⟩
    simp only [Lease.careful,hstate,LeaseState.tag,forall_true_left,decide_eq_true_eq]
      at hcareful
    simp [hcareful] at hn
  | revoking => exact ⟨hc,h.length_eq,fun hn => by simp at hn⟩
  | begun hstate =>
    obtain ⟨⟨active,hactive,-⟩,-⟩ := h.coherent.granted _ hstate
    simp only [Lease.careful,hstate,LeaseState.tag,forall_true_left,decide_eq_true_eq]
      at hcareful
    simp only [outstandingAfter,hactive] at hc ⊢
    exact ⟨hc,by simp [h.length_eq],fun hn => by simp [hcareful] at hn⟩
  | completed => exact absurd rfl hio
  | counted => exact absurd rfl (hcount _)
  | @scrubbed result hresult =>
    refine ⟨hc,h.length_eq,fun hn => ?_⟩
    rcases hn with hn | hn
    · exact h.quiet (.inl hn)
    · cases result with
      | succeeded => simpa [Lease.careful] using hcareful
      | pending => cases hn
      | failed => cases hn
  | scrubFailed =>
    refine ⟨hc,h.length_eq,fun hn => ?_⟩
    rcases hn with hn | hn
    · exact h.quiet (.inl hn)
    · cases hn
  | drained | revoked => exact ⟨hc,h.length_eq,h.quiet⟩
  | uncleaned hn =>
    simp only [outstandingAfter,hn]
    exact h
  | cleaned hcl =>
    simp only [outstandingAfter,hcl]
    refine ⟨hc,?_,fun _ => rfl⟩
    have hz := h.quiet (Lease.cleans_iff.mp hcl).1
    have hlen := h.length_eq
    simp only [if_true,List.length_map]
    omega
  | restarted => exact absurd rfl hr

variable {generation : ℕ}

/-- Only a scrub pays what is owed. -/
theorem Move.owed {l' : Lease} {reply : Reply} (hm : Move l op reply l') (hc : Coherent l)
    (hcareful : l.careful op) (hr : op≠.restart) {leaseId : LeaseId} (h : Owed leaseId generation l) :
    Owed leaseId generation l' ∨ op=.scrubGuestData .succeeded := by
  obtain ⟨⟨active,hactive,hid,hgen⟩,hscrub⟩ := id h
  cases hm with
  | quiet | uncleaned | failed | begun | completed | counted | drained | revoked => exact .inl h
  | lost hop =>
    rw [careful_restores hcareful hop] at hactive
    cases hactive
  | restored hop =>
    rw [careful_restores hcareful (restores_of_record hop)] at hactive
    cases hactive
  | granted hstate =>
    rw [(hc.absent hstate).2] at hactive
    cases hactive
  | accepted hpending hstate =>
    rw [(hc.negotiating _ hstate).2] at hactive
    cases hactive
  | revoking hactive' =>
    rw [hactive] at hactive'
    cases hactive'
    exact .inl ⟨⟨_,rfl,hid,hgen⟩,by simp⟩
  | @scrubbed result hresult =>
    cases result with
    | succeeded => exact .inr rfl
    | pending => exact .inl ⟨⟨active,hactive,hid,hgen⟩,by simp [ScrubResult.toState]⟩
    | failed => exact absurd rfl hresult
  | scrubFailed => exact .inl ⟨⟨active,hactive,hid,hgen⟩,by simp⟩
  | cleaned hcl =>
    rcases (Lease.cleans_iff.mp hcl).1 with hn | hn
    · rw [hn] at hactive
      cases hactive
    · exact absurd hn hscrub
  | restarted => exact absurd rfl hr

namespace Tracked

variable {t : Tracked} {c : Call}

lemma plain_of_running {op : Op} (h : t.running (.op op)) : op.plain≠.restart := by
  intro he
  obtain rfl := Op.eq_of_plain he rfl
  cases h

lemma step_settled (ha : t.attributed c) (hr : t.running c) (hcareful : t.careful c)
    (h : Settled t.machine.lease t.outstanding) : Settled (t.step c).machine.lease (t.step c).outstanding := by
  cases c with
  | op op =>
    obtain ⟨hcount,hio⟩ := plain_of_attributed ha
    exact (t.machine.perform_move op).settled h hcareful hcount hio (plain_of_running hr)
  | complete i =>
    simp only [attributed,Bool.or_eq_true,decide_eq_true_eq,List.isEmpty_iff] at ha
    show Settled (t.machine.step .completeIo).lease (t.outstanding.eraseIdx i)
    rw [completeIo_lease]
    refine ⟨h.coherent.congr rfl rfl rfl rfl,?_,fun hn => ?_⟩
    · have hlen := h.length_eq
      rcases ha with hi | hnil
      · rw [List.length_eraseIdx_of_lt hi,hlen]
      · simp [hnil,←hlen]
    · have := h.quiet hn
      dsimp only
      omega

lemma step_owed (hr : t.running c) (hcareful : t.careful c) (hc : Coherent t.machine.lease)
    {leaseId : LeaseId} (h : Owed leaseId generation t.machine.lease) :
    Owed leaseId generation (t.step c).machine.lease ∨ c=.op (.scrubGuestData .succeeded) := by
  cases c with
  | op op =>
    refine ((t.machine.perform_move op).owed hc hcareful (plain_of_running hr) h).imp_right ?_
    intro he
    rw [Op.eq_of_plain he rfl]
  | complete i =>
    left
    show Owed leaseId generation (t.machine.step .completeIo).lease
    rw [completeIo_lease]
    exact h

lemma settled_new : Settled new.machine.lease new.outstanding :=
  ⟨run_coherent [],rfl,fun _ => rfl⟩

lemma owed_of_accepted {op : Op} {ack : GrantAck} (hplain : op.plain=.acceptGrantAck ack)
    (hreply : t.reply (.op op)=.protocol (.accepted (.granted generation))) (hcareful : t.careful (.op op)) :
    Owed ack.leaseId generation (t.step (.op op)).machine.lease := by
  have hm := t.machine.perform_move op
  simp only [careful,hplain] at hcareful
  change t.machine.lease.careful _ = true at hcareful
  rw [hplain] at hm
  change (t.machine.perform op).1 = _ at hreply
  rw [hreply] at hm
  show Owed _ _ (t.machine.step op).lease
  generalize (t.machine.step op).lease = l' at hm
  generalize t.machine.lease = l at hm hcareful
  cases hm with
  | quiet hs => cases hs
  | accepted hpending hstate hid hgen =>
    simp only [Lease.careful,hstate,LeaseState.tag,forall_true_left,decide_eq_true_eq]
      at hcareful
    exact ⟨⟨_,rfl,hid.symm,rfl⟩,hcareful⟩

lemma owed_of_begun (hreply : t.reply (.op .beginIo)=.result (.ok ()))
    (hcareful : t.careful (.op .beginIo)) {active : ActiveLease} (hactive : t.machine.activeLease=some active) :
    Owed active.leaseId active.generation (t.step (.op .beginIo)).machine.lease := by
  have hm := t.machine.perform_move .beginIo
  change (t.machine.perform .beginIo).1 = _ at hreply
  change t.machine.lease.careful .beginIo = true at hcareful
  change t.machine.lease.active=some active at hactive
  rw [hreply] at hm
  show Owed _ _ (t.machine.step .beginIo).lease
  generalize (t.machine.step .beginIo).lease = l' at hm
  generalize t.machine.lease = l at hm hcareful hactive
  cases hm with
  | quiet hs => cases hs
  | restored hop => cases hop
  | begun hstate =>
    simp only [Lease.careful,hstate,LeaseState.tag,forall_true_left,decide_eq_true_eq]
      at hcareful
    exact ⟨⟨active,hactive,rfl,rfl⟩,hcareful⟩

lemma not_owed_of_grantAck {ack : GrantAck} (hreply : t.reply c=.protocol (.grantAck ack))
    (hc : Coherent t.machine.lease) (leaseId : LeaseId) (generation : ℕ) :
    ¬Owed leaseId generation t.machine.lease := by
  rintro ⟨⟨active,hactive,-⟩,-⟩
  have hstate : t.machine.lease.state=.absent := by
    cases c with
    | op op =>
      have hm := t.machine.perform_move op
      change (t.machine.perform op).1 = _ at hreply
      rw [hreply] at hm
      generalize op.plain=op', (t.machine.step op).lease = l' at hm
      cases hm with
      | quiet hs => cases op' <;> cases hs
      | granted hstate => exact hstate
    | complete i =>
      simp only [reply,perform,Prod.map] at hreply
      cases hreply
  rw [(hc.absent hstate).2] at hactive
  cases hactive

/-- Between the last I/O of a lease, or its start, and the acknowledgement of a later grant there
is a successful scrub with no operation of that lease in flight: in every run without a restart
whose calls all respect the flag. -/
theorem scrub_law {calls : List Call}
    (hcalls : AllSteps step (fun t c => t.attributed c ∧ t.running c ∧ t.careful c) new calls)
    {i n : ℕ} (hin : i<n) {op : Op} {ack : GrantAck} {generation : ℕ}
    (hi : calls[i]? = some (.op op)) (hplain : op.plain = .acceptGrantAck ack)
    (hgranted : (stateAt step new calls i).reply (.op op) =
      .protocol (.accepted (.granted generation)))
    {c : Call} {ack' : GrantAck}
    (hack : (stateAt step new calls n).reply c = .protocol (.grantAck ack')) :
    ∃ k, i < k ∧ k<n ∧ calls[k]? = some (.op (.scrubGuestData .succeeded)) ∧
      (∀ o ∈ (stateAt step new calls k).outstanding,
        ¬(o.leaseId=ack.leaseId ∧ o.generation=generation)) ∧
      ∀ j, i < j → j<n → calls[j]? = some (.op .beginIo) →
        (stateAt step new calls j).reply (.op .beginIo) = .result (.ok ()) →
        (∃ active, (stateAt step new calls j).machine.activeLease = some active ∧
          active.leaseId = ack.leaseId ∧ active.generation=generation) → j<k := by
  have hsettled (k : ℕ) : Settled (stateAt step new calls k).machine.lease
      (stateAt step new calls k).outstanding :=
    AllSteps.invariant step (P := fun t => Settled t.machine.lease t.outstanding)
      (fun t c h hc => step_settled hc.1 hc.2.1 hc.2.2 h) settled_new (hcalls.take step k)
  have hstart : Owed ack.leaseId generation (stateAt step new calls (i+1)).machine.lease := by
    rw [stateAt_succ step new calls hi]
    exact owed_of_accepted hplain hgranted (hcalls.get step hi).2.2
  have hend := not_owed_of_grantAck hack (hsettled n).coherent ack.leaseId generation
  obtain ⟨k,ck,hik,hkn,hck,hk,hnext,hlast⟩ := exists_last_step step
    (P := fun t => Owed ack.leaseId generation t.machine.lease) (show i+1 ≤ n from hin) hstart hend
  obtain ⟨-,hr,hcareful⟩ := hcalls.get step hck
  refine ⟨k,hik,hkn,?_⟩
  rcases step_owed hr hcareful (hsettled k).coherent hk with ho | rfl
  · rw [← hnext] at ho
    exact absurd ho (hlast (k+1) (Nat.lt_succ_self k) hkn)
  · have hz : (stateAt step new calls k).machine.lease.inFlight = 0 := by
      simpa [careful,Lease.careful,Op.plain] using hcareful
    have hnil : (stateAt step new calls k).outstanding = [] :=
      List.eq_nil_of_length_eq_zero ((hsettled k).length_eq.trans hz)
    refine ⟨hck,by simp [hnil],fun j hij hjn hj hbegun hactive => ?_⟩
    obtain ⟨active,hactive,hid,hgen⟩ := hactive
    by_contra hle
    refine hlast (j+1) (by omega) hjn ?_
    rw [stateAt_succ step new calls hj,← hid,← hgen]
    exact owed_of_begun hbegun (hcalls.get step hj).2.2 hactive

/-- A failed lease is scrubbed after its operation has completed, and the next one granted. -/
def scrubbedRun : List Call :=
  [.op (.observe sampleObservation 110),.op (.receiveGrant (sampleGrant 3 1 4) 120),
    .op (.acceptGrantAck ⟨1,sampleId 3,1,sampleId 4⟩),.op .beginIo,.op (.failClosed .reset),
    .complete 0,.op (.scrubGuestData .succeeded),.op .completeCleanup]

theorem scrub_law_scrubbedRun :
    ∃ k, 2 < k ∧ k<8 ∧ scrubbedRun[k]? = some (.op (.scrubGuestData .succeeded)) := by
  have hcalls : AllSteps step (fun t c => t.attributed c ∧ t.running c ∧ t.careful c) new
      scrubbedRun := by decide +kernel
  have hgranted : (stateAt step new scrubbedRun 2).reply
      (.op (.acceptGrantAck ⟨1,sampleId 3,1,sampleId 4⟩)) =
        .protocol (.accepted (.granted 1)) := by rfl
  have hack : (stateAt step new scrubbedRun 8).reply
      (.op (.receiveGrant (sampleGrant 3 2 5) 120)) =
        .protocol (.grantAck ⟨1,sampleId 3,2,sampleId 5⟩) := by rfl
  obtain ⟨k,h₁,h₂,h₃,-⟩ := scrub_law hcalls (show 2 < 8 by decide) rfl rfl hgranted hack
  exact ⟨k,h₁,h₂,h₃⟩

/-- A restore in the wrong place forgets the lease and the operation begun under it. -/
def forgottenLease : List Call :=
  [.op (.observe sampleObservation 110),.op (.receiveGrant (sampleGrant 3 1 4) 120),
    .op (.acceptGrantAck ⟨1,sampleId 3,1,sampleId 4⟩),.op .beginIo,
    .op (.restoreRestartBytes []),.op .completeCleanup]

/-- The next grant is acknowledged without any scrub. -/
theorem granted_without_scrub :
    AllSteps step (fun t c => t.attributed c ∧ t.running c) new forgottenLease ∧
    (stateAt step new forgottenLease 2).reply
      (.op (.acceptGrantAck ⟨1,sampleId 3,1,sampleId 4⟩)) = .protocol (.accepted (.granted 1)) ∧
    (stateAt step new forgottenLease 3).reply (.op .beginIo) = .result (.ok ()) ∧
    (stateAt step new forgottenLease 6).reply (.op (.receiveGrant (sampleGrant 3 2 5) 120)) =
      .protocol (.grantAck ⟨1,sampleId 3,2,sampleId 5⟩) ∧
    ∀ c ∈ forgottenLease, c ≠ .op (.scrubGuestData .succeeded) :=
  ⟨by decide +kernel,by rfl,by rfl,by rfl,by simp [forgottenLease]⟩

end Tracked
end RamShared.N3

import RamShared.N3.Duplicates

/-! The authority behind a grant. A machine acknowledges a grant only while the last host
observation that it did not already know was accepted, and only if that observation covers the
grant. -/
namespace RamShared.N3
open Lib

def PreflightAction.accepts : PreflightAction → Bool
  | .observed => true
  | .constrained => true
  | _ => false

variable (p : PreflightModel) (observation : HostObservation)

namespace PreflightModel

def Authorised : Prop :=
  p.state=.observing ∨ p.state=.constrained ∨ p.state=.demotionRequested

/-- The observation is of a later epoch than the last one, and of the same adapter. -/
def Newer : Prop :=
  ∀ previous, p.lastObservation=some previous →
    previous.hostEpoch<observation.hostEpoch ∧ observation.adapterId=previous.adapterId

inductive Observed (p : PreflightModel) (observation : HostObservation) :
    PreflightAction → PreflightModel → Prop
  | idempotent {p' : PreflightModel} (h : p'=p) : Observed p observation .idempotent p'
  | accepted {action : PreflightAction} {p' : PreflightModel} (ha : action.accepts=true)
      (hl : p'.lastObservation=some observation) (hn : p.Newer observation) :
      Observed p observation action p'
  | rejected {action : PreflightAction} {p' : PreflightModel} (ha : action.accepts=false)
      (hs : ¬p'.Authorised) (hl : p'.lastObservation=p.lastObservation ∨
        p'.lastObservation=some observation ∧ p.Newer observation) :
      Observed p observation action p'

lemma refuse_observed (reason : FailureReason) :
    Observed p observation (p.refuse reason).1.action (p.refuse reason).2 :=
  .rejected rfl (by simp [refuse,Authorised]) (.inl rfl)

lemma accept_observed {p : PreflightModel} {observation : HostObservation} (hn : p.Newer observation) :
    Observed p observation (p.accept observation).1.action (p.accept observation).2 := by
  cases ho : observation.hasOfflineSignal with
  | true =>
    simp only [accept,ho,if_true]
    exact .rejected rfl (by simp [Authorised]) (.inr ⟨rfl,hn⟩)
  | false =>
    simp only [accept,ho,Bool.false_eq_true,if_false]
    refine .accepted ?_ rfl hn
    simp only [PreflightDecision.observed]
    split_ifs <;> rfl

lemma observeNew_observed {p : PreflightModel} {observation : HostObservation} (now : ℕ)
    (hn : p.Newer observation) : Observed p observation (p.observeNew observation now).1.action
      (p.observeNew observation now).2 := by
  unfold observeNew
  split
  · exact accept_observed hn
  · exact .rejected rfl (by simp [Authorised]) (.inl rfl)
  · exact .rejected rfl (by simp [Authorised]) (.inl rfl)
  · exact p.refuse_observed observation _

lemma observe_observed (now : ℕ) :
    Observed p observation (p.observe observation now).1.action (p.observe observation now).2 := by
  cases hl : p.lastObservation with
  | none =>
    simp only [observe,hl,Option.bind_none]
    exact observeNew_observed now fun previous h => by rw [hl] at h; cases h
  | some previous =>
    simp only [observe,hl,Option.bind_some,replayDecision]
    split_ifs with h₁ h₂ h₃ h₄ h₅
    · exact p.refuse_observed observation _
    · exact p.refuse_observed observation _
    · exact .idempotent rfl
    · exact p.refuse_observed observation _
    · exact p.refuse_observed observation _
    · refine observeNew_observed now fun previous' h => ?_
      rw [hl] at h
      cases h
      exact ⟨by omega,not_not.mp h₅⟩

end PreflightModel

variable (m : LeaseMachine)

namespace LeaseMachine
open PreflightModel

def heard : Op → List (HostObservation × PreflightAction)
  | .observe observation now => [(observation,(m.observe observation now).1.action)]
  | _ => []

def observations (ops : List Op) : List (HostObservation × PreflightAction) :=
  outputs step heard m ops

def accepted (ops : List Op) : List HostObservation :=
  ((m.observations ops).filter fun x => x.2.accepts).map Prod.fst

inductive Vetted (m m' : LeaseMachine) : Op → Prop
  | observed {observation : HostObservation} {now : ℕ}
      (h : Observed m.preflight observation (m.observe observation now).1.action m'.preflight) :
      Vetted m m' (.observe observation now)
  | kept {op : Op} (hh : m.heard op=[])
      (hl : m'.preflight.lastObservation=m.preflight.lastObservation)
      (hs : m'.preflight.Authorised → m.preflight.Authorised) : Vetted m m' op
  | restarted (h : m'.preflight=.new) : Vetted m m' .restart

variable {ops : List Op} (m : LeaseMachine)

lemma step_vetted (op : Op) : Vetted m (m.step op) op := by
  have hkeeps (hp : op.ofPreflight=false) (hr : op≠.restart) (hh : m.heard op=[]) :
      Vetted m (m.step op) op := by
    have hk := (m.step_keeps hp hr).preflight
    exact .kept hh (by rw [hk]) (by rw [hk]; exact id)
  cases op with
  | observe observation now => exact .observed (m.preflight.observe_observed observation now)
  | requestDemotion =>
    refine .kept rfl ?_ ?_ <;> simp only [step,perform,requestDemotion,
      PreflightModel.requestDemotion,Prod.map,id]
    · split_ifs <;> rfl
    · split_ifs with h
      · exact id
      · exact fun _ => .inr (.inl (not_not.mp h))
  | refuseGuestClaim claim => exact .kept rfl rfl fun h => by simp [step,perform,Authorised,
      refuseGuestClaim,PreflightModel.refuseGuestClaim,refuse] at h
  | refuseProductTransport transport => exact .kept rfl rfl fun h => by simp [step,perform,
      Authorised,refuseProductTransport,refuseProductScope,refuse] at h
  | restart => exact .restarted rfl
  | _ => exact hkeeps rfl (by simp) rfl

lemma observations_append (ops ops' : List Op) :
    m.observations (ops++ops') = m.observations ops++(run step m ops).observations ops' :=
  outputs_append step heard m ops ops'

lemma observations_cons (op : Op) (ops : List Op) :
    m.observations (op::ops) = m.heard op++(m.step op).observations ops := rfl

/-- The observation was accepted, and everything observed since then was a repetition of it. -/
def VouchedBy (ops : List Op) (observation : HostObservation) : Prop :=
  ∃ before time after, ops = before++.observe observation time::after ∧
    ((run step new before).observe observation time).1.action.accepts=true ∧
    .restart∉after ∧
    ∀ x∈(run step new (before++[.observe observation time])).observations after,
      x.2=.idempotent

lemma VouchedBy.concat {observation : HostObservation} (h : VouchedBy ops observation) {op : Op}
    (hop : op≠.restart) (hh : ∀ x∈(run step new ops).heard op, x.2=.idempotent) :
    VouchedBy (ops++[op]) observation := by
  obtain ⟨before,t,after,rfl,ha,hr,hidem⟩ := h
  refine ⟨before,t,after++[op],by simp,ha,by simp [hr,Ne.symm hop],?_⟩
  intro x hx
  rw [observations_append,List.mem_append] at hx
  obtain hx | hx := hx
  · exact hidem x hx
  · rw [observations_cons,←run_append,List.append_assoc,List.singleton_append] at hx
    exact hh x (by simpa [observations,outputs] using hx)

lemma vouchedBy_accepted {observation : HostObservation} {time : ℕ}
    (h : ((run step new ops).observe observation time).1.action.accepts=true) :
    VouchedBy (ops++[.observe observation time]) observation :=
  ⟨ops,time,[],rfl,h,by simp,by simp [observations,outputs]⟩

lemma authorised_run (h : (run step new ops).preflight.Authorised) : ∃ observation, VouchedBy ops observation ∧
      (run step new ops).preflight.lastObservation=some observation := by
  induction ops using List.reverseRecOn with
  | nil => simp [new,PreflightModel.new,Authorised] at h
  | append_singleton ops op ih =>
    rw [run_append,run_cons,run_nil] at h ⊢
    have hv := (run step new ops).step_vetted op
    generalize hm : (run step new ops).step op = m' at h hv ⊢
    cases hv with
    | @observed o t hobs =>
      generalize hact : ((run step new ops).observe o t).1.action = action at hobs
      cases hobs with
      | idempotent hp =>
        obtain ⟨o',hvouched,hlast⟩ := ih (hp ▸ h)
        refine ⟨o',hvouched.concat (by simp) ?_,by rw [hp,hlast]⟩
        simp [heard,hact]
      | accepted ha hl hn => exact ⟨o,vouchedBy_accepted (by rw [hact,ha]),hl⟩
      | rejected ha hs hl => exact absurd h hs
    | kept hh hl hs =>
      by_cases hop : op=.restart
      · subst hop
        rw [←hm] at h
        simp [step,perform,restart,PreflightModel.new,Authorised] at h
      · obtain ⟨o',hvouched,hlast⟩ := ih (hs h)
        exact ⟨o',hvouched.concat hop (by simp [hh]),hl.trans hlast⟩
    | restarted hnew =>
      rw [hnew] at h
      simp [PreflightModel.new,Authorised] at h

lemma receiveGrant_authority {m : LeaseMachine} {grant : Grant} {now : ℕ} {ack : GrantAck}
    (h : (m.receiveGrant grant now).1=.grantAck ack) :
    m.preflight.Authorised ∧ ∃ observation, m.preflight.lastObservation=some observation ∧
      observation.validate now=.ok () ∧ observation.hostEpoch=grant.hostEpoch ∧
      grant.capacityBytes≤observation.budgetBytes := by
  have hk := (m.registerEvent_keeps (.grant grant)).preflight
  unfold receiveGrant at h
  generalize m.registerEvent (.grant grant) = x at hk h
  obtain ⟨registration,m'⟩ := x
  dsimp only at hk
  rw [←hk]
  cases registration with
  | duplicate => cases h
  | conflict => cases h
  | overflow => cases h
  | new =>
    dsimp only at h
    cases hc : m'.checkGrant grant now with
    | error reason =>
      rw [hc] at h
      cases h
    | ok _ =>
      unfold checkGrant at hc
      split_ifs at hc
      unfold checkAuthority at hc
      cases hl : m'.preflight.lastObservation with
      | none =>
        rw [hl] at hc
        cases hc
      | some observation =>
        rw [hl] at hc
        dsimp only at hc
        split_ifs at hc with hauth
        push Not at hauth
        obtain ⟨hval,hepoch,hbudget,hstate⟩ := hauth
        exact ⟨hstate,observation,rfl,hval,hepoch,hbudget⟩

lemma accepted_chain (hr : .restart∉ops) :
    (m.accepted ops).Pairwise (fun a b => a.hostEpoch<b.hostEpoch ∧ b.adapterId=a.adapterId) ∧
      ∀ o∈m.accepted ops, m.preflight.Newer o := by
  induction ops generalizing m with
  | nil => simp [accepted,observations,outputs]
  | cons op ops ih =>
    rw [List.mem_cons,not_or] at hr
    obtain ⟨hchain,hnew⟩ := ih (m.step op) hr.2
    have hcons : m.accepted (op::ops) =
        ((m.heard op).filter fun x => x.2.accepts).map Prod.fst++(m.step op).accepted ops := by
      simp [accepted,observations_cons]
    have hv := m.step_vetted op
    generalize m.step op = m' at hv hchain hnew hcons
    rw [hcons]
    cases hv with
    | @observed o t hobs =>
      generalize hact : (m.observe o t).1.action = action at hobs
      cases hobs with
      | idempotent hp =>
        rw [hp] at hnew
        simpa [heard,hact,PreflightAction.accepts] using ⟨hchain,hnew⟩
      | accepted ha hl hn =>
        have hlater (x : HostObservation) (hx : x∈m'.accepted ops) :
            o.hostEpoch<x.hostEpoch ∧ x.adapterId=o.adapterId := hnew x hx o hl
        simp only [heard,hact,ha,List.filter_cons_of_pos,List.filter_nil,List.map_cons,
          List.map_nil,List.singleton_append,List.pairwise_cons,List.mem_cons]
        refine ⟨⟨hlater,hchain⟩,?_⟩
        rintro x (rfl | hx) p hp
        · exact hn p hp
        · exact ⟨(hn p hp).1.trans (hlater x hx).1,(hlater x hx).2.trans (hn p hp).2⟩
      | rejected ha hs hl =>
        have hempty : ((m.heard (.observe o t)).filter fun x => x.2.accepts)=[] := by
          simp [heard,hact,ha]
        rw [hempty]
        refine ⟨hchain,fun x hx p hp => ?_⟩
        rcases hl with hl | ⟨hl,hn⟩
        · exact hnew x hx p (hl.trans hp)
        · have hx' := hnew x hx o hl
          exact ⟨(hn p hp).1.trans hx'.1,hx'.2.trans (hn p hp).2⟩
    | kept hh hl hs =>
      rw [hh]
      exact ⟨hchain,fun x hx p hp => hnew x hx p (hl.trans hp)⟩
    | restarted hnew => exact absurd rfl hr.1

/-- A grant is acknowledged only under current host authority: the observation accepted last has
the epoch and the budget for it and is valid at that time, and nothing reported since then was
refused or made the host unavailable. Between restarts the accepted observations have growing
epochs and one adapter. The preflight never touches the state of the lease. -/
theorem grant_under_authority (ops : List Op) :
    (∀ grant now ack, ((run step new ops).receiveGrant grant now).1 = .grantAck ack →
      ∃ before observation time after, ops = before++.observe observation time::after ∧
        ((run step new before).observe observation time).1.action.accepts = true ∧
        .restart ∉ after ∧
        (∀ x ∈ (run step new (before++[.observe observation time])).observations after,
          x.2 = .idempotent) ∧
        observation.validate now = .ok () ∧ observation.hostEpoch=grant.hostEpoch ∧
        grant.capacityBytes ≤ observation.budgetBytes) ∧
    (∀ ops', .restart ∉ ops' → ((run step new ops).accepted ops').Pairwise
      fun a b => a.hostEpoch<b.hostEpoch ∧ b.adapterId=a.adapterId) ∧
    (∀ op, op.ofPreflight = true →
      ((run step new ops).step op).leaseState = (run step new ops).leaseState) := by
  refine ⟨fun grant now ack h => ?_,fun ops' hr => (accepted_chain _ hr).1,fun op hop => ?_⟩
  · obtain ⟨hauth,o,hl,hval,hepoch,hbudget⟩ := receiveGrant_authority h
    obtain ⟨o',⟨before,t,after,hops,ha,hr,hidem⟩,hl'⟩ := authorised_run hauth
    rw [hl'] at hl
    cases hl
    exact ⟨before,o,t,after,hops,ha,hr,hidem,hval,hepoch,hbudget⟩
  · obtain ⟨preflight,h⟩ := (run step new ops).step_ofPreflight hop
    rw [h]

/-- An observation is accepted, an older one is refused, and the next one is accepted and
repeated. -/
def reobserved : List Op :=
  [.observe {sampleObservation with hostEpoch := 5, eventId := sampleId 8} 105,
    .observe {sampleObservation with hostEpoch := 4, eventId := sampleId 9} 106,
    .observe sampleObservation 110,.observe sampleObservation 111]

theorem grant_under_authority_reobserved :
    ((run step new reobserved).receiveGrant (sampleGrant 3 1 4) 120).1 =
      .grantAck ⟨1,sampleId 3,1,sampleId 4⟩ ∧
    ((run step new []).accepted reobserved).map (·.hostEpoch) = [5,7] ∧
    (∃ before observation time after, reobserved = before++.observe observation time::after ∧
      .restart ∉ after ∧ observation.validate 120 = .ok () ∧ observation.hostEpoch=7) ∧
    (((run step new []).accepted reobserved).Pairwise
      fun a b => a.hostEpoch<b.hostEpoch ∧ b.adapterId=a.adapterId) ∧
    ((run step new reobserved).step .requestDemotion).leaseState = .absent := by
  have h : ((run step new reobserved).receiveGrant (sampleGrant 3 1 4) 120).1 =
      .grantAck ⟨1,sampleId 3,1,sampleId 4⟩ := by decide +kernel
  obtain ⟨before,o,t,after,hops,-,hr,-,hval,hepoch,-⟩ :=
    (grant_under_authority reobserved).1 (sampleGrant 3 1 4) 120 _ h
  exact ⟨h,by decide +kernel,⟨before,o,t,after,hops,hr,hval,hepoch⟩,
    (grant_under_authority []).2.1 reobserved (by simp [reobserved]),
    ((grant_under_authority reobserved).2.2 .requestDemotion rfl).trans (by decide +kernel)⟩

end LeaseMachine
end RamShared.N3

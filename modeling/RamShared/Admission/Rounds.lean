import RamShared.Admission.Parties

/-! The rounds of a supervisor. The count of healthy samples that it publishes is backed by the samples
that it has taken. -/
namespace RamShared
namespace Pressure
open Lib Workload

namespace Supervisor
variable {s s' : Supervisor}

lemma recoverActionState_healthySamples {frozen : Option (FrozenPhase × VictimIdentity)}
    {emergency : Option EmergencyTargetRecord} {nowUnixMs elapsedMs : ℕ}
    (h : s.recoverActionState frozen emergency nowUnixMs elapsedMs=.ok s') :
    s'.healthySamples=s.healthySamples := by
  unfold Supervisor.recoverActionState at h
  cases emergency with
  | none =>
    obtain rfl := Except.ok.inj h
    split <;> rfl
  | some record =>
    cases hphase : record.phase with
    | pendingTerm | killed =>
      simp only [hphase] at h
      obtain rfl := Except.ok.inj h
      split <;> rfl
    | termed =>
      simp only [hphase] at h
      cases ht : record.termSucceededAtUnixMs with
      | none =>
        rw [ht] at h
        cases h
      | some termTime =>
        simp only [ht,ite_throw_ok] at h
        obtain rfl := Except.ok.inj h.2
        split <;> rfl

lemma commitActionResults_healthySamples (results : List (SupervisorAction × Except String Unit))
    (elapsedMs : ℕ) : (s.commitActionResults results elapsedMs).healthySamples=s.healthySamples := by
  unfold Supervisor.commitActionResults
  induction results generalizing s with
  | nil => rfl
  | cons result results ih =>
    rw [List.foldl_cons,ih]
    split_ifs
    · cases result.1 <;> rfl
    · rfl

lemma observe_healthySamples (sample : PressureSample) :
    (s.observe sample).2.healthySamples = (s.observe sample).1.healthySamples ∧
      (s.observe sample).1.healthySamples ≤ streak s.healthySamples (Supervisor.fullyHealthy sample) := by
  refine ⟨rfl,?_⟩
  have hsettle (requested : SupervisorState) : ((s.count sample).settle sample requested).healthySamples ≤
      streak s.healthySamples (Supervisor.fullyHealthy sample) := by
    have hcount : (s.count sample).healthySamples=s.healthySamples := rfl
    unfold Supervisor.settle
    rw [hcount]
    generalize streak s.healthySamples (Supervisor.fullyHealthy sample)=k
    split_ifs
    · exact le_rfl
    · exact Nat.zero_le _
  generalize streak s.healthySamples (Supervisor.fullyHealthy sample) = k at hsettle ⊢
  simp only [Supervisor.observe]
  split_ifs
  · exact hsettle ((s.count sample).requested sample)
  · exact hsettle ((s.count sample).requested sample)

end Supervisor

end Pressure

variable (samples : List PressureSample)

namespace Admission
open Lib Workload Pressure

/-- A sample with room to spare, free of stalls and on time. -/
def FullyHealthy (x : PressureSample) : Prop :=
  x.controlReserveBytes+gibBytes≤x.memoryAvailableBytes ∧ (∃ psi∈x.psiFullAvg10, psi<1) ∧
    x.sampleDelayMs<3000

def Streak (k : ℕ) : Prop :=
  ∃ earlier recent, samples = earlier++recent ∧ recent.length=k ∧ ∀ x∈recent, FullyHealthy x

lemma Streak.zero : Streak samples 0 :=
  ⟨samples,[],(List.append_nil _).symm,rfl,List.forall_mem_nil _⟩

lemma Streak.mono {samples : List PressureSample} {k m : ℕ} (h : Streak samples k) (hm : m≤k) :
    Streak samples m := by
  obtain ⟨earlier,recent,rfl,rfl,hall⟩ := h
  refine ⟨earlier++recent.take (recent.length-m),recent.drop (recent.length-m),?_,?_,?_⟩
  · rw [List.append_assoc,List.take_append_drop]
  · rw [List.length_drop]
    omega
  · exact fun x hx => hall x (List.mem_of_mem_drop hx)

lemma Streak.concat {samples : List PressureSample} {k : ℕ} (h : Streak samples k) {x : PressureSample}
    (hx : Supervisor.fullyHealthy x=true → FullyHealthy x) :
    Streak (samples++[x]) (streak k (Supervisor.fullyHealthy x)) := by
  unfold Pressure.streak
  split_ifs with hfull
  · obtain ⟨earlier,recent,rfl,rfl,hall⟩ := h
    have hnext : Streak (earlier++recent++[x]) (recent.length+1) := by
      refine ⟨earlier,recent++[x],List.append_assoc _ _ _,by simp,fun y hy => ?_⟩
      obtain hy | hy := List.mem_append.mp hy
      · exact hall y hy
      · rw [List.mem_singleton.mp hy]
        exact hx hfull
    exact hnext.mono (Nat.min_le_left _ _)
  · exact Streak.zero _

lemma fullyHealthy_collectSample (total available : UInt64) (psi : Option ℚ) (delayMs elapsedMs : ℕ)
    (h : Supervisor.fullyHealthy (collectSample total available psi delayMs elapsedMs)=true) :
    FullyHealthy (collectSample total available psi delayMs elapsedMs) := by
  unfold Supervisor.fullyHealthy at h
  simp only [Bool.and_eq_true,decide_eq_true_eq] at h
  obtain ⟨⟨hmem,hpsi⟩,hdelay⟩ := h
  refine ⟨?_,?_,hdelay⟩
  · have ht := total.toNat_lt
    have hceil : divCeil total.toNat 4≤total.toNat/4+1 := by
      unfold divCeil
      split_ifs <;> omega
    simp only [collectSample,saturatingAdd,gibBytes] at hmem ⊢
    omega
  · simpa [PressureSample.psiBelow,Option.any_eq_true] using hpsi

def Backed : Effect → Prop
  | .publishState decision _ _ _ => Streak samples decision.healthySamples
  | _ => True

abbrev Backs {α : Type} (samples : List PressureSample) (p : Action α)
    (tr : Prog.Trace Effect fun e => Except String e.Result) (Q : Except String α → Prop) : Prop :=
  Prog.Follows (fun _ e => Backed samples e) p tr fun r _ => Q r

section Rounds
variable {samples : List PressureSample} {tr : Prog.Trace Effect fun e => Except String e.Result}

def Silent {α : Type} (p : Action α) : Prop := ∀ samples tr, Backs samples p tr fun _ => True

variable {α : Type} (victim : VictimIdentity) (paths : ActionPaths)

lemma silent_ok (a : α) : Silent (.ok a) := fun _ _ => .ok trivial

lemma silent_fail (err : String) : Silent (.fail err : Action α) := fun _ _ => .fail trivial

lemma silent_ofExcept (x : Except String α) : Silent (Prog.ofExcept x) := by
  cases x with
  | ok a => exact silent_ok a
  | error err => exact silent_fail err

lemma silent_ask (e : Effect) (he : ∀ samples, Backed samples e) : Silent (Pressure.ask e) :=
  fun samples _ => .call (he samples) fun r => silent_ofExcept r samples _

lemma Silent.bind {β : Type} {p : Action α} {f : α → Action β} (hp : Silent p)
    (hf : ∀ a, Silent (f a)) : Silent (p >>= f) :=
  fun samples tr => (hp samples tr).bind (fun a tr _ => hf a samples tr) fun _ _ _ => trivial

lemma Silent.attempt {p : Action α} (hp : Silent p) : Silent (p.attempt : Action (Except String α)) :=
  fun samples tr => (hp samples tr).attempt.mono fun _ _ _ _ => trivial

lemma Silent.ite {c : Prop} [Decidable c] {p q : Action α} (hp : Silent p) (hq : Silent q) :
    Silent (if c then p else q) := by
  split_ifs
  · exact hp
  · exact hq

lemma silent_readFrozenTarget : Silent readFrozenTarget :=
  (silent_ask .readFrozen fun _ => trivial).bind fun _ => silent_ofExcept _

lemma silent_readEmergencyTarget : Silent readEmergencyTarget :=
  (silent_ask .readEmergency fun _ => trivial).bind fun _ => silent_ofExcept _

lemma silent_runIdentityBoundAction (verb : Verb) : Silent (runIdentityBoundAction victim verb) := by
  refine (silent_ask (.currentInvocationId victim.unit) fun _ => trivial).bind fun current => ?_
  split_ifs
  · exact silent_ask (.run verb victim.unit) fun _ => trivial
  · exact silent_fail _

lemma silent_freezeVictim (nowMs : ℕ) : Silent (freezeVictim victim nowMs) :=
  (silent_ask (.writeFrozen _) fun _ => trivial).bind fun _ =>
    (silent_runIdentityBoundAction victim _).bind fun _ => silent_ask (.writeFrozen _) fun _ => trivial

lemma silent_executeFreeze (selected : Except String (Option VictimIdentity)) :
    Silent (executeFreeze paths selected) := by
  unfold executeFreeze
  split
  · exact silent_fail _
  · refine silent_readFrozenTarget.bind fun target => ?_
    split
    · exact silent_ok ()
    · exact silent_freezeVictim _ _
    · exact (silent_ofExcept _).bind fun victim => silent_freezeVictim victim _

lemma silent_executeThaw : Silent executeThaw := by
  refine silent_readFrozenTarget.bind fun target => ?_
  split
  · exact silent_fail _
  · exact (silent_runIdentityBoundAction _ _).bind fun _ => silent_ask .removeFrozen fun _ => trivial

lemma silent_termVictim (nowMs : ℕ) : Silent (termVictim victim nowMs) :=
  (silent_ask (.writeEmergency _) fun _ => trivial).bind fun _ =>
    (silent_runIdentityBoundAction victim _).bind fun _ => silent_ask (.writeEmergency _) fun _ => trivial

lemma silent_executeTerm (selected : Except String (Option VictimIdentity)) :
    Silent (executeTerm paths selected) := by
  unfold executeTerm
  split
  · exact silent_fail _
  · refine silent_readEmergencyTarget.bind fun target => ?_
    split
    · exact (silent_ofExcept _).bind fun victim => silent_termVictim victim _
    · split
      · exact silent_ok ()
      · exact silent_fail _
      · exact (silent_ofExcept _).bind fun victim => silent_termVictim victim _

lemma silent_executeKill : Silent (executeKill paths) := by
  unfold executeKill
  split
  · exact silent_fail _
  · refine silent_readEmergencyTarget.bind fun target => ?_
    split
    · exact silent_fail _
    · split
      · exact silent_ok ()
      · exact silent_fail _
      · split
        · exact silent_fail _
        · refine Silent.ite ?_ ?_
          · exact silent_fail _
          · exact (silent_ofExcept _).bind fun victim =>
              (silent_runIdentityBoundAction victim _).bind fun _ =>
                silent_ask (.writeEmergency _) fun _ => trivial

lemma silent_writeRuntimeRequest (name : String) (targetBytes : Option ℕ) :
    Silent (writeRuntimeRequest paths name targetBytes) := by
  unfold writeRuntimeRequest
  split
  · exact silent_ask (.writeRequest ..) fun _ => trivial
  · exact silent_fail _

lemma silent_executeActionsWith (decision : SupervisorDecision) (paths : ActionPaths) (writtenAtUnixMs : ℕ) :
    Silent (executeActionsWith decision paths (closeAdmission decision writtenAtUnixMs)) := by
  have hclose : Silent (closeAdmission decision writtenAtUnixMs) := by
    unfold closeAdmission
    split_ifs
    · exact silent_fail _
    · exact silent_ask (.publishAdmission ..) fun _ => trivial
  have hall (victim : Except String (Option VictimIdentity)) (actions : List SupervisorAction) :
      Silent (executeAll paths (closeAdmission decision writtenAtUnixMs) victim actions) := by
    induction actions with
    | nil => exact silent_ok []
    | cons action actions ih =>
      refine Silent.bind (Silent.attempt ?_) fun _ => ih.bind fun _ => silent_ok _
      cases action with
      | closeAdmission => exact hclose
      | reduceVramCache | requestReclaim => exact silent_writeRuntimeRequest paths _ _
      | freezeDiscardable => exact silent_executeFreeze paths victim
      | thawDiscardable => exact silent_executeThaw
      | terminateDiscardable => exact silent_executeTerm paths victim
      | killDiscardable => exact silent_executeKill paths
  exact ((silent_ask .readLedger fun _ => trivial).bind fun _ => silent_ok _).attempt.bind fun victim =>
    hall victim decision.actions

lemma backs_applyDecisionWith {decision : SupervisorDecision} (h : Streak samples decision.healthySamples)
    (paths : ActionPaths) (writtenAtUnixMs : ℕ) :
    Backs samples (applyDecisionWith decision paths writtenAtUnixMs) tr fun _ => True := by
  have hclosed {α : Type} {p : Action α} {f : α → Action (List ActionResult × Option String)}
      {tr : Prog.Trace Effect fun e => Except String e.Result} (hp : Backs samples p tr fun _ => True)
      (hf : ∀ a, ∀ tr, Backs samples (f a) tr fun _ => True) : Backs samples (p >>= f) tr fun _ => True :=
    hp.bind (fun a tr _ => hf a tr) fun _ _ _ => trivial
  refine hclosed (silent_executeActionsWith decision paths writtenAtUnixMs samples tr) fun results tr => ?_
  have hpublish : Backs samples (Pressure.ask (.publishState decision results paths.daemonInstanceId
      writtenAtUnixMs)) tr fun _ => True :=
    .call h fun r => silent_ofExcept r samples _
  refine hclosed (hpublish.attempt.mono fun _ _ _ _ => trivial) fun state tr => ?_
  split_ifs
  · split
    · exact silent_ok _ samples tr
    · refine hclosed ((silent_ask (.publishAdmission ..) fun _ => trivial).attempt samples tr) fun r tr => ?_
      split <;> exact silent_ok _ samples tr
  · split
    · exact silent_ok _ samples tr
    · split <;> exact silent_ok _ samples tr

/-- The machine that a round returns counts no more than the samples. -/
def Ends (samples : List PressureSample) :
    Except String (Supervisor × SupervisorDecision × Option String) → Prop
  | .ok (s,_,_) => Streak samples s.healthySamples
  | .error _ => True

lemma backs_iteration {s : Supervisor} {sample : PressureSample} (h : Streak (samples++[sample])
      (streak s.healthySamples (Supervisor.fullyHealthy sample))) (writtenAtUnixMs : ℕ) :
    Backs (samples++[sample]) (iteration s sample writtenAtUnixMs) tr (Ends (samples++[sample])) := by
  refine (silent_readFrozenTarget _ _).bind (fun frozen tr _ => ?_) fun _ _ _ => trivial
  refine (silent_readEmergencyTarget _ _).bind (fun emergency tr _ => ?_) fun _ _ _ => trivial
  refine Prog.Follows.ofExcept (fun s' hs' => ?_) fun _ _ => trivial
  obtain ⟨hdecision,hle⟩ := Supervisor.observe_healthySamples (s := s') sample
  rw [Supervisor.recoverActionState_healthySamples hs'] at hle
  have hstreak := h.mono hle
  refine ((silent_ask (.daemonInstance writtenAtUnixMs) fun _ => trivial).attempt _ _).bind
    (fun daemonInstanceId tr _ => ?_) fun _ _ _ => trivial
  refine (backs_applyDecisionWith (hdecision ▸ hstreak) _ _).bind (fun results tr _ => ?_)
    fun _ _ _ => trivial
  refine .ok ?_
  have hcommit := Supervisor.commitActionResults_healthySamples (s := (s'.observe sample).1) results.1
    sample.elapsedMs
  change Streak _ _
  rw [hcommit]
  exact hstreak

end Rounds

end Admission
end RamShared

import RamShared.Broker.Zeroing

/-! Hygiene before reuse. An active slice leaves its owner by draining or by a failed mount,
and a draining slice leaves that state only with a confirmed zeroing. -/
namespace RamShared.Broker
open Lib

variable {s : SliceId} {t : TenantId}

namespace SliceMap

def ActiveFor (m : SliceMap) (s : SliceId) (t : TenantId) : Prop :=
  ∃ x, m.get s=some x ∧ x.state=.active ∧ x.tenant=some t

lemma ActiveFor.not_draining {m : SliceMap} (h : m.ActiveFor s t) : ¬m.In s .draining := by
  obtain ⟨x,hx,ha,-⟩ := h
  exact fun hd => nomatch hd.unique ⟨x,hx,ha⟩

lemma activeFor_of_assign {m m' : SliceMap} (h : m.assign s t=.ok m') : m'.ActiveFor s t := by
  rcases get_transition h s with ⟨hne,-⟩ | ⟨-,x,-,-,hg⟩
  · exact absurd rfl hne
  · exact ⟨_,hg,rfl,rfl⟩

lemma ActiveFor.unique {m : SliceMap} {t' : TenantId} (h : m.ActiveFor s t) (h' : m.ActiveFor s t') : t=t' := by
  obtain ⟨x,hx,-,ht⟩ := h
  obtain ⟨y,hy,-,ht'⟩ := h'
  rw [hx] at hy
  cases hy
  exact Option.some.inj (ht.symm.trans ht')

end SliceMap

namespace BrokerCore
variable {F D : Type} [FloatOps F] [FloatOps D] [DebugMsg F]

lemma step_draining (c : BrokerCore F D) (i : Input F) (hs : c.sliceMap.In s .draining) :
    (c.step i).sliceMap.In s .draining ∨ i.event=.zeroDone s true := by
  rcases i with ⟨e,now,sensors,order⟩
  rcases e.cases_plain with h | ⟨sid,k,detail,rfl⟩ | ⟨sid,k,detail,rfl⟩ | ⟨k,_ | _,rfl⟩ | rfl
  · obtain ⟨l,hm,-⟩ := (c.handle_quiet ⟨e,now,sensors,order⟩ h).moves
    exact .inl (hm.in_draining hs)
  · left
    rcases c.onSwapOnFailed_get k detail s with hg | ⟨rfl,x,hx,ha,-⟩
    · exact hs.of_get_eq hg
    · cases hs.unique ⟨x,hx,ha⟩
  · left
    refine hs.of_get_eq ?_
    change (c.onSwapOffOk k).1.sliceMap.get s=_
    rw [onSwapOffOk_sliceMap]
  · exact .inl hs
  · by_cases hk : s=k
    · exact .inr (by rw [hk])
    · exact .inl (hs.of_get_eq (c.onZeroOk_get_of_ne hk))
  · obtain ⟨l,hm,-⟩ := (c.onTick_effect now sensors order).moves
    exact .inl (hm.in_draining hs)

lemma step_active (c : BrokerCore F D) (i : Input F) (hs : c.sliceMap.ActiveFor s t) :
    (c.step i).sliceMap.ActiveFor s t ∨ (c.step i).sliceMap.In s .draining ∨
      ∃ sid detail, i.event=.msg sid (.swapOnDone s false detail) := by
  obtain ⟨x,hx,ha,ht⟩ := hs
  have hmoves {l : List SliceId} (hm : c.sliceMap.Moves l (c.step i).sliceMap) :
      (c.step i).sliceMap.ActiveFor s t ∨ (c.step i).sliceMap.In s .draining := by
    rcases hm.get_active hx ha with hg | hg
    · exact .inl ⟨x,hg,ha,ht⟩
    · exact .inr ⟨_,hg,rfl⟩
  have hsame (hg : (c.step i).sliceMap.get s = c.sliceMap.get s) :
      (c.step i).sliceMap.ActiveFor s t := ⟨x,hg.trans hx,ha,ht⟩
  rcases i with ⟨e,now,sensors,order⟩
  rcases e.cases_plain with h | ⟨sid,k,detail,rfl⟩ | ⟨sid,k,detail,rfl⟩ | ⟨k,_ | _,rfl⟩ | rfl
  · obtain ⟨l,hm,-⟩ := (c.handle_quiet ⟨e,now,sensors,order⟩ h).moves
    exact (hmoves hm).imp id .inl
  · rcases c.onSwapOnFailed_get k detail s with hg | ⟨rfl,-⟩
    · exact .inl (hsame hg)
    · exact .inr (.inr ⟨sid,detail,rfl⟩)
  · left
    refine hsame ?_
    change (c.onSwapOffOk k).1.sliceMap.get s=_
    rw [onSwapOffOk_sliceMap]
  · exact .inl (hsame rfl)
  · left
    by_cases hk : s=k
    · subst hk
      exact hsame ((c.onZeroOk_get s).1 (SliceMap.ActiveFor.not_draining ⟨x,hx,ha,ht⟩))
    · exact hsame (c.onZeroOk_get_of_ne hk)
  · obtain ⟨l,hm,-⟩ := (c.onTick_effect now sensors order).moves
    exact (hmoves hm).imp id .inl

/-- A slice that passes from one tenant to another was zeroed after its last moment with the
first one, or the first one could not mount it. -/
theorem reuse_after_zero (m : SliceMap) (cfg : BrokerCoreConfig F D) (is : List (Input F))
    {s : SliceId} {a b : TenantId} (hab : a≠b) {i j : ℕ} (hij : i≤j)
    (hi : (stateAt step (new m cfg) is i).sliceMap.ActiveFor s a)
    (hj : (stateAt step (new m cfg) is j).sliceMap.ActiveFor s b) :
    ∃ n, i ≤ n ∧ n<j ∧ (stateAt step (new m cfg) is n).sliceMap.ActiveFor s a ∧
      (∀ k, n < k → k≤j → ¬(stateAt step (new m cfg) is k).sliceMap.ActiveFor s a) ∧
      ((∃ k inp, n < k ∧ k<j ∧ is[k]? = some inp ∧ inp.event = .zeroDone s true) ∨
        ∃ inp sid detail, is[n]? = some inp ∧
          inp.event = .msg sid (.swapOnDone s false detail)) := by
  obtain ⟨n,inp,hin,hnj,hinp,hn,hstep,hlast⟩ :=
    exists_last_step step (P := fun c : BrokerCore F D => c.sliceMap.ActiveFor s a) hij hi
      fun h => hab (h.unique hj)
  refine ⟨n,hin,hnj,hn,hlast,?_⟩
  rcases step_active _ inp hn with h | h | ⟨sid,detail,he⟩
  · rw [← hstep] at h
    exact absurd h (hlast (n+1) (Nat.lt_succ_self n) hnj)
  · rw [← hstep] at h
    obtain ⟨k,inp',hnk,hkj,hinp',hk,hstep',hlast'⟩ :=
      exists_last_step step (P := fun c : BrokerCore F D => c.sliceMap.In s .draining) hnj h
        hj.not_draining
    rcases step_draining _ inp' hk with h' | he
    · rw [← hstep'] at h'
      exact absurd h' (hlast' (k+1) (Nat.lt_succ_self k) hkj)
    · exact .inl ⟨k,inp',hnk,hkj,hinp',he⟩
  · exact .inr ⟨inp,sid,detail,hinp,he⟩

/-- The slice of the first tenant is revoked for a lease that is given up, and goes to a third
tenant. -/
def revokedSlice : List (Input ℚ) :=
  [.msg 0 (.register protoVersion "a" .nbdUnix),.tick,.msg 1 (.register protoVersion "b" .dccAgent),
    .msg 1 (.leaseRequest 4096),.tick,.msg 0 (.swapOffDone 0 true ""),.disconnected 1,
    .zeroDone 0 true,.msg 2 (.register protoVersion "c" .nbdUnix),.tick].map sampleInput

theorem reuse_after_zero_revokedSlice :
    1 ≠ 3 ∧ ∃ n, 2 ≤ n ∧ n<10 ∧
      (stateAt step (new oneSlice sampleConfig) revokedSlice n).sliceMap.ActiveFor 0 1 := by
  have h₁ : (stateAt step (new oneSlice sampleConfig) revokedSlice 2).sliceMap.ActiveFor 0 1 :=
    ⟨⟨0,0,4096,some 1,.active⟩,by decide +kernel,rfl,rfl⟩
  have h₂ : (stateAt step (new oneSlice sampleConfig) revokedSlice 10).sliceMap.ActiveFor 0 3 :=
    ⟨⟨0,0,4096,some 3,.active⟩,by decide +kernel,rfl,rfl⟩
  obtain ⟨n,hin,hnj,hn,-⟩ := reuse_after_zero oneSlice sampleConfig revokedSlice
    (by decide : 1≠3) (by decide : 2≤10) h₁ h₂
  exact ⟨by decide,n,hin,hnj,hn⟩

/-- The mount by the first tenant fails, and the slice goes to the second one as it is. -/
def failedMount : List (Input ℚ) :=
  [.msg 0 (.register protoVersion "a" .nbdUnix),.tick,.msg 1 (.register protoVersion "b" .nbdUnix),
    .msg 0 (.swapOnDone 0 false "mkswap"),.tick].map sampleInput

/-- In that run the slice is reused, and no zeroing is ever confirmed. -/
theorem reused_without_zero :
    (stateAt step (new oneSlice sampleConfig) failedMount 2).sliceMap.ActiveFor 0 1 ∧
    (stateAt step (new oneSlice sampleConfig) failedMount 5).sliceMap.ActiveFor 0 2 ∧
    ∀ inp ∈ failedMount, inp.event ≠ .zeroDone 0 true := by
  refine ⟨⟨⟨0,0,4096,some 1,.active⟩,by decide +kernel,rfl,rfl⟩,
    ⟨⟨0,0,4096,some 2,.active⟩,by decide +kernel,rfl,rfl⟩,?_⟩
  simp [failedMount,sampleInput]

end BrokerCore
end RamShared.Broker

import RamShared.Broker.Rulings

/-! When a slice is handed to a tenant. Only a slice without a tenant is ordered on, once, and it
has a tenant from then on; and a slice loses its tenant only by a failed mount or by a confirmed
zeroing. -/
namespace RamShared.Broker
open Lib

def SliceMap.Idle (m : SliceMap) (s : SliceId) : Prop := m.In s .free ∨ m.In s .leased

lemma CellMove.idle {x y : Slice} (h : CellMove x y) (hy : y.state=.free ∨ y.state=.leased) :
    x.state=.free ∨ x.state=.leased := by
  cases h <;> simp_all

namespace SliceMap
variable {m m' : SliceMap} {s : SliceId}

lemma idle_iff : m.Idle s ↔ ∃ x, m.get s=some x ∧ (x.state=.free ∨ x.state=.leased) := by
  constructor
  · rintro (⟨x,hx,hs⟩ | ⟨x,hx,hs⟩)
    · exact ⟨x,hx,.inl hs⟩
    · exact ⟨x,hx,.inr hs⟩
  · rintro ⟨x,hx,hs | hs⟩
    · exact .inl ⟨x,hx,hs⟩
    · exact .inr ⟨x,hx,hs⟩

lemma In.not_idle {state : SliceState} (h : m.In s state) (hf : state≠.free)
    (hl : state≠.leased) : ¬m.Idle s := by
  rintro (hi | hi)
  · exact hf (h.unique hi)
  · exact hl (h.unique hi)

lemma Moves.idle {l : List SliceId} (h : m.Moves l m') (hs : m'.Idle s) : m.Idle s := by
  induction h with
  | refl => exact hs
  | step h _ ih =>
    obtain ⟨y,hy,hstate⟩ := idle_iff.mp (ih hs)
    obtain ⟨-,hg⟩ | ⟨x,z,hx,hz,hc,-⟩ := h.cell s
    · exact idle_iff.mpr ⟨y,by rw [←hg,hy],hstate⟩
    · obtain rfl : z=y := Option.some.inj (hz.symm.trans hy)
      exact idle_iff.mpr ⟨x,hx,hc.idle hstate⟩

end SliceMap

section
variable {F D : Type}

namespace BrokerCore

variable (c : BrokerCore F D)

lemma emitSwapon_mounts (s : SliceId) (tenant : TenantId) :
    mounts (c.emitSwapon s tenant)=[] ∨ mounts (c.emitSwapon s tenant) = [(s,s!"s{s}")] := by
  unfold emitSwapon
  split
  · exact .inl rfl
  · split
    · exact .inl rfl
    · exact c.toTenant_mounts tenant _

/-- Each slice is left without an order and does not lose its tenant, or is ordered on once, by the
name of its export, and gets a tenant. -/
structure Hands (c : BrokerCore F D) (x : BrokerCore F D × List (Outbound F D)) : Prop where
  slice : ∀ s, (((mounts x.2).map Prod.fst).count s=0 ∧ (x.1.sliceMap.Idle s → c.sliceMap.Idle s)) ∨
    (((mounts x.2).map Prod.fst).count s≤1 ∧ c.sliceMap.Idle s ∧ ¬x.1.sliceMap.Idle s)
  named : ∀ e∈mounts x.2, e.2 = s!"s{e.1}"

lemma Hands.trans {c c₁ c₂ : BrokerCore F D} {out out' : List (Outbound F D)}
    (h : Hands c (c₁,out)) (h' : Hands c₁ (c₂,out')) : Hands c (c₂,out++out') := by
  refine ⟨fun s => ?_,?_⟩
  · simp only [mounts_append,List.map_append,List.count_append]
    obtain ⟨h₁,i₁⟩ | ⟨h₁,i₁,n₁⟩ := h.slice s <;> obtain ⟨h₂,i₂⟩ | ⟨h₂,i₂,n₂⟩ := h'.slice s <;>
      dsimp only at *
    · exact .inl ⟨by omega,fun hi => i₁ (i₂ hi)⟩
    · exact .inr ⟨by omega,i₁ i₂,n₂⟩
    · exact .inr ⟨by omega,i₁,fun hi => n₁ (i₂ hi)⟩
    · exact absurd i₂ n₁
  · intro e he
    rw [mounts_append,List.mem_append] at he
    exact he.elim (h.named e) (h'.named e)

lemma Hands.of_quiet {c : BrokerCore F D} {x : BrokerCore F D × List (Outbound F D)}
    (h : Quiet c x) (hm : mounts x.2=[]) : Hands c x := by
  obtain ⟨l,hmoves,-⟩ := h.moves
  refine ⟨fun s => .inl ⟨by rw [hm]; rfl,hmoves.idle⟩,?_⟩
  rw [hm]
  exact nofun

lemma assign_hands {c c' : BrokerCore F D} {s : SliceId} {tenant : TenantId} {m : SliceMap}
    (h : c.sliceMap.assign s tenant=.ok m) (hm : c'.sliceMap=m) {out : List (Outbound F D)}
    (ho : mounts out=[] ∨ mounts out = [(s,s!"s{s}")]) : Hands c (c',out) := by
  obtain ⟨hfree,hactive⟩ := SliceMap.in_of_transition h
  refine ⟨fun k => ?_,?_⟩
  · by_cases hk : k=s
    · subst hk
      refine .inr ⟨?_,.inl hfree,?_⟩
      · obtain ho | ho := ho <;> simp [ho]
      · change ¬c'.sliceMap.Idle k
        rw [hm]
        exact hactive.not_idle (by simp) (by simp)
    · refine .inl ⟨?_,fun hi => ?_⟩
      · obtain ho | ho := ho <;> simp [ho,Ne.symm hk]
      · change c'.sliceMap.Idle k at hi
        rw [hm] at hi
        exact (SliceMap.Move.assign h).moves.idle hi
  · intro e he
    obtain ho | ho := ho <;> rw [ho] at he
    · cases he
    · rw [List.mem_singleton.mp he]

lemma Applied.hands {c : BrokerCore F D} {now : ℕ} {a : Action}
    {x : BrokerCore F D × List (Outbound F D)} (h : Applied c now a x) : Hands c x := by
  have hq := h.quiet
  cases h with
  | refused => exact .of_quiet hq rfl
  | assigned h =>
    refine assign_hands h ?_ ?_
    · rfl
    · exact c.emitSwapon_mounts _ _
  | moved => exact .of_quiet hq (c.toTenant_noMounts _ rfl)
  | revoked => exact .of_quiet hq (c.toTenant_noMounts _ rfl)
  | leased h =>
    refine .of_quiet hq ?_
    cases h with
    | declined => exact c.toTenant_noMounts _ rfl
    | granted => exact c.toTenant_noMounts _ rfl
    | _ => rfl

section
variable [FloatOps F]
variable (c : BrokerCore F D)

lemma applyActions_hands (present : List (TenantView F)) (now : ℕ) (as : List Action)
    (c : BrokerCore F D) : Hands c (applyActions present now as c) := by
  induction as generalizing c with
  | nil => exact .of_quiet (.of_eq rfl rfl ⟨rfl,rfl⟩) rfl
  | cons a as ih => exact (c.applied present now a).hands.trans (ih _)

lemma tickArbiter_hands (now : ℕ) : Hands c (c.tickArbiter now) := by
  unfold tickArbiter
  dsimp only
  generalize c.arbiter.tick now c.presentViews c.visibleSlices
    (c.leaseBook.pending.map fun p => (p.holder,p.requestedBytes))=x
  rcases x with ⟨e | actions,arbiter⟩
  · exact .of_quiet (.of_eq rfl rfl ⟨rfl,rfl⟩) rfl
  · have h := applyActions_hands c.presentViews now actions ({c with arbiter := arbiter})
    exact ⟨h.slice,h.named⟩

lemma onTick_hands [FloatOps D] (now : ℕ) (sensors : Sensors) (order : KeyOrder) :
    Hands c (c.onTick now sensors order) := by
  have h₁ := Hands.of_quiet (c.expireLease_quiet now) (c.expireLease_plain now).1
  have h₂ := (c.expireLease now).1.tickArbiter_hands now
  have hretry (c : BrokerCore F D) : Hands c (c.retryStuckZeroing order) := by
    obtain ⟨l,hm,-⟩ := (c.retryStuckZeroing_effect order).moves
    have hnone : mounts (c.retryStuckZeroing order).2=[] := (retryAll_plain _ c).1
    exact ⟨fun s => .inl ⟨by rw [hnone]; rfl,hm.idle⟩,by rw [hnone]; exact nofun⟩
  exact ((h₁.trans h₂).trans (hretry _)).trans
    (.of_quiet (emitTelemetry_quiet _ sensors) (emitTelemetry_plain _ sensors).1)

variable [FloatOps D] [DebugMsg F]

lemma handle_hands (i : Input F) (h : i.event.plain=true) : Hands c (c.handle i) := by
  refine .of_quiet (c.handle_quiet i h) (c.handle_plain i ?_ ?_).1
  · intro he
    rw [he] at h
    cases h
  · intro s he
    rw [he] at h
    cases h

end

lemma onZeroOk_mounts (s : SliceId) : mounts (c.onZeroOk s).2=[] ∨
      mounts (c.onZeroOk s).2 = [(s,s!"s{s}")] ∧ (c.onZeroOk s).1.sliceMap.In s .active := by
  rcases hr : c.sliceMap.release s with e | m
  · exact .inl (by simp only [onZeroOk,hr]; rfl)
  · rcases hd : c.pendingDest[s]? with _ | dest
    · exact .inl (by simp only [onZeroOk,hr,hd]; rfl)
    · rcases ha : m.assign s dest with e | m'
      · exact .inl (by simp only [onZeroOk,hr,hd,ha]; rfl)
      · simp only [onZeroOk,hr,hd,ha]
        exact (emitSwapon_mounts _ s dest).imp id fun h => ⟨h,(SliceMap.in_of_transition ha).2⟩

end BrokerCore
end
end RamShared.Broker

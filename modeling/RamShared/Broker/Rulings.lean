import RamShared.Broker.Handle
import RamShared.Broker.Decisions

/-! The log lines with which a tick reports what became of the proposals of the arbiter. No
other event writes one, so they tell from the outside which actions were carried out. -/
namespace RamShared.Broker
open Lib

section
variable {F D : Type}

variable (out : List (Outbound F D))

@[simp] lemma rulings_nil : rulings ([] : List (Outbound F D))=[] := rfl

@[simp] lemma rulings_log (line : LogLine F D) (out : List (Outbound F D)) :
    rulings (.log line::out) = if line.ruling then line::rulings out else rulings out := by
  cases h : line.ruling <;> simp [rulings,Outbound.ruling,h]

def LogLine.drains : LogLine F D → Option (SliceId × TenantId)
  | .moved s x _ _ _ => some (s,x)
  | .revoked s x => some (s,x)
  | _ => none

def drains : List (SliceId × TenantId) :=
  (rulings out).filterMap LogLine.drains

@[simp] lemma drains_append (a b : List (Outbound F D)) : drains (a++b) = drains a++drains b := by
  simp [drains]

namespace BrokerCore

variable (c : BrokerCore F D) (sid : ℕ) (s : SliceId) (x : Slice) (tenant : TenantId)

lemma expireLease_plain (now : ℕ) : Plain (c.expireLease now).2 := by
  unfold expireLease
  rcases c.leaseBook.expire now with ⟨_ | lease,book⟩ <;> exact ⟨rfl,rfl⟩

lemma unlease_foldl_get (ids : List SliceId) (m : SliceMap) (s : SliceId) :
    (ids.foldl (fun m id => attempt m (m.unlease id)) m).get s = (m.get s).map fun x =>
        if x.state=.leased ∧ s∈ids then {x with state := .free} else x := by
  induction ids generalizing m with
  | nil => simp
  | cons id ids ih =>
    rw [List.foldl_cons,ih]
    cases h : m.unlease id with
    | error e =>
      have hn : ∀ x, m.get id=some x → x.state≠.leased := by
        intro x hx hs
        simp [SliceMap.unlease,SliceMap.transition,hx,hs] at h
      refine Option.map_congr fun x hx => ?_
      by_cases hs : s=id
      · subst hs
        simp [hn x hx]
      · simp [hs]
    | ok m' =>
      simp only [attempt]
      rcases SliceMap.get_transition h s with ⟨hs,hg⟩ | ⟨rfl,x,hx,hst,hg⟩
      · simp [hg,hs]
      · simp [hg,hx,hst]

def unleaseCell (x : Slice) : Slice :=
  if x.state=.leased then {x with state := .free} else x

@[simp] lemma unleaseCell_id : (unleaseCell x).id=x.id := by
  unfold unleaseCell
  split_ifs <;> rfl

@[simp] lemma unleaseCell_tenant : (unleaseCell x).tenant=x.tenant := by
  unfold unleaseCell
  split_ifs <;> rfl

lemma unleaseCell_active : (unleaseCell x).state=.active ↔ x.state=.active := by
  unfold unleaseCell
  split_ifs with h <;> simp [h]

lemma unleaseAll_get (m : SliceMap) (s : SliceId) : (unleaseAll m).get s = (m.get s).map unleaseCell := by
  rw [unleaseAll,unlease_foldl_get]
  refine Option.map_congr fun x hx => ?_
  have hin : x.state=.leased → s∈Arbiter.idsIn m.slices .leased := fun hs =>
    Arbiter.mem_idsIn.mpr ⟨x,SliceMap.mem_of_get hx,hs,SliceMap.id_of_get hx⟩
  by_cases hs : x.state=.leased
  · simp [unleaseCell,hs,hin hs]
  · simp [unleaseCell,hs]

lemma unleaseAll_slices (m : SliceMap) : (unleaseAll m).slices = m.slices.map unleaseCell := by
  refine List.ext_getElem? fun i => ?_
  rw [List.getElem?_map,←SliceMap.get_eq_getElem?,←SliceMap.get_eq_getElem?,unleaseAll_get]

lemma expireLease_eq (now : ℕ) :
    (c.expireLease now).1=c ∨ (c.expireLease now).1 =
      { c with
        sliceMap := unleaseAll c.sliceMap
        leaseBook := { c.leaseBook with active := none}} := by
  unfold expireLease
  cases ha : c.leaseBook.active with
  | none =>
    left
    simp only [LeaseBook.expire,ha]
  | some a =>
    simp only [LeaseBook.expire,ha]
    split_ifs
    · exact .inr rfl
    · exact .inl rfl

section
variable (c : BrokerCore F D) (now : ℕ)

@[simp] lemma expireLease_tenants : (c.expireLease now).1.tenants=c.tenants := by
  rcases c.expireLease_eq now with h | h <;> rw [h]

@[simp] lemma expireLease_arbiter : (c.expireLease now).1.arbiter=c.arbiter := by
  rcases c.expireLease_eq now with h | h <;> rw [h]

@[simp] lemma expireLease_pending : (c.expireLease now).1.leaseBook.pending=c.leaseBook.pending := by
  rcases c.expireLease_eq now with h | h <;> rw [h]

@[simp] lemma expireLease_pendingDest : (c.expireLease now).1.pendingDest=c.pendingDest := by
  rcases c.expireLease_eq now with h | h <;> rw [h]

end

lemma retryAll_plain (ks : List SliceId) (c : BrokerCore F D) : Plain (retryAll ks c).2 := by
  induction ks generalizing c with
  | nil => exact ⟨rfl,rfl⟩
  | cons s ks ih =>
    have hone : Plain (c.retryZero s).2 := by
      unfold retryZero
      split
      · exact ⟨rfl,rfl⟩
      · dsimp only
        cases c.sliceMap.get s <;> split_ifs <;> exact ⟨rfl,rfl⟩
    exact hone.append (ih _)

lemma Granting.core_eq {c : BrokerCore F D} {holder : TenantId} {ids : List SliceId}
    {x : BrokerCore F D × List (Outbound F D)} (h : Granting c holder ids x) :
    ∃ m b, x.1 = {c with sliceMap := m, leaseBook := b} := by
  cases h <;> exact ⟨_,_,rfl⟩

lemma retryAll_eq (ks : List SliceId) (c : BrokerCore F D) :
    ∃ z, (retryAll ks c).1 = {c with pendingZero := z} := by
  induction ks generalizing c with
  | nil => exact ⟨c.pendingZero,rfl⟩
  | cons s ks ih =>
    have h : ∃ z, (c.retryZero s).1 = {c with pendingZero := z} := by
      unfold retryZero
      split
      · exact ⟨c.pendingZero,rfl⟩
      · exact ⟨_,rfl⟩
    obtain ⟨z,hz⟩ := h
    obtain ⟨z',hz'⟩ := ih (c.retryZero s).1
    refine ⟨z',hz'.trans ?_⟩
    rw [hz]

lemma emitTelemetry_plain [FloatOps D] (sensors : Sensors) : Plain (c.emitTelemetry sensors).2 := by
  unfold emitTelemetry
  dsimp only
  split_ifs <;> exact ⟨rfl,rfl⟩

section
variable [FloatOps F]
variable (c : BrokerCore F D)

lemma applyAction_eq (present : List (TenantView F)) (now : ℕ) (a : Action) :
    ∃ m d b l, (c.applyAction present now a).1 =
      {c with sliceMap := m, pendingDest := d, leaseBook := b, lastRebalance := l} := by
  have h := c.applied present now a
  generalize c.applyAction present now a = x at h
  cases h with
  | leased h =>
    obtain ⟨m,b,h⟩ := h.core_eq
    exact ⟨m,_,b,_,h⟩
  | _ => exact ⟨_,_,_,_,rfl⟩

lemma applyActions_eq (present : List (TenantView F)) (now : ℕ) (as : List Action) (c : BrokerCore F D) :
    ∃ m d b l, (applyActions present now as c).1 =
      {c with sliceMap := m, pendingDest := d, leaseBook := b, lastRebalance := l} := by
  induction as generalizing c with
  | nil => exact ⟨_,_,_,_,rfl⟩
  | cons a as ih =>
    obtain ⟨m,d,b,l,h⟩ := c.applyAction_eq present now a
    obtain ⟨m',d',b',l',h'⟩ := ih (c.applyAction present now a).1
    refine ⟨m',d',b',l',h'.trans ?_⟩
    rw [h]

def nextArbiter (c : BrokerCore F D) (now : ℕ) : Arbiter F :=
  (c.arbiter.tick now c.presentViews c.visibleSlices
    (c.leaseBook.pending.map fun p => (p.holder,p.requestedBytes))).2

def proposals (c : BrokerCore F D) (now : ℕ) : List Action :=
  ((c.arbiter.tick now c.presentViews c.visibleSlices
    (c.leaseBook.pending.map fun p => (p.holder,p.requestedBytes))).1.toOption).getD []

def carryOut (c : BrokerCore F D) (now : ℕ) : BrokerCore F D × List (Outbound F D) :=
  applyActions c.presentViews now (c.proposals now) {c with arbiter := c.nextArbiter now}

lemma tickArbiter_eq (now : ℕ) : c.tickArbiter now = c.carryOut now ∨
      ∃ e, c.tickArbiter now = ((c.carryOut now).1,[.log (.arbiterError e)]) ∧
        c.proposals now=[] := by
  unfold tickArbiter carryOut nextArbiter proposals
  dsimp only
  generalize c.arbiter.tick now c.presentViews c.visibleSlices
    (c.leaseBook.pending.map fun p => (p.holder,p.requestedBytes))=x
  obtain ⟨e | actions,arbiter⟩ := x
  · exact .inr ⟨e,rfl,rfl⟩
  · exact .inl rfl

lemma tickArbiter_of_none {c : BrokerCore F D} (hp : c.leaseBook.pending=none) (now : ℕ) :
    c.arbiter.Plan now c.presentViews c.visibleSlices (c.proposals now) ∧
      c.tickArbiter now = c.carryOut now := by
  obtain ⟨actions,ht,hplan⟩ := c.arbiter.tick_none now c.presentViews c.visibleSlices
  have hactions : c.proposals now=actions := by
    simp [proposals,hp,ht,Except.toOption]
  rw [carryOut,hactions]
  refine ⟨hplan,?_⟩
  simp only [tickArbiter,nextArbiter,hp,Option.map_none,ht]

lemma proposals_of_pending {c : BrokerCore F D} {p : PendingLease}
    (hp : c.leaseBook.pending=some p) {now : ℕ} {a : Action} (ha : a∈c.proposals now) :
    (∃ ids, a=.grantLease p.holder ids) ∨ ∃ y∈Arbiter.revocable c.presentViews c.visibleSlices,
        a=.revokeForLease y.1 y.2.1 := by
  simp only [proposals,hp,Option.map_some,Arbiter.tick] at ha
  cases h : Arbiter.leaseActions c.presentViews c.visibleSlices
      ((c.visibleSlices.head?.map Slice.len).getD 0) p.holder p.requestedBytes with
  | error e => simp [h,Except.toOption] at ha
  | ok actions =>
    rw [h] at ha
    exact Arbiter.leaseActions_mem h ha

end

section
variable [FloatOps F] [FloatOps D] [DebugMsg F]
variable (c : BrokerCore F D)

lemma step_tick (now : ℕ) (sensors : Sensors) (order : KeyOrder) :
    ∃ z d flag n, c.step ⟨.tick,now,sensors,order⟩ =
      { ((c.expireLease now).1.tickArbiter now).1 with
        pendingZero := z, demotesAtLastSample := d, reconFlag := flag, reconCount := n} := by
  obtain ⟨z,hz⟩ := retryAll_eq
    (order.arrange ((c.expireLease now).1.tickArbiter now).1.pendingZero.keys)
    ((c.expireLease now).1.tickArbiter now).1
  simp only [step,handle,onTick,retryStuckZeroing,hz,emitTelemetry]
  exact ⟨_,_,_,_,rfl⟩

lemma rulings_of_ne_tick (i : Input F) (h : i.event≠.tick) : rulings (c.handle i).2=[] := by
  by_cases hz : ∃ s, i.event=.zeroDone s true
  · rcases i with ⟨e,now,sensors,order⟩
    obtain ⟨s,rfl⟩ := hz
    obtain ⟨m,d,out,-,hr,h⟩ := c.onZeroOk_eq s
    change rulings (c.onZeroOk s).2=[]
    rwa [h]
  · exact (c.handle_plain i h fun s hs => hz ⟨s,hs⟩).2

lemma rulings_tick (now : ℕ) (sensors : Sensors) (order : KeyOrder) :
    rulings (c.handle ⟨.tick,now,sensors,order⟩).2 = rulings ((c.expireLease now).1.tickArbiter now).2 := by
  simp only [handle,onTick,rulings_append,(c.expireLease_plain now).2,(emitTelemetry_plain _ _).2,
    retryStuckZeroing,(retryAll_plain _ _).2,List.nil_append,List.append_nil]

end
end BrokerCore
end
end RamShared.Broker

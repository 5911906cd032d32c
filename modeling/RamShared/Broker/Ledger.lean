import RamShared.Broker.Moves
import RamShared.Broker.Decisions

/-! The lease as a ledger: how many slices are leased, and what the book says about it. The
entries are all that the core ever does to the two. -/
namespace RamShared.Broker
open Lib

variable {m : SliceMap}

namespace SliceMap

lemma get_of_mem {x : Slice} (h : x∈m.slices) : m.get x.id=some x := by
  obtain ⟨i,hi⟩ := List.mem_iff_getElem?.mp h
  rw [get_eq_getElem?,id_of_getElem? hi,hi]

def count (m : SliceMap) (state : SliceState) : ℕ := m.slices.countP fun x => x.state=state

variable {id : SliceId} {source target : SliceState} {refuse : SliceState → SliceError}
    {owner : Option TenantId → Option TenantId}

lemma put_slices {x : Slice} (h : m.get id=some x) (state : SliceState)
    (tenant : Option TenantId) : (m.put id state tenant).slices =
      m.slices.set id {x with state := state, tenant := tenant} := by
  refine List.ext_getElem? fun i => ?_
  rw [←get_eq_getElem?,get_put,List.getElem?_set]
  have hx := h
  rw [get_eq_getElem?] at hx
  obtain ⟨hlt,-⟩ := List.getElem?_eq_some_iff.mp hx
  by_cases hi : i=id
  · simp [hi,h,hlt]
  · simp [hi,Ne.symm hi,get_eq_getElem?]

lemma count_transition {m' : SliceMap} (h : m.transition id source target refuse owner=.ok m')
    (state : SliceState) : m'.count state+(if source=state then 1 else 0) =
      m.count state+if target=state then 1 else 0 := by
  obtain ⟨x,hx,hs,rfl⟩ := transition_eq_ok h
  have hi := hx
  rw [get_eq_getElem?] at hi
  obtain ⟨hlt,hget⟩ := List.getElem?_eq_some_iff.mp hi
  have hpos : x.state=state → 0 < m.count state := fun hst =>
    List.countP_pos_iff.mpr ⟨x,mem_of_get hx,by simpa using hst⟩
  unfold count at hpos ⊢
  rw [put_slices hx,List.countP_set hlt,hget]
  simp only [decide_eq_true_eq,hs] at hpos ⊢
  split_ifs <;> simp_all

lemma mem_transition {m' : SliceMap} (h : m.transition id source target refuse owner=.ok m')
    {y : Slice} (hy : y∈m'.slices) : y∈m.slices ∨ ∃ x∈m.slices, x.state=source ∧
      y = {x with state := target, tenant := owner x.tenant} := by
  obtain ⟨x,hx,hs,rfl⟩ := transition_eq_ok h
  rw [put_slices hx] at hy
  exact (List.mem_or_eq_of_mem_set hy).imp_right fun hy => ⟨x,mem_of_get hx,hs,hy⟩

lemma idsIn_length (m : SliceMap) (state : SliceState) :
    (Arbiter.idsIn m.slices state).length = m.count state := by
  rw [Arbiter.idsIn,List.length_map,count,List.countP_eq_length_filter]

lemma idsIn_nodup (m : SliceMap) (state : SliceState) : (Arbiter.idsIn m.slices state).Nodup := by
  have h : (m.slices.map Slice.id).Nodup := by
    rw [m.ids]
    exact List.nodup_range
  exact (List.filter_sublist.map Slice.id).nodup h

lemma in_iff_mem_idsIn {state : SliceState} {s : SliceId} : m.In s state ↔ s∈Arbiter.idsIn m.slices state := by
  rw [Arbiter.mem_idsIn]
  constructor
  · rintro ⟨x,hx,hs⟩
    exact ⟨x,mem_of_get hx,hs,id_of_get hx⟩
  · rintro ⟨x,hx,hs,rfl⟩
    exact ⟨x,get_of_mem hx,hs⟩

/-- `k` slices of `len` bytes each, of which only those in use have an owner. -/
structure Regular (m : SliceMap) (k len : ℕ) : Prop where
  length_eq : m.slices.length=k
  len_eq : ∀ x∈m.slices, x.len=len
  unowned : ∀ x∈m.slices, x.state=.free ∨ x.state=.leased → x.tenant=none

variable {m m' : SliceMap} {k len : ℕ}

lemma Regular.transition (hm : m.Regular k len) (h : m.transition id source target refuse owner=.ok m')
    (ho : ∀ x∈m.slices, x.state=source → target=.free ∨ target=.leased →
      owner x.tenant=none) : m'.Regular k len := by
  refine ⟨?_,fun y hy => ?_,fun y hy hs => ?_⟩
  · obtain ⟨x,hx,-,rfl⟩ := transition_eq_ok h
    rw [put_slices hx,List.length_set,hm.length_eq]
  · rcases mem_transition h hy with hy | ⟨x,hx,-,rfl⟩
    · exact hm.len_eq y hy
    · exact hm.len_eq x hx
  · rcases mem_transition h hy with hy | ⟨x,hx,hst,rfl⟩
    · exact hm.unowned y hy hs
    · exact ho x hx hst hs

lemma Regular.move (hm : m.Regular k len) {d : Option SliceId} (h : m.Move d m') : m'.Regular k len := by
  cases h with
  | assign h => exact hm.transition h fun _ _ _ ht => by simp at ht
  | drain h => exact hm.transition h fun _ _ _ ht => by simp at ht
  | lease h => exact hm.transition h fun x hx hs _ => hm.unowned x hx (.inl hs)
  | unlease h => exact hm.transition h fun x hx hs _ => hm.unowned x hx (.inr hs)

lemma Reworked.regular (h : m.Reworked m') (hm : m.Regular k len) : m'.Regular k len := by
  induction h with
  | refl => exact hm
  | move h _ ih => exact ih (hm.move h)
  | release h _ ih => exact ih (hm.transition h fun _ _ _ _ => rfl)

lemma Regular.totalBytes (hm : m.Regular k len) (hk : k*len<2^64) : m.totalBytes = k*len := by
  have hsum := List.sum_eq_card_nsmul (m.slices.map Slice.len) len (by simpa using hm.len_eq)
  rw [List.length_map,hm.length_eq,smul_eq_mul] at hsum
  rw [SliceMap.totalBytes,hsum,Nat.mod_eq_of_lt hk]

lemma regular_new {sliceBytes backingBytes : ℕ} (h : new k sliceBytes backingBytes=.ok m) :
    m.Regular k sliceBytes ∧ m.count .leased=0 ∧ k*sliceBytes<2^64 := by
  unfold new at h
  split_ifs at h
  split at h
  · cases h
  · rename_i required hr
    obtain ⟨hlt,rfl⟩ := checkedMul_eq_some.mp hr
    split_ifs at h
    cases h
    refine ⟨⟨by simp,by simp,by simp⟩,?_,hlt⟩
    simp [count,List.countP_eq_zero]

end SliceMap

structure Ledger where
  leased : ℕ
  book : LeaseBook

namespace Ledger
variable {len g : ℕ} {l l' : Ledger}

/-- One entry, with the number of leases that it grants, where slices are `len` bytes long. -/
inductive Entry (len : ℕ) : Ledger → ℕ → Ledger → Prop
  | kept {n : ℕ} {b b' : LeaseBook} (hc : b'.capacityBytes=b.capacityBytes)
      (hi : b'.nextId=b.nextId) (hp : b'.pending=b.pending)
      (ha : b'.active.map ActiveLease.lease = b.active.map ActiveLease.lease) :
      Entry len ⟨n,b⟩ 0 ⟨n,b'⟩
  | requested {n : ℕ} {b : LeaseBook} (p : PendingLease) (ha : b.active=none)
      (hz : 0<p.requestedBytes) (hc : p.requestedBytes≤b.capacityBytes) :
      Entry len ⟨n,b⟩ 0 ⟨n,{b with pending := some p}⟩
  | cancelled {n : ℕ} {b : LeaseBook} : Entry len ⟨n,b⟩ 0 ⟨n,{b with pending := none}⟩
  | ended {n : ℕ} {b : LeaseBook} : Entry len ⟨n,b⟩ 0 ⟨0,{b with active := none}⟩
  | granted {n : ℕ} {b : LeaseBook} (p : PendingLease) (k deadline : ℕ)
      (hp : b.pending=some p) (hr : p.requestedBytes≤k*len) (hc : k*len≤b.capacityBytes) :
      Entry len ⟨n,b⟩ 1 ⟨n+k,{ b with
        nextId := b.nextId+1
        pending := none
        active := some ⟨⟨b.nextId,p.holder,k*len⟩,deadline⟩}⟩

lemma Entry.refl (l : Ledger) : Entry len l 0 l := .kept rfl rfl rfl rfl

structure Balanced (len : ℕ) (l : Ledger) : Prop where
  request : ∀ p, l.book.pending=some p →
    l.book.active=none ∧ 0<p.requestedBytes ∧ p.requestedBytes≤l.book.capacityBytes
  idle : l.book.active=none → l.leased=0
  lease : ∀ a, l.book.active=some a →
    l.leased*len=a.lease.bytes ∧ 0<a.lease.bytes ∧ a.lease.bytes≤l.book.capacityBytes

variable (h : Entry len l g l')
include h

lemma Entry.balanced (hl : Balanced len l) : Balanced len l' := by
  cases h with
  | @kept n b b' hc hi hp ha =>
    have hnone : b'.active=none ↔ b.active=none := by
      rw [←Option.map_eq_none_iff,ha,Option.map_eq_none_iff]
    refine ⟨fun p hq => ?_,fun hn => hl.idle (hnone.mp hn),fun a hb => ?_⟩
    · dsimp only at hq ⊢
      rw [hp] at hq
      rw [hnone,hc]
      exact hl.request p hq
    · dsimp only at hb ⊢
      rw [hb] at ha
      obtain ⟨a',ha',he⟩ := Option.map_eq_some_iff.mp ha.symm
      rw [hc,←he]
      exact hl.lease a' ha'
  | requested p ha hz hc =>
    refine ⟨fun q hq => ?_,hl.idle,fun a hb => ?_⟩
    · cases hq
      exact ⟨ha,hz,hc⟩
    · exact hl.lease a hb
  | cancelled => exact ⟨fun p hp => (nomatch hp),hl.idle,hl.lease⟩
  | ended => exact ⟨fun p hp => ⟨rfl,(hl.request p hp).2⟩,fun _ => rfl,fun a ha => (nomatch ha)⟩
  | granted p k deadline hp hr hc =>
    obtain ⟨ha,hz,-⟩ := hl.request p hp
    refine ⟨fun p hp => (nomatch hp),fun ha => (nomatch ha),fun a hb => ?_⟩
    cases hb
    have hn := hl.idle ha
    dsimp only at hn hz ⊢
    subst hn
    exact ⟨by rw [Nat.zero_add],by omega,hc⟩

lemma Entry.capacityBytes_eq : l'.book.capacityBytes=l.book.capacityBytes := by
  cases h with
  | kept hc => exact hc
  | _ => rfl

lemma Entry.nextId_eq : l'.book.nextId = l.book.nextId+g := by
  cases h with
  | kept hc hi => exact hi
  | _ => rfl

lemma Entry.origin {lease : LogicalLease} (ha : l'.book.active.map ActiveLease.lease=some lease) :
    l.book.active.map ActiveLease.lease=some lease ∨
      ∃ p, l.book.pending=some p ∧ p.holder=lease.holder ∧ p.requestedBytes≤lease.bytes := by
  cases h with
  | kept hc hi hp hb => exact .inl (hb.symm.trans ha)
  | granted p k deadline hp hr hc =>
    cases ha
    exact .inr ⟨p,hp,rfl,hr⟩
  | ended => cases ha
  | _ => exact .inl ha

end Ledger
end RamShared.Broker

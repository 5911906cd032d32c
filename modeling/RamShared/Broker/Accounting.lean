import RamShared.Broker.LeaseHistory
import RamShared.Broker.Ledger
import RamShared.Broker.Rulings
import RamShared.Broker.Zeroing

/-! Lease and slice accounting agree. Every event is an entry of the ledger, a tick at most
two: the end of an expired lease, and the answer to a pending request. -/
namespace RamShared.Broker
open Lib

section
variable {F D : Type}

def LogLine.answer : LogLine F D → Bool
  | .arbiterError _ | .grantUnavailable | .grantDiverged | .grantRolledBack
  | .leaseGranted _ _ _ => true
  | _ => false

def LogLine.granted : LogLine F D → Bool
  | .leaseGranted _ _ _ => true
  | _ => false

/-- The answer of a tick to a pending lease, with the number of leases it grants. -/
inductive Answer (b : LeaseBook) : ℕ → List (LogLine F D) → Prop
  | silent : Answer b 0 []
  | granted (lease : ℕ) (holder : TenantId) (slices : List SliceId) :
      Answer b 1 [.leaseGranted lease holder slices]
  | exhausted (h : 2^32≤b.nextId+1) : Answer b 0 [.grantDiverged]

lemma Answer.of_nextId_eq {b b' : LeaseBook} {g : ℕ} {lines : List (LogLine F D)}
    (h : Answer b g lines) (hb : b'.nextId=b.nextId) : Answer b' g lines := by
  cases h with
  | silent => exact .silent
  | granted => exact .granted _ _ _
  | exhausted h => exact .exhausted (hb ▸ h)

/-- A call of the book that neither grants nor ends a lease is an entry by itself. -/
lemma LeaseBook.Transition.entry {len : ℕ} {b b' : LeaseBook} {call : LeaseCall}
    {reply : LeaseReply} (h : b.Transition call reply b')
    (hg : LeaseEvent.granted (call,reply)=none) (he : LeaseEvent.ended (call,reply)=none)
    (n : ℕ) : Ledger.Entry len ⟨n,b⟩ 0 ⟨n,b'⟩ := by
  cases h with
  | kept => exact .refl _
  | accepted hpos hle hp ha => exact .requested _ ha hpos hle
  | renewed ha => exact .kept rfl rfl rfl (by simp [ha])
  | cancelled => exact .cancelled
  | granted => cases hg
  | _ => cases he

namespace BrokerCore
variable {len : ℕ}

def ledger (c : BrokerCore F D) : Ledger := ⟨c.sliceMap.count .leased,c.leaseBook⟩

lemma entry_of_count {c c' : BrokerCore F D} (hm : c'.sliceMap.count .leased = c.sliceMap.count .leased)
    (hb : c'.leaseBook=c.leaseBook) : Ledger.Entry len c.ledger 0 c'.ledger := by
  unfold ledger
  rw [hm,hb]
  exact .refl _

variable {m : SliceMap} {k : ℕ}

lemma count_leased_eq {m' : SliceMap} {id : SliceId} {source target : SliceState}
    {refuse : SliceState → SliceError} {owner : Option TenantId → Option TenantId}
    (h : m.transition id source target refuse owner=.ok m') (hs : source≠.leased)
    (ht : target≠.leased) : m'.count .leased = m.count .leased := by
  simpa [hs,ht] using SliceMap.count_transition h .leased

lemma count_unleaseAll (m : SliceMap) : (unleaseAll m).count .leased=0 := by
  rw [SliceMap.count,List.countP_eq_zero]
  intro y hy
  have hg := SliceMap.get_of_mem hy
  rw [unleaseAll_get] at hg
  obtain ⟨x,hx,rfl⟩ := Option.map_eq_some_iff.mp hg
  by_cases hs : x.state=.leased <;> simp [unleaseCell,hs]

variable {ids : List SliceId} (c : BrokerCore F D) (sid : ℕ) (s : SliceId)

lemma leaseAll_free (hn : ids.Nodup) (hf : ∀ s∈ids, m.In s .free) : (leaseAll ids m).1=true ∧
      (leaseAll ids m).2.2.count .leased = m.count .leased+ids.length := by
  induction ids generalizing m with
  | nil => simp [leaseAll]
  | cons id ids ih =>
    obtain ⟨hid,hn⟩ := List.nodup_cons.mp hn
    obtain ⟨x,hx,hs⟩ := hf id (by simp)
    have hl : m.lease id=.ok (m.put id .leased x.tenant) := by
      simp [SliceMap.lease,SliceMap.transition,hx,hs]
    have hcount := SliceMap.count_transition hl .leased
    obtain ⟨hdone,hrest⟩ := ih hn (m := m.put id .leased x.tenant) fun s hs => by
      refine (hf s (by simp [hs])).of_get_eq ?_
      rw [SliceMap.get_put,if_neg]
      rintro rfl
      exact hid hs
    simp only [leaseAll,hl]
    refine ⟨hdone,?_⟩
    simp only [reduceCtorEq,if_false,if_true] at hcount
    rw [hrest,List.length_cons]
    omega

lemma grantedBytes_free (hm : m.Regular k len) (hf : ∀ s∈ids, m.In s .free)
    (hb : ids.length*len<2^64) : grantedBytes m ids=some (ids.length*len) := by
  -- The fold is the induction; its running total is the free parameter.
  have hfold (total : ℕ) (ht : total+ids.length*len<2^64) :
      ids.foldlM (fun total id => ((m.get id).filter fun s => s.state=.free).bind fun s =>
        checkedAdd 64 total s.len) total=some (total+ids.length*len) := by
    clear hb
    induction ids generalizing total with
    | nil => simp
    | cons id ids ih =>
      obtain ⟨x,hx,hs⟩ := hf id (by simp)
      have hl := hm.len_eq x (SliceMap.mem_of_get hx)
      rw [List.length_cons,Nat.add_mul,Nat.one_mul] at ht ⊢
      have hadd : checkedAdd 64 total x.len=some (total+len) :=
        checkedAdd_eq_some.mpr ⟨by omega,by rw [hl]⟩
      rw [List.foldlM_cons]
      simp only [hx,Option.filter_some,hs,decide_true,if_true,Option.bind_some,hadd,
        Option.bind_eq_bind]
      rw [ih (fun s hs => hf s (by simp [hs])) (total+len) (by omega)]
      congr 1
      omega
  simpa [grantedBytes] using hfold 0 (by omega)

lemma adopt_count (id : TenantId) (swaps : List SwapEntry) (m : SliceMap) :
    (adopt id swaps m : SliceMap × List (Outbound F D)).1.count .leased = m.count .leased := by
  induction swaps generalizing m with
  | nil => rfl
  | cons e es ih =>
    rcases adopt_cons id e es m with h | ⟨s,m',-,ha,h⟩ <;> rw [h]
    · exact ih m
    · exact (ih m').trans (count_leased_eq ha (by simp) (by simp))

lemma expireLease_entry (len now : ℕ) : Ledger.Entry len c.ledger 0 (c.expireLease now).1.ledger := by
  rcases c.expireLease_eq now with h | h <;> rw [h]
  · exact .refl _
  · simp only [ledger,count_unleaseAll]
    exact .ended

lemma onSwapOnFailed_count (detail : String) :
    (c.onSwapOnFailed s detail).1.sliceMap.count .leased = c.sliceMap.count .leased := by
  cases hd : c.sliceMap.drain s with
  | error e => simp only [onSwapOnFailed,hd]
  | ok m =>
    have hm := count_leased_eq hd (by simp) (by simp)
    cases hr : m.release s with
    | error e => simpa only [onSwapOnFailed,hd,hr,attempt] using hm
    | ok m' =>
      simp only [onSwapOnFailed,hd,hr]
      exact (count_leased_eq hr (by simp) (by simp)).trans hm

lemma onZeroOk_count : (c.onZeroOk s).1.sliceMap.count .leased = c.sliceMap.count .leased := by
  rcases c.onZeroOk_sliceMap s with ⟨h,-⟩ | ⟨m,hr,h | ⟨t,ha⟩⟩
  · rw [h]
  · rw [h]
    exact count_leased_eq hr (by simp) (by simp)
  · exact (count_leased_eq ha (by simp) (by simp)).trans (count_leased_eq hr (by simp) (by simp))

lemma onGrantLease_entry {c : BrokerCore F D} (hm : c.sliceMap.Regular k len) {p : PendingLease}
    (hp : c.leaseBook.pending=some p) (hn : ids.Nodup) (hf : ∀ s∈ids, c.sliceMap.In s .free)
    (hr : p.requestedBytes ≤ ids.length*len) (hc : ids.length*len ≤ c.leaseBook.capacityBytes)
    (hb : ids.length*len<2^64) (now : ℕ) :
    ∃ g, Ledger.Entry len c.ledger g (c.onGrantLease p.holder ids now).1.ledger ∧
      Answer c.leaseBook g ((rulings (c.onGrantLease p.holder ids now).2).filter LogLine.answer) := by
  unfold onGrantLease
  split_ifs with httl
  · refine ⟨0,?_,?_⟩
    · simp only [LeaseBook.cancelPending,hp,if_true]
      exact .cancelled
    · simp [LogLine.ruling,LogLine.answer,Answer.silent]
  rw [not_or] at httl
  obtain ⟨deadline,hd⟩ := Option.ne_none_iff_exists'.mp httl.2
  rw [grantedBytes_free hm hf hb]
  cases hid : checkedAdd 32 c.leaseBook.nextId 1 with
  | none =>
    refine ⟨0,?_,?_⟩ <;> simp only [LeaseBook.grantPending,httl.1,hd,hp,hid,if_false,
      Nat.not_lt.mpr hr,Nat.not_lt.mpr hc,or_self]
    · exact .refl _
    · refine .exhausted ?_
      by_contra hlt
      rw [checkedAdd,if_pos (Nat.not_le.mp hlt)] at hid
      cases hid
  | some following =>
    obtain ⟨-,rfl⟩ := checkedAdd_eq_some.mp hid
    obtain ⟨hdone,hcount⟩ := leaseAll_free hn hf
    refine ⟨1,?_,?_⟩ <;> simp only [LeaseBook.grantPending,httl.1,hd,hp,hid,if_false,
      Nat.not_lt.mpr hr,Nat.not_lt.mpr hc,or_self,hdone,if_true]
    · simp only [ledger,hcount]
      exact .granted p ids.length deadline hp hr hc
    · simp only [rulings_log,LogLine.ruling,if_true,rulings_toTenant]
      exact .granted _ _ _

lemma visibleSlices_idsIn {c : BrokerCore F D} (hm : c.sliceMap.Regular k len) {state : SliceState}
    (hs : state=.free ∨ state=.leased) :
    Arbiter.idsIn c.visibleSlices state = Arbiter.idsIn c.sliceMap.slices state := by
  unfold Arbiter.idsIn visibleSlices
  rw [List.filter_filter]
  congr 1
  refine List.filter_congr fun x hx => ?_
  by_cases hst : x.state=state
  · simp [hst,hm.unowned x hx (hst ▸ hs)]
  · simp [hst]

lemma Applied.swaps {c : BrokerCore F D} {now : ℕ} {a : Action}
    {x : BrokerCore F D × List (Outbound F D)} (h : Applied c now a x) (ha : a.swaps=true) :
    x.1.sliceMap.count .leased = c.sliceMap.count .leased ∧ x.1.leaseBook=c.leaseBook ∧
    (rulings x.2).filter LogLine.answer=[] := by
  cases h with
  | refused => exact ⟨rfl,rfl,rfl⟩
  | assigned h =>
    exact ⟨count_leased_eq h (by simp) (by simp),rfl,by simp [LogLine.ruling,LogLine.answer]⟩
  | moved _ _ _ h =>
    exact ⟨count_leased_eq h (by simp) (by simp),rfl,by simp [LogLine.ruling,LogLine.answer]⟩
  | revoked h =>
    exact ⟨count_leased_eq h (by simp) (by simp),rfl,by simp [LogLine.ruling,LogLine.answer]⟩
  | leased => cases ha

section
variable [FloatOps F]

lemma applyActions_swaps (present : List (TenantView F)) (now : ℕ) {as : List Action}
    (ha : ∀ a∈as, a.swaps=true) (c : BrokerCore F D) :
    (applyActions present now as c).1.sliceMap.count .leased = c.sliceMap.count .leased ∧
    (applyActions present now as c).1.leaseBook=c.leaseBook ∧
    (rulings (applyActions present now as c).2).filter LogLine.answer=[] := by
  induction as generalizing c with
  | nil => simp [applyActions]
  | cons a as ih =>
    obtain ⟨hm,hb,ho⟩ := (c.applied present now a).swaps (ha a (by simp))
    obtain ⟨hm',hb',ho'⟩ := ih (fun x hx => ha x (by simp [hx])) (c.applyAction present now a).1
    simp only [applyActions,rulings_append,List.filter_append,ho,ho',List.append_nil]
    exact ⟨hm'.trans hm,hb'.trans hb,trivial⟩

/-- The handling of a pending lease on a balanced ledger: nothing where no slice is visible,
revocations for the slices that are not yet free, or the grant of free ones. -/
lemma tickArbiter_of_pending {c : BrokerCore F D} {k : ℕ} (hm : c.sliceMap.Regular k len)
    (hb : c.ledger.Balanced len) (hcap : c.leaseBook.capacityBytes = k*len) {p : PendingLease}
    (hp : c.leaseBook.pending=some p) (now : ℕ) : c.tickArbiter now = (c,[]) ∨
    (∃ xs : List (SliceId × TenantId × F), (∀ x∈xs, x∈Arbiter.revocable c.presentViews c.visibleSlices) ∧
      xs.length+c.sliceMap.count .free≤divCeil p.requestedBytes len ∧
      c.tickArbiter now = applyActions c.presentViews now (xs.map fun x => .revokeForLease x.1 x.2.1) c) ∨
    ∃ ids : List SliceId, ids.Nodup ∧ (∀ s∈ids, c.sliceMap.In s .free) ∧
      p.requestedBytes ≤ ids.length*len ∧ ids.length≤k ∧
      c.tickArbiter now = c.onGrantLease p.holder ids now := by
  obtain ⟨ha,hz,hle⟩ := hb.request p hp
  have hleased : Arbiter.idsIn c.visibleSlices .leased=[] := by
    rw [visibleSlices_idsIn hm (.inr rfl),←List.length_eq_zero_iff,SliceMap.idsIn_length]
    exact hb.idle ha
  have hlen : 0<len := by
    refine Nat.pos_of_ne_zero fun h => ?_
    change p.requestedBytes ≤ c.leaseBook.capacityBytes at hle
    rw [hcap,h,Nat.mul_zero] at hle
    omega
  simp only [tickArbiter,hp,Option.map_some,Arbiter.tick]
  cases hv : c.visibleSlices.head? with
  | none =>
    left
    simp only [Option.map_none,Option.getD_none,Arbiter.leaseActions,true_or,if_true,
      applyActions]
  | some x =>
    right
    have hx : x.len=len := hm.len_eq x (List.mem_filter.mp (List.mem_of_mem_head? hv)).1
    simp only [Option.map_some,Option.getD_some,hx,
      Arbiter.leaseActions_eq hleased hlen.ne' hz.ne',visibleSlices_idsIn hm (.inl rfl)]
    split_ifs with hshort
    · rw [SliceMap.idsIn_length] at hshort ⊢
      refine .inl ⟨_,fun x hx => List.mem_of_mem_take hx,?_,rfl⟩
      have := List.length_take_le (divCeil p.requestedBytes len-c.sliceMap.count .free)
        (Arbiter.revocable c.presentViews c.visibleSlices)
      omega
    · have hneed := List.length_take_of_le (Nat.not_lt.mp hshort)
      refine .inr ⟨(Arbiter.idsIn c.sliceMap.slices .free).take (divCeil p.requestedBytes len),
        (List.take_sublist _ _).nodup (c.sliceMap.idsIn_nodup .free),
        fun s hs => SliceMap.in_iff_mem_idsIn.mpr (List.mem_of_mem_take hs),?_,?_,?_⟩
      · rw [hneed]
        exact le_divCeil_mul hlen _
      · rw [SliceMap.idsIn_length] at hshort
        rw [hneed]
        exact (Nat.not_lt.mp hshort).trans (hm.length_eq ▸ List.countP_le_length)
      · simp only [applyActions,applyAction,List.append_nil]

lemma tickArbiter_entry {c : BrokerCore F D} {k : ℕ} (hm : c.sliceMap.Regular k len)
    (hb : c.ledger.Balanced len) (hcap : c.leaseBook.capacityBytes = k*len) (hk : k*len<2^64) (now : ℕ) :
    ∃ g, Ledger.Entry len c.ledger g (c.tickArbiter now).1.ledger ∧
      Answer c.leaseBook g ((rulings (c.tickArbiter now).2).filter LogLine.answer) := by
  cases hp : c.leaseBook.pending with
  | none =>
    obtain ⟨hplan,h⟩ := tickArbiter_of_none hp now
    obtain ⟨hc,hl,ho⟩ := applyActions_swaps c.presentViews now hplan.swaps
      {c with arbiter := c.nextArbiter now}
    rw [h,carryOut,ho]
    exact ⟨0,entry_of_count hc hl,.silent⟩
  | some p =>
    rcases tickArbiter_of_pending hm hb hcap hp now with h | ⟨xs,-,-,h⟩ | ⟨ids,hn,hf,hr,hle,h⟩ <;>
      rw [h]
    · exact ⟨0,.refl _,.silent⟩
    · have hswaps : ∀ a∈xs.map (fun x => Action.revokeForLease x.1 x.2.1), a.swaps=true := by
        intro a ha
        obtain ⟨x,-,rfl⟩ := List.mem_map.mp ha
        rfl
      obtain ⟨hc,hl,ho⟩ := applyActions_swaps c.presentViews now hswaps c
      rw [ho]
      exact ⟨0,entry_of_count hc hl,.silent⟩
    · have hbytes := Nat.mul_le_mul_right len hle
      exact onGrantLease_entry hm hp hn hf hr (by omega) (by omega) now

end

/-- A broker of `k` slices of `len` bytes each whose ledger is in order. -/
structure Sound (k len : ℕ) (c : BrokerCore F D) : Prop where
  regular : c.sliceMap.Regular k len
  balanced : c.ledger.Balanced len
  capacityBytes_eq : c.leaseBook.capacityBytes = k*len

lemma sound_new {sliceBytes backingBytes : ℕ} (h : SliceMap.new k sliceBytes backingBytes=.ok m)
    (cfg : BrokerCoreConfig F D) : (new m cfg).Sound k sliceBytes := by
  obtain ⟨hm,hl,hk⟩ := SliceMap.regular_new h
  refine ⟨hm,⟨fun p hp => (nomatch hp),fun _ => hl,fun a ha => (nomatch ha)⟩,?_⟩
  exact hm.totalBytes hk

section
variable [FloatOps F] [FloatOps D] [DebugMsg F] {k : ℕ}

lemma entry_of_ne_tick (c : BrokerCore F D) (i : Input F) (h : i.event≠.tick) :
    Ledger.Entry len c.ledger 0 (c.step i).ledger := by
  have hnoted {b : LeaseBook} (hb : c.leaseBook.Noted b) (n : ℕ) :
      Ledger.Entry len ⟨n,c.leaseBook⟩ 0 ⟨n,b⟩ := by
    obtain ⟨call,reply,ht,hg,he⟩ := hb
    exact ht.entry hg he n
  have hh := c.handled i h
  unfold step
  generalize i.event=e,c.handle i = x at hh
  cases hh with
  | answered hb => exact hnoted hb _
  | seated _ hb => exact hnoted hb _
  | adopted _ _ _ hb =>
    simp only [ledger,adopt_count]
    exact hnoted hb _
  | unleased =>
    simp only [releaseSlices,ledger,count_unleaseAll]
    exact .ended
  | unmounted => exact entry_of_count (c.onSwapOnFailed_count _ _) rfl
  | swappedOff =>
    unfold onSwapOffOk
    split <;> exact .refl _
  | @zeroed s ok =>
    cases ok
    · exact .refl _
    · refine entry_of_count (c.onZeroOk_count s) ?_
      obtain ⟨m,d,out,-,-,h⟩ := c.onZeroOk_eq s
      simp only [onZeroDone,if_true,h]

variable {c : BrokerCore F D}

lemma handle_entries (hc : c.Sound k len) (hk : k*len<2^64) (i : Input F) :
    ∃ mid g, Ledger.Entry len c.ledger 0 mid ∧ mid.book.pending=c.leaseBook.pending ∧
      Ledger.Entry len mid g (c.step i).ledger ∧
      Answer c.leaseBook g ((rulings (c.handle i).2).filter LogLine.answer) := by
  by_cases ht : i.event=.tick
  · rcases i with ⟨e,now,sensors,order⟩
    cases ht
    have he := c.expireLease_entry len now
    have hm : (c.expireLease now).1.sliceMap.Regular k len := by
      obtain ⟨l,hm,-⟩ := (c.expireLease_quiet now).moves
      exact hm.reworked.regular hc.regular
    have hcap : (c.expireLease now).1.leaseBook.capacityBytes = k*len :=
      he.capacityBytes_eq.trans hc.capacityBytes_eq
    obtain ⟨g,he',ha⟩ := tickArbiter_entry hm (he.balanced hc.balanced) hcap hk now
    have hid : (c.expireLease now).1.leaseBook.nextId=c.leaseBook.nextId := he.nextId_eq
    refine ⟨_,g,he,c.expireLease_pending now,?_,?_⟩
    · obtain ⟨z,d,flag,n,hs⟩ := c.step_tick now sensors order
      rw [hs]
      exact he'
    · rw [rulings_tick]
      exact ha.of_nextId_eq hid.symm
  · refine ⟨c.ledger,0,.refl _,rfl,c.entry_of_ne_tick i ht,?_⟩
    rw [c.rulings_of_ne_tick i ht]
    exact .silent

lemma Sound.step (hc : c.Sound k len) (hk : k*len<2^64) (i : Input F) : (c.step i).Sound k len := by
  obtain ⟨mid,g,h₁,-,h₂,-⟩ := handle_entries hc hk i
  exact ⟨(c.step_reworked i).regular hc.regular,h₂.balanced (h₁.balanced hc.balanced),
    h₂.capacityBytes_eq.trans (h₁.capacityBytes_eq.trans hc.capacityBytes_eq)⟩

def outputs (c : BrokerCore F D) (is : List (Input F)) : List (Outbound F D) :=
  Lib.outputs step (fun c i => (c.handle i).2) c is

end

def twoSlices : SliceMap := (SliceMap.new 2 4096 8192).toOption.get (by decide)

lemma new_twoSlices : SliceMap.new 2 4096 8192=.ok twoSlices := rfl

end BrokerCore
end
end RamShared.Broker

import RamShared.Broker.Accounting
import RamShared.Broker.Destinations

/-! How many slices a pending lease has revoked. The arbiter counts the free slices at each tick
and not those it has already sent to drain, so the bound needs ticks that wait for them. -/
namespace RamShared.Broker
open Lib

variable {s : SliceId} {p : PendingLease} {m : SliceMap}

section
variable {F D : Type}

def LogLine.revokedSlice : LogLine F D → Option SliceId
  | .revoked s _ => some s
  | _ => none

def revoked (out : List (Outbound F D)) : List SliceId :=
  (rulings out).filterMap LogLine.revokedSlice

@[simp] lemma revoked_append (a b : List (Outbound F D)) : revoked (a++b) = revoked a++revoked b := by
  simp [revoked]

variable {x : BrokerCore F D × List (Outbound F D)} {c : BrokerCore F D}

namespace BrokerCore

/-- A tick finds no slice draining but those that move to another tenant, and no first sample
of a session reports a free slice as mounted. -/
def Patient (c : BrokerCore F D) (i : Input F) : Prop :=
  (i.event.isTick=true → ∀ x∈c.sliceMap.slices, x.state=.draining → x.id∈c.pendingDest) ∧
  ∀ r∈i.event.mounts, ∀ id∈c.sessions[r.1]?, ∀ t∈c.tenants[id]?, t.reconciled=false →
    ∀ s∈devToSlice r.2.dev, ∀ x∈c.sliceMap.get s, x.state≠.free

instance (c : BrokerCore F D) (i : Input F) : Decidable (c.Patient i) :=
  inferInstanceAs (Decidable (_ ∧ _))

lemma adopt_eq_self {id : TenantId} {swaps : List SwapEntry}
    (h : ∀ e∈swaps, ∀ s∈devToSlice e.dev, ∀ x∈m.get s, x.state≠.free) :
    (adopt id swaps m : SliceMap × List (Outbound F D)).1=m := by
  induction swaps with
  | nil => rfl
  | cons e es ih =>
    rw [adopt]
    split
    · exact ih fun e he => h e (by simp [he])
    · rename_i s hs
      have hn : ((m.get s).any fun x => x.state=.free)=false := by
        cases hx : m.get s with
        | none => rfl
        | some x => simpa using h e (by simp) s hs x hx
      rw [hn]
      exact ih fun e he => h e (by simp [he])

lemma unleaseAll_free (hs : m.In s .free) : (unleaseAll m).In s .free := by
  obtain ⟨x,hx,hst⟩ := hs
  exact ⟨x,by simp [unleaseAll_get,hx,unleaseCell,hst],hst⟩

lemma Applied.revoke {now : ℕ} {t : TenantId} (h : Applied c now (.revokeForLease s t) x) :
    (∀ k, c.sliceMap.In k .free → x.1.sliceMap.In k .free) ∧
    (∀ k, x.1.sliceMap.In k .active → c.sliceMap.In k .active) ∧
    ∀ k∈Broker.revoked x.2, k=s ∧ c.sliceMap.In k .active ∧ x.1.sliceMap.In k .draining := by
  cases h with
  | refused => exact ⟨fun _ => id,fun _ => id,nofun⟩
  | moved _ _ ha => obtain h | h := ha <;> cases h
  | revoked h =>
    refine ⟨fun k hk => ?_,fun k hk => ?_,fun k hk => ?_⟩
    · rcases SliceMap.get_transition h k with ⟨-,hg⟩ | ⟨rfl,x,hx,hst,-⟩
      · exact hk.of_get_eq hg
      · cases hk.unique ⟨x,hx,hst⟩
    · rcases SliceMap.get_transition h k with ⟨-,hg⟩ | ⟨rfl,x,hx,hst,-⟩
      · exact hk.of_get_eq hg.symm
      · exact ⟨x,hx,hst⟩
    · have hk : k=s := by
        simpa [Broker.revoked,LogLine.ruling,LogLine.revokedSlice] using hk
      subst hk
      exact ⟨rfl,SliceMap.in_of_transition h⟩

lemma applyActions_revoke [FloatOps F] (present : List (TenantView F)) (now : ℕ)
    (xs : List (SliceId × TenantId × F)) (c : BrokerCore F D) :
    let x := applyActions present now (xs.map fun x => .revokeForLease x.1 x.2.1) c
    x.1.pendingDest=c.pendingDest ∧
    (∀ k, c.sliceMap.In k .free → x.1.sliceMap.In k .free) ∧
    ∀ k∈revoked x.2, k∈xs.map Prod.fst ∧ c.sliceMap.In k .active ∧
      x.1.sliceMap.In k .draining := by
  induction xs generalizing c with
  | nil => simp [applyActions,revoked]
  | cons x xs ih =>
    have h := c.applied present now (.revokeForLease x.1 x.2.1)
    obtain ⟨hf,ha,hr⟩ := h.revoke
    obtain ⟨hd',hf',hr'⟩ := ih (c.applyAction present now (.revokeForLease x.1 x.2.1)).1
    obtain ⟨l,hm,-⟩ := (applyActions_quiet present now
      (xs.map fun x => .revokeForLease x.1 x.2.1)
      (c.applyAction present now (.revokeForLease x.1 x.2.1)).1).moves
    simp only [List.map_cons,applyActions,revoked_append,List.mem_append,List.mem_cons]
    refine ⟨hd'.trans (h.pendingDest rfl),fun k hk => hf' k (hf k hk),fun k hk => ?_⟩
    rcases hk with hk | hk
    · obtain ⟨rfl,hact,hdr⟩ := hr k hk
      exact ⟨.inl rfl,hact,hm.in_draining hdr⟩
    · obtain ⟨hmem,hact,hdr⟩ := hr' k hk
      exact ⟨.inr hmem,ha k hact,hdr⟩

lemma Granting.revoked {holder : TenantId} {ids : List SliceId} (h : Granting c holder ids x) :
    revoked x.2=[] := by
  cases h with
  | refused hline =>
    obtain rfl | rfl := hline <;> simp [Broker.revoked,LogLine.ruling,LogLine.revokedSlice]
  | _ => simp [Broker.revoked,LogLine.ruling,LogLine.revokedSlice]

lemma Granting.of_pending {holder : TenantId} {ids : List SliceId} (h : Granting c holder ids x)
    (hp : x.1.leaseBook.pending=some p) : x.1.sliceMap=c.sliceMap ∧ x.1.pendingDest=c.pendingDest := by
  cases h with
  | granted _ _ hb => cases hb.symm.trans hp
  | rolledBack _ hb => cases hb.symm.trans hp
  | _ => exact ⟨rfl,rfl⟩

lemma Shift.free {c' : BrokerCore F D} {e : CoreEvent F} (h : Shift c c' e)
    (hi : ∀ r∈e.mounts, ∀ id∈c.sessions[r.1]?, ∀ t∈c.tenants[id]?, t.reconciled=false →
      ∀ s∈devToSlice r.2.dev, ∀ x∈c.sliceMap.get s, x.state≠.free) (hs : c.sliceMap.In s .free) : c'.sliceMap.In s .free := by
  cases h with
  | idle hm hd => rwa [hm]
  | @adopted sid sample swaps mem id t hid ht hr hm hd =>
    rw [hm,adopt_eq_self]
    · exact hs
    · intro e he
      exact hi (sid,e) (List.mem_map.mpr ⟨e,he,rfl⟩) id hid t ht hr
  | unleased hm hd =>
    rw [hm]
    exact unleaseAll_free hs
  | @unmounted sid k detail hm hd =>
    rw [hm]
    rcases c.onSwapOnFailed_get k detail s with hg | ⟨rfl,y,hy,ha,-⟩
    · exact hs.of_get_eq hg
    · cases hs.unique ⟨y,hy,ha⟩
  | @zeroed k hm hd =>
    rw [hm]
    by_cases hk : s=k
    · subst hk
      exact hs.of_get_eq ((c.onZeroOk_get s).1 fun h => nomatch hs.unique h)
    · exact hs.of_get_eq (c.onZeroOk_get_of_ne hk)

def cover (m : SliceMap) (R : Finset SliceId) : Finset SliceId :=
  (Arbiter.idsIn m.slices .free).toFinset ∪ R ∩ (Arbiter.idsIn m.slices .draining).toFinset

lemma mem_cover {R : Finset SliceId} : s∈cover m R ↔ m.In s .free ∨ s∈R ∧ m.In s .draining := by
  simp [cover,SliceMap.in_iff_mem_idsIn]

/-- `R` are the slices revoked so far for a request of `n` slices that found `f` of them free:
not more than were missing, and each of them is on its way to the request. -/
structure Frugal (n f : ℕ) (R : Finset SliceId) (c : BrokerCore F D) : Prop where
  bound : R.card≤n-f
  covered : f+R.card≤(cover c.sliceMap R).card
  settled : ∀ s∈R, c.sliceMap.In s .draining → s∉c.pendingDest

section
variable [FloatOps F] [FloatOps D] [DebugMsg F] {n f k len : ℕ} {R : Finset SliceId} {c : BrokerCore F D}

lemma Frugal.of_ne_tick (hc : c.Frugal n f R) (hm : c.Moving) {i : Input F}
    (ht : i.event≠.tick) (hi : c.Patient i) : (c.step i).Frugal n f R := by
  have hshift := (c.step_spec i ht).1
  refine ⟨hc.bound,hc.covered.trans (Finset.card_le_card fun s hs => ?_),fun s hs _ hd => ?_⟩
  · rw [mem_cover] at hs ⊢
    rcases hs with hs | ⟨hR,hs⟩
    · exact .inl (hshift.free hi.2 hs)
    · rcases c.step_draining i hs with h | he
      · exact .inr ⟨hR,h⟩
      · rcases i with ⟨e,now,sensors,order⟩
        cases he
        exact .inl (onZeroOk_free hs (hc.settled s hR hs))
  · have hd := hshift.mem_pendingDest hd
    exact hc.settled s hs (hm s hd) hd

omit [FloatOps F] [FloatOps D] [DebugMsg F] in
lemma Frugal.cover_card (hc : c.Frugal n f R) (hquiet : ∀ s, c.sliceMap.In s .draining → s∈c.pendingDest) :
    (cover c.sliceMap R).card = c.sliceMap.count .free := by
  have h : cover c.sliceMap R = (Arbiter.idsIn c.sliceMap.slices .free).toFinset := by
    ext s
    rw [mem_cover,List.mem_toFinset,←SliceMap.in_iff_mem_idsIn]
    exact ⟨fun h => h.elim id fun h => absurd (hquiet s h.2) (hc.settled s h.1 h.2),.inl⟩
  rw [h,List.toFinset_card_of_nodup (c.sliceMap.idsIn_nodup .free),SliceMap.idsIn_length]

omit [FloatOps D] [DebugMsg F] in
lemma Frugal.revoke (hc : c.Frugal n f R) (hm : c.Moving)
    (hquiet : ∀ s, c.sliceMap.In s .draining → s∈c.pendingDest)
    (present : List (TenantView F)) (now : ℕ) {xs : List (SliceId × TenantId × F)}
    (hxs : xs.length+c.sliceMap.count .free≤n) :
    let x := applyActions present now (xs.map fun x => .revokeForLease x.1 x.2.1) c
    x.1.Frugal n f (R ∪ (revoked x.2).toFinset) := by
  intro x
  obtain ⟨hd,hf,hr⟩ := applyActions_revoke present now xs c
  obtain ⟨l,hmoves,-⟩ := (applyActions_quiet present now
    (xs.map fun x => .revokeForLease x.1 x.2.1) c).moves
  have hN : (revoked x.2).toFinset.card≤xs.length := by
    refine (Finset.card_le_card (t := (xs.map Prod.fst).toFinset) fun s hs => ?_).trans
      ((List.toFinset_card_le _).trans_eq (List.length_map _))
    exact List.mem_toFinset.mpr (hr s (List.mem_toFinset.mp hs)).1
  have hfree := hc.cover_card hquiet
  have hunion := Finset.card_union_le R (revoked x.2).toFinset
  have hcov := hc.covered
  refine ⟨by omega,?_,fun s hs hdr hdest => ?_⟩
  · have hdisj : Disjoint (cover c.sliceMap R) (revoked x.2).toFinset := by
      rw [Finset.disjoint_left]
      intro s hs hn
      have hact := (hr s (List.mem_toFinset.mp hn)).2.1
      rcases mem_cover.mp hs with h | ⟨-,h⟩
      · cases h.unique hact
      · cases h.unique hact
    have hsub : cover c.sliceMap R ∪ (revoked x.2).toFinset ⊆
        cover x.1.sliceMap (R ∪ (revoked x.2).toFinset) := by
      intro s hs
      rw [mem_cover]
      rcases Finset.mem_union.mp hs with hs | hs
      · rcases mem_cover.mp hs with h | ⟨hR,h⟩
        · exact .inl (hf s h)
        · exact .inr ⟨Finset.mem_union_left _ hR,hmoves.in_draining h⟩
      · exact .inr ⟨Finset.mem_union_right _ hs,(hr s (List.mem_toFinset.mp hs)).2.2⟩
    have hcard := Finset.card_le_card hsub
    rw [Finset.card_union_of_disjoint hdisj] at hcard
    omega
  · rw [hd] at hdest
    rcases Finset.mem_union.mp hs with hs | hs
    · exact hc.settled s hs (hm s hdest) hdest
    · cases (hm s hdest).unique (hr s (List.mem_toFinset.mp hs)).2.1

lemma Frugal.step (hc : c.Frugal (divCeil p.requestedBytes len) f R)
    (hs : c.Sound k len) (hm : c.Moving) {i : Input F} (hp : c.leaseBook.pending=some p) (hi : c.Patient i) :
    (R ∪ (revoked (c.handle i).2).toFinset).card≤divCeil p.requestedBytes len-f ∧
      ((c.step i).leaseBook.pending=some p → (c.step i).Frugal (divCeil p.requestedBytes len) f
          (R ∪ (revoked (c.handle i).2).toFinset)) := by
  by_cases ht : i.event=.tick
  · rcases i with ⟨e,now,sensors,order⟩
    cases ht
    have hidle : c.expireLease now = (c,[]) := by
      have ha : c.leaseBook.active=none := (hs.balanced.request p hp).1
      simp only [expireLease,LeaseBook.expire,ha]
    obtain ⟨z,d,flag,n,hstep⟩ := c.step_tick now sensors order
    rw [revoked,rulings_tick,←revoked,hstep,hidle]
    have hquiet (s : SliceId) (h : c.sliceMap.In s .draining) : s∈c.pendingDest := by
      obtain ⟨x,hx,hd⟩ := h
      rw [←SliceMap.id_of_get hx]
      exact hi.1 rfl x (SliceMap.mem_of_get hx) hd
    rcases tickArbiter_of_pending hs.regular hs.balanced hs.capacityBytes_eq hp now with
      h | ⟨xs,-,hxs,h⟩ | ⟨ids,-,-,-,-,h⟩ <;> rw [h]
    · simp only [revoked,rulings_nil,List.filterMap_nil,List.toFinset_nil,Finset.union_empty]
      exact ⟨hc.bound,fun _ => ⟨hc.bound,hc.covered,hc.settled⟩⟩
    · have hr := hc.revoke hm hquiet c.presentViews now hxs
      exact ⟨hr.bound,fun _ => ⟨hr.bound,hr.covered,hr.settled⟩⟩
    · have hg := c.granting p.holder ids now
      rw [hg.revoked,List.toFinset_nil,Finset.union_empty]
      refine ⟨hc.bound,fun hp' => ?_⟩
      obtain ⟨hmap,hdest⟩ := hg.of_pending hp'
      exact ⟨hc.bound,hmap ▸ hc.covered,hmap ▸ hdest ▸ hc.settled⟩
  · have hnone : revoked (c.handle i).2=[] := by
      rw [revoked,c.rulings_of_ne_tick i ht]
      rfl
    rw [hnone,List.toFinset_nil,Finset.union_empty]
    exact ⟨hc.bound,fun _ => hc.of_ne_tick hm ht hi⟩

lemma frugal_run (hk : k*len<2^64) {js : List (Input F)} (hb : R.card≤divCeil p.requestedBytes len-f)
    (hc : c.leaseBook.pending=some p → c.Frugal (divCeil p.requestedBytes len) f R)
    (hs : c.Sound k len) (hm : c.Moving)
    (h : AllSteps BrokerCore.step (fun c i => c.leaseBook.pending=some p ∧ c.Patient i) c js) :
    (R ∪ (revoked (c.outputs js)).toFinset).card≤divCeil p.requestedBytes len-f := by
  induction js generalizing c R with
  | nil => simpa [outputs,Lib.outputs,revoked] using hb
  | cons i js ih =>
    obtain ⟨⟨hp,hi⟩,hrest⟩ := h
    obtain ⟨hb',hc'⟩ := (hc hp).step hs hm hp hi
    have := ih hb' hc' (hs.step hk i) (step_moving hm i) hrest
    change (R ∪ (revoked ((c.handle i).2++(c.step i).outputs js)).toFinset).card≤_
    rwa [revoked_append,List.toFinset_append,←Finset.union_assoc]

/-- While a request is pending, the slices revoked for it are not more than it misses, if each
tick waits for the slices revoked before and no first sample takes a free slice. -/
theorem revocation_bound {sliceBytes backingBytes : ℕ} {m : SliceMap}
    (hm : SliceMap.new k sliceBytes backingBytes = .ok m) (cfg : BrokerCoreConfig F D)
    (is js : List (Input F)) {p : PendingLease}
    (h : AllSteps step (fun c i => c.leaseBook.pending = some p ∧ c.Patient i)
      (run step (new m cfg) is) js) :
    (revoked ((run step (new m cfg) is).outputs js)).toFinset.card ≤
      divCeil p.requestedBytes sliceBytes-(run step (new m cfg) is).sliceMap.count .free := by
  have hk : k*sliceBytes < 2^64 := (SliceMap.regular_new hm).2.2
  have hs : (run step (new m cfg) is).Sound k sliceBytes :=
    run_induction step (fun c i hc => hc.step hk i) (sound_new hm cfg) is
  have hmov : (run step (new m cfg) is).Moving :=
    run_induction step (P := Moving) (fun c i hc => step_moving hc i) (moving_new m cfg) is
  rw [← Finset.empty_union (revoked _).toFinset]
  refine frugal_run hk (by simp) (fun _ => ⟨by simp,?_,by simp⟩) hs hmov h
  rw [← SliceMap.idsIn_length,← List.toFinset_card_of_nodup (SliceMap.idsIn_nodup _ .free)]
  simp [cover]

end

/-- One tenant has mounted both slices; another, for leases only, is about to ask for one. -/
def mountedPair : List (Input ℚ) :=
  [.msg 0 (.register protoVersion "a" .nbdUnix),.tick,.msg 0 (.swapOnDone 0 true ""),
    .msg 0 (.swapOnDone 1 true ""),.msg 1 (.register protoVersion "dcc" .dccAgent)].map sampleInput

def requestedCore : BrokerCore ℚ ℚ :=
  run step (new twoSlices sampleConfig)
    (mountedPair++[sampleInput (.msg 1 (.leaseRequest 4096))])

/-- The revoked slice is swapped off and zeroed before the next tick. -/
def patientRun : List (Input ℚ) :=
  [.tick,.msg 0 (.swapOffDone 0 true ""),.zeroDone 0 true,.tick].map sampleInput

theorem revocation_bound_patientRun :
    AllSteps step (fun c i => c.leaseBook.pending = some ⟨2,4096⟩ ∧ c.Patient i) requestedCore
      patientRun ∧
    (revoked (requestedCore.outputs patientRun)).toFinset.card ≤
      divCeil 4096 4096-requestedCore.sliceMap.count .free := by
  have h : AllSteps step (fun c i => c.leaseBook.pending = some ⟨2,4096⟩ ∧ c.Patient i)
      requestedCore patientRun := by decide +kernel
  exact ⟨h,revocation_bound new_twoSlices sampleConfig _ patientRun h⟩

/-- A second tick comes before the revoked slice is swapped off. -/
def hastyRun : List (Input ℚ) :=
  [.tick,.tick,.msg 0 (.swapOffDone 0 true ""),.msg 0 (.swapOffDone 1 true ""),.zeroDone 0 true,
    .zeroDone 1 true,.tick].map sampleInput

/-- One slice is missing and two are revoked. Both are given up as ordered, nobody disconnects,
and the request is pending until it is granted. -/
theorem revoked_beyond_need :
    (run step (new twoSlices sampleConfig) mountedPair).leaseBook.pending = none ∧
    AllSteps step (fun c _ => c.leaseBook.pending = some ⟨2,4096⟩) requestedCore hastyRun ∧
    (run step requestedCore hastyRun).leaseBook.active.isSome = true ∧
    divCeil 4096 4096-requestedCore.sliceMap.count .free = 1 ∧
    (revoked (requestedCore.outputs hastyRun)).toFinset.card = 2 := by
  refine ⟨?_,?_,?_,?_,?_⟩ <;> decide +kernel

end BrokerCore
end
end RamShared.Broker

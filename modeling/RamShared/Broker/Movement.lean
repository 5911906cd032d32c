import RamShared.Broker.Accounting
import RamShared.Broker.Destinations
import RamShared.Broker.System

/-! Who is told to give up a slice, and what is left to a tenant that gives one up. The arbiter
takes its moves and revocations from the slices as they are, but a revert from its own record of
a past move, and the slices that it counts for a donor include those that drain already. -/
namespace RamShared.Broker
open Lib

variable {now : ℕ}

section
variable {F D : Type}

/-- The slice that an action drains, with the tenant that is told so. -/
def Action.drains : Action → Option (SliceId × TenantId)
  | .moveSlice s x _ => some (s,x)
  | .revertMove s x _ => some (s,x)
  | .revokeForLease s x => some (s,x)
  | _ => none

lemma Arbiter.Handout.drains_eq {tenants : List (TenantView F)} {slices : List Slice}
    {actions : List Action} (h : Arbiter.Handout tenants slices actions) {a : Action}
    (ha : a∈actions) : a.drains=none := by
  obtain ⟨_,-,-,_,-,rfl⟩ := h a ha
  rfl

lemma SliceMap.activeFor_of_mem {m : SliceMap} {x : Slice} {t : TenantId} (hx : x∈m.slices)
    (hs : x.state=.active) (ht : x.tenant=some t) : m.ActiveFor x.id t :=
  ⟨x,get_of_mem hx,hs,ht⟩

namespace BrokerCore

variable {c : BrokerCore F D} {s : SliceId} {t : TenantId}

lemma toTenant_congr {c' : BrokerCore F D} (h : c'.tenants=c.tenants) (t : TenantId) (m : Msg F) :
    c'.toTenant t m = c.toTenant t m := by
  simp only [toTenant,h]

section
variable (c : BrokerCore F D) (now : ℕ)

lemma expireLease_activeFor (s : SliceId) (t : TenantId) :
    (c.expireLease now).1.sliceMap.ActiveFor s t ↔ c.sliceMap.ActiveFor s t := by
  rcases c.expireLease_eq now with h | h <;> rw [h]
  constructor
  · rintro ⟨x,hx,hs,ht⟩
    rw [unleaseAll_get] at hx
    obtain ⟨y,hy,rfl⟩ := Option.map_eq_some_iff.mp hx
    exact ⟨y,hy,(unleaseCell_active y).mp hs,by simpa using ht⟩
  · rintro ⟨x,hx,hs,ht⟩
    exact ⟨unleaseCell x,by rw [unleaseAll_get,hx,Option.map_some],
      (unleaseCell_active x).mpr hs,by simpa using ht⟩

lemma expireLease_slicesOf (t : TenantId) : (c.expireLease now).1.slicesOf t = c.slicesOf t := by
  rcases c.expireLease_eq now with h | h <;> rw [h]
  simp [slicesOf,unleaseAll_slices,List.filter_map,Function.comp_def]

lemma expireLease_presentViews : (c.expireLease now).1.presentViews=c.presentViews := by
  simp only [presentViews,expireLease_tenants,expireLease_slicesOf]

end

section
variable {c : BrokerCore F D} {now : ℕ} {p : SliceId × TenantId}

lemma Applied.drains {a : Action} {x : BrokerCore F D × List (Outbound F D)}
    (ha : Applied c now a x) (h : p∈drains x.2) : a.drains=some p ∧ c.sliceMap.In p.1 .active ∧
      ∀ o∈c.toTenant p.2 (.swapOff p.1), o∈x.2 := by
  cases ha with
  | refused => cases h
  | assigned => simp [Broker.drains,LogLine.ruling,LogLine.drains] at h
  | moved _ _ ha hd =>
    obtain rfl := by simpa [Broker.drains,LogLine.ruling,LogLine.drains] using h
    refine ⟨?_,(SliceMap.in_of_transition hd).1,fun o ho => List.mem_cons_of_mem _ ho⟩
    obtain rfl | rfl := ha <;> rfl
  | revoked hd =>
    obtain rfl := by simpa [Broker.drains,LogLine.ruling,LogLine.drains] using h
    exact ⟨rfl,(SliceMap.in_of_transition hd).1,fun o ho => List.mem_cons_of_mem _ ho⟩
  | leased hg =>
    cases hg with
    | refused hline =>
      obtain rfl | rfl := hline <;> simp [Broker.drains,LogLine.ruling,LogLine.drains] at h
    | _ => simp [Broker.drains,LogLine.ruling,LogLine.drains] at h

variable [FloatOps F]

lemma applyActions_drains {present : List (TenantView F)} {as : List Action}
    (h : p∈drains (applyActions present now as c).2) : (∃ l a l', as = l++a::l' ∧ a.drains=some p ∧
      (applyActions present now l c).1.sliceMap.In p.1 .active) ∧
    ∀ o∈c.toTenant p.2 (.swapOff p.1), o∈(applyActions present now as c).2 := by
  induction as generalizing c with
  | nil => simp [applyActions,drains] at h
  | cons a as ih =>
    simp only [applyActions,drains_append,List.mem_append] at h ⊢
    rcases h with h | h
    · obtain ⟨ha,hs,ho⟩ := (c.applied present now a).drains h
      exact ⟨⟨[],a,as,rfl,ha,hs⟩,fun o h => .inl (ho o h)⟩
    · obtain ⟨⟨l,b,l',rfl,hb,hs⟩,ho⟩ := ih h
      refine ⟨⟨a::l,b,l',rfl,hb,hs⟩,fun o h => .inr (ho o ?_)⟩
      obtain ⟨_,_,_,_,he⟩ := c.applyAction_eq present now a
      rwa [toTenant_congr (by rw [he])]

/-- A slice that is drained on a proposal belongs to the tenant that is told so, or it is the
slice on record, for a revert. -/
lemma carryOut_drains (h : p∈drains (c.carryOut now).2) :
    (c.sliceMap.ActiveFor p.1 p.2 ∨ c.sliceMap.In p.1 .active ∧
      ∃ r, c.arbiter.lastMove=some r ∧ p = (r.slice,r.toTenant)) ∧
    ∀ o∈c.toTenant p.2 (.swapOff p.1), o∈(c.carryOut now).2 := by
  obtain ⟨⟨l,a,l',hl,ha,hs⟩,ho⟩ := applyActions_drains h
  refine ⟨?_,ho⟩
  have hmem : a∈c.proposals now := by simp [hl]
  have hvis {x : Slice} (hx : x∈c.visibleSlices) : x∈c.sliceMap.slices :=
    (List.mem_filter.mp hx).1
  cases hp : c.leaseBook.pending with
  | some q =>
    left
    rcases proposals_of_pending hp hmem with ⟨ids,rfl⟩ | ⟨y,hy,rfl⟩
    · cases ha
    · cases ha
      obtain ⟨x,hx,hid,hst,ht⟩ := Arbiter.mem_revocable hy
      rw [←hid]
      exact SliceMap.activeFor_of_mem (hvis hx) hst ht
  | none =>
    have hplan := (tickArbiter_of_none hp now).1
    generalize c.proposals now = actions at hplan hl hmem
    cases hplan with
    | @revert r rest hdue hrest =>
      -- The revert comes first; what follows it drains nothing.
      cases l with
      | nil =>
        obtain ⟨rfl,-⟩ := List.cons.inj hl
        cases ha
        exact .inr ⟨hs,r,(Option.filter_eq_some_iff.mp hdue).1,rfl⟩
      | cons b l =>
        obtain ⟨-,rfl⟩ := List.cons.inj hl
        rw [hrest.drains_eq (by simp)] at ha
        cases ha
    | move hdue hfree hdonor hfirst hzero =>
      obtain rfl := List.mem_singleton.mp hmem
      cases ha
      obtain ⟨x,hx,hid,hst,ht⟩ := Arbiter.firstActiveOf_mem hfirst
      left
      rw [←hid]
      exact SliceMap.activeFor_of_mem (hvis hx) hst ht
    | share hdue hrest =>
      rw [hrest.drains_eq hmem] at ha
      cases ha

end

/-- While a move is on record, its slice is not set free: no failed mount of it is reported, and
it is not zeroed without a destination. -/
def Kept (c : BrokerCore F D) (i : Input F) : Prop :=
  ∀ r∈c.arbiter.lastMove, ∀ x∈c.sliceMap.get r.slice,
    (i.event.unmounted=some r.slice → x.state≠.active) ∧
    (i.event.zeroed=some r.slice → x.state=.draining → r.slice∈c.pendingDest)

instance (c : BrokerCore F D) (i : Input F) : Decidable (c.Kept i) :=
  inferInstanceAs (Decidable (∀ r∈c.arbiter.lastMove, ∀ x∈c.sliceMap.get r.slice, _ ∧ _))

/-- The slice on record is on its way to the receiver, or with it. -/
def Recorded (c : BrokerCore F D) : Prop :=
  ∀ r, c.arbiter.lastMove=some r →
    (c.sliceMap.In r.slice .draining ∧ ∀ t, c.pendingDest[r.slice]?=some t → t=r.toTenant) ∨
      c.sliceMap.ActiveFor r.slice r.toTenant

lemma recorded_new (m : SliceMap) (cfg : BrokerCoreConfig F D) : (new m cfg).Recorded :=
  fun _ hr => nomatch hr

lemma Moving.dest_eq_none (hc : c.Moving) (hs : c.sliceMap.ActiveFor s t) : c.pendingDest[s]?=none :=
  Std.TreeMap.getElem?_eq_none fun h => hs.not_draining (hc s h)

lemma Recorded.expireLease (hc : c.Recorded) (now : ℕ) : (c.expireLease now).1.Recorded := by
  intro r hr
  obtain ⟨l,hm,-⟩ := (c.expireLease_quiet now).moves
  rw [expireLease_pendingDest,expireLease_activeFor]
  exact (hc r (by simpa using hr)).imp_left fun h => ⟨hm.in_draining h.1,h.2⟩

section
variable [FloatOps F]
variable {c : BrokerCore F D} {s : SliceId}

lemma onMove_of_active (hs : c.sliceMap.In s .active) (present : List (TenantView F))
    (x y : TenantId) (now : ℕ) :
    ∃ m, c.sliceMap.drain s=.ok m ∧ (c.onMove present s x y now).1 =
      { c with
        sliceMap := m
        pendingDest := c.pendingDest.insert s y
        lastRebalance := some now} := by
  obtain ⟨z,hz,hst⟩ := hs
  have h : c.sliceMap.drain s=.ok (c.sliceMap.put s .draining z.tenant) := by
    simp [SliceMap.drain,SliceMap.transition,hz,hst]
  exact ⟨_,h,by simp only [onMove,h]⟩

lemma proposals_of_move {x y : TenantId} (h : .moveSlice s x y∈c.proposals now) :
    c.proposals now = [.moveSlice s x y] ∧ c.sliceMap.ActiveFor s x ∧
      ∃ donor∈c.presentViews, donor.id=x ∧
        (FloatOps.lt c.arbiter.cfg.psiFloor donor.psi.avg10=true → 1<donor.slices) := by
  cases hp : c.leaseBook.pending with
  | some q => rcases proposals_of_pending hp h with ⟨_,h⟩ | ⟨_,-,h⟩ <;> cases h
  | none =>
    have hplan := (tickArbiter_of_none hp now).1
    generalize c.proposals now = actions at hplan h
    cases hplan with
    | revert hdue hrest =>
      rcases List.mem_cons.mp h with h | h
      · cases h
      · cases hrest.moves _ h
    | move hdue hfree hdonor hfirst hzero =>
      cases List.mem_singleton.mp h
      obtain ⟨z,hz,rfl,hst,ht⟩ := Arbiter.firstActiveOf_mem hfirst
      exact ⟨rfl,SliceMap.activeFor_of_mem (List.mem_filter.mp hz).1 hst ht,_,hdonor,rfl,hzero⟩
    | share hdue hrest => cases hrest.moves _ h

lemma carryOut_of_move {x y : TenantId} (h : .moveSlice s x y∈c.proposals now) :
    ∃ m, c.sliceMap.drain s=.ok m ∧ (c.carryOut now).1.sliceMap=m ∧
      (c.carryOut now).1.pendingDest = c.pendingDest.insert s y := by
  obtain ⟨hl,⟨z,hz,hst,-⟩,-⟩ := proposals_of_move h
  obtain ⟨m,hd,hm⟩ := onMove_of_active
    (c := {c with arbiter := c.nextArbiter now}) ⟨z,hz,hst⟩ c.presentViews x y now
  refine ⟨m,hd,?_⟩
  rw [carryOut,hl]
  change ((BrokerCore.onMove _ c.presentViews s x y now).1).sliceMap=m ∧
    ((BrokerCore.onMove _ c.presentViews s x y now).1).pendingDest=_
  rw [hm]
  exact ⟨rfl,rfl⟩

lemma Recorded.carryOut (hc : c.Recorded) (hm : c.Moving) (now : ℕ) : (c.carryOut now).1.Recorded := by
  intro r hr
  have harb : (c.carryOut now).1.arbiter = c.nextArbiter now := by
    obtain ⟨_,_,_,_,h⟩ := applyActions_eq c.presentViews now (c.proposals now)
      {c with arbiter := c.nextArbiter now}
    rw [BrokerCore.carryOut,h]
  rw [harb] at hr
  rcases Arbiter.tick_lastMove hr with ⟨hl,hmoves⟩ | hmove
  · have hd : (c.carryOut now).1.pendingDest=c.pendingDest :=
      applyActions_pendingDest c.presentViews now hmoves {c with arbiter := c.nextArbiter now}
    obtain ⟨l,hq,-⟩ := (applyActions_quiet c.presentViews now (c.proposals now)
      {c with arbiter := c.nextArbiter now}).moves
    change c.sliceMap.Moves l (c.carryOut now).1.sliceMap at hq
    rw [hd]
    rcases hc r hl with ⟨hs,ht⟩ | hs
    · exact .inl ⟨hq.in_draining hs,ht⟩
    · have hn := hm.dest_eq_none hs
      obtain ⟨x,hx,hst,ht⟩ := hs
      rcases hq.get_active hx hst with hg | hg
      · exact .inr ⟨x,hg,hst,ht⟩
      · exact .inl ⟨⟨_,hg,rfl⟩,fun t h => by simp [hn] at h⟩
  · obtain ⟨m,hdrain,hsm,hd⟩ := carryOut_of_move hmove
    rw [hsm,hd]
    exact .inl ⟨(SliceMap.in_of_transition hdrain).2,fun t h => by simpa using h.symm⟩

end

section
variable [FloatOps F] [FloatOps D] [DebugMsg F]
variable {c : BrokerCore F D}

lemma Recorded.of_ne_tick (hc : c.Recorded) (hm : c.Moving) {i : Input F} (ht : i.event≠.tick)
    (hi : c.Kept i) : (c.step i).Recorded := by
  intro r hr
  rw [(c.step_spec i ht).2.1] at hr
  have hshift := (c.step_spec i ht).1
  rcases hc r hr with ⟨hs,hto⟩ | hs
  · rcases c.step_draining i hs with hs' | he
    · exact .inl ⟨hs',fun t h => hto t (hshift.dest h)⟩
    · obtain ⟨x,hx,hst⟩ := hs
      have hmem := (hi r hr x hx).2 (by rw [he]; rfl) hst
      rw [Std.TreeMap.mem_iff_isSome_getElem?,Option.isSome_iff_exists] at hmem
      obtain ⟨t,hd⟩ := hmem
      obtain rfl := hto t hd
      rcases i with ⟨e,now,sensors,order⟩
      cases he
      exact .inr (onZeroOk_of_dest ⟨x,hx,hst⟩ hd).1
  · rcases c.step_active i hs with hs' | hs' | ⟨sid,detail,he⟩
    · exact .inr hs'
    · exact .inl ⟨hs',fun t h => nomatch (hm.dest_eq_none hs).symm.trans (hshift.dest h)⟩
    · obtain ⟨x,hx,hst,-⟩ := hs
      exact absurd hst ((hi r hr x hx).1 (by rw [he]; rfl))

lemma Recorded.step (hc : c.Recorded) (hm : c.Moving) {i : Input F} (hi : c.Kept i) : (c.step i).Recorded := by
  by_cases ht : i.event=.tick
  · rcases i with ⟨e,now,sensors,order⟩
    cases ht
    obtain ⟨z,d,flag,n,hs⟩ := c.step_tick_carryOut now sensors order
    rw [hs]
    exact (hc.expireLease now).carryOut (expireLease_moving hm now) now
  · exact hc.of_ne_tick hm ht hi

/-- The drained slice was active for the tenant named in the action, and the `SwapOff` goes to
this tenant. -/
def OrdersOwner (c : BrokerCore F D) (i : Input F) : Prop :=
  ∀ p∈drains (c.handle i).2, c.sliceMap.ActiveFor p.1 p.2 ∧
    ∀ o∈c.toTenant p.2 (.swapOff p.1), o∈(c.handle i).2

lemma mem_handle_tick {sensors : Sensors} {order : KeyOrder} {o : Outbound F D}
    (h : o∈((c.expireLease now).1.carryOut now).2) : o∈(c.handle ⟨.tick,now,sensors,order⟩).2 := by
  simp only [handle,onTick,List.mem_append]
  rcases (c.expireLease now).1.tickArbiter_eq now with he | ⟨e,-,hp⟩
  · rw [he]
    exact .inl (.inl (.inr h))
  · simp [carryOut,hp,applyActions] at h

lemma drains_tick {sensors : Sensors} {order : KeyOrder} {p : SliceId × TenantId}
    (h : p∈drains (c.handle ⟨.tick,now,sensors,order⟩).2) :
    p∈drains ((c.expireLease now).1.carryOut now).2 := by
  rw [drains,rulings_tick] at h
  rcases (c.expireLease now).1.tickArbiter_eq now with he | ⟨e,he,-⟩ <;> rw [he] at h
  · exact h
  · simp [LogLine.ruling,LogLine.drains] at h

lemma Recorded.ordersOwner (hc : c.Recorded) (i : Input F) : c.OrdersOwner i := by
  intro p hp
  by_cases ht : i.event=.tick
  · rcases i with ⟨e,now,sensors,order⟩
    cases ht
    obtain ⟨hown,hsent⟩ := carryOut_drains (drains_tick hp)
    rw [toTenant_congr (c.expireLease_tenants now)] at hsent
    have hown : (c.expireLease now).1.sliceMap.ActiveFor p.1 p.2 := by
      rcases hown with h | ⟨hs,r,hr,rfl⟩
      · exact h
      · rcases hc.expireLease now r hr with ⟨hd,-⟩ | h
        · cases hs.unique hd
        · exact h
    exact ⟨(c.expireLease_activeFor now p.1 p.2).mp hown,fun o ho => mem_handle_tick (hsent o ho)⟩
  · rw [drains,rulings_of_ne_tick c i ht] at hp
    cases hp

/-- The `SwapOff` of a drained slice goes to its owner, in every run in which the slice of a move
is not set free as long as the move is on record. -/
theorem drain_orders_owner (m : SliceMap) (cfg : BrokerCoreConfig F D) {is : List (Input F)}
    (h : AllSteps step Kept (new m cfg) is) : AllSteps step OrdersOwner (new m cfg) is :=
  AllSteps.of_invariant step (P := fun c => c.Recorded ∧ c.Moving)
    (fun _ i hc hi => ⟨hc.1.step hc.2 hi,step_moving hc.2 i⟩)
    (fun _ i hc _ => hc.1.ordersOwner i) ⟨recorded_new m cfg,moving_new m cfg⟩ h

end

def samplePsi (sid : ℕ) (avg10 : ℚ) : CoreEvent ℚ := .msg sid (.psi ⟨avg10,0,0⟩ [] none)

/-- The first tenant has all slices and reports the given pressure. Two more come without any,
and the last of them suffers until a slice is sent its way. -/
def pressedRun (psi : ℚ) : List (Input ℚ) :=
  ([.msg 0 (.register protoVersion "a" .nbdUnix),.tick,
    .msg 1 (.register protoVersion "b" .nbdUnix),
    .msg 2 (.register protoVersion "c" .nbdUnix),samplePsi 0 psi,samplePsi 2 20,
    .tick,.tick,.tick,.tick,.tick] : List (CoreEvent ℚ)).map sampleInput

/-- The slice is moved and, when its former owner suffers, taken back. -/
def revertedRun : List (Input ℚ) :=
  pressedRun 1++[.msg 0 (.swapOffDone 0 true ""),.zeroDone 0 true,
    .msg 2 (.swapOnDone 0 true ""),samplePsi 0 30,.tick].map sampleInput

theorem drain_orders_owner_revertedRun :
    AllSteps step Kept (new oneSlice sampleConfig) revertedRun ∧
    drains ((new oneSlice sampleConfig).outputs revertedRun) = [(0,1),(0,3)] ∧
    AllSteps step OrdersOwner (new oneSlice sampleConfig) revertedRun := by
  have h : AllSteps step Kept (new oneSlice sampleConfig) revertedRun := by decide +kernel
  exact ⟨h,by decide +kernel,drain_orders_owner oneSlice sampleConfig h⟩

/-- The receiver of the move cannot mount the slice, and it goes to the second tenant. -/
def strayRun : List (Input ℚ) :=
  pressedRun 1++[.msg 0 (.swapOffDone 0 true ""),.zeroDone 0 true,
    .msg 2 (.swapOnDone 0 false "mkswap"),.tick,samplePsi 0 30].map sampleInput

/-- The slice is active for the second tenant, and the revert asks the third one for it. -/
theorem revert_asks_stranger :
    let c := run step (new oneSlice sampleConfig) strayRun
    c.sliceMap.get 0 = some ⟨0,0,4096,some 2,.active⟩ ∧
    drains (c.handle (sampleInput .tick)).2 = [(0,3)] ∧
    sentSwapOffs (c.handle (sampleInput .tick)).2 = [(2,0)] ∧
    ¬c.OrdersOwner (sampleInput .tick) := by
  intro c
  have hg : c.sliceMap.get 0 = some ⟨0,0,4096,some 2,.active⟩ := by decide +kernel
  have hd : drains (c.handle (sampleInput .tick)).2 = [(0,3)] := by decide +kernel
  refine ⟨hg,hd,by decide +kernel,fun h => ?_⟩
  obtain ⟨⟨x,hx,-,ht⟩,-⟩ := h (0,3) (by rw [hd]; exact List.mem_singleton_self _)
  rw [hg] at hx
  cases hx
  cases ht

section
variable [FloatOps F] [FloatOps D] [DebugMsg F]

/-- The actions that the handling of an event has to carry out. -/
def decisions (c : BrokerCore F D) (i : Input F) : List Action :=
  if i.event.isTick then (c.expireLease i.now).1.proposals i.now else []

/-- A move does not take the last active slice of a donor under pressure. -/
def NeverZero (c : BrokerCore F D) (i : Input F) : Prop :=
  ∀ s x y, .moveSlice s x y∈c.decisions i → (s,x)∈drains (c.handle i).2 →
    ∀ t∈c.tenants[x]?, FloatOps.lt c.arbiter.cfg.psiFloor t.psi.avg10=true →
      ∃ k, (c.step i).sliceMap.ActiveFor k x

end

def activeOf (c : BrokerCore F D) (t : TenantId) : List SliceId :=
  (c.sliceMap.slices.filter fun s => s.state=.active && s.tenant=some t).map Slice.id

lemma mem_activeOf : s∈c.activeOf t ↔ c.sliceMap.ActiveFor s t := by
  simp only [activeOf,List.mem_map,List.mem_filter,Bool.and_eq_true,decide_eq_true_eq]
  constructor
  · rintro ⟨x,⟨hx,hs,ht⟩,rfl⟩
    exact SliceMap.activeFor_of_mem hx hs ht
  · rintro ⟨x,hx,hs,ht⟩
    exact ⟨x,⟨SliceMap.mem_of_get hx,hs,ht⟩,SliceMap.id_of_get hx⟩

lemma activeOf_nodup (c : BrokerCore F D) (t : TenantId) : (c.activeOf t).Nodup := by
  have h : (c.sliceMap.slices.map Slice.id).Nodup := by
    rw [c.sliceMap.ids]
    exact List.nodup_range
  exact (List.filter_sublist.map Slice.id).nodup h

lemma exists_active_ne (hs : c.sliceMap.ActiveFor s t) (hlen : (c.activeOf t).length≠1) :
    ∃ k, k≠s ∧ c.sliceMap.ActiveFor k t := by
  by_contra! h
  have hsub : c.activeOf t ⊆ [s] := fun k hk => by
    by_contra hne
    exact h k (by simpa using hne) (mem_activeOf.mp hk)
  have hle := ((c.activeOf_nodup t).subperm hsub).length_le
  have hpos := List.length_pos_of_mem (mem_activeOf.mpr hs)
  exact hlen (Nat.le_antisymm hle hpos)

section
variable [FloatOps F] [FloatOps D] [DebugMsg F]

/-- At a tick, a tenant under pressure with a single active slice has no other slice. -/
def Whole (c : BrokerCore F D) (i : Input F) : Prop :=
  i.event.isTick=true → ∀ p∈c.tenants.toList,
    FloatOps.lt c.arbiter.cfg.psiFloor p.2.psi.avg10=true → (c.activeOf p.1).length=1 →
      (c.slicesOf p.1).length=1

omit [FloatOps D] [DebugMsg F] in
instance (c : BrokerCore F D) (i : Input F) : Decidable (c.Whole i) :=
  inferInstanceAs (Decidable (_ → _))

lemma Whole.neverZero {c : BrokerCore F D} {i : Input F} (hi : c.Whole i) : c.NeverZero i := by
  intro s x y hmove _ t ht hpsi
  rcases i with ⟨e,now,sensors,order⟩
  cases he : e.isTick with
  | false => simp [decisions,he] at hmove
  | true =>
    obtain rfl := CoreEvent.isTick_iff.mp he
    obtain ⟨-,hs,donor,hdonor,rfl,hzero⟩ := proposals_of_move hmove
    obtain ⟨m,hd,hm,-⟩ := carryOut_of_move hmove
    rw [expireLease_presentViews] at hdonor
    obtain ⟨⟨id,t'⟩,hmem,rfl⟩ := List.mem_map.mp hdonor
    have hmem := (List.mem_filter.mp hmem).1
    obtain rfl : t=t' := by
      rw [Std.TreeMap.mem_toList_iff_getElem?_eq_some] at hmem
      exact Option.some.inj (ht.symm.trans hmem)
    have hmany : (c.slicesOf id).length≠1 := fun h => by
      have := hzero (by simpa using hpsi)
      simp [h] at this
    obtain ⟨k,hk,hact⟩ := exists_active_ne ((c.expireLease_activeFor now s id).mp hs)
      fun h => hmany (hi he (id,t) hmem hpsi h)
    obtain ⟨x,hx,hst,htx⟩ := (c.expireLease_activeFor now k id).mpr hact
    obtain ⟨_,_,_,_,hstep⟩ := c.step_tick_carryOut now sensors order
    refine ⟨k,x,?_,hst,htx⟩
    rw [hstep]
    change ((c.expireLease now).1.carryOut now).1.sliceMap.get k=some x
    rcases SliceMap.get_transition hd k with ⟨-,hg⟩ | ⟨rfl,-⟩
    · rw [hm,hg,hx]
    · exact absurd rfl hk

/-- A donor under pressure keeps an active slice, in every run whose ticks find no such tenant
with a single active slice and others that still drain. -/
theorem never_zero (m : SliceMap) (cfg : BrokerCoreConfig F D) {is : List (Input F)}
    (h : AllSteps step Whole (new m cfg) is) : AllSteps step NeverZero (new m cfg) is :=
  AllSteps.of_invariant step (P := fun _ => True) (fun _ _ _ _ => trivial)
    (fun _ _ _ hi => hi.neverZero) trivial h

end

/-- A tick when the first move of the slices is over, and the time for its revert too. -/
def lateTick : Input ℚ := {sampleInput .tick with now := 61*10^9}

/-- The first tenant owns both slices and gives one up; the move is carried out. -/
def halvedRun : List (Input ℚ) :=
  pressedRun 8++[.msg 0 (.swapOffDone 0 true ""),.zeroDone 0 true].map sampleInput

theorem never_zero_halvedRun :
    AllSteps step Whole (new twoSlices sampleConfig) halvedRun ∧
    drains ((new twoSlices sampleConfig).outputs halvedRun) = [(0,1)] ∧
    AllSteps step NeverZero (new twoSlices sampleConfig) halvedRun := by
  have h : AllSteps step Whole (new twoSlices sampleConfig) halvedRun := by decide +kernel
  exact ⟨h,by decide +kernel,never_zero twoSlices sampleConfig h⟩

/-- The first slice still drains when the second one is moved as well. -/
theorem donor_left_without_slice :
    let c := run step (new twoSlices sampleConfig) (pressedRun 8++List.replicate 4 lateTick)
    c.decisions lateTick = [.moveSlice 1 1 3] ∧ drains (c.handle lateTick).2 = [(1,1)] ∧
    (∃ t, c.tenants[1]? = some t ∧
      FloatOps.lt c.arbiter.cfg.psiFloor t.psi.avg10 = true) ∧
    ∀ k, ¬(c.step lateTick).sliceMap.ActiveFor k 1 := by
  intro c
  have ha : (c.step lateTick).activeOf 1 = [] := by decide +kernel
  refine ⟨by decide +kernel,by decide +kernel,?_,fun k hk => ?_⟩
  · have h : (c.tenants[1]?.any fun t =>
        FloatOps.lt c.arbiter.cfg.psiFloor t.psi.avg10) = true := by decide +kernel
    simpa [Option.any_eq_true] using h
  · have := mem_activeOf.mpr hk
    rw [ha] at this
    cases this

end BrokerCore
end
end RamShared.Broker

import RamShared.Broker.Movement

/-! Whom a slice is handed to. Round robin and the end of a move choose the tenant by its number,
so it has to be reachable at that moment for the slice to be mounted; the reconciliation takes a
slice over from a session that speaks. -/
namespace RamShared.Broker
open Lib

section
variable {F D : Type}

def Outbound.swapOn : Outbound F D → Option (ℕ × SliceId)
  | .toSession sid (.swapOn s _ _ _) => some (sid,s)
  | _ => none

/-- The `SwapOn`s among some outbound actions, with the sessions that get them. -/
def sentSwapOns (out : List (Outbound F D)) : List (ℕ × SliceId) := out.filterMap Outbound.swapOn

lemma sentSwapOns_subset {a b : List (Outbound F D)} (h : ∀ o∈a, o∈b) : ∀ p∈sentSwapOns a, p∈sentSwapOns b := by
  intro p hp
  obtain ⟨o,ho,hp⟩ := List.mem_filterMap.mp hp
  exact List.mem_filterMap.mpr ⟨o,h o ho,hp⟩

namespace SliceMap

variable {m : SliceMap} {s : SliceId} {t : TenantId}

lemma ActiveFor.of_transition {m' : SliceMap} {id : SliceId} {source target : SliceState}
    {refuse : SliceState → SliceError} {owner : Option TenantId → Option TenantId}
    (ha : m'.ActiveFor s t) (h : m.transition id source target refuse owner=.ok m')
    (ht : target≠.active) : m.ActiveFor s t := by
  obtain ⟨x,hx,hs,hto⟩ := ha
  rcases get_transition h s with ⟨-,hg⟩ | ⟨-,y,-,-,hg⟩
  · exact ⟨x,hg ▸ hx,hs,hto⟩
  · rw [hg] at hx
    cases hx
    exact absurd hs ht

lemma ActiveFor.of_assign {m' : SliceMap} {id : SliceId} {u : TenantId} (ha : m'.ActiveFor s t)
    (h : m.assign id u=.ok m') : m.ActiveFor s t ∨ s=id ∧ t=u := by
  obtain ⟨x,hx,hs,hto⟩ := ha
  rcases get_transition h s with ⟨-,hg⟩ | ⟨rfl,y,-,-,hg⟩
  · exact .inl ⟨x,hg ▸ hx,hs,hto⟩
  · rw [hg] at hx
    cases hx
    exact .inr ⟨rfl,(Option.some.inj hto).symm⟩

lemma ActiveFor.in_active (h : m.ActiveFor s t) : m.In s .active := by
  obtain ⟨x,hx,hs,-⟩ := h
  exact ⟨x,hx,hs⟩

end SliceMap

variable (c : BrokerCore F D)

namespace BrokerCore

/-- The tenant can be told to mount a slice: it is present over a session of its own, and there
is an endpoint for its transport. -/
def Linked (t : TenantId) : Prop :=
  ∃ x∈c.tenants[t]?, x.present=true ∧ (c.endpointFor x.transport).isSome=true ∧
    ∃ sid∈x.sid, c.sessions[sid]?=some t

instance (t : TenantId) : Decidable (c.Linked t) :=
  inferInstanceAs (Decidable (∃ x∈c.tenants[t]?, _ ∧ _ ∧ ∃ sid∈x.sid, _))

def Live (t : TenantId) (sid : ℕ) : Prop :=
  ∃ x, c.tenants[t]?=some x ∧ x.present=true ∧ x.sid=some sid ∧ c.sessions[sid]?=some t

variable {c c' : BrokerCore F D} {t : TenantId} {s : SliceId}

lemma Live.of_eq {sid : ℕ} (h : c.Live t sid) (ht : c'.tenants=c.tenants)
    (hs : c'.sessions=c.sessions) : c'.Live t sid := by
  unfold Live
  rw [ht,hs]
  exact h

lemma Linked.emitSwapon (h : c.Linked t) (s : SliceId) :
    ∃ sid, c.Live t sid ∧ (sid,s)∈sentSwapOns (c.emitSwapon s t) := by
  obtain ⟨x,hx,hp,he,sid,hsid,hs⟩ := h
  obtain ⟨endpoint,he⟩ := Option.isSome_iff_exists.mp he
  have hx' : c.tenants[t]?=some x := hx
  have hsid' : x.sid=some sid := hsid
  refine ⟨sid,⟨x,hx',hp,hsid',hs⟩,?_⟩
  simp [BrokerCore.emitSwapon,toTenant,hx',he,hsid',sentSwapOns,Outbound.swapOn]

lemma emitSwapon_congr (ht : c'.tenants=c.tenants) (he : c'.endpoints=c.endpoints)
    (hp : c'.swapPrio=c.swapPrio) (s : SliceId) (t : TenantId) : c'.emitSwapon s t = c.emitSwapon s t := by
  have hend (k : TransportKind) : c'.endpointFor k = c.endpointFor k := by
    cases k <;> simp only [endpointFor,he]
  simp only [emitSwapon,ht,hend,hp,toTenant_congr ht]

variable {m : SliceMap} {ids : List SliceId}

lemma adopt_activeFor {id : TenantId} {swaps : List SwapEntry}
    (h : (adopt id swaps m : SliceMap × List (Outbound F D)).1.ActiveFor s t) :
    m.ActiveFor s t ∨ t=id ∧ ∃ e∈swaps, devToSlice e.dev=some s := by
  induction swaps generalizing m with
  | nil => exact .inl h
  | cons e es ih =>
    rcases adopt_cons (F := F) (D := D) id e es m with he | ⟨k,m',hk,ha,he⟩ <;> rw [he] at h
    · rcases ih h with h | ⟨ht,x,hx,hs⟩
      · exact .inl h
      · exact .inr ⟨ht,x,by simp [hx],hs⟩
    · rcases ih h with h | ⟨ht,x,hx,hs⟩
      · rcases h.of_assign ha with h | ⟨rfl,rfl⟩
        · exact .inl h
        · exact .inr ⟨rfl,e,by simp,hk⟩
      · exact .inr ⟨ht,x,by simp [hx],hs⟩

lemma leaseAll_activeFor (h : (leaseAll ids m).2.2.ActiveFor s t) : m.ActiveFor s t := by
  induction ids generalizing m with
  | nil => exact h
  | cons id ids ih =>
    rw [leaseAll] at h
    split at h
    · exact h
    · rename_i m' hl
      exact (ih h).of_transition hl (by simp)

lemma unlease_foldl_activeFor
    (h : (ids.foldl (fun m id => attempt m (m.unlease id)) m).ActiveFor s t) : m.ActiveFor s t := by
  induction ids generalizing m with
  | nil => exact h
  | cons id ids ih =>
    rw [List.foldl_cons] at h
    cases hu : m.unlease id with
    | error e =>
      rw [hu] at h
      exact ih h
    | ok m' =>
      rw [hu] at h
      exact (ih h).of_transition hu (by simp)

lemma Granting.activeFor {holder : TenantId} {x : BrokerCore F D × List (Outbound F D)}
    (hg : Granting c holder ids x) (h : x.1.sliceMap.ActiveFor s t) : c.sliceMap.ActiveFor s t := by
  cases hg with
  | granted => exact leaseAll_activeFor h
  | rolledBack => exact leaseAll_activeFor (unlease_foldl_activeFor h)
  | _ => exact h

lemma Shift.activeFor {e : CoreEvent F} (h : Shift c c' e) (hn : ¬c.sliceMap.In s .active)
    (ha : c'.sliceMap.ActiveFor s t) : (∃ sid sample swaps mem, e=.msg sid (.psi sample swaps mem) ∧
      c.sessions[sid]?=some t ∧ ∃ r∈e.mounts, devToSlice r.2.dev=some s) ∨
    e=.zeroDone s true ∧ c.sliceMap.In s .draining ∧ c.pendingDest[s]?=some t := by
  cases h with
  | idle hm hd => exact absurd (hm ▸ ha).in_active hn
  | @adopted sid sample swaps mem id x hid hx hr hm hd =>
    rw [hm] at ha
    rcases adopt_activeFor ha with ha | ⟨rfl,r,hr,hs⟩
    · exact absurd ha.in_active hn
    · exact .inl ⟨sid,sample,swaps,mem,rfl,hid,(sid,r),List.mem_map.mpr ⟨r,hr,rfl⟩,hs⟩
  | unleased hm hd =>
    rw [hm,unleaseAll] at ha
    exact absurd (unlease_foldl_activeFor ha).in_active hn
  | @unmounted sid k detail hm hd =>
    rw [hm] at ha
    rcases c.onSwapOnFailed_get k detail s with hg | ⟨rfl,y,hy,hact,-⟩
    · exact absurd (ha.in_active.of_get_eq hg.symm) hn
    · exact absurd ⟨y,hy,hact⟩ hn
  | @zeroed k hm hd =>
    rw [hm] at ha
    by_cases hk : s=k
    · subst hk
      by_cases hdr : c.sliceMap.In s .draining
      · refine .inr ⟨rfl,hdr,?_⟩
        cases hdest : c.pendingDest[s]? with
        | none =>
          have hfree := onZeroOk_free hdr fun h => by
            rw [Std.TreeMap.mem_iff_isSome_getElem?,hdest] at h
            cases h
          cases hfree.unique ha.in_active
        | some dest => rw [(onZeroOk_of_dest hdr hdest).1.unique ha]
      · exact absurd (ha.in_active.of_get_eq ((c.onZeroOk_get s).1 hdr).symm) hn
    · exact absurd (ha.in_active.of_get_eq (c.onZeroOk_get_of_ne hk).symm) hn

section
variable {c : BrokerCore F D} {now : ℕ} {s : SliceId} {t : TenantId}

lemma Applied.activeFor {a : Action} {x : BrokerCore F D × List (Outbound F D)}
    (ha : Applied c now a x) (h : x.1.sliceMap.ActiveFor s t) :
    c.sliceMap.ActiveFor s t ∨ a=.assignFree s t ∧ ∀ o∈c.emitSwapon s t, o∈x.2 := by
  cases ha with
  | refused => exact .inl h
  | assigned ha =>
    rcases h.of_assign ha with h | ⟨rfl,rfl⟩
    · exact .inl h
    · exact .inr ⟨rfl,fun o ho => List.mem_cons_of_mem _ ho⟩
  | moved _ _ _ hd => exact .inl (h.of_transition hd (by simp))
  | revoked hd => exact .inl (h.of_transition hd (by simp))
  | leased hg => exact .inl (hg.activeFor h)

variable [FloatOps F]

lemma applyActions_activeFor {present : List (TenantView F)} {as : List Action}
    (h : (applyActions present now as c).1.sliceMap.ActiveFor s t) :
    c.sliceMap.ActiveFor s t ∨ .assignFree s t∈as ∧
      ∀ o∈c.emitSwapon s t, o∈(applyActions present now as c).2 := by
  induction as generalizing c with
  | nil => exact .inl h
  | cons a as ih =>
    simp only [applyActions,List.mem_append,List.mem_cons] at h ⊢
    obtain ⟨_,_,_,_,he⟩ := c.applyAction_eq present now a
    rcases ih h with h | ⟨hmem,ho⟩
    · rcases (c.applied present now a).activeFor h with h | ⟨rfl,ho⟩
      · exact .inl h
      · exact .inr ⟨.inl rfl,fun o h => .inl (ho o h)⟩
    · rw [emitSwapon_congr (by rw [he]) (by rw [he]) (by rw [he])] at ho
      exact .inr ⟨.inr hmem,fun o h => .inr (ho o h)⟩

lemma carryOut_activeFor (h : (c.carryOut now).1.sliceMap.ActiveFor s t) :
    c.sliceMap.ActiveFor s t ∨ .assignFree s t∈c.proposals now ∧
      ∀ o∈c.emitSwapon s t, o∈(c.carryOut now).2 := applyActions_activeFor h

lemma proposals_of_assign (h : .assignFree s t∈c.proposals now) :
    c.leaseBook.pending=none ∧ ∃ v∈c.presentViews, v.id=t := by
  have hout {rest : List Action}
      (hrest : Arbiter.Handout c.presentViews c.visibleSlices rest)
      (h : .assignFree s t∈rest) : ∃ v∈c.presentViews, v.id=t := by
    obtain ⟨_,-,-,v,hv,he⟩ := hrest _ h
    cases he
    exact ⟨v,hv,rfl⟩
  cases hp : c.leaseBook.pending with
  | some q => rcases proposals_of_pending hp h with ⟨_,h⟩ | ⟨_,-,h⟩ <;> cases h
  | none =>
    refine ⟨rfl,?_⟩
    have hplan := (tickArbiter_of_none hp now).1
    generalize c.proposals now = actions at hplan h
    cases hplan with
    | revert hdue hrest =>
      rcases List.mem_cons.mp h with h | h
      · cases h
      · exact hout hrest h
    | move => cases List.mem_singleton.mp h
    | share hdue hrest => exact hout hrest h

end

def Attached (c : BrokerCore F D) : Prop :=
  ∀ sid t, c.sessions[sid]?=some t → c.Live t sid

lemma attached_new (m : SliceMap) (cfg : BrokerCoreConfig F D) : (new m cfg).Attached := by
  intro sid t h
  simp [new] at h

lemma Attached.of_eq (hc : c.Attached) (ht : c'.tenants=c.tenants) (hs : c'.sessions=c.sessions) :
    c'.Attached := by
  intro sid t h
  rw [hs] at h
  obtain ⟨x,hx,hp,hsid,-⟩ := hc sid t h
  exact ⟨x,by rw [ht,hx],hp,hsid,by rw [hs,h]⟩

lemma onRegister_spec [FloatOps F] (c : BrokerCore F D) (sid proto : ℕ) (name : String)
    (transport : TransportKind) :
    let c' := (c.onRegister sid proto name transport).1
    (c'.tenants=c.tenants ∧ c'.sessions=c.sessions) ∨
    ∃ id x, x.present=true ∧ x.sid=some sid ∧
      (∀ y k, c.tenants[id]?=some y → y.present=true → y.sid=some k → k=sid) ∧
      c'.tenants = c.tenants.insert id x ∧ c'.sessions = c.sessions.insert sid id := by
  unfold onRegister
  dsimp only
  generalize c.nameToId[name]?.getD c.nextTenant=id
  generalize (if id=c.nextTenant then wrappingAdd 32 c.nextTenant 1 else c.nextTenant)=n
  split_ifs with hp hdup
  · exact .inl ⟨rfl,rfl⟩
  · exact .inl ⟨rfl,rfl⟩
  · refine .inr ⟨id,_,?_,?_,fun y k hy hpr hk => ?_,rfl,rfl⟩
    · rfl
    · rfl
    · by_contra hne
      exact hdup (by simp [hy,hpr,hk,hne])

lemma Attached.onRegister [FloatOps F] (hc : c.Attached) (sid proto : ℕ) (name : String)
    (transport : TransportKind) : (c.onRegister sid proto name transport).1.Attached := by
  rcases c.onRegister_spec sid proto name transport with ⟨ht,hs⟩ | ⟨id,x,hp,hsid,hfree,ht,hs⟩
  · exact hc.of_eq ht hs
  · intro k t h
    rw [hs,Std.TreeMap.getElem?_insert] at h
    unfold Live
    rw [ht,hs]
    split_ifs at h with hk
    · obtain rfl := Nat.compare_eq_eq.mp hk
      cases h
      exact ⟨x,Std.TreeMap.getElem?_insert_self,hp,hsid,Std.TreeMap.getElem?_insert_self⟩
    · obtain ⟨y,hy,hpr,hky,hses⟩ := hc k t h
      have hid : id≠t := by
        rintro rfl
        exact hk (Nat.compare_eq_eq.mpr (hfree y k hy hpr hky).symm)
      refine ⟨y,?_,hpr,hky,?_⟩
      · rw [Std.TreeMap.getElem?_insert,if_neg (by simpa using hid),hy]
      · rw [Std.TreeMap.getElem?_insert,if_neg hk,hses]

lemma Attached.onDisconnect (hc : c.Attached) (sid : ℕ) : (c.onDisconnect sid).1.Attached := by
  unfold BrokerCore.onDisconnect
  split
  · exact hc
  rename_i id hid
  intro sid' t h
  change (c.sessions.erase sid)[sid']?=some t at h
  rw [Std.TreeMap.getElem?_erase] at h
  split_ifs at h with hsid
  obtain ⟨x,hx,hpr,hs,hses⟩ := hc sid' t h
  have hne : id≠t := by
    rintro rfl
    obtain ⟨y,hy,-,hs',-⟩ := hc sid id hid
    rw [hx] at hy
    cases hy
    rw [hs] at hs'
    exact hsid (Nat.compare_eq_eq.mpr (Option.some.inj hs').symm)
  refine ⟨x,?_,hpr,hs,?_⟩
  · change (c.tenants.modify id _)[t]?=some x
    rw [Std.TreeMap.getElem?_modify,if_neg (by simpa using hne),hx]
  · change (c.sessions.erase sid)[sid']?=some t
    rw [Std.TreeMap.getElem?_erase,if_neg hsid,hses]

lemma onPsi_tenants [FloatOps F] (c : BrokerCore F D) (sid : ℕ) (sample : PsiSample F)
    (swaps : List SwapEntry) (mem : Option TenantMem) (now : ℕ) {x : TenantState F}
    (hx : c.tenants[t]?=some x) :
    ∃ y, (c.onPsi sid sample swaps mem now).1.tenants[t]?=some y ∧ y.present=x.present ∧
      y.sid=x.sid := by
  unfold onPsi
  split
  · exact ⟨x,hx,rfl,rfl⟩
  rename_i id hid
  have hrec : ∃ y, (c.recordPsi id sample swaps mem).1.tenants[t]?=some y ∧
      y.present=x.present ∧ y.sid=x.sid := by
    unfold recordPsi
    split
    · exact ⟨x,hx,rfl,rfl⟩
    · rename_i z hz
      dsimp only
      rw [Std.TreeMap.getElem?_insert]
      split_ifs with h
      · obtain rfl := Nat.compare_eq_eq.mp h
        rw [hx] at hz
        cases hz
        exact ⟨_,rfl,rfl,rfl⟩
      · exact ⟨x,hx,rfl,rfl⟩
  obtain ⟨y,hy,hp,hs⟩ := hrec
  dsimp only
  rw [Std.TreeMap.getElem?_modify]
  split_ifs with h
  · obtain rfl := Nat.compare_eq_eq.mp h
    rw [hy]
    exact ⟨_,rfl,hp,hs⟩
  · exact ⟨y,hy,hp,hs⟩

lemma onPsi_sessions [FloatOps F] (c : BrokerCore F D) (sid : ℕ) (sample : PsiSample F)
    (swaps : List SwapEntry) (mem : Option TenantMem) (now : ℕ) :
    (c.onPsi sid sample swaps mem now).1.sessions=c.sessions := by
  simp only [onPsi,recordPsi]
  split
  · rfl
  · split <;> rfl

section
variable [FloatOps F] [FloatOps D] [DebugMsg F]

lemma step_tick_tenants (c : BrokerCore F D) (now : ℕ) (sensors : Sensors) (order : KeyOrder) :
    (c.step ⟨.tick,now,sensors,order⟩).tenants=c.tenants ∧
    (c.step ⟨.tick,now,sensors,order⟩).sessions=c.sessions ∧
    (c.step ⟨.tick,now,sensors,order⟩).nameToId=c.nameToId ∧
    (c.step ⟨.tick,now,sensors,order⟩).nextTenant=c.nextTenant := by
  obtain ⟨_,_,_,_,hs⟩ := c.step_tick_carryOut now sensors order
  obtain ⟨_,_,_,_,ha⟩ := applyActions_eq (c.expireLease now).1.presentViews now
    ((c.expireLease now).1.proposals now)
    {(c.expireLease now).1 with arbiter := (c.expireLease now).1.nextArbiter now}
  rw [hs,carryOut,ha]
  rcases c.expireLease_eq now with h | h <;> rw [h] <;> exact ⟨rfl,rfl,rfl,rfl⟩

lemma Attached.step {c : BrokerCore F D} (hc : c.Attached) (i : Input F) : (c.step i).Attached := by
  by_cases ht : i.event=.tick
  · rcases i with ⟨e,now,sensors,order⟩
    cases ht
    obtain ⟨ht,hs,-⟩ := c.step_tick_tenants now sensors order
    exact hc.of_eq ht hs
  obtain ⟨-,-,hframe⟩ := c.step_spec i ht
  rcases i with ⟨e,now,sensors,order⟩
  have hrest (he : e.ofSession=false) : (c.step ⟨e,now,sensors,order⟩).Attached :=
    hc.of_eq (hframe he).1 (hframe he).2.1
  cases e with
  | msg sid m =>
    cases m
    case register proto name transport => exact hc.onRegister sid proto name transport
    case psi sample swaps mem =>
      intro k t h
      have h' : c.sessions[k]?=some t := by
        rwa [←c.onPsi_sessions sid sample swaps mem now]
      obtain ⟨x,hx,hp,hs,-⟩ := hc k t h'
      obtain ⟨y,hy,hpy,hsy⟩ := c.onPsi_tenants sid sample swaps mem now hx
      exact ⟨y,hy,hpy.trans hp,hsy.trans hs,h⟩
    all_goals exact hrest rfl
  | disconnected sid => exact hc.onDisconnect sid
  | _ => exact hrest rfl

/-- A slice that becomes active is handed to a tenant present over a session of its own, which is
told to mount it, unless it has just reported the slice as mounted. -/
def Served (c : BrokerCore F D) (i : Input F) : Prop :=
  ∀ s t, ¬c.sliceMap.In s .active → (c.step i).sliceMap.ActiveFor s t →
    ∃ sid, (c.step i).Live t sid ∧ ((sid,s)∈sentSwapOns (c.handle i).2 ∨
      ∃ r∈i.event.mounts, devToSlice r.2.dev=some s)

/-- Those who may get a slice are linked: at a tick that deals with no lease all tenants that
the arbiter sees, at the end of a move its destination. -/
def Reached (c : BrokerCore F D) (i : Input F) : Prop :=
  (i.event.isTick=true → c.leaseBook.pending=none → ∀ v∈c.presentViews, c.Linked v.id) ∧
  ∀ s∈i.event.zeroed, ∀ x∈c.sliceMap.get s, x.state=.draining →
    ∀ dest∈c.pendingDest[s]?, c.Linked dest

instance (c : BrokerCore F D) (i : Input F) : Decidable (c.Reached i) :=
  inferInstanceAs (Decidable (_ ∧ _))

lemma Reached.served_tick {c : BrokerCore F D} {now : ℕ} {sensors : Sensors} {order : KeyOrder}
    (hi : c.Reached ⟨.tick,now,sensors,order⟩) : c.Served ⟨.tick,now,sensors,order⟩ := by
  intro s t hn ha
  obtain ⟨_,_,_,_,hstep⟩ := c.step_tick_carryOut now sensors order
  rw [hstep] at ha
  rcases carryOut_activeFor ha with ha | ⟨hmem,ho⟩
  · exact absurd ((c.expireLease_activeFor now s t).mp ha).in_active hn
  obtain ⟨hp,v,hv,rfl⟩ := proposals_of_assign hmem
  rw [expireLease_pending] at hp
  rw [expireLease_presentViews] at hv
  obtain ⟨sid,hlive,hsent⟩ := (hi.1 rfl hp v hv).emitSwapon s
  obtain ⟨ht,hs,-⟩ := c.step_tick_tenants now sensors order
  refine ⟨sid,hlive.of_eq ht hs,.inl (sentSwapOns_subset (fun o h => ?_) _ hsent)⟩
  refine mem_handle_tick (ho o ?_)
  rcases c.expireLease_eq now with he | he <;> rw [he] <;> exact h

lemma Reached.served_of_ne_tick {c : BrokerCore F D} (hc : c.Attached) {i : Input F}
    (ht : i.event≠.tick) (hi : c.Reached i) : c.Served i := by
  intro s t hn ha
  rcases i with ⟨e,now,sensors,order⟩
  rcases (c.step_spec ⟨e,now,sensors,order⟩ ht).1.activeFor hn ha with
    ⟨sid,sample,swaps,mem,he,hid,hr⟩ | ⟨he,⟨x,hx,hst⟩,hd⟩
  · cases he
    refine ⟨sid,hc.step _ sid t ?_,.inr hr⟩
    exact (congrArg (fun m => m[sid]?) (c.onPsi_sessions sid sample swaps mem now)).trans hid
  · cases he
    obtain ⟨sid,hlive,hsent⟩ := (hi.2 s rfl x hx hst t hd).emitSwapon s
    obtain ⟨ht,hs,-⟩ := (c.step_spec ⟨.zeroDone s true,now,sensors,order⟩ ht).2.2 rfl
    refine ⟨sid,hlive.of_eq ht hs,.inl ?_⟩
    change (sid,s)∈sentSwapOns (c.onZeroOk s).2
    rwa [(onZeroOk_of_dest ⟨x,hx,hst⟩ hd).2]

/-- Every slice that becomes active is served, in every run that hands slices to linked tenants
only. -/
theorem assigned_served (m : SliceMap) (cfg : BrokerCoreConfig F D) {is : List (Input F)}
    (h : AllSteps step Reached (new m cfg) is) : AllSteps step Served (new m cfg) is := by
  refine AllSteps.of_invariant step (P := Attached) (fun _ i hc _ => hc.step i)
    (fun c i hc hi => ?_) (attached_new m cfg) h
  by_cases ht : i.event=.tick
  · rcases i with ⟨e,now,sensors,order⟩
    cases ht
    exact hi.served_tick
  · exact hi.served_of_ne_tick hc ht

end

/-- A tenant reports a slice as mounted from earlier, gets another one, and has one moved. -/
def servedRun : List (Input ℚ) :=
  ([.msg 0 (.register protoVersion "a" .nbdUnix),
    .msg 0 (.psi ⟨8,0,0⟩ [⟨"/dev/nbd1",0,4,0⟩] none),.tick,
    .msg 1 (.register protoVersion "b" .nbdUnix),samplePsi 1 20,.tick,.tick,.tick,.tick,.tick,
    .msg 0 (.swapOffDone 0 true ""),.zeroDone 0 true] : List (CoreEvent ℚ)).map sampleInput

theorem assigned_served_servedRun :
    AllSteps step Reached (new twoSlices sampleConfig) servedRun ∧
    sentSwapOns ((new twoSlices sampleConfig).outputs servedRun) = [(0,0),(1,0)] ∧
    (run step (new twoSlices sampleConfig) servedRun).activeOf 1 = [1] ∧
    AllSteps step Served (new twoSlices sampleConfig) servedRun := by
  have h : AllSteps step Reached (new twoSlices sampleConfig) servedRun := by decide +kernel
  exact ⟨h,by decide +kernel,by decide +kernel,assigned_served twoSlices sampleConfig h⟩

/-- The receiver leaves before the slice that moves to it is zeroed: the slice becomes active for
a tenant that is absent, and nobody is told to mount it. -/
theorem assigned_to_absent :
    let c := run step (new oneSlice sampleConfig)
      (pressedRun 1++[.msg 0 (.swapOffDone 0 true ""),.disconnected 2].map sampleInput)
    let i := sampleInput (.zeroDone 0 true)
    c.sliceMap.get 0 = some ⟨0,0,4096,some 1,.draining⟩ ∧
    (c.step i).sliceMap.get 0 = some ⟨0,0,4096,some 3,.active⟩ ∧
    ((c.step i).tenants[3]?.any fun t => !t.present && t.sid.isNone) = true ∧
    sentSwapOns (c.handle i).2 = [] ∧ ¬c.Served i := by
  intro c i
  have hg : c.sliceMap.get 0 = some ⟨0,0,4096,some 1,.draining⟩ := by decide +kernel
  have hg' : (c.step i).sliceMap.get 0 = some ⟨0,0,4096,some 3,.active⟩ := by decide +kernel
  have hsent : sentSwapOns (c.handle i).2 = [] := by decide +kernel
  refine ⟨hg,hg',by decide +kernel,hsent,fun h => ?_⟩
  have hn : ¬c.sliceMap.In 0 .active := fun h => nomatch h.unique ⟨_,hg,rfl⟩
  obtain ⟨sid,-,hs | ⟨r,hr,-⟩⟩ := h 0 3 hn ⟨_,hg',rfl,rfl⟩
  · rw [hsent] at hs
    cases hs
  · cases hr

end BrokerCore
end
end RamShared.Broker

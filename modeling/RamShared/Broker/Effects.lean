import RamShared.Broker.Moves
import RamShared.Broker.LeaseHistory

/-! What each event of the core does to the slices, to the slices awaiting a zeroing, and which
orders it sends. -/
namespace RamShared.Broker
open Lib

section
variable {F D : Type} (out : List (Outbound F D))

def zeroOrders : List SliceId :=
  out.filterMap fun
    | .zeroSlice s _ _ => some s
    | _ => none

def swapOffOrders : List SliceId :=
  out.filterMap fun
    | .toSession _ (.swapOff s) => some s
    | _ => none

def Outbound.mount : Outbound F D → Option (SliceId × String)
  | .toSession _ (.swapOn s exportName _ _) => some (s,exportName)
  | _ => none

/-- The slices that some agent is told to mount, with the names of their exports. -/
def mounts : List (SliceId × String) := out.filterMap Outbound.mount

def LogLine.ruling : LogLine F D → Bool
  | .arbiterError _ | .assigned _ _ | .moved _ _ _ _ _ | .revoked _ _ | .leaseTtlInvalid
  | .grantUnavailable | .grantDiverged | .grantRolledBack | .leaseGranted _ _ _ => true
  | _ => false

def Outbound.ruling : Outbound F D → Option (LogLine F D)
  | .log line => if line.ruling then some line else none
  | _ => none

def rulings : List (LogLine F D) := out.filterMap Outbound.ruling

variable (a b : List (Outbound F D))

@[simp] lemma rulings_append : rulings (a++b) = rulings a++rulings b := List.filterMap_append

@[simp] lemma mounts_append : mounts (a++b) = mounts a++mounts b :=
  List.filterMap_append

@[simp] lemma zeroOrders_append : zeroOrders (a++b) = zeroOrders a++zeroOrders b := List.filterMap_append

@[simp] lemma swapOffOrders_append :
    swapOffOrders (a++b) = swapOffOrders a++swapOffOrders b := List.filterMap_append

namespace BrokerCore

def NoOrders : Prop := zeroOrders out=[] ∧ swapOffOrders out=[]

/-- Nobody is told to mount a slice, and nothing is said of the proposals of the arbiter. -/
def Plain : Prop := mounts out=[] ∧ rulings out=[]

def Silent : Prop := NoOrders out ∧ Plain out

/-- An event that moves slices legally, sends one `SwapOff` at most for each slice that begins
to drain, and has nothing to do with zeroing. -/
structure Quiet (c : BrokerCore F D) (x : BrokerCore F D × List (Outbound F D)) : Prop where
  moves : ∃ l, c.sliceMap.Moves l x.1.sliceMap ∧ (swapOffOrders x.2).Sublist l
  pendingZero_eq : x.1.pendingZero=c.pendingZero
  zeroOrders_eq : zeroOrders x.2=[]

variable {c₁ c₂ c' : BrokerCore F D} {out out' : List (Outbound F D)} (c : BrokerCore F D) (sid : ℕ)
    (id : TenantId)

lemma Quiet.trans {c : BrokerCore F D} (h : Quiet c (c₁,out)) (h' : Quiet c₁ (c₂,out')) :
    Quiet c (c₂,out++out') := by
  obtain ⟨l,hm,hl⟩ := h.moves
  obtain ⟨l',hm',hl'⟩ := h'.moves
  refine ⟨⟨l++l',hm.trans hm',?_⟩,h'.pendingZero_eq.trans h.pendingZero_eq,?_⟩
  · rw [swapOffOrders_append]
    exact hl.append hl'
  · rw [zeroOrders_append,h.zeroOrders_eq,h'.zeroOrders_eq]
    rfl

lemma Quiet.of_eq {c : BrokerCore F D} (hm : c'.sliceMap=c.sliceMap)
    (hz : c'.pendingZero=c.pendingZero) (ho : NoOrders out) : Quiet c (c',out) := by
  refine ⟨⟨[],?_,?_⟩,hz,ho.1⟩
  · rw [hm]
    exact .refl _
  · rw [ho.2]

lemma Quiet.of_moves {c : BrokerCore F D} {l : List SliceId} (hm : c.sliceMap.Moves l c'.sliceMap)
    (hz : c'.pendingZero=c.pendingZero) (ho : NoOrders out) : Quiet c (c',out) :=
  ⟨⟨l,hm,by rw [ho.2]; exact List.nil_sublist _⟩,hz,ho.1⟩

lemma toTenant_orders (tenant : TenantId) (m : Msg F) : zeroOrders (c.toTenant tenant m)=[] ∧
      (swapOffOrders (c.toTenant tenant m)).Sublist
        (swapOffOrders ([.toSession 0 m] : List (Outbound F D))) := by
  unfold toTenant
  split
  · refine ⟨rfl,?_⟩
    cases m <;> exact List.Sublist.refl _
  · exact ⟨rfl,List.nil_sublist _⟩

lemma toTenant_noOrders (tenant : TenantId) {m : Msg F}
    (hm : swapOffOrders ([.toSession 0 m] : List (Outbound F D))=[]) : NoOrders (c.toTenant tenant m) := by
  obtain ⟨hz,hs⟩ := c.toTenant_orders tenant m
  rw [hm] at hs
  exact ⟨hz,List.sublist_nil.mp hs⟩

lemma emitSwapon_noOrders (slice : SliceId) (tenant : TenantId) : NoOrders (c.emitSwapon slice tenant) := by
  unfold emitSwapon
  split
  · exact ⟨rfl,rfl⟩
  · split
    · exact ⟨rfl,rfl⟩
    · exact c.toTenant_noOrders tenant rfl

lemma NoOrders.log (h : NoOrders out) (line : LogLine F D) : NoOrders (.log line::out) := h

lemma NoOrders.append {a b : List (Outbound F D)} (ha : NoOrders a) (hb : NoOrders b) : NoOrders (a++b) := by
  unfold NoOrders
  rw [zeroOrders_append,swapOffOrders_append,ha.1,ha.2,hb.1,hb.2]
  exact ⟨rfl,rfl⟩

lemma Plain.append (h : Plain out) (h' : Plain out') : Plain (out++out') := by
  unfold Plain
  rw [mounts_append,rulings_append,h.1,h.2,h'.1,h'.2]
  exact ⟨rfl,rfl⟩

lemma Silent.append (h : Silent out) (h' : Silent out') : Silent (out++out') :=
  ⟨h.1.append h'.1,h.2.append h'.2⟩

@[simp] lemma rulings_toTenant (m : Msg F) : rulings (c.toTenant id m)=[] := by
  unfold toTenant
  split <;> rfl

lemma toTenant_mounts (m : Msg F) : mounts (c.toTenant id m)=[] ∨
      mounts (c.toTenant id m) = mounts ([.toSession 0 m] : List (Outbound F D)) := by
  unfold toTenant
  split
  · right
    cases m <;> rfl
  · exact .inl rfl

lemma toTenant_noMounts {m : Msg F} (h : mounts ([.toSession 0 m] : List (Outbound F D))=[]) :
    mounts (c.toTenant id m)=[] := by
  obtain hm | hm := c.toTenant_mounts id m
  · exact hm
  · rw [hm,h]

@[simp] lemma rulings_emitSwapon (slice : SliceId) : rulings (c.emitSwapon slice id)=[] := by
  unfold emitSwapon
  split
  · rfl
  · split
    · rfl
    · exact c.rulings_toTenant id _

lemma moves_foldl_attempt {f : SliceMap → SliceId → Except SliceError SliceMap}
    (hf : ∀ m id m', f m id=.ok m' → m.Move none m') (ids : List SliceId) (m : SliceMap) :
    m.Moves [] (ids.foldl (fun m id => attempt m (f m id)) m) := by
  induction ids generalizing m with
  | nil => exact .refl m
  | cons id ids ih =>
    rcases h : f m id with e | m'
    · have := ih m
      rwa [List.foldl_cons,h]
    · have := (hf m id m' h).moves.trans (ih m')
      rwa [List.foldl_cons,h]

lemma unleaseAll_moves (m : SliceMap) : m.Moves [] (unleaseAll m) :=
  moves_foldl_attempt (fun _ _ _ h => .unlease h) _ m

lemma leaseAll_moves (ids : List SliceId) (m : SliceMap) : m.Moves [] (leaseAll ids m).2.2 := by
  induction ids generalizing m with
  | nil => exact .refl m
  | cons id ids ih =>
    rw [leaseAll]
    split
    · exact .refl m
    · rename_i m' h
      exact (SliceMap.Move.lease h).moves.trans (ih m')

lemma adopt_cons (e : SwapEntry) (es : List SwapEntry) (m : SliceMap) :
    (adopt id (e::es) m : SliceMap × List (Outbound F D)) = adopt id es m ∨
      ∃ s m', devToSlice e.dev=some s ∧ m.assign s id=.ok m' ∧
        (adopt id (e::es) m : SliceMap × List (Outbound F D)) =
          ((adopt id es m' : SliceMap × List (Outbound F D)).1,
            .log (.reconciled s id)::(adopt id es m').2) := by
  rw [adopt]
  split
  · exact .inl rfl
  · rename_i s hs
    split_ifs
    · split
      · exact .inl rfl
      · rename_i m' h
        exact .inr ⟨s,m',hs,h,rfl⟩
    · exact .inl rfl

lemma adopt_moves (swaps : List SwapEntry) (m : SliceMap) :
    m.Moves [] (adopt id swaps m : SliceMap × List (Outbound F D)).1 ∧
      Silent (adopt id swaps m : SliceMap × List (Outbound F D)).2 := by
  induction swaps generalizing m with
  | nil => exact ⟨.refl m,⟨rfl,rfl⟩,rfl,rfl⟩
  | cons e es ih =>
    rcases adopt_cons id e es m with h | ⟨s,m',-,ha,h⟩ <;> rw [h]
    · exact ih m
    · exact ⟨(SliceMap.Move.assign ha).moves.trans (ih m').1,(ih m').2⟩

lemma releaseSlices_quiet (lease : ℕ) : Quiet c (c.releaseSlices lease) :=
  .of_moves (unleaseAll_moves c.sliceMap) rfl ⟨rfl,rfl⟩

lemma onDemote_silent (reason : String) : Silent (c.onDemote reason).2 := by
  change Silent (List.flatMap _ _)
  generalize (List.filter _ _).map Prod.fst=ids
  induction ids with
  | nil => exact ⟨⟨rfl,rfl⟩,rfl,rfl⟩
  | cons id ids ih =>
    refine Silent.append ⟨toTenant_noOrders _ id rfl,toTenant_noMounts _ id rfl,?_⟩ ih
    exact rulings_toTenant _ id _

lemma expireLease_quiet (now : ℕ) : Quiet c (c.expireLease now) := by
  unfold expireLease
  rcases c.leaseBook.expire now with ⟨_ | lease,book⟩
  · exact .of_eq rfl rfl ⟨rfl,rfl⟩
  · have h := releaseSlices_quiet ({c with leaseBook := book}) lease.id
    exact ⟨h.moves,h.pendingZero_eq,h.zeroOrders_eq⟩

/-- A grant leases its slices, perhaps to give them back at once, or touches none. -/
inductive Granting (c : BrokerCore F D) (holder : TenantId) (ids : List SliceId) :
    BrokerCore F D × List (Outbound F D) → Prop
  | declined {b : LeaseBook} : Granting c holder ids ({c with leaseBook := b},
      .log .leaseTtlInvalid::c.toTenant holder (.leaseDenied "lease_ttl_invalid"))
  | refused {line : LogLine F D} (h : line=.grantUnavailable ∨ line=.grantDiverged) :
      Granting c holder ids (c,[.log line])
  | granted {b : LeaseBook} (lease bytes : ℕ) (hb : b.pending=none) :
      Granting c holder ids
        ({c with sliceMap := (leaseAll ids c.sliceMap).2.2, leaseBook := b},
          .log (.leaseGranted lease holder ids)::c.toTenant holder (.leaseGranted lease bytes))
  | rolledBack {b : LeaseBook} (l : List SliceId) (hb : b.pending=none) :
      Granting c holder ids
        ({ c with
            sliceMap := l.foldl (fun m id => attempt m (m.unlease id)) (leaseAll ids c.sliceMap).2.2
            leaseBook := b}, [.log .grantRolledBack])

lemma granting (holder : TenantId) (ids : List SliceId) (now : ℕ) :
    Granting c holder ids (c.onGrantLease holder ids now) := by
  unfold onGrantLease
  split_ifs
  · exact .declined
  split
  · exact .refused (.inl rfl)
  rename_i granted _
  have ht := c.leaseBook.grantPending_transition granted now c.leaseTtl
  generalize c.leaseBook.grantPending granted now c.leaseTtl = x at ht
  rcases x with ⟨e | lease,book⟩
  · cases ht with
    | kept => exact .refused (.inr rfl)
    | cancelled hcall => obtain ⟨h,-⟩ | ⟨_,h,-⟩ := hcall <;> cases h
  have hb : book.pending=none := by
    cases ht with
    | kept _ hgranted => cases hgranted
    | granted => rfl
    | cancelled => rfl
  dsimp only
  split_ifs
  · exact .granted _ _ hb
  · exact .rolledBack _ ((book.release_transition holder lease.id).pending_none hb nofun)

lemma Granting.quiet {c : BrokerCore F D} {holder : TenantId} {ids : List SliceId}
    {x : BrokerCore F D × List (Outbound F D)} (h : Granting c holder ids x) : Quiet c x := by
  have hm := leaseAll_moves ids c.sliceMap
  cases h with
  | declined => exact .of_eq rfl rfl (NoOrders.log (c.toTenant_noOrders holder rfl) _)
  | refused => exact .of_eq rfl rfl ⟨rfl,rfl⟩
  | granted => exact .of_moves hm rfl (NoOrders.log (c.toTenant_noOrders holder rfl) _)
  | rolledBack l =>
    exact .of_moves (hm.trans (moves_foldl_attempt (fun _ _ _ h => .unlease h) l _)) rfl ⟨rfl,rfl⟩

lemma drain_quiet {c : BrokerCore F D} {slice : SliceId} {m : SliceMap}
    (h : c.sliceMap.drain slice=.ok m) (hm : c'.sliceMap=m)
    (hz : c'.pendingZero=c.pendingZero) (line : LogLine F D) (tenant : TenantId) :
    Quiet c (c',.log line::c.toTenant tenant (.swapOff slice)) := by
  obtain ⟨ho,hs⟩ := c.toTenant_orders tenant (.swapOff slice)
  refine ⟨⟨[slice],?_,hs⟩,hz,ho⟩
  rw [hm]
  exact (SliceMap.Move.drain h).moves

/-- What becomes of one proposal of the arbiter. -/
inductive Applied (c : BrokerCore F D) (now : ℕ) :
    Action → BrokerCore F D × List (Outbound F D) → Prop
  | refused {a : Action} : Applied c now a (c,[])
  | assigned {s : SliceId} {t : TenantId} {m : SliceMap} (h : c.sliceMap.assign s t=.ok m) :
      Applied c now (.assignFree s t)
        ({c with sliceMap := m},.log (.assigned s t)::c.emitSwapon s t)
  | moved {a : Action} {s : SliceId} {x y : TenantId} {m : SliceMap} (p q : F)
      (ha : a=.moveSlice s x y ∨ a=.revertMove s x y) (h : c.sliceMap.drain s=.ok m) :
      Applied c now a
        ({ c with
            sliceMap := m
            pendingDest := c.pendingDest.insert s y
            lastRebalance := some now},
          .log (.moved s x p y q)::c.toTenant x (.swapOff s))
  | revoked {s : SliceId} {x : TenantId} {m : SliceMap} (h : c.sliceMap.drain s=.ok m) :
      Applied c now (.revokeForLease s x)
        ({c with sliceMap := m},.log (.revoked s x)::c.toTenant x (.swapOff s))
  | leased {holder : TenantId} {ids : List SliceId} {x : BrokerCore F D × List (Outbound F D)}
      (h : Granting c holder ids x) : Applied c now (.grantLease holder ids) x

lemma Applied.quiet {c : BrokerCore F D} {now : ℕ} {a : Action}
    {x : BrokerCore F D × List (Outbound F D)} (h : Applied c now a x) : Quiet c x := by
  cases h with
  | refused => exact .of_eq rfl rfl ⟨rfl,rfl⟩
  | assigned h =>
    refine .of_moves (l := []) ?_ rfl (NoOrders.log (c.emitSwapon_noOrders _ _) _)
    exact (SliceMap.Move.assign h).moves
  | moved _ _ _ h => refine drain_quiet h ?_ ?_ _ _ <;> rfl
  | revoked h => refine drain_quiet h ?_ ?_ _ _ <;> rfl
  | leased h => exact h.quiet

section
variable [FloatOps F]
variable (c : BrokerCore F D) (present : List (TenantView F)) (now : ℕ)

lemma applied (a : Action) : Applied c now a (c.applyAction present now a) := by
  have hmove {a : Action} {s : SliceId} {x y : TenantId}
      (ha : a=.moveSlice s x y ∨ a=.revertMove s x y) :
      Applied c now a (c.onMove present s x y now) := by
    unfold onMove
    split
    · exact .refused
    · rename_i m h
      exact .moved _ _ ha h
  cases a with
  | assignFree s t =>
    cases h : c.sliceMap.assign s t <;> simp only [applyAction,h]
    · exact .refused
    · exact .assigned h
  | moveSlice s x y => exact hmove (.inl rfl)
  | revertMove s x y => exact hmove (.inr rfl)
  | revokeForLease s x =>
    cases h : c.sliceMap.drain s <;> simp only [applyAction,h]
    · exact .refused
    · exact .revoked h
  | grantLease holder ids => exact .leased (c.granting holder ids now)

lemma applyActions_quiet (as : List Action) (c : BrokerCore F D) : Quiet c (applyActions present now as c) := by
  induction as generalizing c with
  | nil => exact .of_eq rfl rfl ⟨rfl,rfl⟩
  | cons a as ih => exact (c.applied present now a).quiet.trans (ih _)

lemma tickArbiter_quiet : Quiet c (c.tickArbiter now) := by
  unfold tickArbiter
  dsimp only
  generalize c.arbiter.tick now c.presentViews c.visibleSlices
    (c.leaseBook.pending.map fun p => (p.holder,p.requestedBytes))=x
  rcases x with ⟨e | actions,arbiter⟩
  · exact .of_eq rfl rfl ⟨rfl,rfl⟩
  · have h := applyActions_quiet c.presentViews now actions ({c with arbiter := arbiter})
    exact ⟨h.moves,h.pendingZero_eq,h.zeroOrders_eq⟩

end

def Retries (c : BrokerCore F D) (s : SliceId) : Prop :=
  ∃ n∈c.pendingZero[s]?, zeroRetryGrace<wrappingAdd 32 n 1

instance (c : BrokerCore F D) (s : SliceId) : Decidable (c.Retries s) := by
  unfold Retries
  infer_instance

lemma retryZero_spec (s : SliceId) : (c.retryZero s).1.sliceMap=c.sliceMap ∧
    (∀ k, k∈(c.retryZero s).1.pendingZero ↔ k∈c.pendingZero) ∧
    (∀ k, k≠s → (c.retryZero s).1.pendingZero[k]? = c.pendingZero[k]?) ∧
    swapOffOrders (c.retryZero s).2=[] ∧
    (zeroOrders (c.retryZero s).2=[] ∨ zeroOrders (c.retryZero s).2 = [s] ∧ c.Retries s) := by
  unfold retryZero
  rcases hn : c.pendingZero[s]? with _ | n
  · exact ⟨rfl,fun _ => Iff.rfl,fun _ _ => rfl,rfl,.inl rfl⟩
  have hmem : s∈c.pendingZero := by
    rw [Std.TreeMap.mem_iff_isSome_getElem?,hn]
    rfl
  refine ⟨rfl,fun k => ?_,fun k hk => ?_,?_,?_⟩
  · simp only [Std.TreeMap.mem_insert,Nat.compare_eq_eq]
    exact ⟨fun h => h.elim (fun hk => hk ▸ hmem) id,.inr⟩
  · simp only [Std.TreeMap.getElem?_insert,Nat.compare_eq_eq,if_neg (Ne.symm hk)]
  · dsimp only
    rcases c.sliceMap.get s with _ | x <;> split_ifs <;> rfl
  · dsimp only
    by_cases hg : zeroRetryGrace<wrappingAdd 32 n 1
    · rcases c.sliceMap.get s with _ | x
      · left
        split_ifs <;> rfl
      · right
        refine ⟨?_,n,hn,hg⟩
        split_ifs <;> rfl
    · left
      rw [if_neg hg]
      split_ifs <;> rfl

lemma noOrders_sample (p : Prop) [Decidable p] (line : LogLine F D) (sample : TelemetryCore D) :
    NoOrders ((if p then [] else [.log line])++[.telemetry sample]) := by
  split_ifs <;> exact ⟨rfl,rfl⟩

lemma emitTelemetry_quiet [FloatOps D] (sensors : Sensors) :
    Quiet c (c.emitTelemetry sensors) := .of_eq rfl rfl (noOrders_sample _ _ _)

lemma retryAll_spec (ks : List SliceId) (hk : ks.Nodup) (c : BrokerCore F D) :
    (retryAll ks c).1.sliceMap=c.sliceMap ∧
    (∀ k, k∈(retryAll ks c).1.pendingZero ↔ k∈c.pendingZero) ∧
    swapOffOrders (retryAll ks c).2=[] ∧ (zeroOrders (retryAll ks c).2).Sublist ks ∧
    ∀ s∈zeroOrders (retryAll ks c).2, c.Retries s := by
  induction ks generalizing c with
  | nil =>
    exact ⟨rfl,fun _ => Iff.rfl,rfl,List.Sublist.refl _,
      fun s hs => absurd hs (by simp [retryAll,zeroOrders])⟩
  | cons s ks ih =>
    obtain ⟨hs,hk⟩ := List.nodup_cons.mp hk
    obtain ⟨hm₁,hz₁,ho₁,hw₁,hr₁⟩ := c.retryZero_spec s
    obtain ⟨hm₂,hz₂,hw₂,hl₂,hr₂⟩ := ih hk (c.retryZero s).1
    rw [retryAll]
    dsimp only
    refine ⟨hm₂.trans hm₁,fun k => (hz₂ k).trans (hz₁ k),?_,?_,fun k hk' => ?_⟩
    · rw [swapOffOrders_append,hw₁,hw₂]
      rfl
    · rw [zeroOrders_append]
      rcases hr₁ with h | ⟨h,-⟩ <;> rw [h]
      · exact hl₂.cons s
      · exact hl₂.cons_cons s
    · rw [zeroOrders_append,List.mem_append] at hk'
      rcases hk' with hk' | hk'
      · rcases hr₁ with h | ⟨h,hret⟩ <;> rw [h] at hk'
        · cases hk'
        · rwa [List.mem_singleton.mp hk']
      · obtain ⟨n,hn,hg⟩ := hr₂ k hk'
        have hne : k≠s := fun h => hs (h ▸ hl₂.subset hk')
        rw [ho₁ k hne] at hn
        exact ⟨n,hn,hg⟩

/-- What a tick does: legal moves, a `SwapOff` for slices that begin to drain, and a repeated
order for slices that have waited too long. -/
structure TickEffect (c : BrokerCore F D) (x : BrokerCore F D × List (Outbound F D)) : Prop where
  moves : ∃ l, c.sliceMap.Moves l x.1.sliceMap ∧ (swapOffOrders x.2).Sublist l
  keys : ∀ s, s∈x.1.pendingZero ↔ s∈c.pendingZero
  orders_nodup : (zeroOrders x.2).Nodup
  orders : ∀ s∈zeroOrders x.2, c.Retries s

lemma retryStuckZeroing_effect (order : KeyOrder) : TickEffect c (c.retryStuckZeroing order) := by
  have hk : (order.arrange c.pendingZero.keys).Nodup :=
    (order.perm _).nodup_iff.mpr Std.TreeMap.nodup_keys
  obtain ⟨hm,hz,hw,hl,hr⟩ := retryAll_spec _ hk c
  exact ⟨⟨[],by rw [retryStuckZeroing,hm]; exact .refl _,by rw [retryStuckZeroing,hw]⟩,
    hz,hl.nodup hk,hr⟩

lemma TickEffect.before {c : BrokerCore F D} (h : Quiet c (c₁,out)) (h' : TickEffect c₁ (c₂,out')) :
    TickEffect c (c₂,out++out') := by
  obtain ⟨l,hm,hl⟩ := h.moves
  obtain ⟨l',hm',hl'⟩ := h'.moves
  have ho : zeroOrders (out++out') = zeroOrders out' := by
    rw [zeroOrders_append,h.zeroOrders_eq,List.nil_append]
  refine ⟨⟨l++l',hm.trans hm',?_⟩,fun s => ?_,?_,fun s hs => ?_⟩
  · rw [swapOffOrders_append]
    exact hl.append hl'
  · rw [h'.keys,h.pendingZero_eq]
  · rw [ho]
    exact h'.orders_nodup
  · rw [ho] at hs
    obtain ⟨n,hn,hg⟩ := h'.orders s hs
    rw [h.pendingZero_eq] at hn
    exact ⟨n,hn,hg⟩

lemma TickEffect.after {c : BrokerCore F D} (h : TickEffect c (c₁,out)) (h' : Quiet c₁ (c₂,out')) :
    TickEffect c (c₂,out++out') := by
  obtain ⟨l,hm,hl⟩ := h.moves
  obtain ⟨l',hm',hl'⟩ := h'.moves
  have ho : zeroOrders (out++out') = zeroOrders out := by
    rw [zeroOrders_append,h'.zeroOrders_eq,List.append_nil]
  refine ⟨⟨l++l',hm.trans hm',?_⟩,fun s => ?_,?_,fun s hs => ?_⟩
  · rw [swapOffOrders_append]
    exact hl.append hl'
  · rw [h'.pendingZero_eq,h.keys]
  · rw [ho]
    exact h.orders_nodup
  · rw [ho] at hs
    exact h.orders s hs

lemma onTick_effect [FloatOps F] [FloatOps D] (now : ℕ) (sensors : Sensors) (order : KeyOrder) :
    TickEffect c (c.onTick now sensors order) := by
  have h₁ := c.expireLease_quiet now
  have h₂ := (c.expireLease now).1.tickArbiter_quiet now
  exact (TickEffect.before (h₁.trans h₂) (retryStuckZeroing_effect _ order)).after
    (emitTelemetry_quiet _ sensors)

end BrokerCore
end
end RamShared.Broker

import RamShared.Broker.Effects

/-! What one event does. All but four kinds of events are quiet; a failed mount, a finished
`SwapOff`, a finished zeroing and a tick are described here one by one. -/
namespace RamShared.Broker
open Lib

section
variable {F D : Type}

/-- Every event but a failed mount, a finished `SwapOff`, a finished zeroing and a tick. -/
def CoreEvent.plain : CoreEvent F → Bool
  | .msg _ (.swapOnDone _ false _) => false
  | .msg _ (.swapOffDone _ true _) => false
  | .zeroDone _ _ => false
  | .tick => false
  | _ => true

lemma CoreEvent.cases_plain (e : CoreEvent F) :
    e.plain=true ∨ (∃ sid s detail, e=.msg sid (.swapOnDone s false detail)) ∨
      (∃ sid s detail, e=.msg sid (.swapOffDone s true detail)) ∨ (∃ s ok, e=.zeroDone s ok) ∨ e=.tick := by
  rcases e with ⟨sid,m⟩ | _ | ⟨s,ok⟩ | _ | _
  · rcases m with _ | _ | ⟨s,_ | _,detail⟩ | ⟨s,_ | _,detail⟩ | _ | _ | _ | _ | _ | _ | _ | _ | _ |
      _ | _ | _
    case swapOnDone.false => exact .inr (.inl ⟨sid,s,detail,rfl⟩)
    case swapOffDone.true => exact .inr (.inr (.inl ⟨sid,s,detail,rfl⟩))
    all_goals exact .inl rfl
  · exact .inl rfl
  · exact .inr (.inr (.inr (.inl ⟨s,ok,rfl⟩)))
  · exact .inl rfl
  · exact .inr (.inr (.inr (.inr rfl)))

/-- The devices that a `Psi` message reports as mounted, with the session. -/
def CoreEvent.mounts : CoreEvent F → List (ℕ × SwapEntry)
  | .msg sid (.psi _ swaps _) => swaps.map fun e => (sid,e)
  | _ => []

def CoreEvent.isTick : CoreEvent F → Bool
  | .tick => true
  | _ => false

lemma CoreEvent.isTick_iff {e : CoreEvent F} : e.isTick=true ↔ e=.tick := by
  cases e <;> simp [isTick]

def CoreEvent.ofSession : CoreEvent F → Bool
  | .msg _ (.register _ _ _) | .msg _ (.psi _ _ _) | .disconnected _ => true
  | _ => false

def CoreEvent.unmounted : CoreEvent F → Option SliceId
  | .msg _ (.swapOnDone s false _) => some s
  | _ => none

def CoreEvent.zeroed : CoreEvent F → Option SliceId
  | .zeroDone s true => some s
  | _ => none

/-- A call that neither grants nor ends a lease, or none at all. -/
def LeaseBook.Noted (b b' : LeaseBook) : Prop :=
  ∃ call reply, LeaseBook.Transition b call reply b' ∧
    LeaseEvent.granted (call,reply)=none ∧ LeaseEvent.ended (call,reply)=none

lemma LeaseBook.Noted.refl {b : LeaseBook} : b.Noted b :=
  ⟨.expire 0,.expired none,.kept rfl rfl rfl rfl,rfl,rfl⟩

namespace BrokerCore

variable (c : BrokerCore F D) (s : SliceId)

lemma onSwapOnFailed_sliceMap {s : SliceId} (h : ¬c.sliceMap.In s .active) (detail : String) :
    (c.onSwapOnFailed s detail).1.sliceMap=c.sliceMap := by
  rcases hd : c.sliceMap.drain s with e | m
  · simp only [onSwapOnFailed,hd]
  · obtain ⟨x,hx,hs,-⟩ := SliceMap.transition_eq_ok hd
    exact absurd ⟨x,hx,hs⟩ h

lemma onSwapOnFailed_get_of_active {s : SliceId} {x : Slice} (hx : c.sliceMap.get s=some x)
    (hs : x.state=.active) (detail : String) (k : SliceId) : (c.onSwapOnFailed s detail).1.sliceMap.get k =
      if k=s then some {x with state := .free, tenant := none} else c.sliceMap.get k := by
  have hd : c.sliceMap.drain s=.ok (c.sliceMap.put s .draining x.tenant) := by
    simp [SliceMap.drain,SliceMap.transition,hx,hs]
  have hr : (c.sliceMap.put s .draining x.tenant).release s =
      .ok ((c.sliceMap.put s .draining x.tenant).put s .free none) := by
    simp [SliceMap.release,SliceMap.transition,SliceMap.get_put,hx]
  simp only [onSwapOnFailed,hd,hr,attempt,SliceMap.get_put,hx,if_pos,Option.map_some]
  split_ifs <;> rfl

lemma onSwapOnFailed_get (detail : String) (k : SliceId) :
    (c.onSwapOnFailed s detail).1.sliceMap.get k = c.sliceMap.get k ∨
      k=s ∧ ∃ x, c.sliceMap.get s=some x ∧ x.state=.active ∧
        (c.onSwapOnFailed s detail).1.sliceMap.get s = some {x with state := .free, tenant := none} := by
  by_cases h : c.sliceMap.In s .active
  · obtain ⟨x,hx,hs⟩ := h
    by_cases hk : k=s
    · refine .inr ⟨hk,x,hx,hs,?_⟩
      rw [c.onSwapOnFailed_get_of_active hx hs,if_pos rfl]
    · left
      rw [c.onSwapOnFailed_get_of_active hx hs,if_neg hk]
  · left
    rw [c.onSwapOnFailed_sliceMap h]

lemma onSwapOffOk_sliceMap : (c.onSwapOffOk s).1.sliceMap=c.sliceMap := by
  unfold onSwapOffOk
  split <;> rfl

lemma onSwapOffOk_effect : (∀ k∈(c.onSwapOffOk s).1.pendingZero, k=s ∨ k∈c.pendingZero) ∧
      swapOffOrders (c.onSwapOffOk s).2=[] ∧
      ∀ k, (zeroOrders (c.onSwapOffOk s).2).count k ≤ if s=k then 1 else 0 := by
  unfold onSwapOffOk
  split
  · exact ⟨fun k hk => .inr hk,rfl,fun k => Nat.zero_le _⟩
  · refine ⟨fun k hk => ?_,rfl,fun k => ?_⟩
    · exact (Std.TreeMap.mem_insertIfNew.mp hk).imp (fun h => (Nat.compare_eq_eq.mp h).symm) id
    · simp [zeroOrders,List.count_singleton]

lemma onZeroDone_false_effect : swapOffOrders (c.onZeroDone s false).2=[] ∧
      ∀ k, (zeroOrders (c.onZeroDone s false).2).count k ≤ if s=k then 1 else 0 := by
  rcases hg : c.sliceMap.get s with _ | x <;> simp only [onZeroDone,hg]
  · exact ⟨rfl,fun k => Nat.zero_le _⟩
  · exact ⟨rfl,fun k => by simp [zeroOrders,List.count_singleton]⟩

lemma onZeroOk_sliceMap : (c.onZeroOk s).1.sliceMap=c.sliceMap ∧ (∀ m, c.sliceMap.release s≠.ok m) ∨
      ∃ m, c.sliceMap.release s=.ok m ∧ ((c.onZeroOk s).1.sliceMap=m ∨
        ∃ t, m.assign s t=.ok (c.onZeroOk s).1.sliceMap) := by
  rcases hr : c.sliceMap.release s with e | m
  · left
    simp only [onZeroOk,hr]
    exact ⟨trivial,fun _ h => nomatch h⟩
  · refine .inr ⟨m,rfl,?_⟩
    rcases hd : c.pendingDest[s]? with _ | dest
    · left
      simp only [onZeroOk,hr,hd]
    · rcases ha : m.assign s dest with e | m'
      · left
        simp only [onZeroOk,hr,hd,ha]
      · right
        exact ⟨dest,by simp only [onZeroOk,hr,hd,ha]⟩

lemma onSwapOnFailed_reworked (detail : String) :
    c.sliceMap.Reworked (c.onSwapOnFailed s detail).1.sliceMap := by
  unfold onSwapOnFailed
  cases hd : c.sliceMap.drain s with
  | error e => exact .refl _
  | ok m =>
    cases hr : m.release s with
    | error e => simpa [attempt,hr] using SliceMap.Reworked.move (.drain hd) (.refl m)
    | ok m' => simpa [attempt,hr] using SliceMap.Reworked.move (.drain hd) (.release hr (.refl m'))

lemma onZeroOk_reworked : c.sliceMap.Reworked (c.onZeroOk s).1.sliceMap := by
  obtain ⟨h,-⟩ | ⟨m,hr,h | ⟨t,ha⟩⟩ := c.onZeroOk_sliceMap s
  · rw [h]
    exact .refl _
  · rw [h]
    exact .release hr (.refl m)
  · exact .release hr (.move (.assign ha) (.refl _))

lemma onZeroOk_get_of_ne {s k : SliceId} (hk : k≠s) : (c.onZeroOk s).1.sliceMap.get k = c.sliceMap.get k := by
  have hne {m m' : SliceMap} {source target refuse owner}
      (h : m.transition s source target refuse owner=.ok m') : m'.get k = m.get k := by
    rcases SliceMap.get_transition h k with ⟨-,hg⟩ | ⟨h,-⟩
    · exact hg
    · exact absurd h hk
  rcases c.onZeroOk_sliceMap s with ⟨h,-⟩ | ⟨m,hr,h | ⟨t,ha⟩⟩
  · rw [h]
  · rw [h]
    exact hne hr
  · exact (hne ha).trans (hne hr)

lemma onZeroOk_get : (¬c.sliceMap.In s .draining → (c.onZeroOk s).1.sliceMap.get s = c.sliceMap.get s) ∧
      ¬(c.onZeroOk s).1.sliceMap.In s .draining := by
  rcases c.onZeroOk_sliceMap s with ⟨h,hr⟩ | ⟨m,hr,h⟩
  · rw [h]
    exact ⟨fun _ => rfl,fun hs => hr _ (SliceMap.release_of_draining hs)⟩
  · obtain ⟨hs,hfree⟩ := SliceMap.in_of_transition hr
    refine ⟨fun hn => absurd hs hn,fun hd => ?_⟩
    rcases h with h | ⟨t,ha⟩
    · rw [h] at hd
      cases hfree.unique hd
    · cases (SliceMap.in_of_transition ha).2.unique hd

lemma onZeroOk_eq : ∃ m d out, NoOrders out ∧ rulings out=[] ∧ c.onZeroOk s =
    ({c with pendingZero := c.pendingZero.erase s, sliceMap := m, pendingDest := d},out) := by
  unfold onZeroOk
  dsimp only
  split
  · exact ⟨_,_,_,⟨rfl,rfl⟩,rfl,rfl⟩
  · split
    · exact ⟨_,_,_,⟨rfl,rfl⟩,rfl,rfl⟩
    · split
      · exact ⟨_,_,_,⟨rfl,rfl⟩,rfl,rfl⟩
      · exact ⟨_,_,_,emitSwapon_noOrders _ s _,rulings_emitSwapon _ _ s,rfl⟩

lemma onZeroOk_noOrders : NoOrders (c.onZeroOk s).2 := by
  obtain ⟨m,d,out,ho,-,h⟩ := c.onZeroOk_eq s
  rwa [h]

lemma onZeroOk_pendingZero : (c.onZeroOk s).1.pendingZero = c.pendingZero.erase s := by
  obtain ⟨m,d,out,-,-,h⟩ := c.onZeroOk_eq s
  rw [h]

/-- What an event other than a tick does to the slices and their destinations. -/
inductive Shift (c c' : BrokerCore F D) : CoreEvent F → Prop
  | idle {e : CoreEvent F} (hm : c'.sliceMap=c.sliceMap)
      (hd : c'.pendingDest=c.pendingDest) : Shift c c' e
  | adopted {sid : ℕ} {sample : PsiSample F} {swaps : List SwapEntry} {mem : Option TenantMem}
      {id : TenantId} {t : TenantState F} (hid : c.sessions[sid]?=some id)
      (ht : c.tenants[id]?=some t) (hr : t.reconciled=false)
      (hm : c'.sliceMap = (adopt id swaps c.sliceMap : SliceMap × List (Outbound F D)).1)
      (hd : c'.pendingDest=c.pendingDest) : Shift c c' (.msg sid (.psi sample swaps mem))
  | unleased {e : CoreEvent F} (hm : c'.sliceMap = unleaseAll c.sliceMap)
      (hd : c'.pendingDest=c.pendingDest) : Shift c c' e
  | unmounted {sid : ℕ} {s : SliceId} {detail : String}
      (hm : c'.sliceMap = (c.onSwapOnFailed s detail).1.sliceMap)
      (hd : c'.pendingDest = c.pendingDest.erase s) :
      Shift c c' (.msg sid (.swapOnDone s false detail))
  | zeroed {s : SliceId} (hm : c'.sliceMap = (c.onZeroOk s).1.sliceMap)
      (hd : c'.pendingDest = (c.onZeroOk s).1.pendingDest) : Shift c c' (.zeroDone s true)

/-- What comes of an event other than a tick. Mounts and zeroings apart, it is about the lease book,
from which it never grants, and about the tenants. -/
inductive Handled (c : BrokerCore F D) : CoreEvent F → BrokerCore F D × List (Outbound F D) → Prop
  | answered {e : CoreEvent F} {b : LeaseBook} {n : ℕ} {reason : Option String}
      {out : List (Outbound F D)} (hb : c.leaseBook.Noted b) (ho : Silent out) :
      Handled c e ({c with leaseBook := b, demotesTotal := n, lastDemoteReason := reason},out)
  | seated {e : CoreEvent F} {ts : Std.TreeMap TenantId (TenantState F)}
      {ss : Std.TreeMap ℕ TenantId} {ns : Std.TreeMap String TenantId} {n : TenantId}
      {b : LeaseBook} {out : List (Outbound F D)} (he : e.ofSession=true)
      (hb : c.leaseBook.Noted b) (ho : Silent out) :
      Handled c e
        ({c with tenants := ts, sessions := ss, nameToId := ns, nextTenant := n, leaseBook := b},out)
  | adopted {sid : ℕ} {sample : PsiSample F} {swaps : List SwapEntry} {mem : Option TenantMem}
      {id : TenantId} {t : TenantState F} {ts : Std.TreeMap TenantId (TenantState F)}
      {b : LeaseBook} {out : List (Outbound F D)} (hid : c.sessions[sid]?=some id)
      (ht : c.tenants[id]?=some t) (hr : t.reconciled=false) (hb : c.leaseBook.Noted b)
      (ho : Silent out) :
      Handled c (.msg sid (.psi sample swaps mem))
        ({ c with
            sliceMap := (adopt id swaps c.sliceMap : SliceMap × List (Outbound F D)).1
            tenants := ts
            leaseBook := b},out)
  | unleased {e : CoreEvent F} {lease : ℕ} (he : e.ofSession=false) :
      Handled c e
        (({c with leaseBook := {c.leaseBook with active := none}}).releaseSlices lease)
  | unmounted {sid : ℕ} {s : SliceId} {detail : String} :
      Handled c (.msg sid (.swapOnDone s false detail)) (c.onSwapOnFailed s detail)
  | swappedOff {sid : ℕ} {s : SliceId} {detail : String} :
      Handled c (.msg sid (.swapOffDone s true detail)) (c.onSwapOffOk s)
  | zeroed {s : SliceId} {ok : Bool} : Handled c (.zeroDone s ok) (c.onZeroDone s ok)

lemma onPsi_handled (sid : ℕ) (sample : PsiSample F) (swaps : List SwapEntry)
    (mem : Option TenantMem) (now : ℕ) :
    Handled c (.msg sid (.psi sample swaps mem)) (c.onPsi sid sample swaps mem now) := by
  unfold onPsi
  split
  · exact .answered .refl ⟨⟨rfl,rfl⟩,rfl,rfl⟩
  · rename_i id hid
    have hb : c.leaseBook.Noted _ := ⟨_,_,c.leaseBook.renewActive_transition id now c.leaseTtl,rfl,rfl⟩
    cases ht : c.tenants[id]? with
    | none =>
      simp only [recordPsi,ht]
      exact .seated rfl hb ⟨⟨rfl,rfl⟩,rfl,rfl⟩
    | some t =>
      cases hr : t.reconciled with
      | true =>
        simp only [recordPsi,ht,hr,if_true]
        exact .seated rfl hb ⟨⟨rfl,rfl⟩,rfl,rfl⟩
      | false =>
        simp only [recordPsi,ht,hr,Bool.false_eq_true,if_false]
        exact .adopted hid ht hr hb ((adopt_moves id swaps _).2.append ⟨⟨rfl,rfl⟩,rfl,rfl⟩)

lemma onLeaseRequest_handled (sid bytes : ℕ) (e : CoreEvent F) : Handled c e (c.onLeaseRequest sid bytes) := by
  unfold onLeaseRequest
  split
  · exact .answered .refl ⟨⟨rfl,rfl⟩,rfl,rfl⟩
  · rename_i holder _
    have hb : c.leaseBook.Noted _ := ⟨_,_,c.leaseBook.beginRequest_transition holder bytes,rfl,rfl⟩
    generalize c.leaseBook.beginRequest holder bytes = x at hb
    rcases x with ⟨_ | (_ | _ | _ | _ | _ | _ | _ | _ | _),book⟩ <;>
      exact .answered hb ⟨⟨rfl,rfl⟩,rfl,rfl⟩

lemma onLeaseRelease_handled (sid lease : ℕ) {e : CoreEvent F} (he : e.ofSession=false) :
    Handled c e (c.onLeaseRelease sid lease) := by
  unfold onLeaseRelease
  split
  · exact .answered .refl ⟨⟨rfl,rfl⟩,rfl,rfl⟩
  · cases ha : c.leaseBook.active <;> simp only [LeaseBook.release,ha]
    · exact .answered .refl ⟨⟨rfl,rfl⟩,rfl,rfl⟩
    · split_ifs
      · exact .answered .refl ⟨⟨rfl,rfl⟩,rfl,rfl⟩
      · exact .answered .refl ⟨⟨rfl,rfl⟩,rfl,rfl⟩
      · exact .unleased he

section
variable [FloatOps F] [FloatOps D] [DebugMsg F]
variable (c : BrokerCore F D) (i : Input F)

theorem handled (h : i.event≠.tick) : Handled c i.event (c.handle i) := by
  rcases i with ⟨e,now,sensors,order⟩
  cases e with
  | msg sid m =>
    cases m
    case register =>
      simp only [handle,onMsg,onRegister]
      split_ifs <;> exact .seated rfl .refl ⟨⟨rfl,rfl⟩,rfl,rfl⟩
    case psi => exact c.onPsi_handled _ _ _ _ _
    case leaseRequest => exact c.onLeaseRequest_handled _ _ _
    case leaseRelease => exact c.onLeaseRelease_handled _ _ rfl
    case swapOnDone s ok detail =>
      cases ok
      · exact .unmounted
      · exact .answered .refl ⟨⟨rfl,rfl⟩,rfl,rfl⟩
    case swapOffDone s ok detail =>
      cases ok
      · exact .answered .refl ⟨⟨rfl,rfl⟩,rfl,rfl⟩
      · exact .swappedOff
    all_goals exact .answered .refl ⟨⟨rfl,rfl⟩,rfl,rfl⟩
  | disconnected sid =>
    simp only [handle,onDisconnect]
    split
    · exact .answered .refl ⟨⟨rfl,rfl⟩,rfl,rfl⟩
    · rename_i id _
      refine .seated rfl ⟨_,_,c.leaseBook.perform_transition (.disconnect id),rfl,rfl⟩ ?_
      cases (c.leaseBook.disconnect id).1.retainedActive <;> exact ⟨⟨rfl,rfl⟩,rfl,rfl⟩
  | zeroDone s ok => exact .zeroed
  | demote reason => exact .answered .refl (c.onDemote_silent reason)
  | tick => exact absurd rfl h

/-- What an event other than a tick does to the slices. It leaves the arbiter alone and, unless it
opens, feeds or closes a session, the tenants and their names. -/
lemma step_spec (h : i.event≠.tick) :
    Shift c (c.step i) i.event ∧ (c.step i).arbiter=c.arbiter ∧ (i.event.ofSession=false →
      (c.step i).tenants=c.tenants ∧ (c.step i).sessions=c.sessions ∧
      (c.step i).nameToId=c.nameToId ∧ (c.step i).nextTenant=c.nextTenant) := by
  have hh := c.handled i h
  unfold step
  generalize i.event=e,c.handle i = x at hh
  cases hh with
  | answered => exact ⟨.idle rfl rfl,rfl,fun _ => ⟨rfl,rfl,rfl,rfl⟩⟩
  | seated he => exact ⟨.idle rfl rfl,rfl,fun hs => nomatch he.symm.trans hs⟩
  | adopted hid ht hr => exact ⟨.adopted hid ht hr rfl rfl,rfl,nofun⟩
  | unleased => exact ⟨.unleased rfl rfl,rfl,fun _ => ⟨rfl,rfl,rfl,rfl⟩⟩
  | unmounted => exact ⟨.unmounted rfl rfl,rfl,fun _ => ⟨rfl,rfl,rfl,rfl⟩⟩
  | swappedOff =>
    unfold onSwapOffOk
    split <;> exact ⟨.idle rfl rfl,rfl,fun _ => ⟨rfl,rfl,rfl,rfl⟩⟩
  | @zeroed s ok =>
    cases ok
    · exact ⟨.idle rfl rfl,rfl,fun _ => ⟨rfl,rfl,rfl,rfl⟩⟩
    · refine ⟨.zeroed rfl rfl,?_⟩
      obtain ⟨m,d,out,-,-,h⟩ := c.onZeroOk_eq s
      simp only [onZeroDone,if_true,h]
      exact ⟨trivial,fun _ => ⟨trivial,trivial,trivial,trivial⟩⟩

lemma handle_quiet (h : i.event.plain=true) : Quiet c (c.handle i) := by
  have hh := c.handled i (by rintro ht; rw [ht] at h; cases h)
  generalize i.event=e,c.handle i = x at h hh
  cases hh with
  | answered _ ho => exact .of_eq rfl rfl ho.1
  | seated _ _ ho => exact .of_eq rfl rfl ho.1
  | @adopted _ _ swaps _ id _ _ _ _ _ _ _ _ ho =>
    exact .of_moves (adopt_moves id swaps c.sliceMap).1 rfl ho.1
  | unleased => exact .of_moves (unleaseAll_moves c.sliceMap) rfl ⟨rfl,rfl⟩
  | unmounted => cases h
  | swappedOff => cases h
  | zeroed => cases h

lemma handle_plain (h : i.event≠.tick) (hz : ∀ s, i.event≠.zeroDone s true) : Plain (c.handle i).2 := by
  have hh := c.handled i h
  generalize i.event=e,c.handle i = x at hz hh
  cases hh with
  | answered _ ho => exact ho.2
  | seated _ _ ho => exact ho.2
  | adopted _ _ _ _ ho => exact ho.2
  | unleased => exact ⟨rfl,rfl⟩
  | unmounted => exact ⟨rfl,rfl⟩
  | swappedOff =>
    unfold onSwapOffOk
    split <;> exact ⟨rfl,rfl⟩
  | @zeroed s ok =>
    cases ok
    · simp only [onZeroDone]
      cases c.sliceMap.get s <;> exact ⟨rfl,rfl⟩
    · exact absurd rfl (hz s)

lemma step_reworked : c.sliceMap.Reworked (c.step i).sliceMap := by
  rcases i with ⟨e,now,sensors,order⟩
  rcases e.cases_plain with h | ⟨sid,k,detail,rfl⟩ | ⟨sid,k,detail,rfl⟩ | ⟨k,_ | _,rfl⟩ | rfl
  · obtain ⟨l,hm,-⟩ := (c.handle_quiet ⟨e,now,sensors,order⟩ h).moves
    exact hm.reworked
  · exact c.onSwapOnFailed_reworked k detail
  · change c.sliceMap.Reworked (c.onSwapOffOk k).1.sliceMap
    rw [onSwapOffOk_sliceMap]
    exact .refl _
  · exact .refl _
  · exact c.onZeroOk_reworked k
  · obtain ⟨l,hm,-⟩ := (c.onTick_effect now sensors order).moves
    exact hm.reworked

end
end BrokerCore
end
end RamShared.Broker

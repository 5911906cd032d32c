import RamShared.Broker.Slices
import RamShared.Lib.Run

/-! Whole histories of the lease book: any calls in any order, at any times. -/
namespace RamShared.Broker
open Lib

inductive LeaseCall
  | beginRequest (holder : TenantId) (bytes : ℕ)
  | grantPending (grantedBytes now ttl : ℕ)
  | renewActive (holder : TenantId) (now ttl : ℕ)
  | expire (now : ℕ)
  | cancelPending (holder : TenantId)
  | release (holder : TenantId) (lease : ℕ)
  | disconnect (holder : TenantId)
  deriving DecidableEq

inductive LeaseReply
  | requested (decision : LeaseDecision)
  | granted (result : Except LeaseDeny LogicalLease)
  | renewed (ok : Bool)
  | expired (lease : Option LogicalLease)
  | cancelled (ok : Bool)
  | released (result : Except LeaseDeny Bool)
  | disconnected (result : LeaseDisconnect)

def LeaseReply.refused : LeaseReply → Bool
  | .requested (.denied _) => true
  | .granted (.error _) => true
  | .renewed ok => !ok
  | .expired lease => lease.isNone
  | .cancelled ok => !ok
  | .released (.error _) => true
  | .released (.ok ok) => !ok
  | _ => false

abbrev LeaseEvent := LeaseCall × LeaseReply

namespace LeaseEvent

def accepted : LeaseEvent → Option PendingLease
  | (_,.requested (.pending p)) => some p
  | _ => none

def granted : LeaseEvent → Option LogicalLease
  | (_,.granted (.ok lease)) => some lease
  | _ => none

/-- The deadline set by a grant or by a renewal: the time of the call plus its lifetime. -/
def deadline : LeaseEvent → Option ℕ
  | (.grantPending _ now ttl,.granted (.ok _)) => some (now+ttl)
  | (.renewActive _ now ttl,.renewed true) => some (now+ttl)
  | _ => none

def ended : LeaseEvent → Option ℕ
  | (.release _ lease,.released (.ok true)) => some lease
  | (.expire _,.expired (some lease)) => some lease.id
  | _ => none

end LeaseEvent

def latest {α : Type} (f : LeaseEvent → Option α) (events : List LeaseEvent) : Option α :=
  (events.filterMap f).getLast?

section Latest
variable {α : Type} {f : LeaseEvent → Option α} {events : List LeaseEvent} {e : LeaseEvent}

lemma filterMap_concat_none (h : f e=none) : (events++[e]).filterMap f = events.filterMap f := by
  simp [h]

lemma filterMap_concat_some {a : α} (h : f e=some a) : (events++[e]).filterMap f = events.filterMap f++[a] := by
  simp [h]

lemma latest_concat_none (h : f e=none) : latest f (events++[e]) = latest f events := by
  rw [latest,filterMap_concat_none h,latest]

lemma latest_concat_some {a : α} (h : f e=some a) : latest f (events++[e])=some a := by
  rw [latest,filterMap_concat_some h,List.getLast?_concat]

end Latest

variable {a : ActiveLease}

namespace LeaseBook

def perform (b : LeaseBook) : LeaseCall → LeaseReply × LeaseBook
  | .beginRequest holder bytes => (b.beginRequest holder bytes).map .requested id
  | .grantPending grantedBytes now ttl => (b.grantPending grantedBytes now ttl).map .granted id
  | .renewActive holder now ttl => (b.renewActive holder now ttl).map .renewed id
  | .expire now => (b.expire now).map .expired id
  | .cancelPending holder => (b.cancelPending holder).map .cancelled id
  | .release holder lease => (b.release holder lease).map .released id
  | .disconnect holder => (b.disconnect holder).map .disconnected id

def step (b : LeaseBook) (call : LeaseCall) : LeaseBook := (b.perform call).2

def history (b : LeaseBook) (calls : List LeaseCall) : List LeaseEvent :=
  outputs step (fun b call => [(call,(b.perform call).1)]) b calls

inductive Transition (b : LeaseBook) : LeaseCall → LeaseReply → LeaseBook → Prop
  | kept {call : LeaseCall} {reply : LeaseReply} (haccepted : LeaseEvent.accepted (call,reply)=none)
      (hgranted : LeaseEvent.granted (call,reply)=none)
      (hdeadline : LeaseEvent.deadline (call,reply)=none)
      (hended : LeaseEvent.ended (call,reply)=none) : Transition b call reply b
  | accepted {holder : TenantId} {bytes : ℕ} (hpos : 0<bytes) (hle : bytes≤b.capacityBytes)
      (hpending : b.pending=none) (hactive : b.active=none) :
      Transition b (.beginRequest holder bytes) (.requested (.pending ⟨holder,bytes⟩))
        {b with pending := some ⟨holder,bytes⟩}
  | granted {bytes now ttl : ℕ} {p : PendingLease} (hpending : b.pending=some p)
      (hrequested : p.requestedBytes≤bytes) (hle : bytes≤b.capacityBytes) :
      Transition b (.grantPending bytes now ttl) (.granted (.ok ⟨b.nextId,p.holder,bytes⟩))
        { b with
          nextId := b.nextId+1
          pending := none
          active := some ⟨⟨b.nextId,p.holder,bytes⟩,now+ttl⟩}
  | renewed {now ttl : ℕ} {a : ActiveLease} (hactive : b.active=some a) :
      Transition b (.renewActive a.lease.holder now ttl) (.renewed true)
        {b with active := some {a with deadline := now+ttl}}
  | expired {now : ℕ} {a : ActiveLease} (hactive : b.active=some a) (hnow : a.deadline≤now) :
      Transition b (.expire now) (.expired (some a.lease)) {b with active := none}
  | released {a : ActiveLease} (hactive : b.active=some a) :
      Transition b (.release a.lease.holder a.lease.id) (.released (.ok true))
        {b with active := none}
  | cancelled {call : LeaseCall} {reply : LeaseReply} {p : PendingLease}
      (hcall : call=.cancelPending p.holder ∧ reply=.cancelled true ∨
        ∃ retained, call=.disconnect p.holder ∧ reply=.disconnected ⟨true,retained⟩)
      (hpending : b.pending=some p) : Transition b call reply {b with pending := none}

lemma instantAdd_eq_some {now ttl deadline : ℕ} (h : instantAdd now ttl=some deadline) :
    deadline = now+ttl := by
  unfold instantAdd at h
  split_ifs at h
  exact (Option.some.inj h).symm

variable {b' : LeaseBook} {call : LeaseCall} {reply : LeaseReply} (b : LeaseBook)
variable (holder : TenantId)

lemma beginRequest_transition (bytes : ℕ) :
    Transition b (.beginRequest holder bytes) (.requested (b.beginRequest holder bytes).1)
      (b.beginRequest holder bytes).2 := by
  unfold beginRequest
  split_ifs with h₁ h₂ h₃
  · exact .kept rfl rfl rfl rfl
  · exact .kept rfl rfl rfl rfl
  · exact .kept rfl rfl rfl rfl
  · rw [not_or] at h₃
    exact .accepted (Nat.pos_of_ne_zero h₁) (not_lt.mp h₂) (by simpa using h₃.1)
      (by simpa using h₃.2)

lemma grantPending_transition (bytes now ttl : ℕ) :
    Transition b (.grantPending bytes now ttl) (.granted (b.grantPending bytes now ttl).1)
      (b.grantPending bytes now ttl).2 := by
  unfold grantPending
  split_ifs
  · exact .kept rfl rfl rfl rfl
  cases hd : instantAdd now ttl with
  | none => exact .kept rfl rfl rfl rfl
  | some deadline =>
    obtain rfl := instantAdd_eq_some hd
    cases hp : b.pending with
    | none => exact .kept rfl rfl rfl rfl
    | some p =>
      dsimp only
      split_ifs with hbytes
      · exact .kept rfl rfl rfl rfl
      cases hid : checkedAdd 32 b.nextId 1 with
      | none => exact .kept rfl rfl rfl rfl
      | some following =>
        obtain ⟨-,rfl⟩ := checkedAdd_eq_some.mp hid
        rw [not_or,not_lt,not_lt] at hbytes
        exact .granted hp hbytes.1 hbytes.2

lemma renewActive_transition (now ttl : ℕ) :
    Transition b (.renewActive holder now ttl) (.renewed (b.renewActive holder now ttl).1)
      (b.renewActive holder now ttl).2 := by
  unfold renewActive
  split_ifs
  · exact .kept rfl rfl rfl rfl
  cases hd : instantAdd now ttl with
  | none => exact .kept rfl rfl rfl rfl
  | some deadline =>
    obtain rfl := instantAdd_eq_some hd
    cases ha : b.active with
    | none => exact .kept rfl rfl rfl rfl
    | some a =>
      dsimp only
      split_ifs with hholder
      · exact .kept rfl rfl rfl rfl
      · obtain rfl := not_not.mp hholder
        exact .renewed ha

lemma expire_transition (now : ℕ) :
    Transition b (.expire now) (.expired (b.expire now).1) (b.expire now).2 := by
  unfold expire
  cases ha : b.active with
  | none => exact .kept rfl rfl rfl rfl
  | some a =>
    dsimp only
    split_ifs with hnow
    · exact .expired ha hnow
    · exact .kept rfl rfl rfl rfl

lemma release_transition (lease : ℕ) :
    Transition b (.release holder lease) (.released (b.release holder lease).1) (b.release holder lease).2 := by
  unfold release
  cases ha : b.active with
  | none => exact .kept rfl rfl rfl rfl
  | some a =>
    dsimp only
    split_ifs with h₁ h₂
    · exact .kept rfl rfl rfl rfl
    · exact .kept rfl rfl rfl rfl
    · obtain rfl := not_not.mp h₁
      obtain rfl := not_not.mp h₂
      exact .released ha

lemma cancelPending_cases : b.cancelPending holder = (false,b) ∨ ∃ p, b.pending=some p ∧ p.holder=holder ∧
        b.cancelPending holder = (true,{b with pending := none}) := by
  unfold cancelPending
  cases hp : b.pending with
  | none => exact .inl rfl
  | some p =>
    dsimp only
    split_ifs with h
    · exact .inr ⟨p,rfl,h,rfl⟩
    · exact .inl rfl

theorem perform_transition (call : LeaseCall) : Transition b call (b.perform call).1 (b.perform call).2 := by
  cases call with
  | beginRequest holder bytes => exact b.beginRequest_transition holder bytes
  | grantPending bytes now ttl => exact b.grantPending_transition bytes now ttl
  | renewActive holder now ttl => exact b.renewActive_transition holder now ttl
  | expire now => exact b.expire_transition now
  | release holder lease => exact b.release_transition holder lease
  | cancelPending holder =>
    obtain h | ⟨p,hp,rfl,h⟩ := b.cancelPending_cases holder
    · simp only [perform,h]
      exact .kept rfl rfl rfl rfl
    · simp only [perform,h]
      exact .cancelled (.inl ⟨rfl,rfl⟩) hp
  | disconnect holder =>
    obtain h | ⟨p,hp,rfl,h⟩ := b.cancelPending_cases holder
    · simp only [perform,disconnect,h]
      exact .kept rfl rfl rfl rfl
    · simp only [perform,disconnect,h]
      exact .cancelled (.inr ⟨_,rfl,rfl⟩) hp

structure Consistent (capacity : ℕ) (events : List LeaseEvent) (b : LeaseBook) : Prop where
  capacity_eq : b.capacityBytes=capacity
  exclusive : b.pending=none ∨ b.active=none
  pending : ∀ p, b.pending=some p → latest LeaseEvent.accepted events=some p ∧
    0<p.requestedBytes ∧ p.requestedBytes ≤ capacity
  /-- The request before the grant is still the latest one that was accepted. -/
  requested : ∀ a, b.active=some a → ∃ p, latest LeaseEvent.accepted events=some p ∧
    p.holder=a.lease.holder ∧ p.requestedBytes≤a.lease.bytes ∧ a.lease.bytes ≤ capacity
  granted : ∀ a, b.active=some a → latest LeaseEvent.granted events=some a.lease
  deadline : ∀ a, b.active=some a → latest LeaseEvent.deadline events=some a.deadline
  running : ∀ a, b.active=some a → a.lease.id∉events.filterMap LeaseEvent.ended
  increasing : (events.filterMap LeaseEvent.granted).Pairwise fun l l' => l.id<l'.id
  below : ∀ l∈events.filterMap LeaseEvent.granted, l.id<b.nextId
  ended_once : (events.filterMap LeaseEvent.ended).Nodup
  ended_granted : ∀ id∈events.filterMap LeaseEvent.ended,
    ∃ l∈events.filterMap LeaseEvent.granted, l.id=id

lemma consistent_new (capacity : ℕ) : Consistent capacity [] (new capacity) := by
  constructor <;> simp [new]

namespace Consistent
variable {capacity : ℕ} {events : List LeaseEvent} {b : LeaseBook}
variable {e : LeaseEvent}

variable (h : Consistent capacity events b)
include h

lemma leases (hgranted : e.granted=none) (hended : e.ended=none) :
    ((events++[e]).filterMap LeaseEvent.granted).Pairwise (fun l l' => l.id<l'.id) ∧
      (∀ l∈(events++[e]).filterMap LeaseEvent.granted, l.id<b.nextId) ∧
      ((events++[e]).filterMap LeaseEvent.ended).Nodup ∧
      ∀ id∈(events++[e]).filterMap LeaseEvent.ended,
        ∃ l∈(events++[e]).filterMap LeaseEvent.granted, l.id=id := by
  rw [filterMap_concat_none hgranted,filterMap_concat_none hended]
  exact ⟨h.increasing,h.below,h.ended_once,h.ended_granted⟩

lemma of_active_none (hgranted : e.granted=none)
    (hended : e.ended=none) (hactive : b.active=none) {request : Option PendingLease}
    (hpending : ∀ p, request=some p → latest LeaseEvent.accepted (events++[e])=some p ∧
        0<p.requestedBytes ∧ p.requestedBytes ≤ capacity) :
    Consistent capacity (events++[e]) {b with pending := request} := by
  have hnone (a : ActiveLease) (ha : b.active=some a) : False := by simp [hactive] at ha
  obtain ⟨h₁,h₂,h₃,h₄⟩ := h.leases hgranted hended
  exact ⟨h.capacity_eq,.inr hactive,hpending,fun a ha => (hnone a ha).elim,
    fun a ha => (hnone a ha).elim,fun a ha => (hnone a ha).elim,fun a ha => (hnone a ha).elim,
    h₁,h₂,h₃,h₄⟩

lemma kept (haccepted : e.accepted=none)
    (hgranted : e.granted=none) (hdeadline : e.deadline=none) (hended : e.ended=none) :
    Consistent capacity (events++[e]) b := by
  obtain ⟨h₁,h₂,h₃,h₄⟩ := h.leases hgranted hended
  refine ⟨h.capacity_eq,h.exclusive,?_,?_,?_,?_,?_,h₁,h₂,h₃,h₄⟩
  · rw [latest_concat_none haccepted]
    exact h.pending
  · rw [latest_concat_none haccepted]
    exact h.requested
  · rw [latest_concat_none hgranted]
    exact h.granted
  · rw [latest_concat_none hdeadline]
    exact h.deadline
  · rw [filterMap_concat_none hended]
    exact h.running

lemma grant {p : PendingLease} (hpending : b.pending=some p)
    {lease : LogicalLease} {deadline : ℕ} (haccepted : e.accepted=none)
    (hgranted : e.granted=some lease) (hdeadline : e.deadline=some deadline)
    (hended : e.ended=none) (hid : lease.id=b.nextId) (hholder : p.holder=lease.holder)
    (hrequested : p.requestedBytes≤lease.bytes) (hle : lease.bytes ≤ capacity) : Consistent capacity (events++[e])
      {b with nextId := b.nextId+1, pending := none, active := some ⟨lease,deadline⟩} := by
  have hlast := (h.pending p hpending).1
  have hfresh : lease.id∉events.filterMap LeaseEvent.ended := by
    intro hmem
    obtain ⟨l,hl,he⟩ := h.ended_granted _ hmem
    have := h.below l hl
    omega
  refine ⟨h.capacity_eq,.inl rfl,nofun,?_,?_,?_,?_,?_,?_,?_,?_⟩
  · rintro a ⟨⟩
    exact ⟨p,by rw [latest_concat_none haccepted,hlast],hholder,hrequested,hle⟩
  · rintro a ⟨⟩
    exact latest_concat_some hgranted
  · rintro a ⟨⟩
    exact latest_concat_some hdeadline
  · rintro a ⟨⟩
    rwa [filterMap_concat_none hended]
  · rw [filterMap_concat_some hgranted,List.pairwise_append]
    refine ⟨h.increasing,List.pairwise_singleton _ _,?_⟩
    intro l hl l' hl'
    rw [List.mem_singleton.mp hl',hid]
    exact h.below l hl
  · rw [filterMap_concat_some hgranted]
    intro l hl
    obtain hl | hl := List.mem_append.mp hl
    · exact Nat.lt_succ_of_lt (h.below l hl)
    · rw [List.mem_singleton.mp hl,hid]
      exact Nat.lt_succ_self _
  · rw [filterMap_concat_none hended]
    exact h.ended_once
  · rw [filterMap_concat_none hended,filterMap_concat_some hgranted]
    intro id hmem
    obtain ⟨l,hl,hlid⟩ := h.ended_granted id hmem
    exact ⟨l,List.mem_append_left _ hl,hlid⟩

lemma renew (ha : b.active=some a) {deadline : ℕ} (haccepted : e.accepted=none) (hgranted : e.granted=none)
    (hdeadline : e.deadline=some deadline) (hended : e.ended=none) :
    Consistent capacity (events++[e]) {b with active := some {a with deadline := deadline}} := by
  obtain ⟨h₁,h₂,h₃,h₄⟩ := h.leases hgranted hended
  have hpending : b.pending=none := h.exclusive.resolve_right (by simp [ha])
  refine ⟨h.capacity_eq,.inl hpending,by simp [hpending],?_,?_,?_,?_,h₁,h₂,h₃,h₄⟩
  · rintro a' ⟨⟩
    rw [latest_concat_none haccepted]
    exact h.requested a ha
  · rintro a' ⟨⟩
    rw [latest_concat_none hgranted]
    exact h.granted a ha
  · rintro a' ⟨⟩
    exact latest_concat_some hdeadline
  · rintro a' ⟨⟩
    rw [filterMap_concat_none hended]
    exact h.running a ha

lemma end_active (ha : b.active=some a) (hgranted : e.granted=none) (hended : e.ended=some a.lease.id) :
    Consistent capacity (events++[e]) {b with active := none} := by
  have hlast : a.lease∈events.filterMap LeaseEvent.granted :=
    List.mem_of_getLast? (h.granted a ha)
  have hpending : b.pending=none := h.exclusive.resolve_right (by simp [ha])
  refine ⟨h.capacity_eq,.inr rfl,by simp [hpending],nofun,nofun,nofun,nofun,?_,?_,?_,?_⟩
  · rw [filterMap_concat_none hgranted]
    exact h.increasing
  · rw [filterMap_concat_none hgranted]
    exact h.below
  · rw [filterMap_concat_some hended,←List.concat_eq_append,List.nodup_concat]
    exact ⟨h.running a ha,h.ended_once⟩
  · rw [filterMap_concat_some hended,filterMap_concat_none hgranted]
    intro id hid
    obtain hid | hid := List.mem_append.mp hid
    · exact h.ended_granted id hid
    · exact ⟨a.lease,hlast,(List.mem_singleton.mp hid).symm⟩

theorem step {call : LeaseCall} {reply : LeaseReply} {b' : LeaseBook} (ht : Transition b call reply b') :
    Consistent capacity (events++[(call,reply)]) b' := by
  cases ht with
  | kept haccepted hgranted hdeadline hended => exact h.kept haccepted hgranted hdeadline hended
  | accepted hpos hle hpending hactive =>
    refine h.of_active_none rfl rfl hactive ?_
    rintro p ⟨⟩
    exact ⟨latest_concat_some rfl,hpos,h.capacity_eq ▸ hle⟩
  | granted hpending hrequested hle =>
    exact h.grant hpending rfl rfl rfl rfl rfl rfl hrequested (h.capacity_eq ▸ hle)
  | renewed hactive => exact h.renew hactive rfl rfl rfl rfl
  | expired hactive hnow => exact h.end_active hactive rfl rfl
  | released hactive => exact h.end_active hactive rfl rfl
  | cancelled hcall hpending =>
    have hactive : b.active=none := h.exclusive.resolve_left (by simp [hpending])
    obtain ⟨rfl,rfl⟩ | ⟨_,rfl,rfl⟩ := hcall
    · exact h.of_active_none rfl rfl hactive nofun
    · exact h.of_active_none rfl rfl hactive nofun

end Consistent

theorem consistent_run (capacity : ℕ) (calls : List LeaseCall) :
    Consistent capacity ((new capacity).history calls) (run step (new capacity) calls) := by
  induction calls using List.reverseRecOn with
  | nil => exact consistent_new capacity
  | append_singleton calls call ih =>
    have hevents : (new capacity).history (calls++[call]) = (new capacity).history calls ++
        [(call,((run step (new capacity) calls).perform call).1)] := by
      simp only [history,outputs_append]
      rfl
    rw [hevents,run_append]
    exact ih.step (perform_transition _ call)

lemma Transition.pending_none {b : LeaseBook} (ht : Transition b call reply b')
    (hb : b.pending=none) (h : ∀ holder bytes, call≠.beginRequest holder bytes) : b'.pending=none := by
  cases ht with
  | accepted => exact absurd rfl (h _ _)
  | granted => rfl
  | cancelled => rfl
  | _ => exact hb

lemma Transition.refused {b : LeaseBook} (ht : Transition b call reply b') (h : reply.refused) : b'=b := by
  cases ht with
  | kept => rfl
  | cancelled hcall =>
    obtain ⟨rfl,rfl⟩ | ⟨_,rfl,rfl⟩ := hcall <;> cases h
  | _ => cases h

lemma Transition.active {b : LeaseBook} (ht : Transition b call reply b')
    (ha : b.active=some a) (hpending : b.pending=none) :
    (b'.active.map ActiveLease.lease=some a.lease ∧ LeaseEvent.ended (call,reply)=none) ∨
      (b'.active=none ∧ LeaseEvent.ended (call,reply)=some a.lease.id ∧
        (call=.release a.lease.holder a.lease.id ∨ ∃ now, call=.expire now ∧ a.deadline≤now)) := by
  cases ht with
  | kept _ _ _ hended => exact .inl ⟨by rw [ha]; rfl,hended⟩
  | accepted _ _ _ hactive => simp [hactive] at ha
  | granted hp => simp [hpending] at hp
  | renewed hactive =>
    obtain rfl := Option.some.inj (hactive.symm.trans ha)
    exact .inl ⟨rfl,rfl⟩
  | expired hactive hnow =>
    obtain rfl := Option.some.inj (hactive.symm.trans ha)
    exact .inr ⟨rfl,rfl,.inr ⟨_,rfl,hnow⟩⟩
  | released hactive =>
    obtain rfl := Option.some.inj (hactive.symm.trans ha)
    exact .inr ⟨rfl,rfl,.inl rfl⟩
  | cancelled _ hp => simp [hpending] at hp

lemma Transition.ended {b : LeaseBook} (ht : Transition b call reply b') (ha : b.active=none) :
    LeaseEvent.ended (call,reply)=none := by
  cases ht with
  | kept _ _ _ hended => exact hended
  | expired hactive => simp [ha] at hactive
  | released hactive => simp [ha] at hactive
  | cancelled hcall =>
    obtain ⟨rfl,rfl⟩ | ⟨_,rfl,rfl⟩ := hcall <;> rfl
  | _ => rfl

lemma disconnect_active : (b.disconnect holder).2.active=b.active := by
  obtain h | ⟨p,-,-,h⟩ := b.cancelPending_cases holder <;> simp only [disconnect,h]

lemma renewActive_true {b : LeaseBook} {holder : TenantId} {now ttl : ℕ}
    (h : (b.renewActive holder now ttl).1=true) : ∃ a, b.active=some a ∧ a.lease.holder=holder := by
  have ht := b.renewActive_transition holder now ttl
  rw [h] at ht
  generalize (b.renewActive holder now ttl).2 = b' at ht
  cases ht with
  | kept _ _ hdeadline => cases hdeadline
  | renewed hactive => exact ⟨_,hactive,rfl⟩
  | cancelled hcall => obtain ⟨h,-⟩ | ⟨_,h,-⟩ := hcall <;> cases h

/-- What holds of every history of the lease book: of the book it leads to, of the leases it
granted and ended, and of whatever is called next. -/
theorem lease_histories (capacity : ℕ) (calls : List LeaseCall) :
    let b := run step (new capacity) calls
    let events := (new capacity).history calls
    (b.pending=none ∨ b.active=none) ∧
    (∀ p, b.pending = some p → 0<p.requestedBytes ∧ p.requestedBytes ≤ capacity) ∧
    (∀ a, b.active = some a → ∃ p, latest LeaseEvent.accepted events = some p ∧
      p.holder = a.lease.holder ∧ p.requestedBytes≤a.lease.bytes ∧ a.lease.bytes ≤ capacity) ∧
    ((events.filterMap LeaseEvent.granted).Pairwise fun l l' => l.id<l'.id) ∧
    (events.filterMap LeaseEvent.ended).Nodup ∧
    (∀ id ∈ events.filterMap LeaseEvent.ended, ∃ l ∈ events.filterMap LeaseEvent.granted, l.id = id) ∧
    (∀ a, b.active = some a → latest LeaseEvent.granted events = some a.lease ∧
      latest LeaseEvent.deadline events = some a.deadline) ∧
    (∀ holder now ttl, (b.renewActive holder now ttl).1 = true →
      ∃ a, b.active = some a ∧ a.lease.holder=holder) ∧
    (∀ call, (b.perform call).1.refused → (b.perform call).2 = b) ∧
    (∀ call, b.active = none → LeaseEvent.ended (call,(b.perform call).1) = none) ∧
    (∀ call a, b.active = some a →
      ((b.perform call).2.active.map ActiveLease.lease = some a.lease ∧
        LeaseEvent.ended (call,(b.perform call).1) = none) ∨
      ((b.perform call).2.active = none ∧
        LeaseEvent.ended (call,(b.perform call).1) = some a.lease.id ∧
        (call = .release a.lease.holder a.lease.id ∨
          ∃ now, call = .expire now ∧ a.deadline≤now))) ∧
    ∀ holder, (b.disconnect holder).2.active = b.active := by
  intro b events
  have h : Consistent capacity events b := consistent_run capacity calls
  refine ⟨h.exclusive,fun p hp => (h.pending p hp).2,h.requested,h.increasing,h.ended_once,
    h.ended_granted,fun a ha => ⟨h.granted a ha,h.deadline a ha⟩,fun _ _ _ => renewActive_true,
    fun call => (perform_transition b call).refused,fun call => (perform_transition b call).ended,
    ?_,b.disconnect_active⟩
  intro call a ha
  exact (perform_transition b call).active ha (h.exclusive.resolve_right (by simp [ha]))

end LeaseBook
end RamShared.Broker

import RamShared.Lib.Fallible
import RamShared.Workload.Ledger

/-! The scopes that run stay within the budget, as long as no admission drops the entry of a scope that
still runs. -/
namespace RamShared.Workload
open Lib

def Reservation.entry (r : Reservation) : String × OwnerIdentity × ℕ := (r.id,r.owner,r.memoryBytes)

def ReservationLedger.entries (l : ReservationLedger) : List (String × OwnerIdentity × ℕ) :=
  l.reservations.map Reservation.entry

section Transitions
variable {ledger ledger' : ReservationLedger} {r r' : Reservation}

lemma foldlM_checkedAdd {l : List Reservation} {a b : ℕ}
    (h : l.foldlM (fun sum item => checkedAdd 64 sum item.memoryBytes) a=some b) :
    a+(l.map Reservation.memoryBytes).sum=b := by
  induction l generalizing a with
  | nil => simpa using h
  | cons x l ih =>
    obtain ⟨c,hc,h⟩ := Option.bind_eq_some_iff.mp h
    have hb := ih h
    have hadd := (checkedAdd_eq_some.mp hc).2
    rw [List.map_cons,List.sum_cons]
    omega

lemma loadLedger_ok (h : loadLedger ledger=.ok ledger') : ledger'=ledger := by
  obtain ⟨-,-,h⟩ := bind_ok.mp h
  exact (Except.ok.inj h).symm

lemma admitReservation_ok {isAlive : OwnerIdentity → Bool} {nonce : String} {owner : OwnerIdentity}
    {class_ : WorkloadClass} {memoryBytes aggregateMax : ℕ}
    (h : admitReservation ledger isAlive nonce owner class_ memoryBytes aggregateMax=.ok (ledger',r))
    (hmax : aggregateMax<2^64-1) :
    ledger'.reservations = (ledger.reservations.filter fun item => isAlive item.owner)++[r] ∧
      r.id=nonce ∧ r.owner=owner ∧ r.memoryBytes=memoryBytes ∧
      ((ledger.reservations.filter fun item => isAlive item.owner).map Reservation.memoryBytes).sum +
        memoryBytes≤aggregateMax := by
  unfold admitReservation at h
  obtain ⟨l,hl,h₁⟩ := bind_ok.mp h
  obtain rfl := loadLedger_ok hl
  cases hsum : (l.reservations.filter fun item => isAlive item.owner).foldlM
      (fun sum item => checkedAdd 64 sum item.memoryBytes) 0 with
  | none =>
    simp only [hsum] at h₁
    cases h₁
  | some reserved =>
    simp only [hsum,ite_throw_ok] at h₁
    obtain ⟨hfits,h₂⟩ := h₁
    cases hnext : checkedAdd 64 l.nextOrdinal 1 with
    | none =>
      simp only [hnext] at h₂
      cases h₂
    | some next =>
      simp only [hnext] at h₂
      obtain ⟨-,-,h₃⟩ := bind_ok.mp h₂
      obtain ⟨rfl,rfl⟩ := Prod.mk.inj (Except.ok.inj h₃)
      refine ⟨rfl,rfl,rfl,rfl,?_⟩
      have hs := foldlM_checkedAdd hsum
      have hle : ¬(memoryBytes=0 ∨ aggregateMax<saturatingAdd 64 reserved memoryBytes) := by
        simpa using hfits
      unfold saturatingAdd at hle
      omega

lemma getElem?_of_findIdx? {p : Reservation → Bool} {l : List Reservation} {index : ℕ}
    (h : l.findIdx? p=some index) : ∃ e, l[index]?=some e ∧ p e=true := by
  obtain ⟨hlt,hp,-⟩ := List.findIdx?_eq_some_iff_getElem.mp h
  exact ⟨_,List.getElem?_eq_getElem hlt,hp⟩

lemma bindReservation_ok {invocationId : String} (h : bindReservation ledger r invocationId=.ok (ledger',r')) :
    ledger'.entries=ledger.entries ∧ r'.id=r.id ∧ r'.entry∈ledger.entries := by
  unfold bindReservation at h
  rw [ite_throw_ok] at h
  obtain ⟨l,hl,h₁⟩ := bind_ok.mp h.2
  obtain rfl := loadLedger_ok hl
  cases hfind : l.reservations.findIdx? fun item => item.id = r.id with
  | none =>
    simp only [hfind] at h₁
    cases h₁
  | some index =>
    obtain ⟨e,he,hid⟩ := getElem?_of_findIdx? hfind
    simp only [hfind,he,ite_throw_ok] at h₁
    obtain ⟨-,-,h₂⟩ := h₁
    obtain ⟨-,-,h₃⟩ := bind_ok.mp h₂
    obtain ⟨rfl,rfl⟩ := Prod.mk.inj (Except.ok.inj h₃)
    have hentry : l.entries[index]?=some e.entry := by
      rw [ReservationLedger.entries,List.getElem?_map,he]
      rfl
    refine ⟨?_,by simpa using hid,List.mem_of_getElem? hentry⟩
    obtain ⟨hlt,hget⟩ := List.getElem?_eq_some_iff.mp hentry
    rw [ReservationLedger.entries,List.map_set]
    change l.entries.set index e.entry=l.entries
    rw [←hget]
    exact List.set_getElem_self hlt

lemma releaseReservation_ok (h : releaseReservation ledger r=.ok (some ledger')) :
    (∀ e∈ledger'.entries, e∈ledger.entries) ∧
      ∀ e∈ledger.entries, e.1≠r.id → e∈ledger'.entries := by
  unfold releaseReservation at h
  obtain ⟨l,hl,h₁⟩ := bind_ok.mp h
  obtain rfl := loadLedger_ok hl
  cases hfind : l.reservations.findIdx? fun item => item.id = r.id with
  | none =>
    simp only [hfind] at h₁
    cases h₁
  | some index =>
    obtain ⟨x,hx,hid⟩ := getElem?_of_findIdx? hfind
    simp only [hfind,ite_throw_ok] at h₁
    obtain ⟨-,-,h₂⟩ := bind_ok.mp h₁.2
    obtain rfl := Option.some.inj (Except.ok.inj h₂)
    constructor
    · intro e he
      obtain ⟨y,hy,rfl⟩ := List.mem_map.mp he
      exact List.mem_map_of_mem (List.mem_of_mem_eraseIdx hy)
    · intro e he hne
      obtain ⟨y,hy,rfl⟩ := List.mem_map.mp he
      refine List.mem_map_of_mem (List.mem_eraseIdx_iff_getElem?.mpr ?_)
      obtain ⟨k,hk⟩ := List.mem_iff_getElem?.mp hy
      refine ⟨k,fun hki => ?_,hk⟩
      subst hki
      obtain rfl := Option.some.inj (hx.symm.trans hk)
      exact hne (show x.id = r.id by simpa using hid)

end Transitions

/-- A process that has a reservation for a scope which runs or is about to. -/
def Process.Holding (p : Process) : Prop := p.scope=.live ∨ p.stage=.admitted

def Process.heldBytes (p : Process) : ℕ :=
  if p.scope=.live ∨ p.stage=.admitted then p.request.memoryMaxBytes else 0

structure Entered (d : Shared) (n : ℕ) (p : Process) : Prop where
  locked : p.stage=.admitted ∨ p.stage=.launched → d.lock=some n
  stage : p.stage=.start ∨ p.stage=.admitted ∨ p.stage=.releasing → p.scope≠.live
  fresh : p.stage=.start → p.reservation=none
  held : p.Holding → ∃ r, p.reservation=some r ∧ r.entry∈d.ledger.entries
  own : ∀ r∈p.reservation, r.owner=p.owner ∧ r.memoryBytes=p.request.memoryMaxBytes
  only : ∀ r∈p.reservation, ∀ e∈d.ledger.entries, e.1=r.id → e=r.entry

namespace Fleet
variable {w : Fleet} {n : ℕ} {p x : Process} {d : Shared} {max : ℕ}

structure Covered (max : ℕ) (w : Fleet) : Prop where
  entered : w.Each Entered
  ids : ∀ (n m : ℕ) p q r s, w.threads[n]?=some p → w.threads[m]?=some q →
    p.reservation=some r → q.reservation=some s → r.id=s.id → n=m
  bytes : w.total Process.heldBytes ≤ max

/-- A change of the ledger that keeps what the processes hold, and uses none of their ids. -/
structure Respects (w : Fleet) (d : Shared) : Prop where
  held : ∀ (m : ℕ) q, w.threads[m]?=some q → q.Holding → ∀ r∈q.reservation,
    r.entry∈w.shared.ledger.entries → r.entry∈d.ledger.entries
  only : ∀ (m : ℕ) q, w.threads[m]?=some q → ∀ r∈q.reservation, ∀ e∈d.ledger.entries,
    e.1=r.id → e∈w.shared.ledger.entries

lemma respects_of_entries (h : d.ledger.entries=w.shared.ledger.entries) : w.Respects d :=
  ⟨fun _ _ _ _ _ _ he => h ▸ he,fun _ _ _ _ _ _ he _ => h ▸ he⟩

lemma Respects.entered (hr : w.Respects d) (h : w.Each Entered) {m : ℕ} {q : Process}
    (hm : w.threads[m]?=some q) (hl : w.shared.lock=some m → d.lock=some m) : Entered d m q := by
  have hq := h m q hm
  refine ⟨fun hs => hl (hq.locked hs),hq.stage,hq.fresh,fun hh => ?_,hq.own,fun r hres e he hid => ?_⟩
  · obtain ⟨r,hres,he⟩ := hq.held hh
    exact ⟨r,hres,hr.held m q hm hh r hres he⟩
  · exact hq.only r hres e (hr.only m q hm r hres e he hid) hid

section
variable (h : w.Covered max)
include h

variable {act : ℕ → Shared → Process → Shared × Process}

lemma Covered.turn (hn : w.threads[n]?=some p) (ha : act n w.shared p = (d,x)) (hr : w.Respects d)
    (hl : ∀ m, m≠n → w.shared.lock=some m → d.lock=some m) (ho : Entered d n x)
    (hi : ∀ r∈x.reservation, (∃ s, p.reservation=some s ∧ s.id=r.id) ∨
      ∀ (m : ℕ) q, w.threads[m]?=some q → ∀ s∈q.reservation, s.id≠r.id)
    (hb : w.total Process.heldBytes+x.heldBytes ≤ max+p.heldBytes) : Covered max (Threads.turn act w n) := by
  have hget {m : ℕ} {q : Process} (hq : (Threads.turn act w n).threads[m]?=some q) :
      m=n ∧ x=q ∨ m≠n ∧ w.threads[m]?=some q := by
    simpa [ha] using (Threads.get_turn hn).mp hq
  refine ⟨h.entered.turn (fun t ht => ?_) (fun t m u ht hmn hm => ?_),?_,?_⟩
  · obtain rfl := Option.some.inj (hn.symm.trans ht)
    rw [ha]
    exact ho
  · obtain rfl := Option.some.inj (hn.symm.trans ht)
    rw [ha]
    exact hr.entered h.entered hm (hl m hmn)
  · -- The id is an old one of this process, or new.
    have hown {m : ℕ} {q : Process} {r s : Reservation} (hm : w.threads[m]?=some q)
        (hr : x.reservation=some r) (hs : q.reservation=some s) (hid : r.id=s.id) : n=m := by
      obtain ⟨s₀,hs₀,hid₀⟩ | hnew := hi r hr
      · exact h.ids n m p q s₀ s hn hm hs₀ hs (hid₀.trans hid)
      · exact absurd hid.symm (hnew m q hm s hs)
    intro a b q q' r s hq hq' hr hs hid
    obtain ⟨rfl,rfl⟩ | ⟨-,h₁⟩ := hget hq <;> obtain ⟨rfl,rfl⟩ | ⟨-,h₂⟩ := hget hq'
    · rfl
    · exact hown h₂ hr hs hid
    · exact (hown h₁ hs hr hid.symm).symm
    · exact h.ids a b q q' r s h₁ h₂ hr hs hid
  · have ht := Threads.total_turn act Process.heldBytes hn
    simp only [ha] at ht
    omega

lemma Covered.same (hn : w.threads[n]?=some p) (ha : act n w.shared p = (w.shared,p)) :
    Covered max (Threads.turn act w n) :=
  h.turn hn ha (respects_of_entries rfl) (fun _ _ hm => hm) (h.entered n p hn)
    (fun r hr => .inl ⟨r,hr,rfl⟩) (by have := h.bytes; omega)

lemma Covered.stop {s : Stage} (hn : w.threads[n]?=some p) (hs : s=.returned ∨ s=.exited)
    (ha : act n w.shared p = (d,{p with stage := s})) (hr : w.Respects d)
    (hl : d.lock = if w.shared.lock=some n then none else w.shared.lock) :
    Covered max (Threads.turn act w n) := by
  have hstage {t : Stage} (ht : t≠.returned) (ht' : t≠.exited) : s≠t := by
    rintro rfl
    exact hs.elim ht ht'
  have hadm : s≠.admitted := hstage nofun nofun
  refine h.turn hn ha hr (fun m hmn hm => ?_) ?_ (fun r hres => .inl ⟨r,hres,rfl⟩) ?_
  · have hne : w.shared.lock≠some n := fun he => hmn (Option.some.inj (hm.symm.trans he))
    rw [hl,if_neg hne]
    exact hm
  · have hp := h.entered n p hn
    refine ⟨fun hh => ?_,fun hh => ?_,fun hh => ?_,fun hh => ?_,hp.own,fun r hres e he hid => ?_⟩
    · exact absurd hh (not_or.mpr ⟨hadm,hstage nofun nofun⟩)
    · exact absurd hh (not_or.mpr ⟨hstage nofun nofun,not_or.mpr ⟨hadm,hstage nofun nofun⟩⟩)
    · exact absurd hh (hstage nofun nofun)
    · have hlive : p.Holding := .inl (hh.resolve_right hadm)
      obtain ⟨r,hres,he⟩ := hp.held hlive
      exact ⟨r,hres,hr.held n p hn hlive r hres he⟩
    · exact hp.only r hres e (hr.only n p hn r hres e he hid) hid
  · have hle : ({p with stage := s} : Process).heldBytes≤p.heldBytes := by
      unfold Process.heldBytes
      by_cases hlive : p.scope=.live <;> simp [hlive,hadm]
    have := h.bytes
    omega

lemma Covered.leave {d₁ : Shared}
    (hn : w.threads[n]?=some p) (ha : act n w.shared p = leave n d₁ p) (hr : w.Respects d₁)
    (hl : d₁.lock=w.shared.lock) : Covered max (Threads.turn act w n) :=
  h.stop hn (.inl rfl) ha ⟨hr.held,hr.only⟩ (by rw [←hl]; rfl)

lemma Covered.exit (hn : w.threads[n]?=some p) (ha : act n w.shared p = exit n w.shared p) :
    Covered max (Threads.turn act w n) :=
  h.stop hn (.inr rfl) ha (respects_of_entries rfl) rfl

lemma Covered.held_le {l : List (String × OwnerIdentity × ℕ)}
    (hl : ∀ (m : ℕ) q, w.threads[m]?=some q → q.Holding → ∀ r∈q.reservation, r.entry∈l) :
    w.total Process.heldBytes≤(l.map fun e => e.2.2).sum := by
  classical
  let claim : Process → Option (String × OwnerIdentity × ℕ) := fun q =>
    if q.Holding then q.reservation.map Reservation.entry else none
  have hclaim {q : Process} {e : String × OwnerIdentity × ℕ} (he : e∈claim q) :
      q.Holding ∧ ∃ r, q.reservation=some r ∧ r.entry=e := by
    simp only [claim] at he
    split_ifs at he with hh
    · exact ⟨hh,by simpa using he⟩
    · cases he
  have hsum : w.total Process.heldBytes = ((w.threads.filterMap claim).map fun e => e.2.2).sum := by
    have hall : ∀ q∈w.threads, q.heldBytes = ((claim q).toList.map fun e => e.2.2).sum := by
      intro q hq
      obtain ⟨m,hm⟩ := List.mem_iff_getElem?.mp hq
      have hent := h.entered m q hm
      by_cases hh : q.Holding
      · obtain ⟨r,hr,-⟩ := hent.held hh
        have hmem : q.heldBytes=q.request.memoryMaxBytes := if_pos hh
        simp [claim,hh,hr,hmem,Reservation.entry,(hent.own r hr).2]
      · have hmem : q.heldBytes=0 := if_neg hh
        simp [claim,hh,hmem]
    rw [Threads.total]
    generalize w.threads = ts at hall
    induction ts with
    | nil => rfl
    | cons q ts ih =>
      have hq := hall q (List.mem_cons_self ..)
      have hts := ih fun x hx => hall x (List.mem_cons_of_mem q hx)
      cases hc : claim q <;> simp_all
  have hnodup : (w.threads.filterMap claim).Nodup := by
    rw [List.Nodup,List.pairwise_filterMap,List.pairwise_iff_getElem]
    rintro i j hi hj hij e he e' he' rfl
    obtain ⟨-,r,hr,hre⟩ := hclaim he
    obtain ⟨-,s,hs,hse⟩ := hclaim he'
    have hid : r.id=s.id := congrArg Prod.fst (hre.trans hse.symm)
    have := h.ids i j _ _ r s (List.getElem?_eq_getElem hi) (List.getElem?_eq_getElem hj) hr hs hid
    omega
  have hsub : w.threads.filterMap claim ⊆ l := by
    intro e he
    obtain ⟨q,hq,he⟩ := List.mem_filterMap.mp he
    obtain ⟨m,hm⟩ := List.mem_iff_getElem?.mp hq
    obtain ⟨hh,r,hr,rfl⟩ := hclaim he
    exact hl m q hm hh r hr
  rw [hsum]
  obtain ⟨l',hperm,hsubl⟩ := List.subperm_of_subset hnodup hsub
  rw [←(hperm.map _).sum_eq]
  exact (hsubl.map _).sum_le_sum fun _ _ => Nat.zero_le _

end

/-- No scope runs whose owner has exited, and the nonce is a new one. -/
structure Unorphaned (w : Fleet) (nonce : String) : Prop where
  alive : ∀ q∈w.threads, q.scope=.live → w.shared.isAlive q.owner=true
  ledger : ∀ r∈w.shared.ledger.reservations, r.id≠nonce
  processes : ∀ q∈w.threads, ∀ r∈q.reservation, r.id≠nonce

def Careful (w : Fleet) : Move → Prop
  | .turn n i => ∀ p∈w.threads[n]?, p.stage=.start → w.Unorphaned i.nonce
  | _ => True

instance (w : Fleet) (nonce : String) : Decidable (w.Unorphaned nonce) :=
  decidable_of_iff ((∀ q∈w.threads, q.scope=.live → w.shared.isAlive q.owner=true) ∧
    (∀ r∈w.shared.ledger.reservations, r.id≠nonce) ∧
    ∀ q∈w.threads, ∀ r∈q.reservation, r.id≠nonce)
    ⟨fun ⟨ha,hl,hp⟩ => ⟨ha,hl,hp⟩,fun ⟨ha,hl,hp⟩ => ⟨ha,hl,hp⟩⟩

instance (w : Fleet) : ∀ move, Decidable (w.Careful move)
  | .turn n i => inferInstanceAs (Decidable (∀ p∈w.threads[n]?, p.stage=.start → w.Unorphaned i.nonce))
  | .spawn .. | .kill _ | .finish _ => inferInstanceAs (Decidable True)

section Admission
variable {nonce : String} {ledger' : ReservationLedger} {r : Reservation}

lemma Covered.kept (h : w.Covered max) (hlock : w.shared.lock=none) (hu : w.Unorphaned nonce) (m : ℕ)
    (q : Process) (hm : w.threads[m]?=some q) (hh : q.Holding) (s : Reservation) (hs : s∈q.reservation) :
    s.entry∈(w.shared.ledger.reservations.filter fun item =>
      w.shared.isAlive item.owner).map Reservation.entry := by
  have hq := h.entered m q hm
  have hlive : q.scope=.live := by
    refine hh.resolve_right fun hstage => ?_
    have := hq.locked (.inl hstage)
    rw [hlock] at this
    cases this
  obtain ⟨s',hs',he⟩ := hq.held hh
  obtain rfl := Option.some.inj (hs.symm.trans hs')
  obtain ⟨item,hitem,heq⟩ := List.mem_map.mp he
  refine List.mem_map.mpr ⟨item,List.mem_filter.mpr ⟨hitem,?_⟩,heq⟩
  have hown : item.owner=q.owner := (congrArg (fun e => e.2.1) heq).trans (hq.own s hs).1
  rw [hown]
  exact hu.alive q (List.mem_of_getElem? hm) hlive

lemma Covered.respects_admit (h : w.Covered max) (hlock : w.shared.lock=none)
    (hu : w.Unorphaned nonce) (hid : r.id=nonce)
    (hl : ledger'.reservations = (w.shared.ledger.reservations.filter fun item =>
      w.shared.isAlive item.owner)++[r]) : w.Respects {w.shared with ledger := ledger'} := by
  have hentries : ledger'.entries = (w.shared.ledger.reservations.filter fun item =>
      w.shared.isAlive item.owner).map Reservation.entry++[r.entry] := by
    rw [ReservationLedger.entries,hl,List.map_append]
    rfl
  refine ⟨fun m q hm hh s hs _ => ?_,fun m q hm s hs e he heq => ?_⟩
  · rw [hentries]
    exact List.mem_append_left _ (h.kept hlock hu m q hm hh s hs)
  · rw [hentries] at he
    obtain he | he := List.mem_append.mp he
    · obtain ⟨item,hitem,rfl⟩ := List.mem_map.mp he
      exact List.mem_map_of_mem (List.mem_of_mem_filter hitem)
    · obtain rfl := List.mem_singleton.mp he
      exact absurd (heq.symm.trans hid) (hu.processes q (List.mem_of_getElem? hm) s hs)

end Admission

lemma Respects.store {ledger : ReservationLedger} (hr : w.Respects {w.shared with ledger}) (i : Input) :
    w.Respects (w.shared.store i ledger) ∧ (w.shared.store i ledger).lock=w.shared.lock := by
  unfold Shared.store
  split_ifs
  · exact ⟨hr,rfl⟩
  · exact ⟨respects_of_entries rfl,rfl⟩

section Turns
variable {memoryTotalBytes : ℕ} {budget : WorkloadBudget} {i : Input}

lemma Covered.start (h : w.Covered budget.memoryMaxBytes) (hn : w.threads[n]?=some p)
    (hs : p.stage=.start) (hb : calculateBudget memoryTotalBytes=.ok budget)
    (hmax : budget.memoryMaxBytes<2^64-1) (hu : w.Unorphaned i.nonce) :
    Covered budget.memoryMaxBytes (Threads.turn (act memoryTotalBytes i) w n) := by
  have hp := h.entered n p hn
  by_cases hrefuse : (w.shared.lock.isSome || i.refused.isSome)=true
  · exact h.leave hn (by simp [act,hs,hb,hrefuse]) (respects_of_entries rfl) rfl
  · have hlock : w.shared.lock=none := by
      cases hl : w.shared.lock with
      | none => rfl
      | some m => simp [hl] at hrefuse
    cases hadm : admitReservation w.shared.ledger w.shared.isAlive i.nonce p.owner p.request.class_
        p.request.memoryMaxBytes budget.memoryMaxBytes with
    | error err => exact h.leave hn (by simp [act,hs,hb,hrefuse,hadm]) (respects_of_entries rfl) rfl
    | ok x =>
      obtain ⟨ledger',r⟩ := x
      obtain ⟨hl,hid,howner,hmem,hsum⟩ := admitReservation_ok hadm hmax
      have hr := h.respects_admit hlock hu hid hl
      cases hstore : i.storeError with
      | some err =>
        exact h.leave hn (by simp [act,hs,hb,hrefuse,hadm,hstore]) (hr.store i).1 (hr.store i).2
      | none =>
        refine h.turn (d := {w.shared with ledger := ledger', lock := some n})
          (x := {p with stage := .admitted, reservation := some r}) hn
          (by simp [act,hs,hb,hrefuse,hadm,hstore]) ⟨hr.held,hr.only⟩ ?_ ?_ ?_ ?_
        · intro m _ hm
          rw [hlock] at hm
          cases hm
        · refine ⟨fun _ => rfl,fun _ => hp.stage (.inl hs),nofun,fun _ => ⟨r,rfl,?_⟩,?_,?_⟩
          · rw [ReservationLedger.entries,hl,List.map_append]
            exact List.mem_append_right _ (List.mem_singleton_self _)
          · rintro _ ⟨⟩
            exact ⟨howner,hmem⟩
          · rintro _ ⟨⟩ e he heq
            rw [ReservationLedger.entries,hl,List.map_append] at he
            obtain he | he := List.mem_append.mp he
            · obtain ⟨item,hitem,rfl⟩ := List.mem_map.mp he
              exact absurd (heq.trans hid) (hu.ledger item (List.mem_of_mem_filter hitem))
            · exact List.mem_singleton.mp he
        · rintro _ ⟨⟩
          exact .inr fun m q hm s hs => hid ▸ hu.processes q (List.mem_of_getElem? hm) s hs
        · have hheld := h.held_le (h.kept hlock hu)
          have hz : p.heldBytes=0 := if_neg fun hh => by
            obtain hlive | hstage := hh
            · exact hp.stage (.inl hs) hlive
            · rw [hs] at hstage
              cases hstage
          have hnew : ({p with stage := .admitted, reservation := some r} : Process).heldBytes =
              p.request.memoryMaxBytes := if_pos (.inr rfl)
          rw [List.map_map] at hheld
          have hcomp : ((fun e : String × OwnerIdentity × ℕ => e.2.2) ∘ Reservation.entry) =
              Reservation.memoryBytes := rfl
          rw [hcomp] at hheld
          omega

section
variable (h : w.Covered max)
include h

variable (hn : w.threads[n]?=some p)
include hn

lemma Covered.admitted (hs : p.stage=.admitted) : Covered max (Threads.turn (act memoryTotalBytes i) w n) := by
  have hp := h.entered n p hn
  have hlock := hp.locked (.inl hs)
  have hlive := hp.stage (.inr (.inl hs))
  have hbytes : p.heldBytes=p.request.memoryMaxBytes := if_pos (.inr hs)
  have hle := h.bytes
  have hfirst (q : Process) : q.heldBytes≤q.request.memoryMaxBytes := by
    unfold Process.heldBytes
    split_ifs <;> omega
  cases hlaunch : i.launchError with
  | some err =>
    refine h.turn (d := {w.shared with lock := none}) (x := {p with stage := .releasing}) hn
      (by simp [act,hs,hlaunch]) (respects_of_entries rfl) (fun m hmn hm => ?_) ?_
      (fun r hr => .inl ⟨r,hr,rfl⟩) ?_
    · exact absurd (Option.some.inj (hm.symm.trans hlock)) hmn
    · exact ⟨nofun,fun _ => hlive,nofun,fun hh => absurd (hh.resolve_right nofun) hlive,hp.own,hp.only⟩
    · have := hfirst {p with stage := .releasing}
      simp only at this
      omega
  | none =>
    refine h.turn (d := w.shared) (x := {p with stage := .launched, scope := .live}) hn
      (by simp [act,hs,hlaunch]) (respects_of_entries rfl) (fun _ _ hm => hm) ?_
      (fun r hr => .inl ⟨r,hr,rfl⟩) ?_
    · exact ⟨fun _ => hlock,nofun,nofun,fun _ => hp.held (.inr hs),hp.own,hp.only⟩
    · have := hfirst {p with stage := .launched, scope := .live}
      simp only at this
      omega

lemma Covered.launched (hs : p.stage=.launched) : Covered max (Threads.turn (act memoryTotalBytes i) w n) := by
  have hp := h.entered n p hn
  have hlock := hp.locked (.inr hs)
  cases hack : i.acknowledgement with
  | error err => exact h.leave hn (by simp [act,hs,hack]) (respects_of_entries rfl) rfl
  | ok invocationId =>
    cases hres : p.reservation with
    | none => exact h.leave hn (by simp [act,hs,hack,hres]) (respects_of_entries rfl) rfl
    | some r =>
      cases hbind : bindReservation w.shared.ledger r invocationId with
      | error err =>
        exact h.leave hn (by simp [act,hs,hack,hres,hbind]) (respects_of_entries rfl) rfl
      | ok x =>
        obtain ⟨ledger',r'⟩ := x
        obtain ⟨hentries,hid,hmem⟩ := bindReservation_ok hbind
        have hr : w.Respects {w.shared with ledger := ledger'} := respects_of_entries hentries
        have heq : r'.entry=r.entry := hp.only r hres _ hmem hid
        cases hstore : i.storeError with
        | some err =>
          exact h.leave hn (by simp [act,hs,hack,hres,hbind,hstore]) (hr.store i).1 (hr.store i).2
        | none =>
          refine h.turn (d := {w.shared with ledger := ledger', lock := none})
            (x := {p with stage := .waiting, reservation := some r'}) hn
            (by simp [act,hs,hack,hres,hbind,hstore]) ⟨hr.held,hr.only⟩ (fun m hmn hm => ?_) ?_ ?_ ?_
          · exact absurd (Option.some.inj (hm.symm.trans hlock)) hmn
          · refine ⟨nofun,nofun,nofun,fun _ => ⟨r',rfl,hentries ▸ hmem⟩,?_,?_⟩
            · rintro _ ⟨⟩
              have hown := hp.own r hres
              exact ⟨(congrArg (fun e => e.2.1) heq).trans hown.1,
                (congrArg (fun e => e.2.2) heq).trans hown.2⟩
            · rintro _ ⟨⟩ e he hide
              rw [heq]
              exact hp.only r hres e (hentries ▸ he) (hide.trans hid)
          · rintro _ ⟨⟩
            exact .inl ⟨r,hres,hid.symm⟩
          · have hle := h.bytes
            have hsame : ({p with stage := .waiting, reservation := some r'} : Process).heldBytes ≤
                p.heldBytes := by
              unfold Process.heldBytes
              by_cases hlive : p.scope=.live <;> simp [hlive]
            omega

lemma Covered.waiting (hs : p.stage=.waiting) : Covered max (Threads.turn (act memoryTotalBytes i) w n) := by
  have hp := h.entered n p hn
  have hle := h.bytes
  cases hq : i.queryError with
  | some err => exact h.leave hn (by simp [act,hs,hq]) (respects_of_entries rfl) rfl
  | none =>
    by_cases hscope : p.scope=.terminal
    · have hlive : p.scope≠.live := by rw [hscope]; exact nofun
      refine h.turn (d := w.shared) (x := {p with stage := .releasing}) hn
        (by simp [act,hs,hq,hscope]) (respects_of_entries rfl) (fun _ _ hm => hm) ?_
        (fun r hr => .inl ⟨r,hr,rfl⟩) ?_
      · exact ⟨nofun,fun _ => hlive,nofun,fun hh => absurd (hh.resolve_right nofun) hlive,hp.own,hp.only⟩
      · simp only [Process.heldBytes,hscope]
        simp
        omega
    · exact h.same hn (by simp [act,hs,hq,hscope])

lemma Covered.releasing (hs : p.stage=.releasing) :
    Covered max (Threads.turn (act memoryTotalBytes i) w n) := by
  have hp := h.entered n p hn
  have hlive := hp.stage (.inr (.inr hs))
  by_cases hrefuse : (w.shared.lock.isSome || i.refused.isSome)=true
  · exact h.leave hn (by simp [act,hs,hrefuse]) (respects_of_entries rfl) rfl
  · cases hres : p.reservation with
    | none => exact h.leave hn (by simp [act,hs,hrefuse,hres]) (respects_of_entries rfl) rfl
    | some r =>
      cases hrel : releaseReservation w.shared.ledger r with
      | error err => exact h.leave hn (by simp [act,hs,hrefuse,hres,hrel]) (respects_of_entries rfl) rfl
      | ok x =>
        cases x with
        | none => exact h.leave hn (by simp [act,hs,hrefuse,hres,hrel]) (respects_of_entries rfl) rfl
        | some ledger' =>
          obtain ⟨hsub,hkeep⟩ := releaseReservation_ok hrel
          have hr : w.Respects {w.shared with ledger := ledger'} := by
            refine ⟨fun m q hm hh s hs' he => hkeep _ he fun hid => ?_,fun m q hm s _ e he _ => hsub e he⟩
            -- The entry that goes is the process's own, and its scope does not run.
            obtain rfl := h.ids m n q p s r hm hn hs' hres hid
            obtain rfl := Option.some.inj (hn.symm.trans hm)
            obtain hl | hstage := hh
            · exact hlive hl
            · rw [hs] at hstage
              cases hstage
          exact h.leave hn (by simp [act,hs,hrefuse,hres,hrel]) (hr.store i).1 (hr.store i).2

end

lemma covered_nil (d : Shared) : Covered max ⟨d,[]⟩ := by
  refine ⟨fun n p hn => ?_,fun n _ p _ _ _ hn => ?_,Nat.zero_le _⟩
  · cases hn
  · cases hn

lemma Covered.kill (h : w.Covered max) (n : ℕ) : Covered max (Threads.turn kill w n) := by
  cases hn : w.threads[n]? with
  | none => simpa [Threads.turn,hn] using h
  | some p =>
    by_cases hs : p.stage=.exited
    · exact h.same hn (by simp [Workload.kill,hs])
    · exact h.exit hn (by simp [Workload.kill,hs])

lemma Covered.finish (h : w.Covered max) (n : ℕ) : Covered max (Threads.turn (fun _ => finish) w n) := by
  cases hn : w.threads[n]? with
  | none => simpa [Threads.turn,hn] using h
  | some p =>
    have hp := h.entered n p hn
    by_cases hlive : p.scope=.live
    · have hstage : p.stage≠.admitted := fun hs => hp.stage (.inr (.inl hs)) hlive
      have hended : Scope.terminal≠.live := by decide
      refine h.turn (d := w.shared) (x := {p with scope := .terminal}) hn
        (by simp [Workload.finish,hlive]) (respects_of_entries rfl) (fun _ _ hm => hm) ?_
        (fun r hr => .inl ⟨r,hr,rfl⟩) ?_
      · exact ⟨hp.locked,fun _ => hended,hp.fresh,fun hh => absurd (hh.resolve_left hended) hstage,
          hp.own,hp.only⟩
      · have hz : ({p with scope := .terminal} : Process).heldBytes=0 :=
          if_neg (not_or.mpr ⟨hended,hstage⟩)
        have hle := h.bytes
        omega
    · exact h.same hn (by simp [Workload.finish,hlive])

lemma Covered.enter (h : w.Covered max) (owner : OwnerIdentity) (request : WorkloadRequest) :
    Covered max (w.enter owner request) := by
  let w' : Fleet := ⟨{w.shared with alive := owner::w.shared.alive},w.threads⟩
  let p : Process := ⟨owner,request,.start,none,.absent⟩
  have henter : w.enter owner request = w'.spawn p := rfl
  have hkeep : w'.Each Entered := fun m q hm =>
    (respects_of_entries rfl : w.Respects w'.shared).entered h.entered hm id
  rw [henter]
  refine ⟨hkeep.spawn ?_,?_,?_⟩
  · refine ⟨?_,fun _ => nofun,fun _ => rfl,?_,nofun,nofun⟩
    · rintro (hs | hs) <;> cases hs
    · rintro (hh | hh) <;> cases hh
  · intro a b q q' r s hq hq' hr hs hid
    obtain hq | ⟨-,rfl⟩ := Threads.get_spawn.mp hq
    · obtain hq' | ⟨-,rfl⟩ := Threads.get_spawn.mp hq'
      · exact h.ids a b q q' r s hq hq' hr hs hid
      · cases hs
    · cases hr
  · rw [Threads.total_spawn]
    exact h.bytes

lemma Covered.step (h : w.Covered budget.memoryMaxBytes)
    (hb : calculateBudget memoryTotalBytes=.ok budget) (hmax : budget.memoryMaxBytes<2^64-1)
    {move : Move} (hc : w.Careful move) : (w.step memoryTotalBytes move).Covered budget.memoryMaxBytes := by
  cases move with
  | spawn owner request => exact h.enter owner request
  | kill n => exact h.kill n
  | finish n => exact h.finish n
  | turn n i =>
    change Covered _ (Threads.turn _ _ _)
    cases hn : w.threads[n]? with
    | none => simpa [Threads.turn,hn] using h
    | some p =>
      cases hs : p.stage with
      | start => exact h.start hn hs hb hmax (hc p hn hs)
      | admitted => exact h.admitted hn hs
      | launched => exact h.launched hn hs
      | waiting => exact h.waiting hn hs
      | releasing => exact h.releasing hn hs
      | returned => exact h.exit hn (by simp [act,hs])
      | exited => exact h.same hn (by simp [act,hs])

end Turns

lemma memoryMaxBytes_lt {memoryTotalBytes : ℕ} {budget : WorkloadBudget}
    (hb : calculateBudget memoryTotalBytes=.ok budget) (ht : memoryTotalBytes<2^64) :
    budget.memoryMaxBytes<2^64-1 := by
  unfold calculateBudget at hb
  rw [ite_throw_ok] at hb
  obtain ⟨-,h⟩ := hb
  rw [ite_throw_ok] at h
  obtain ⟨-,h₁⟩ := h
  obtain rfl := Except.ok.inj h₁
  simp only [gibBytes]
  omega

lemma liveBytes_le (p : Process) : p.liveBytes≤p.heldBytes := by
  unfold Process.liveBytes Process.heldBytes
  by_cases hlive : p.scope=.live <;> simp [hlive]

/-- The scopes that were launched and have not ended stay within the budget, in any run in which an
admission finds the owner of every running scope alive and draws a nonce that is not in use. -/
theorem live_within_budget (memoryTotalBytes : ℕ) (budget : WorkloadBudget)
    (hb : calculateBudget memoryTotalBytes = .ok budget) (ht : memoryTotalBytes < 2^64)
    (ledger : ReservationLedger) (alive : List OwnerIdentity) (moves : List Move)
    (h : AllSteps (step memoryTotalBytes) Careful ⟨⟨ledger,none,alive⟩,[]⟩ moves) :
    (run (step memoryTotalBytes) ⟨⟨ledger,none,alive⟩,[]⟩ moves).total Process.liveBytes ≤
      budget.memoryMaxBytes := by
  have hmax := memoryMaxBytes_lt hb ht
  have hcovered := AllSteps.invariant (step memoryTotalBytes)
    (P := Covered budget.memoryMaxBytes) (fun w move hw hc => hw.step hb hmax hc)
    (covered_nil ⟨ledger,none,alive⟩) h
  refine le_trans ?_ hcovered.bytes
  exact List.sum_le_sum fun p _ => liveBytes_le p

def smooth (nonce : String) : Input :=
  ⟨none,nonce,none,false,none,.ok "0123456789abcdef0123456789abcdef",none⟩

def command (pid : ℕ) : Move := .spawn ⟨"boot",pid,7,"owner"⟩ ⟨.build,8*gibBytes⟩

/-- A request that does not fit is refused while the first scope runs; the next one is admitted after the
release. -/
def inTurn : List Move :=
  [command 100,.turn 0 (smooth "a"),.turn 0 (smooth ""),.turn 0 (smooth ""),
    command 101,.turn 1 (smooth "b"),.finish 0,.turn 0 (smooth ""),.turn 0 (smooth ""),.turn 0 (smooth ""),
    command 102,.turn 2 (smooth "c"),.turn 2 (smooth ""),.turn 2 (smooth "")]

/-- The acknowledgement of the first scope is unknown, so its process returns with the reservation
retained. -/
def unacknowledged : List Move :=
  [command 100,.turn 0 (smooth "a"),.turn 0 (smooth ""),
    .turn 0 { smooth "" with acknowledgement := .error "timeout" },.turn 0 (smooth ""),
    command 101,.turn 1 (smooth "b"),.turn 1 (smooth ""),.turn 1 (smooth "")]

theorem live_within_budget_inTurn :
    AllSteps (step (16*gibBytes)) Careful ⟨⟨⟨3,1,[]⟩,none,[]⟩,[]⟩ inTurn ∧
      (run (step (16*gibBytes)) ⟨⟨⟨3,1,[]⟩,none,[]⟩,[]⟩ inTurn).threads.map Process.stage =
        [.exited,.returned,.waiting] ∧
      (run (step (16*gibBytes)) ⟨⟨⟨3,1,[]⟩,none,[]⟩,[]⟩ inTurn).total Process.liveBytes ≤ 12*gibBytes := by
  have h : AllSteps (step (16*gibBytes)) Careful ⟨⟨⟨3,1,[]⟩,none,[]⟩,[]⟩ inTurn := by decide +kernel
  have hb : calculateBudget (16*gibBytes) = .ok ⟨4*gibBytes,11166914969,12*gibBytes⟩ := by decide
  exact ⟨h,by decide +kernel,live_within_budget _ _ hb (by decide) ⟨3,1,[]⟩ [] inTurn h⟩

theorem live_beyond_budget :
    calculateBudget (16*gibBytes) = .ok ⟨4*gibBytes,11166914969,12*gibBytes⟩ ∧
      (run (step (16*gibBytes)) ⟨⟨⟨3,1,[]⟩,none,[]⟩,[]⟩ unacknowledged).total Process.liveBytes =
        16*gibBytes := by
  decide +kernel

end Fleet
end RamShared.Workload

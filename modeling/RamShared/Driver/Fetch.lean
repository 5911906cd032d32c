import RamShared.Driver.Turns

/-! No pended fetch is completed twice. None is lost either, as long as the pended fetch is taken only
while its cancel routine is set, and the cancel routine only while the fetch is pended. -/
namespace RamShared.Driver
open Lib

variable (irp : ℕ)

def Event.finishes : Event → Bool
  | .fetched i _ _ => i=irp
  | _ => false

namespace Device

def fetches (d : Device) (irp : ℕ) : ℕ := d.log.countP (Event.finishes irp)

def armed (d : Device) (irp : ℕ) : ℕ := if d.routine irp then 1 else 0

def pended (d : Device) (irp : ℕ) : ℕ := if d.pendedFetch=some irp then 1 else 0

end Device

namespace Pc

/-- The thread is to set the cancel routine of the fetch, or has taken it. -/
def share : Pc → ℕ
  | .pend i | .arm i | .woken _ i | .dropped i | .claim i | .claimed i | .unpend i | .cancelled i =>
    if i=irp then 1 else 0
  | _ => 0

/-- The thread has taken the fetch, and is to take its cancel routine. -/
def removing : Pc → ℕ
  | .wake _ i => if i=irp then 1 else 0
  | .fail _ p | .dropFetch p => if p=some irp then 1 else 0
  | _ => 0

/-- The call has pended its fetch, or has returned. -/
def past : Pc → Bool
  | .pend _ | .arm _ | .recheck _ | .disarm _ | .unpend _ | .cancelled _ | .commitReturned _ => true
  | _ => false

/-- The thread is to take the cancel routine without the fetch. -/
def disarms : Pc → Bool
  | .swap i | .disarm i => i=irp
  | _ => false

def takes : Pc → Bool
  | .insert _ | .snapshot => true
  | _ => false

/-- How many turns the thread takes to complete the fetch it carries. -/
def togo : Pc → ℕ
  | .fail failed _ => failed.length+3
  | .wake _ _ | .dropFetch _ => 2
  | .woken _ _ | .dropped _ | .claimed _ | .cancelled _ => 1
  | _ => 0

end Pc

section Turns
variable (i : Input) (n : ℕ) (d : Device) (irp : ℕ)
variable (es : List Event) (srb : Option Srb) (ok : Bool) (t : Taken) (address : Bool) (j m : ℕ) (b : Bool)

@[simp] lemma fetches_record : (d.record es).fetches irp = d.fetches irp+es.countP (Event.finishes irp) :=
  List.countP_append

@[simp] lemma fetches_requestComplete : (d.requestComplete srb ok).fetches irp = d.fetches irp := by
  rw [Device.requestComplete,fetches_record]
  cases srb <;> split_ifs <;> simp [Event.finishes]

@[simp] lemma fetches_copyOut : (d.copyOut t address).fetches irp = d.fetches irp := by
  rw [Device.copyOut,fetches_record]
  cases t.srb <;> split_ifs <;> simp [Event.finishes]

@[simp] lemma fetches_takeFetch : (d.takeFetch j m).fetches irp = d.fetches irp := by
  simp [Device.takeFetch,Device.fetches,Event.finishes]

@[simp] lemma fetches_setRoutine : (d.setRoutine j b).fetches irp = d.fetches irp := rfl

@[simp] lemma armed_setRoutine :
    (d.setRoutine j b).armed irp = if j=irp then (if b then 1 else 0) else d.armed irp := by
  by_cases h : j=irp
  · subst h
    simp [Device.armed,Device.setRoutine]
  · simp [Device.armed,Device.setRoutine,h,Function.update_of_ne (Ne.symm h)]

@[simp] lemma armed_record : (d.record es).armed irp = d.armed irp := rfl

@[simp] lemma armed_requestComplete : (d.requestComplete srb ok).armed irp = d.armed irp := rfl

@[simp] lemma armed_copyOut : (d.copyOut t address).armed irp = d.armed irp := rfl

@[simp] lemma pended_requestComplete : (d.requestComplete srb ok).pended irp = d.pended irp := rfl

@[simp] lemma pended_copyOut : (d.copyOut t address).pended irp = d.pended irp := rfl

@[simp] lemma armed_takeFetch : (d.takeFetch j m).armed irp = d.armed irp := rfl

@[simp] lemma pended_record : (d.record es).pended irp = d.pended irp := rfl

@[simp] lemma pended_setRoutine : (d.setRoutine j b).pended irp = d.pended irp := rfl

@[simp] lemma pended_takeFetch : (d.takeFetch j m).pended irp=0 := rfl

/-- What a turn does about one fetch: it is published once, by its own call, and from then on its
cancel routine is in one place at most, and the fetch too. -/
structure FetchTurn (n irp : ℕ) (d : Device) (pc : Pc) (d' : Device) (pc' : Pc) : Prop where
  balance : (d'.fetches irp+d'.armed irp+pc'.share irp ≤
        d.fetches irp+d.armed irp+pc.share irp ∧
      d'.pended irp+pc'.removing irp≤d.pended irp+pc.removing irp) ∨
    irp=n ∧ pc.past=false ∧ pc'.past=true ∧
      d'.fetches irp+d'.armed irp+pc'.share irp =
        d.fetches irp+d.armed irp+pc.share irp+1 ∧
      d'.pended irp+pc'.removing irp = d.pended irp+pc.removing irp+1
  past : pc.past=true → pc'.past=true
  armed : d.armed irp≤d'.armed irp ∨ pc.removing irp=1 ∨ pc.disarms irp=true
  removing : pc'.removing irp=1 →
    d'.armed irp = d.armed irp ∧ (pc.removing irp=1 ∨ pc.takes=true ∧ d.pendedFetch=some irp)

lemma insert_fetch (srb : Srb) : FetchTurn n irp d (.insert srb) (d.insert n srb).1 (d.insert n srb).2 := by
  obtain he | ⟨tag,x,bounced,-,-,hb,h⟩ := d.insert_cases n srb
  · rw [he]
    exact ⟨.inl ⟨le_rfl,le_rfl⟩,id,.inl le_rfl,nofun⟩
  · have hz : bounced.countP (Event.finishes irp)=0 :=
      List.countP_eq_zero.mpr fun e he => by rw [hb e he]; exact Bool.false_ne_true
    obtain ⟨-,he⟩ | ⟨j,hp,he⟩ := h <;> rw [he]
    · refine ⟨.inl ⟨?_,le_rfl⟩,nofun,.inl le_rfl,nofun⟩
      simp [Device.fetches,Device.armed,Pc.share,hz,Event.finishes]
    · refine ⟨.inl ⟨?_,?_⟩,nofun,.inl le_rfl,fun hr => ⟨rfl,.inr ⟨rfl,?_⟩⟩⟩
      · simp [Device.takeFetch,Device.fetches,Device.armed,Pc.share,hz,Event.finishes]
      · simp [Device.takeFetch,Device.pended,Pc.removing,hp]
      · simpa [Pc.removing,hp] using hr

lemma drain_fetch (completed : ℕ) (sawFailed : Bool) :
    FetchTurn n irp d (.drain completed sawFailed) (d.drain i n completed sawFailed).1
      (d.drain i n completed sawFailed).2 := by
  obtain ⟨qs,⟨status,he⟩ | ⟨hp,he⟩ | ⟨tag,x,-,-,he | ⟨status,k,saw,he⟩⟩⟩ :=
    d.drain_cases i n completed sawFailed
  all_goals rw [he]
  · exact ⟨.inl ⟨le_rfl,le_rfl⟩,nofun,.inl le_rfl,nofun⟩
  · refine ⟨?_,nofun,.inl le_rfl,nofun⟩
    by_cases hirp : n=irp
    · refine .inr ⟨hirp.symm,rfl,rfl,?_,?_⟩
      · simp [Device.fetches,Device.armed,Pc.share,hirp]
      · simp [Device.pended,Pc.removing,hp,hirp]
    · refine .inl ⟨?_,?_⟩
      · simp [Device.fetches,Device.armed,Pc.share,hirp]
      · simp [Device.pended,Pc.removing,hirp]
  · refine ⟨.inl ⟨?_,le_rfl⟩,nofun,.inl le_rfl,nofun⟩
    simp [Device.fetches,Device.armed,Pc.share,Event.finishes]
  · refine ⟨.inl ⟨?_,le_rfl⟩,nofun,.inl le_rfl,nofun⟩
    simp [Device.fetches,Device.armed,Pc.share,Event.finishes]

lemma snapshot_fetch : FetchTurn n irp d .snapshot (d.snapshot n).1 (d.snapshot n).2 := by
  refine ⟨.inl ⟨?_,?_⟩,nofun,.inl le_rfl,fun hr => ⟨rfl,.inr ⟨rfl,?_⟩⟩⟩
  · cases h : d.pendedFetch <;>
      simp [Device.snapshot,Device.fetches,Device.armed,Device.record,h,Event.finishes,Pc.share]
  · simp [Device.snapshot,Device.pended,Pc.removing]
  · simpa [Device.snapshot,Pc.removing] using hr

lemma act_fetch (pc : Pc) : FetchTurn n irp d pc (act i n d pc).1 (act i n d pc).2 := by
  fun_cases act i n d pc
  all_goals first
  | exact insert_fetch n d irp _
  | exact drain_fetch i n d irp _ _
  | exact snapshot_fetch n d irp
  | skip
  all_goals
    constructor
    all_goals try first
    | exact .inl ⟨le_rfl,le_rfl⟩
    | exact .inl le_rfl
    | exact id
    | exact fun _ => rfl
    | exact fun h => absurd h Bool.false_ne_true
    | exact fun h => absurd h Nat.zero_ne_one
    | exact fun h => ⟨rfl,.inl h⟩
  -- What is left is about the cancel routine of some fetch, which may be this one.
  all_goals
    simp only [armed_setRoutine,pended_setRoutine,fetches_setRoutine,fetches_record,
      fetches_requestComplete,fetches_copyOut,fetches_takeFetch,pended_takeFetch,armed_record,
      armed_takeFetch,armed_requestComplete,armed_copyOut,pended_record,pended_requestComplete,
      pended_copyOut,Pc.share,Pc.removing,Pc.disarms,Pc.past,
      List.countP_cons,List.countP_nil,Event.finishes]
    try simp only [Device.armed,Device.pended,decide_eq_true_eq]
    grind

lemma act_carries (pc : Pc) : pc.carries irp=true → (pc.removing irp=1 → d.routine irp=true) →
    (∃ status, .fetched irp n status∈(act i n d pc).1.log) ∨
      (act i n d pc).2.carries irp=true ∧ (act i n d pc).2.togo<pc.togo := by
  cases pc with
  | wake srb j =>
    intro h hr
    obtain rfl : j=irp := of_decide_eq_true h
    rw [act,if_pos (hr (if_pos rfl))]
    exact .inr ⟨h,Nat.lt_succ_self 1⟩
  | woken srb j | dropped j | claimed j | cancelled j =>
    intro h _
    obtain rfl : j=irp := of_decide_eq_true h
    exact .inl ⟨_,List.mem_append_right _ (List.mem_singleton_self _)⟩
  | fail failed p =>
    intro h _
    cases failed with
    | nil => exact .inr ⟨h,Nat.lt_succ_self 2⟩
    | cons srb failed => exact .inr ⟨h,Nat.lt_succ_self (failed.length+3)⟩
  | dropFetch p =>
    intro h hr
    obtain rfl : p=some irp := of_decide_eq_true h
    rw [act,if_pos (hr (if_pos rfl))]
    exact .inr ⟨decide_eq_true rfl,Nat.lt_succ_self 1⟩
  | _ => exact fun h => absurd h Bool.false_ne_true

lemma togo_pos {pc : Pc} (h : pc.carries irp=true) : 0<pc.togo := by
  cases pc with
  | wake | woken | dropped | claimed | cancelled | fail | dropFetch => exact Nat.succ_pos _
  | _ => cases h

end Turns

def Move.isTurn (m : ℕ) : Move → Bool
  | .turn n _ => n=m
  | _ => false

namespace Machine

/-- The pended fetch is taken only while its cancel routine is set, and the cancel routine only while
the fetch is pended. -/
def OrderlyTurn (w : Machine) : Pc → Prop
  | .insert _ | .snapshot => ∀ irp∈w.shared.pendedFetch, w.shared.routine irp=true
  | .swap irp | .disarm irp => w.shared.routine irp=true → w.shared.pendedFetch=some irp
  | _ => True

def Orderly (w : Machine) : Move → Prop
  | .turn n _ => ∀ pc∈w.threads[n]?, w.OrderlyTurn pc
  | _ => True

def Published (w : Machine) (irp : ℕ) : Prop := ∃ pc, w.threads[irp]?=some pc ∧ pc.past=true

/-- The cancel routine of a fetch is in one place at most, and the fetch too. -/
structure Once (w : Machine) (irp : ℕ) : Prop where
  routine : w.shared.fetches irp+w.shared.armed irp+w.total (Pc.share irp)≤1
  fetch : w.shared.pended irp+w.total (Pc.removing irp)≤1
  published : ¬w.Published irp → w.shared.fetches irp+w.shared.armed irp+w.total (Pc.share irp)=0 ∧
    w.shared.pended irp+w.total (Pc.removing irp)=0

lemma once_new (queueDepth maxIoBytes : ℕ) (adapter : Bool) (irp : ℕ) :
    (new queueDepth maxIoBytes adapter).Once irp :=
  ⟨Nat.zero_le _,Nat.zero_le _,fun _ => ⟨rfl,rfl⟩⟩

variable {w : Machine} {irp : ℕ}
variable {pc : Pc}

lemma Once.spawn (h : w.Once irp) (hs : pc.share irp=0) (hr : pc.removing irp=0) :
    Once (Threads.spawn w pc) irp := by
  have h₁ := Threads.total_spawn (w := w) (Pc.share irp) pc
  have h₂ := Threads.total_spawn (w := w) (Pc.removing irp) pc
  rw [hs,Nat.add_zero] at h₁
  rw [hr,Nat.add_zero] at h₂
  refine ⟨h₁ ▸ h.routine,h₂ ▸ h.fetch,fun hn => ?_⟩
  rw [h₁,h₂]
  refine h.published fun ⟨u,hu,hp⟩ => hn ⟨u,Threads.get_spawn.mpr (.inl hu),hp⟩

lemma Once.turn (h : w.Once irp) (n : ℕ) (i : Input) : Once (Threads.turn (act i) w n) irp := by
  cases hn : w.threads[n]? with
  | none => simpa [Threads.turn,hn] using h
  | some pc =>
    have ht := act_fetch i n w.shared irp pc
    have h₁ := Threads.total_turn (act i) (Pc.share irp) hn
    have h₂ := Threads.total_turn (act i) (Pc.removing irp) hn
    have h₃ := Threads.le_total (Pc.share irp) hn
    have h₄ := Threads.le_total (Pc.removing irp) hn
    have hr := h.routine
    have hf := h.fetch
    obtain ⟨hs,hp⟩ | ⟨rfl,hpast,hpast',hs,hp⟩ := ht.balance
    · constructor
      · rw [Threads.shared_turn hn]
        omega
      · rw [Threads.shared_turn hn]
        omega
      · intro hnot
        have hz := h.published (by
          rintro ⟨u,hu,hp⟩
          by_cases hirp : irp=n
          · subst hirp
            obtain rfl : pc=u := Option.some.inj (hn.symm.trans hu)
            exact hnot ⟨_,(Threads.get_turn hn).mpr (.inl ⟨rfl,rfl⟩),ht.past hp⟩
          · exact hnot ⟨u,(Threads.get_turn hn).mpr (.inr ⟨hirp,hu⟩),hp⟩)
        rw [Threads.shared_turn hn]
        omega
    · have hz := h.published (by
        rintro ⟨u,hu,hp⟩
        obtain rfl : pc=u := Option.some.inj (hn.symm.trans hu)
        rw [hpast] at hp
        cases hp)
      constructor
      · rw [Threads.shared_turn hn]
        omega
      · rw [Threads.shared_turn hn]
        omega
      · exact fun hnot => absurd ⟨_,(Threads.get_turn hn).mpr (.inl ⟨rfl,rfl⟩),hpast'⟩ hnot

lemma Once.step (h : w.Once irp) (a : Move) : Once (w.step a) irp := by
  cases a with
  | turn n i => exact h.turn n i
  | _ => exact h.spawn rfl rfl

/-- Who has taken the fetch finds its cancel routine set, and completes the fetch. -/
structure Kept (w : Machine) (irp : ℕ) : Prop where
  once : w.Once irp
  armed : w.Each fun d _ pc => pc.removing irp=1 → d.routine irp=true
  removed : ∀ m, .removed irp m∈w.shared.log → (∃ status, .fetched irp m status∈w.shared.log) ∨
    ∃ pc, w.threads[m]?=some pc ∧ pc.carries irp=true

lemma kept_new (queueDepth maxIoBytes : ℕ) (adapter : Bool) (irp : ℕ) :
    (new queueDepth maxIoBytes adapter).Kept irp :=
  ⟨once_new queueDepth maxIoBytes adapter irp,nofun,nofun⟩

lemma Kept.spawn (h : w.Kept irp) (ho : Once (Threads.spawn w pc) irp) (hr : pc.removing irp=0) :
    Kept (Threads.spawn w pc) irp := by
  refine ⟨ho,h.armed.spawn fun hone => ?_,fun m hm => ?_⟩
  · rw [hr] at hone
    cases hone
  · obtain hf | ⟨u,hu,hc⟩ := h.removed m hm
    · exact .inl hf
    · exact .inr ⟨u,Threads.get_spawn.mpr (.inl hu),hc⟩

lemma armed_eq_one {d : Device} : d.armed irp=1 ↔ d.routine irp=true := by
  unfold Device.armed
  split_ifs with h <;> simp [h]

lemma Kept.turn (h : w.Kept irp) {n : ℕ} {i : Input} (ho : w.Orderly (.turn n i)) :
    Kept (Threads.turn (act i) w n) irp := by
  cases hn : w.threads[n]? with
  | none => simpa [Threads.turn,hn] using h
  | some pc =>
    refine ⟨h.once.turn n i,h.armed.turn (fun t ht => ?_) fun t m u ht hmn hm => ?_,fun m hm => ?_⟩
    · intro hone
      obtain ⟨ha,hr | ⟨htakes,hp⟩⟩ := (act_fetch i n w.shared irp t).removing hone
      · exact armed_eq_one.mp (ha.trans (armed_eq_one.mpr (h.armed n t ht hr)))
      · refine armed_eq_one.mp (ha.trans (armed_eq_one.mpr ?_))
        have hot := ho t ht
        cases t with
        | insert | snapshot => exact hot irp hp
        | _ => cases htakes
    · intro hone
      have hset := armed_eq_one.mpr (h.armed m u hm hone)
      obtain ha | hr | hd := (act_fetch i n w.shared irp t).armed
      · refine armed_eq_one.mp (le_antisymm ?_ (hset ▸ ha))
        unfold Device.armed
        split_ifs <;> omega
      · have h₁ := Threads.add_le_total (Pc.removing irp) hmn ht hm
        have h₂ := h.once.fetch
        omega
      · have hot := ho t ht
        have hp : w.shared.pendedFetch=some irp := by
          cases t with
          | swap j | disarm j =>
            obtain rfl : j=irp := of_decide_eq_true hd
            exact hot (armed_eq_one.mp hset)
          | _ => cases hd
        have h₁ := Threads.le_total (Pc.removing irp) hm
        have h₂ := h.once.fetch
        rw [Device.pended,if_pos hp] at h₂
        omega
    · rw [Threads.shared_turn hn] at hm ⊢
      obtain ⟨es,hlog,hes⟩ := act_log i n w.shared pc
      have hold {m : ℕ} {status : Status} (hf : .fetched irp m status∈w.shared.log) :
          .fetched irp m status∈(act i n w.shared pc).1.log := by
        rw [hlog]
        exact List.mem_append_left es hf
      rw [hlog] at hm
      obtain hm | hm := List.mem_append.mp hm
      · obtain ⟨status,hf⟩ | ⟨u,hu,hc⟩ := h.removed m hm
        · exact .inl ⟨status,hold hf⟩
        · by_cases hmn : m=n
          · subst hmn
            obtain rfl : pc=u := Option.some.inj (hn.symm.trans hu)
            obtain hf | ⟨hc',-⟩ := act_carries i m w.shared irp pc hc (h.armed m pc hn)
            · exact .inl hf
            · exact .inr ⟨_,(Threads.get_turn hn).mpr (.inl ⟨rfl,rfl⟩),hc'⟩
          · exact .inr ⟨u,(Threads.get_turn hn).mpr (.inr ⟨hmn,hu⟩),hc⟩
      · obtain ⟨rfl,hc⟩ := hes _ hm
        exact .inr ⟨_,(Threads.get_turn hn).mpr (.inl ⟨rfl,rfl⟩),hc⟩

lemma Kept.step (h : w.Kept irp) {a : Move} (ho : w.Orderly a) : Kept (w.step a) irp := by
  have hs := h.once.step a
  cases a with
  | turn n i => exact h.turn ho
  | _ => exact h.spawn hs rfl

lemma mem_log_step {e : Event} (a : Move) (h : e∈w.shared.log) : e∈(w.step a).shared.log := by
  cases a with
  | turn n i =>
    cases hn : w.threads[n]? with
    | none => simpa [step,Threads.turn,hn] using h
    | some pc =>
      obtain ⟨es,hlog,-⟩ := act_log i n w.shared pc
      rw [step,Threads.shared_turn hn,hlog]
      exact List.mem_append_left es h
  | _ => exact h

lemma mem_log_run {e : Event} (bs : List Move) (h : e∈w.shared.log) : e∈(run step w bs).shared.log :=
  run_induction step (P := fun w => e∈w.shared.log) (fun _ a => mem_log_step a) h bs

lemma completes_of_carries {m : ℕ} (h : w.Kept irp) (hm : w.threads[m]?=some pc)
    (hc : pc.carries irp=true) {bs : List Move} (ho : AllSteps step Orderly w bs)
    (hb : pc.togo≤bs.countP (Move.isTurn m)) : ∃ status, .fetched irp m status∈(run step w bs).shared.log := by
  induction bs generalizing w pc with
  | nil =>
    have := togo_pos irp hc
    simp only [List.countP_nil] at hb
    omega
  | cons a bs ih =>
    have hk := h.step ho.1
    have stay (ha : Move.isTurn m a=false) (hm' : (w.step a).threads[m]?=some pc) :
        ∃ status, .fetched irp m status∈(run step w (a::bs)).shared.log := by
      rw [List.countP_cons_of_neg (by simp [ha])] at hb
      exact ih hk hm' hc ho.2 hb
    cases a with
    | turn n i =>
      by_cases hmn : n=m
      · subst hmn
        rw [List.countP_cons_of_pos (by simp [Move.isTurn])] at hb
        obtain ⟨status,hf⟩ | ⟨hc',hlt⟩ := act_carries i n w.shared irp pc hc (h.armed n pc hm)
        · refine ⟨status,mem_log_run bs ?_⟩
          rwa [step,Threads.shared_turn hm]
        · exact ih hk ((Threads.get_turn hm).mpr (.inl ⟨rfl,rfl⟩)) hc' ho.2 (by omega)
      · refine stay (decide_eq_false hmn) ?_
        cases hn : w.threads[n]? with
        | none => simpa [step,Threads.turn,hn] using hm
        | some u => exact (Threads.get_turn hn).mpr (.inr ⟨Ne.symm hmn,hm⟩)
    | _ => exact stay rfl (Threads.get_spawn.mpr (.inl hm))

/-- No fetch is completed twice; and in an orderly run whoever takes a fetch off the queue completes
it, after turns of its own that nobody can hold up. -/
theorem fetch_completed (queueDepth maxIoBytes : ℕ) (adapter : Bool) (as : List Move) (irp : ℕ) :
    (run step (new queueDepth maxIoBytes adapter) as).shared.fetches irp ≤ 1 ∧
    (AllSteps step Orderly (new queueDepth maxIoBytes adapter) as →
      ∀ m, .removed irp m ∈ (run step (new queueDepth maxIoBytes adapter) as).shared.log →
      (∃ status, .fetched irp m status ∈
        (run step (new queueDepth maxIoBytes adapter) as).shared.log) ∨
      ∃ pc, (run step (new queueDepth maxIoBytes adapter) as).threads[m]? = some pc ∧
        pc.carries irp = true ∧
        ∀ bs, AllSteps step Orderly (run step (new queueDepth maxIoBytes adapter) as) bs →
          pc.togo ≤ bs.countP (Move.isTurn m) →
          ∃ status, .fetched irp m status ∈
            (run step (run step (new queueDepth maxIoBytes adapter) as) bs).shared.log) := by
  constructor
  · have h : (run step (new queueDepth maxIoBytes adapter) as).Once irp :=
      run_induction step (P := (Once · irp)) (fun _ a h => h.step a)
        (once_new queueDepth maxIoBytes adapter irp) as
    have := h.routine
    omega
  · intro ho m hm
    have h : (run step (new queueDepth maxIoBytes adapter) as).Kept irp :=
      ho.invariant step (P := (Kept · irp)) (fun _ a h ha => h.step ha)
        (kept_new queueDepth maxIoBytes adapter irp)
    obtain hf | ⟨pc,hpc,hc⟩ := h.removed m hm
    · exact .inl hf
    · exact .inr ⟨pc,hpc,hc,fun bs => completes_of_carries h hpc hc⟩

instance decidableOrderlyTurn (w : Machine) : ∀ pc, Decidable (w.OrderlyTurn pc)
  | .insert _ | .snapshot =>
    inferInstanceAs (Decidable (∀ irp∈w.shared.pendedFetch, w.shared.routine irp=true))
  | .swap irp | .disarm irp =>
    inferInstanceAs (Decidable (w.shared.routine irp=true → w.shared.pendedFetch=some irp))
  | .submitAcquire _ | .submitCheck _ | .wake _ _ | .woken _ _ | .submitRelease _ _
  | .submitReturned _ _ | .commitAcquire | .commitCheck | .drain _ _ | .reject _ _ | .copy _ _ _
  | .free _ _ _ | .notify _ _ _ | .pend _ | .arm _ | .recheck _ | .unpend _ | .cancelled _
  | .commitRelease _ | .commitReturned _ | .flag _ | .claim _ | .claimed _ | .cancelReturned
  | .fail _ _ | .dropFetch _ | .dropped _ | .waitRundown | .unlock | .tornDown =>
    inferInstanceAs (Decidable True)

instance decidableOrderly (w : Machine) : ∀ a, Decidable (w.Orderly a)
  | .turn n _ => inferInstanceAs (Decidable (∀ pc∈w.threads[n]?, w.OrderlyTurn pc))
  | .submit _ | .commit | .cancel _ | .teardown => inferInstanceAs (Decidable True)

def wokenFetch : List Move := [.commit]++turns 0 6++[.submit ⟨.write,0,512⟩]++turns 1 3

theorem fetch_completed_wokenFetch :
    (run step (new 2 4096 true) wokenFetch).threads =
      [.commitReturned .pending,.wake ⟨1,⟨.write,0,512⟩⟩ 0] ∧
    (run step (run step (new 2 4096 true) wokenFetch) (turns 1 2)).shared.fetches 0 ≤ 1 ∧
    ∃ status, .fetched 0 1 status ∈
      (run step (run step (new 2 4096 true) wokenFetch) (turns 1 2)).shared.log := by
  have ht : (run step (new 2 4096 true) wokenFetch).threads =
      [.commitReturned .pending,.wake ⟨1,⟨.write,0,512⟩⟩ 0] := by decide +kernel
  refine ⟨ht,?_,?_⟩
  · rw [← run_append]
    exact (fetch_completed 2 4096 true (wokenFetch++turns 1 2) 0).1
  · obtain ⟨status,hf⟩ | ⟨pc,hpc,-,hall⟩ :=
      (fetch_completed 2 4096 true wokenFetch 0).2 (by decide +kernel) 1 (by decide +kernel)
    · exact ⟨status,mem_log_run _ hf⟩
    · rw [ht] at hpc
      obtain rfl : .wake ⟨1,⟨.write,0,512⟩⟩ 0 = pc := by simpa using hpc
      exact hall (turns 1 2) (by decide +kernel) (by decide)

/-- A request takes the fetch before its cancel routine is set; a cancellation comes later. -/
def takenEarly : List Move :=
  [.commit]++turns 0 3++[.submit ⟨.write,0,512⟩]++turns 1 5++turns 0 3++[.cancel 0] ++
    turns 2 3

/-- A request takes the fetch after a cancellation has taken its cancel routine. -/
def takenBetween : List Move :=
  [.commit]++turns 0 6++[.cancel 0]++turns 1 2++[.submit ⟨.write,0,512⟩]++turns 2 5 ++
    turns 1 1

theorem fetch_not_completed :
    (run step (new 2 4096 true) takenEarly).threads =
      [.commitReturned .pending,.submitReturned ⟨1,⟨.write,0,512⟩⟩ .pending,.cancelReturned] ∧
    .removed 0 1 ∈ (run step (new 2 4096 true) takenEarly).shared.log ∧
    (run step (new 2 4096 true) takenEarly).shared.fetches 0 = 0 ∧
    (run step (new 2 4096 true) takenBetween).threads =
      [.commitReturned .pending,.cancelReturned,.submitReturned ⟨2,⟨.write,0,512⟩⟩ .pending] ∧
    .removed 0 2 ∈ (run step (new 2 4096 true) takenBetween).shared.log ∧
    (run step (new 2 4096 true) takenBetween).shared.fetches 0 = 0 := by
  decide +kernel

end Machine
end RamShared.Driver

import RamShared.Driver.Queue

/-! What a turn does. A slot that is completing belongs to one thread, which alone sets it free; and
the memory of the queue stays mapped while a thread holds the rundown protection. -/
namespace RamShared.Driver
open Lib

namespace Device

variable (d : Device)

lemma skip_spec (sawFailed : Bool) (cqes : List Cqe) :
    ∃ qs saw r, d.skip sawFailed cqes = ({d with qState := qs},saw,r) ∧
      ∀ c x, r=some (c,x) → d.inflight[c.tag]?=some x ∧ x.state=.submitted := by
  induction cqes generalizing d sawFailed with
  | nil => exact ⟨d.qState,sawFailed,none,rfl,nofun⟩
  | cons c cqes ih =>
    cases hs : d.submittedAt c.tag with
    | some x =>
      refine ⟨d.qState,sawFailed,some (c,x),by simp [skip,hs],?_⟩
      rintro _ _ ⟨⟩
      unfold submittedAt at hs
      split_ifs at hs
      simpa using Option.filter_eq_some_iff.mp hs
    | none =>
      by_cases hr : c.reserved=0
      · simpa [skip,hs,hr] using ih d sawFailed
      · simpa [skip,hs,hr] using ih {d with qState := .failed} true

/-- A section under the lock of `QCommitAndFetch` ends the call, publishes its fetch, or takes the
request of a submitted slot. -/
lemma drain_cases (i : Input) (n completed : ℕ) (sawFailed : Bool) :
    ∃ qs, (∃ status, d.drain i n completed sawFailed =
        ({d with qState := qs},.commitRelease status)) ∨
      (d.pendedFetch=none ∧ d.drain i n completed sawFailed =
        ({d with qState := qs, pendedFetch := some n},.pend n)) ∨
      ∃ tag x, d.inflight[tag]?=some x ∧ x.state=.submitted ∧
        (d.drain i n completed sawFailed =
            ({ d with
                qState := qs
                log := d.log++[.consumed x.srb tag]
                inflight := d.inflight.set tag { x with srb := none, state := .free}},
              .reject x.srb completed) ∨
          ∃ status completed' saw, d.drain i n completed sawFailed =
            ({ d with
                qState := qs
                log := d.log++[.consumed x.srb tag]
                inflight := d.inflight.set tag { x with srb := none, state := .completing}},
              .copy ⟨tag,x.srb,x.op,x.bufSlot,status⟩ completed' saw)) := by
  obtain ⟨qs,saw,r,hs,hr⟩ := d.skip_spec sawFailed i.cqes
  cases r with
  | none =>
    simp only [drain,hs,endDrain]
    split_ifs
    · exact ⟨qs,.inl ⟨_,rfl⟩⟩
    · cases hp : d.pendedFetch with
      | some irp => exact ⟨qs,.inl ⟨_,rfl⟩⟩
      | none => exact ⟨qs,.inr (.inl ⟨rfl,rfl⟩)⟩
    · exact ⟨qs,.inl ⟨_,rfl⟩⟩
  | some y =>
    obtain ⟨c,x⟩ := y
    obtain ⟨hx,hstate⟩ := hr c x rfl
    simp only [drain,hs]
    split_ifs
    · exact ⟨.failed,.inr (.inr ⟨c.tag,x,hx,hstate,.inl rfl⟩)⟩
    · exact ⟨qs,.inr (.inr ⟨c.tag,x,hx,hstate,.inr ⟨_,_,_,rfl⟩⟩)⟩

lemma insert_cases (n : ℕ) (srb : Srb) :
    d.insert n srb = (d,.submitRelease srb .insufficientResources) ∨
      ∃ tag x bounced, d.inflight[tag]?=some x ∧ x.state=.free ∧
        (∀ e∈bounced, e=.bounced srb tag srb.request.len) ∧
        ((d.pendedFetch=none ∧ d.insert n srb =
            ({ d with
                inflight := d.inflight.set tag ⟨some srb,srb.request.op,tag,.submitted⟩
                log := d.log++(bounced++[.assigned srb tag])},
              .submitRelease srb .pending)) ∨
          ∃ irp, d.pendedFetch=some irp ∧ d.insert n srb =
            (takeFetch { d with
                inflight := d.inflight.set tag ⟨some srb,srb.request.op,tag,.submitted⟩
                log := d.log++(bounced++[.assigned srb tag])} irp n,
              .wake srb irp)) := by
  cases hf : (d.inflight.take d.queueDepth).findIdx? fun x => x.state=.free with
  | none => exact .inl (by simp [insert,hf])
  | some tag =>
    obtain ⟨hlt,hfree,-⟩ := List.findIdx?_eq_some_iff_getElem.mp hf
    have hget : d.inflight[tag]?=some ((d.inflight.take d.queueDepth)[tag]) := by
      rw [List.getElem_take]
      exact List.getElem?_eq_getElem _
    refine .inr ⟨tag,_,if srb.request.op=.write ∧ 0<srb.request.len
      then [.bounced srb tag srb.request.len] else [],hget,by simpa using hfree,?_,?_⟩
    · split_ifs <;> simp
    · cases hp : d.pendedFetch with
      | none => exact .inl ⟨rfl,by simp [insert,hf,hp,record]⟩
      | some irp => exact .inr ⟨irp,rfl,by simp [insert,hf,hp,record]⟩

end Device

/-- The protection is given up, and nobody holds it. -/
def Device.Idle (d : Device) : Prop := d.runDown=true ∧ d.holders=0

/-- A slot holds a request exactly while it is submitted. -/
def Inflight.Ok (tag : ℕ) (x : Inflight) : Prop :=
  match x.state with
  | .free | .completing => x.srb=none
  | .submitted => x.bufSlot=tag ∧ ∃ srb, x.srb=some srb ∧ x.op=srb.request.op
  | .reserved => False

def SlotsOk (l : List Inflight) : Prop := ∀ (tag : ℕ) x, l[tag]?=some x → x.Ok tag

def completing (l : List Inflight) (tag : ℕ) : ℕ :=
  if (l[tag]?).map Inflight.state=some .completing then 1 else 0

section Slots
variable {l : List Inflight} {tag : ℕ} {x y : Inflight}

lemma SlotsOk.set (h : SlotsOk l) (hx : l[tag]?=some x) (hy : y.Ok tag) : SlotsOk (l.set tag y) := by
  intro k z hz
  by_cases hk : k=tag
  · subst hk
    rw [List.getElem?_set_self (List.getElem?_eq_some_iff.mp hx).1] at hz
    exact Option.some.inj hz ▸ hy
  · exact h k z (by rwa [List.getElem?_set_ne (Ne.symm hk)] at hz)

lemma completing_set (hx : l[tag]?=some x) (k : ℕ) :
    completing (l.set tag y) k+(if tag=k ∧ x.state=.completing then 1 else 0) =
      completing l k+if tag=k ∧ y.state=.completing then 1 else 0 := by
  by_cases hk : tag=k
  · subst hk
    simp [completing,hx,List.getElem?_set_self (List.getElem?_eq_some_iff.mp hx).1,Nat.add_comm]
  · simp [completing,List.getElem?_set_ne hk,hk]

end Slots

namespace Pc

def works (tag : ℕ) : Pc → ℕ
  | .copy t _ _ | .free t _ _ => if t.tag=tag then 1 else 0
  | _ => 0

def holds : Pc → ℕ
  | .submitCheck _ | .insert _ | .wake _ _ | .woken _ _ | .submitRelease _ _ | .commitCheck
  | .drain _ _ | .reject _ _ | .copy _ _ _ | .free _ _ _ | .notify _ _ _ | .pend _
  | .commitRelease _ => 1
  | _ => 0

def waited : Pc → Bool
  | .unlock | .tornDown => true
  | _ => false

def onSlots : Pc → Bool
  | .insert _ | .drain _ _ | .free _ _ _ | .snapshot => true
  | _ => false

def srb : Pc → Option Srb
  | .submitAcquire srb | .submitCheck srb | .insert srb | .wake srb _ | .woken srb _
  | .submitRelease srb _ | .submitReturned srb _ => some srb
  | _ => none

/-- The teardown has looked at the queue, and has not returned. -/
def tearing : Pc → Bool
  | .fail _ _ | .dropFetch _ | .dropped _ | .waitRundown | .unlock => true
  | _ => false

def begun (pc : Pc) : Bool := pc.tearing || pc=.tornDown

def failing : Pc → Bool
  | .fail (_::_) _ => true
  | _ => false

lemma failing_tearing {pc : Pc} (h : pc.failing=true) : pc.tearing=true := by
  fun_cases Pc.failing pc
  · rfl
  · simp_all [failing]

end Pc

section Turns
variable (i : Input) (n : ℕ) (d : Device)
variable {pc : Pc}

lemma act_inflight (h : pc.onSlots=false) :
    (act i n d pc).1.inflight=d.inflight ∧ ∀ tag, (act i n d pc).2.works tag = pc.works tag := by
  fun_cases act i n d pc
  all_goals first
  | exact ⟨rfl,fun _ => rfl⟩
  | cases h

lemma act_slots {d : Device} (hok : SlotsOk d.inflight) (hw : ∀ tag, pc.works tag ≤ completing d.inflight tag) :
    SlotsOk (act i n d pc).1.inflight ∧ ∀ tag, completing (act i n d pc).1.inflight tag+pc.works tag =
        completing d.inflight tag+(act i n d pc).2.works tag := by
  cases hp : pc.onSlots with
  | false =>
    obtain ⟨h₁,h₂⟩ := act_inflight i n d hp
    rw [h₁]
    exact ⟨hok,fun tag => by rw [h₂]⟩
  | true =>
  cases pc with
  | insert srb =>
    obtain he | ⟨tag,x,bounced,hx,hfree,-,⟨-,he⟩ | ⟨irp,-,he⟩⟩ := d.insert_cases n srb
    · simp only [act,he]
      exact ⟨hok,fun tag => rfl⟩
    all_goals
      simp only [act,he]
      refine ⟨hok.set hx ⟨rfl,srb,rfl,rfl⟩,fun k => ?_⟩
      have := completing_set (y := ⟨some srb,srb.request.op,tag,.submitted⟩) hx k
      simpa [hfree,Pc.works,Device.takeFetch] using this
  | drain completed sawFailed =>
    obtain ⟨qs,⟨status,he⟩ | ⟨-,he⟩ | ⟨tag,x,hx,hstate,he | ⟨status,k,saw,he⟩⟩⟩ :=
      d.drain_cases i n completed sawFailed
    all_goals simp only [act,he]
    · exact ⟨hok,fun tag => rfl⟩
    · exact ⟨hok,fun tag => rfl⟩
    · refine ⟨hok.set hx rfl,fun k => ?_⟩
      have := completing_set (y := {x with srb := none, state := .free}) hx k
      simpa [hstate,Pc.works] using this
    · refine ⟨hok.set hx rfl,fun k => ?_⟩
      have := completing_set (y := {x with srb := none, state := .completing}) hx k
      simpa [hstate,Pc.works] using this
  | free t completed sawFailed =>
    have hone := hw t.tag
    simp only [Pc.works,if_true,completing] at hone
    obtain ⟨x,hx,hstate⟩ : ∃ x, d.inflight[t.tag]?=some x ∧ x.state=.completing := by
      split_ifs at hone with hc
      · simpa using hc
      · omega
    have hset : (d.setFree t.tag).inflight = d.inflight.set t.tag {x with state := .free} := by
      simp only [Device.setFree]
      refine List.ext_getElem? fun k => ?_
      by_cases hk : t.tag=k
      · subst hk
        simp [hx,List.getElem?_set_self (List.getElem?_eq_some_iff.mp hx).1]
      · simp [hk,List.getElem?_set_ne hk]
    have hxok := hok t.tag x hx
    simp only [Inflight.Ok,hstate] at hxok
    simp only [act,hset]
    refine ⟨hok.set hx hxok,fun k => ?_⟩
    have := completing_set (y := {x with state := .free}) hx k
    simpa [hstate,Pc.works] using this
  | snapshot =>
    simp only [act,Device.snapshot]
    refine ⟨fun k z hz => ?_,fun k => ?_⟩
    · obtain ⟨x,hx,rfl⟩ : ∃ x, d.inflight[k]?=some x ∧
          (if x.state≠.free ∧ x.srb.isSome=true then {x with state := .free, srb := none} else x) =
            z := by
        simpa using hz
      split_ifs
      · rfl
      · exact hok k x hx
    · cases hx : d.inflight[k]? with
      | none => simp [completing,hx,Pc.works]
      | some x =>
        have hxok := hok k x hx
        simp only [Pc.works,Nat.add_zero,completing,List.getElem?_map,hx,Option.map_some,
          Option.some.injEq]
        by_cases hstate : x.state=.completing
        · simp only [Inflight.Ok,hstate] at hxok
          simp [hstate,hxok]
        · split_ifs <;> simp_all
  | _ => cases hp

lemma act_holders {d : Device} (h : pc.holds≤d.holders) :
    (act i n d pc).1.holders+pc.holds = d.holders+(act i n d pc).2.holds := by
  fun_cases act i n d pc
  all_goals first
  | rfl
  | (simp only [Pc.holds] at h
     simp only [Device.release,Pc.holds]
     omega)
  | skip
  · rename_i srb
    obtain he | ⟨tag,x,bounced,-,-,-,⟨-,he⟩ | ⟨irp,-,he⟩⟩ := d.insert_cases n srb <;>
      rw [he] <;> rfl
  · rename_i completed sawFailed
    obtain ⟨qs,⟨status,he⟩ | ⟨-,he⟩ | ⟨tag,x,-,-,he | ⟨status,k,saw,he⟩⟩⟩ :=
      d.drain_cases i n completed sawFailed <;> simp only [he,Pc.holds]

/-- A call keeps its request. The protection is given up for good, and the memory is unmapped only
after that; the registration is taken away by a teardown, for good too. -/
structure Turn (d : Device) (pc : Pc) (d' : Device) (pc' : Pc) : Prop where
  srb : pc'.srb=pc.srb
  adapter : d'.adapter=d.adapter
  idle : d.Idle → d'.Idle
  waited : pc'.waited=true → pc.waited=true ∨ d'.Idle
  mapped : pc.waited=true ∨ d'.mapped=d.mapped
  registered : d'.registered=true → d.registered=true
  unregistered : d'.registered=d.registered ∨ pc.begun=true ∨ pc=.snapshot
  begun : pc'.begun=true → pc.begun=true ∨ pc=.snapshot
  failing : pc'.failing=true → pc.failing=true ∨ pc=.snapshot

lemma act_turn (pc : Pc) : Turn d pc (act i n d pc).1 (act i n d pc).2 := by
  fun_cases act i n d pc
  all_goals try
    rename_i srb
    obtain he | ⟨tag,x,bounced,-,-,-,⟨-,he⟩ | ⟨irp,-,he⟩⟩ := d.insert_cases n srb <;> rw [he]
  all_goals try
    rename_i completed sawFailed
    obtain ⟨qs,⟨status,he⟩ | ⟨-,he⟩ | ⟨tag,x,-,-,he | ⟨status,k,saw,he⟩⟩⟩ :=
      d.drain_cases i n completed sawFailed <;> rw [he]
  all_goals
    constructor
    all_goals first
    | rfl
    | exact id
    | exact .inl rfl
    | exact .inr rfl
    | exact .inl
    | exact fun _ => .inl rfl
    | exact fun _ => .inr rfl
    | exact .inr (.inl rfl)
    | exact .inr (.inr rfl)
    | exact fun h => absurd h Bool.false_ne_true
    | exact fun h => absurd h.1 (by assumption)
    | exact fun h => ⟨h.1,by simp [Device.release,h.2]⟩
    | exact fun h => ⟨rfl,h.2⟩
    | exact fun _ => .inr ⟨rfl,by assumption⟩

end Turns

namespace Machine

structure Guarded (w : Machine) : Prop where
  slots : SlotsOk w.shared.inflight
  works : ∀ tag, w.total (Pc.works tag) = completing w.shared.inflight tag
  holders : w.total Pc.holds=w.shared.holders
  waited : w.Each fun d _ pc => pc.waited=true → d.Idle
  unmapped : w.shared.mapped=false → w.shared.Idle

lemma guarded_new (queueDepth maxIoBytes : ℕ) (adapter : Bool) :
    (new queueDepth maxIoBytes adapter).Guarded := by
  refine ⟨fun tag x hx => ?_,fun tag => ?_,rfl,nofun,nofun⟩
  · obtain ⟨-,rfl⟩ : tag < maxQd ∧ ⟨none,.read,0,.free⟩=x := by
      simpa [new,Device.new,List.getElem?_replicate] using hx
    rfl
  · simp only [new,Device.new,completing,List.getElem?_replicate]
    split_ifs <;> simp_all [Threads.total]

variable {w : Machine}

variable (h : w.Guarded)
include h

lemma Guarded.spawn {pc : Pc} (hw : ∀ tag, pc.works tag=0) (hh : pc.holds=0)
    (ho : pc.waited=false) : Guarded (Threads.spawn w pc) := by
  refine ⟨h.slots,fun tag => ?_,?_,h.waited.spawn fun hwait => ?_,h.unmapped⟩
  · rw [Threads.total_spawn,hw,Nat.add_zero]
    exact h.works tag
  · rw [Threads.total_spawn,hh,Nat.add_zero]
    exact h.holders
  · rw [ho] at hwait
    cases hwait

lemma Guarded.turn (n : ℕ) (i : Input) : Guarded (Threads.turn (act i) w n) := by
  cases hn : w.threads[n]? with
  | none => simpa [Threads.turn,hn] using h
  | some pc =>
    have hw (tag : ℕ) : pc.works tag ≤ completing w.shared.inflight tag :=
      h.works tag ▸ Threads.le_total _ hn
    obtain ⟨hslots,hworks⟩ := act_slots i n h.slots hw
    have hhold : _+pc.holds=_ := act_holders i n (h.holders ▸ Threads.le_total _ hn)
    have hshared : (Threads.turn (act i) w n).shared = (act i n w.shared pc).1 :=
      Threads.shared_turn hn
    refine ⟨hshared ▸ hslots,fun tag => ?_,?_,h.waited.turn (fun t ht => ?_) fun t m u ht _ hm => ?_,?_⟩
    · have h₁ := Threads.total_turn (act i) (Pc.works tag) hn
      have h₂ := hworks tag
      have h₃ := h.works tag
      rw [hshared]
      omega
    · have h₁ := Threads.total_turn (act i) Pc.holds hn
      have h₃ := h.holders
      rw [hshared]
      omega
    · intro hwait
      obtain ho | hi := (act_turn i n w.shared t).waited hwait
      · exact (act_turn i n w.shared t).idle (h.waited n t ht ho)
      · exact hi
    · exact fun hwait => (act_turn i n w.shared t).idle (h.waited m u hm hwait)
    · rw [hshared]
      intro hm
      obtain ho | he := (act_turn i n w.shared pc).mapped
      · exact (act_turn i n w.shared pc).idle (h.waited n pc hn ho)
      · exact (act_turn i n w.shared pc).idle (h.unmapped (he ▸ hm))

lemma Guarded.step (a : Move) : Guarded (w.step a) := by
  cases a with
  | turn n i => exact h.turn n i
  | _ => exact h.spawn (fun _ => rfl) rfl rfl

lemma Guarded.mapped {n : ℕ} {pc : Pc} (hn : w.threads[n]?=some pc)
    (hp : pc.holds=1) : w.shared.mapped=true := by
  by_contra hm
  have h₁ := (h.unmapped (by simpa using hm)).2
  have h₂ := Threads.le_total Pc.holds hn
  have h₃ := h.holders
  omega

end Machine

/-! What a turn adds to the history. -/

def Pc.carries (irp : ℕ) : Pc → Bool
  | .wake _ i | .woken _ i | .dropped i | .claimed i | .cancelled i => i=irp
  | .fail _ p | .dropFetch p => p=some irp
  | _ => false

def Emits (n : ℕ) (d : Device) (pc pc' : Pc) : Event → Prop
  | .bounced srb slot len => pc=.insert srb ∧ len=srb.request.len ∧
    ∃ x, d.inflight[slot]?=some x ∧ x.state=.free
  | .assigned srb tag => pc=.insert srb ∧ ∃ x, d.inflight[tag]?=some x ∧ x.state=.free
  | .consumed srb tag => ∃ x, d.inflight[tag]?=some x ∧ x.state=.submitted ∧ x.srb=srb
  | .copied srb slot len => d.mapped=true ∧ len=srb.request.dataTransferLength ∧
    ∃ t completed sawFailed, pc=.copy t completed sawFailed ∧ t.srb=some srb ∧ t.bufSlot=slot
  | .completed srb ok => d.adapter=true ∧ (ok=true →
    ∃ t completed sawFailed, pc=.notify t completed sawFailed ∧ t.srb=some srb ∧ t.ok=true)
  | .removed irp m => m=n ∧ pc'.carries irp=true
  | .fetched irp m _ => m=n ∧ pc.carries irp=true

lemma requestComplete_log (d : Device) (srb : Option Srb) (ok : Bool) :
    ∃ es, (d.requestComplete srb ok).log = d.log++es ∧
      ∀ e∈es, d.adapter=true ∧ ∃ s, srb=some s ∧ e=.completed s ok := by
  refine ⟨_,rfl,fun e he => ?_⟩
  cases srb <;> split_ifs at he <;> simp_all

lemma copyOut_log (d : Device) (t : Taken) (address : Bool) :
    ∃ es, (d.copyOut t address).log = d.log++es ∧ ∀ e∈es, d.mapped=true ∧
      ∃ s, t.srb=some s ∧ e=.copied s t.bufSlot s.request.dataTransferLength := by
  refine ⟨_,rfl,fun e he => ?_⟩
  split_ifs at he with h
  · obtain ⟨s,hs,rfl⟩ := List.mem_map.mp he
    exact ⟨h.2.2.2.2,s,by simpa using hs,rfl⟩
  · cases he

lemma act_log (i : Input) (n : ℕ) (d : Device) (pc : Pc) : ∃ es,
    (act i n d pc).1.log = d.log++es ∧ ∀ e∈es, Emits n d pc (act i n d pc).2 e := by
  fun_cases act i n d pc
  all_goals first
  | exact ⟨[],(List.append_nil _).symm,List.forall_mem_nil _⟩
  | exact ⟨_,rfl,fun e he => by
      obtain rfl := List.mem_singleton.mp he
      simp [Emits,Pc.carries]⟩
  | skip
  · rename_i srb
    obtain he | ⟨tag,x,bounced,hx,hfree,hb,h⟩ := d.insert_cases n srb
    · rw [he]
      exact ⟨[],(List.append_nil _).symm,List.forall_mem_nil _⟩
    · have hes {e : Event} (pc' : Pc) (he : e∈bounced++[.assigned srb tag]) :
          Emits n d (.insert srb) pc' e := by
        obtain he | he := List.mem_append.mp he
        · rw [hb e he]
          exact ⟨rfl,rfl,x,hx,hfree⟩
        · rw [List.mem_singleton.mp he]
          exact ⟨rfl,x,hx,hfree⟩
      obtain ⟨-,he⟩ | ⟨irp,-,he⟩ := h <;> rw [he]
      · exact ⟨_,rfl,fun e => hes _⟩
      · refine ⟨_,List.append_assoc _ _ _,fun e he => ?_⟩
        obtain he | he := List.mem_append.mp he
        · exact hes _ he
        · rw [List.mem_singleton.mp he]
          exact ⟨rfl,decide_eq_true rfl⟩
  · rename_i completed sawFailed
    obtain ⟨qs,⟨status,he⟩ | ⟨-,he⟩ | ⟨tag,x,hx,hstate,he | ⟨status,k,saw,he⟩⟩⟩ :=
      d.drain_cases i n completed sawFailed
    all_goals rw [he]
    · exact ⟨[],(List.append_nil _).symm,List.forall_mem_nil _⟩
    · exact ⟨[],(List.append_nil _).symm,List.forall_mem_nil _⟩
    all_goals
      refine ⟨_,rfl,fun e he => ?_⟩
      rw [List.mem_singleton.mp he]
      exact ⟨x,hx,hstate,rfl⟩
  · rename_i srb completed
    obtain ⟨es,hes,h⟩ := requestComplete_log d srb false
    refine ⟨es,hes,fun e he => ?_⟩
    obtain ⟨ha,s,-,rfl⟩ := h e he
    exact ⟨ha,fun hok => absurd hok Bool.false_ne_true⟩
  · rename_i t completed sawFailed
    obtain ⟨es,hes,h⟩ := copyOut_log d t i.address
    refine ⟨es,hes,fun e he => ?_⟩
    obtain ⟨hm,s,hs,rfl⟩ := h e he
    exact ⟨hm,rfl,t,completed,sawFailed,rfl,hs,rfl⟩
  · rename_i t completed sawFailed
    obtain ⟨es,hes,h⟩ := requestComplete_log d t.srb t.ok
    refine ⟨es,hes,fun e he => ?_⟩
    obtain ⟨ha,s,hs,rfl⟩ := h e he
    exact ⟨ha,fun hok => ⟨t,completed,sawFailed,rfl,hs,hok⟩⟩
  · refine ⟨_,rfl,fun e he => ?_⟩
    obtain ⟨irp,hirp,rfl⟩ := List.mem_map.mp he
    exact ⟨rfl,by simpa [Device.snapshot,Pc.carries] using hirp⟩
  · rename_i srb failed pending
    obtain ⟨es,hes,h⟩ := requestComplete_log d (some srb) false
    refine ⟨es,hes,fun e he => ?_⟩
    obtain ⟨ha,s,-,rfl⟩ := h e he
    exact ⟨ha,fun hok => absurd hok Bool.false_ne_true⟩

end RamShared.Driver

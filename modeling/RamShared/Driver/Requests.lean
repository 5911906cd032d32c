import RamShared.Driver.Turns

/-! Every request is completed at most once, and exactly once by the end of a teardown, as long as no
request enters the queue after the teardown has looked at it. -/
namespace RamShared.Driver
open Lib

variable (k : ℕ)

def carried (srb : Option Srb) : ℕ := srb.toList.countP fun s => s.id=k

def Event.completes : Event → Bool
  | .completed srb _ => srb.id=k
  | _ => false

def Event.assigns : Event → Bool
  | .assigned srb _ => srb.id=k
  | _ => false

namespace Device

def completions (d : Device) (k : ℕ) : ℕ := d.log.countP (Event.completes k)

def assignments (d : Device) (k : ℕ) : ℕ := d.log.countP (Event.assigns k)

def inSlots (d : Device) (k : ℕ) : ℕ := (d.inflight.map fun x => carried k x.srb).sum

end Device

namespace Pc

def entered : Pc → ℕ
  | .wake srb _ | .woken srb _ | .submitRelease srb .pending | .submitReturned srb .pending =>
    if srb.id=k then 1 else 0
  | _ => 0

def hand : Pc → ℕ
  | .reject srb _ => carried k srb
  | .copy t _ _ | .free t _ _ | .notify t _ _ => carried k t.srb
  | .fail failed _ => failed.countP fun s => s.id=k
  | _ => 0

end Pc

section Requests
variable (i : Input) (n : ℕ) {d : Device} (k : ℕ)
variable (es : List Event) (irp m : ℕ) (t : Taken) (address : Bool)

@[simp] lemma assignments_record : (d.record es).assignments k = d.assignments k+es.countP (Event.assigns k) :=
  List.countP_append

@[simp] lemma completions_record :
    (d.record es).completions k = d.completions k+es.countP (Event.completes k) :=
  List.countP_append

@[simp] lemma assignments_takeFetch : (d.takeFetch irp m).assignments k = d.assignments k := by
  simp [Device.takeFetch,Device.assignments,Event.assigns]

@[simp] lemma completions_takeFetch : (d.takeFetch irp m).completions k = d.completions k := by
  simp [Device.takeFetch,Device.completions,Event.completes]

@[simp] lemma assignments_requestComplete (srb : Option Srb) (ok : Bool) :
    (d.requestComplete srb ok).assignments k = d.assignments k := by
  rw [Device.requestComplete,assignments_record]
  cases srb <;> split_ifs <;> simp [Event.assigns]

lemma completions_requestComplete (h : d.adapter=true) (srb : Option Srb) (ok : Bool) :
    (d.requestComplete srb ok).completions k = d.completions k+carried k srb := by
  cases srb <;> simp [Device.requestComplete,h,carried,Event.completes,List.countP_cons]

@[simp] lemma assignments_copyOut : (d.copyOut t address).assignments k = d.assignments k := by
  rw [Device.copyOut,assignments_record]
  cases t.srb <;> split_ifs <;> simp [Event.assigns]

@[simp] lemma completions_copyOut : (d.copyOut t address).completions k = d.completions k := by
  rw [Device.copyOut,completions_record]
  cases t.srb <;> split_ifs <;> simp [Event.completes]

lemma assignments_snapshot : (d.snapshot m).1.assignments k = d.assignments k := by
  cases h : d.pendedFetch <;>
    simp [Device.snapshot,Device.assignments,Device.record,h,Event.assigns]

lemma completions_snapshot : (d.snapshot m).1.completions k = d.completions k := by
  cases h : d.pendedFetch <;>
    simp [Device.snapshot,Device.completions,Device.record,h,Event.completes]

lemma countP_bounced {srb : Srb} {tag : ℕ} {bounced : List Event}
    (h : ∀ e∈bounced, e=.bounced srb tag srb.request.len) :
    bounced.countP (Event.assigns k)=0 ∧ bounced.countP (Event.completes k)=0 := by
  constructor <;>
  · refine List.countP_eq_zero.mpr fun e he => ?_
    rw [h e he]
    exact Bool.false_ne_true

@[simp] lemma inSlots_record : (d.record es).inSlots k = d.inSlots k := rfl

@[simp] lemma inSlots_takeFetch : (d.takeFetch irp m).inSlots k = d.inSlots k := rfl

@[simp] lemma inSlots_requestComplete (srb : Option Srb) (ok : Bool) :
    (d.requestComplete srb ok).inSlots k = d.inSlots k := rfl

@[simp] lemma inSlots_copyOut : (d.copyOut t address).inSlots k = d.inSlots k := rfl

@[simp] lemma inSlots_setFree (tag : ℕ) : (d.setFree tag).inSlots k = d.inSlots k := by
  unfold Device.inSlots Device.setFree
  congr 1
  refine List.ext_getElem? fun m => ?_
  by_cases hm : tag=m
  · subst hm
    cases hx : d.inflight[tag]? <;> simp [hx]
  · simp [hm]

lemma inSlots_set {tag : ℕ} {x : Inflight} (hx : d.inflight[tag]?=some x) (y : Inflight) :
    ((d.inflight.set tag y).map fun x => carried k x.srb).sum+carried k x.srb = d.inSlots k+carried k y.srb :=
  sum_map_set (fun x => carried k x.srb) hx y

lemma inSlots_snapshot : (d.snapshot m).1.inSlots k+(d.snapshot m).2.hand k = d.inSlots k := by
  simp only [Device.snapshot,Device.inSlots,Pc.hand]
  induction d.inflight with
  | nil => rfl
  | cons x l ih =>
    obtain ⟨srb,op,bufSlot,state⟩ := x
    cases state <;> cases srb <;> simp [carried,List.countP_cons] at ih ⊢ <;> omega

lemma act_entered (pc : Pc) :
    (act i n d pc).1.assignments k+pc.entered k = d.assignments k+(act i n d pc).2.entered k := by
  fun_cases act i n d pc
  all_goals first
  | rfl
  | (simp [Pc.entered,Event.assigns]; done)
  | skip
  · rename_i srb
    obtain he | ⟨tag,x,bounced,-,-,hb,⟨-,he⟩ | ⟨irp,-,he⟩⟩ := d.insert_cases n srb <;> rw [he]
    · rfl
    all_goals simp [Pc.entered,Device.assignments,Device.takeFetch,(countP_bounced k hb).1,
      Event.assigns,List.countP_cons]
  · rename_i srb status
    cases status <;> rfl
  · rename_i completed sawFailed
    obtain ⟨qs,⟨status,he⟩ | ⟨-,he⟩ | ⟨tag,x,-,-,he | ⟨status,k,saw,he⟩⟩⟩ :=
      d.drain_cases i n completed sawFailed <;> rw [he] <;>
      simp [Pc.entered,Device.assignments,Event.assigns]
  · rw [assignments_snapshot]
    rfl

lemma act_balance (pc : Pc) (hok : SlotsOk d.inflight) (ha : d.adapter=true) :
    (act i n d pc).1.inSlots k+(act i n d pc).2.hand k+(act i n d pc).1.completions k + d.assignments k =
      d.inSlots k+pc.hand k+d.completions k+(act i n d pc).1.assignments k := by
  fun_cases act i n d pc
  all_goals first
  | rfl
  | (simp [Pc.hand,Event.assigns,Event.completes]; done)
  | (simp [Pc.hand,completions_requestComplete k ha,List.countP_cons,carried]; omega)
  | skip
  · rename_i srb
    obtain he | ⟨tag,x,bounced,hx,hfree,hb,⟨-,he⟩ | ⟨irp,-,he⟩⟩ := d.insert_cases n srb
    · rw [he]
      rfl
    all_goals
      have hxok := hok tag x hx
      simp only [Inflight.Ok,hfree] at hxok
      have hset := inSlots_set k hx ⟨some srb,srb.request.op,tag,.submitted⟩
      rw [hxok] at hset
      rw [he]
      simp only [Pc.hand,Device.takeFetch,Device.inSlots,Device.completions,Device.assignments,
        List.countP_append,(countP_bounced k hb).1,(countP_bounced k hb).2,Event.assigns,
        Event.completes,List.countP_cons,List.countP_nil,carried,Option.toList_some,
        Option.toList_none] at hset ⊢
      simp only [decide_eq_true_eq,Bool.false_eq_true,if_false] at hset ⊢
      omega
  · rename_i completed sawFailed
    obtain ⟨qs,⟨status,he⟩ | ⟨-,he⟩ | ⟨tag,x,hx,-,he | ⟨status,c,saw,he⟩⟩⟩ :=
      d.drain_cases i n completed sawFailed <;> rw [he]
    · rfl
    · rfl
    · have hset := inSlots_set k hx {x with srb := none, state := .free}
      simp only [Pc.hand,Device.inSlots,Device.completions,Device.assignments,List.countP_append,
        Event.assigns,Event.completes,List.countP_cons,List.countP_nil,Bool.false_eq_true,
        if_false] at hset ⊢
      simp only [carried,Option.toList_none,List.countP_nil] at hset ⊢
      omega
    · have hset := inSlots_set k hx {x with srb := none, state := .completing}
      simp only [Pc.hand,Device.inSlots,Device.completions,Device.assignments,List.countP_append,
        Event.assigns,Event.completes,List.countP_cons,List.countP_nil,Bool.false_eq_true,
        if_false] at hset ⊢
      simp only [carried,Option.toList_none,List.countP_nil] at hset ⊢
      omega
  · rw [inSlots_setFree]
    rfl
  · have hs := inSlots_snapshot (d := d) k n
    rw [hs,completions_snapshot,assignments_snapshot]
    rfl

end Requests

variable {pc : Pc}

namespace Machine

/-- Every request that entered the queue is in one place. -/
structure Accounted (w : Machine) : Prop where
  guarded : w.Guarded
  adapter : w.shared.adapter=true
  own : w.Each fun _ n pc => ∀ srb∈pc.srb, srb.id=n
  entered : ∀ k, w.total (Pc.entered k) = w.shared.assignments k
  balance : ∀ k, w.shared.inSlots k+w.total (Pc.hand k)+w.shared.completions k =
    w.shared.assignments k

lemma accounted_new (queueDepth maxIoBytes : ℕ) : (new queueDepth maxIoBytes true).Accounted := by
  refine ⟨guarded_new queueDepth maxIoBytes true,rfl,nofun,fun k => rfl,fun k => ?_⟩
  simp [new,Device.new,Device.inSlots,Device.completions,Device.assignments,carried,Threads.total]

variable {w : Machine}

variable (h : w.Accounted)
include h

lemma Accounted.spawn (hg : Guarded (Threads.spawn w pc))
    (ho : ∀ srb∈pc.srb, srb.id=w.threads.length) (he : ∀ k, pc.entered k=0)
    (hh : ∀ k, pc.hand k=0) : Accounted (Threads.spawn w pc) := by
  refine ⟨hg,h.adapter,h.own.spawn ho,fun k => ?_,fun k => ?_⟩
  · rw [Threads.total_spawn,he,Nat.add_zero]
    exact h.entered k
  · rw [Threads.total_spawn,hh,Nat.add_zero]
    exact h.balance k

lemma Accounted.turn (n : ℕ) (i : Input) : Accounted (Threads.turn (act i) w n) := by
  cases hn : w.threads[n]? with
  | none => simpa [Threads.turn,hn] using h
  | some pc =>
    have hshared : (Threads.turn (act i) w n).shared = (act i n w.shared pc).1 :=
      Threads.shared_turn hn
    refine ⟨h.guarded.turn n i,?_,h.own.turn (fun t ht => ?_) fun t m u ht _ hm => ?_,fun k => ?_,
      fun k => ?_⟩
    · rw [hshared,(act_turn i n w.shared pc).adapter]
      exact h.adapter
    · rw [(act_turn i n w.shared t).srb]
      exact h.own n t ht
    · exact h.own m u hm
    · have h₁ := Threads.total_turn (act i) (Pc.entered k) hn
      have h₂ := act_entered i n (d := w.shared) k pc
      have h₃ := h.entered k
      rw [hshared]
      omega
    · have h₁ := Threads.total_turn (act i) (Pc.hand k) hn
      have h₂ := act_balance i n k pc h.guarded.slots h.adapter
      have h₃ := h.balance k
      rw [hshared]
      omega

lemma Accounted.step (a : Move) : Accounted (w.step a) := by
  have hg := h.guarded.step a
  cases a with
  | turn n i => exact h.turn n i
  | submit r =>
    refine h.spawn hg ?_ (fun _ => rfl) fun _ => rfl
    rintro _ ⟨⟩
    rfl
  | _ => exact h.spawn hg nofun (fun _ => rfl) fun _ => rfl

end Machine

lemma Pc.entered_eq_zero {n k : ℕ} (h : ∀ srb∈pc.srb, srb.id=n) (hk : n≠k) : pc.entered k=0 := by
  cases pc with
  | wake srb | woken srb => exact if_neg fun he => hk (h srb rfl ▸ he)
  | submitRelease srb status | submitReturned srb status =>
    cases status with
    | pending => exact if_neg fun he => hk (h srb rfl ▸ he)
    | _ => rfl
  | _ => rfl

namespace Machine

lemma Accounted.entered_eq {w : Machine} (h : w.Accounted) {k : ℕ}
    (hk : w.threads[k]?=some pc) : w.shared.assignments k = pc.entered k := by
  rw [←h.entered]
  exact Threads.total_eq _ hk fun m u hm hmk => Pc.entered_eq_zero (h.own m u hm) hmk

lemma Accounted.assignments_le_one {w : Machine} (h : w.Accounted) (k : ℕ) : w.shared.assignments k≤1 := by
  cases hk : w.threads[k]? with
  | some pc =>
    rw [h.entered_eq hk]
    fun_cases Pc.entered k pc <;> simp
  | none =>
    rw [←h.entered,Threads.total_eq_zero]
    · exact Nat.zero_le 1
    · intro m u hm
      refine Pc.entered_eq_zero (h.own m u hm) fun he => ?_
      rw [he,hk] at hm
      cases hm

end Machine

def Vacant (l : List Inflight) : Prop := ∀ x∈l, x.srb=none

section Teardown
variable (i : Input) (n : ℕ) {d : Device}

lemma Vacant.set {l : List Inflight} (h : Vacant l) (tag : ℕ) {y : Inflight} (hy : y.srb=none) :
    Vacant (l.set tag y) := by
  intro x hx
  obtain hx | rfl := List.mem_or_eq_of_mem_set hx
  · exact h x hx
  · exact hy

lemma act_vacant (h : Vacant d.inflight) (hp : ∀ srb, pc≠.insert srb) : Vacant (act i n d pc).1.inflight := by
  cases hs : pc.onSlots with
  | false =>
    rw [(act_inflight i n d hs).1]
    exact h
  | true =>
    cases pc with
    | insert srb => exact absurd rfl (hp srb)
    | drain completed sawFailed =>
      obtain ⟨qs,⟨status,he⟩ | ⟨-,he⟩ | ⟨tag,x,-,-,he | ⟨status,k,saw,he⟩⟩⟩ :=
        d.drain_cases i n completed sawFailed <;> rw [act,he]
      · exact h
      · exact h
      · exact h.set tag rfl
      · exact h.set tag rfl
    | free t completed sawFailed =>
      intro x hx
      obtain ⟨m,hm⟩ := List.mem_iff_getElem?.mp hx
      simp only [act,Device.setFree,List.getElem?_modify] at hm
      obtain ⟨y,hy,rfl⟩ := Option.map_eq_some_iff.mp hm
      have hnone := h y (List.mem_of_getElem? hy)
      split_ifs <;> exact hnone
    | snapshot =>
      intro x hx
      obtain ⟨y,hy,rfl⟩ := List.mem_map.mp hx
      split_ifs
      · rfl
      · exact h y hy
    | _ => cases hs

lemma snapshot_vacant (hok : SlotsOk d.inflight) : Vacant (d.snapshot n).1.inflight := by
  intro x hx
  obtain ⟨y,hy,rfl⟩ := List.mem_map.mp hx
  obtain ⟨tag,htag⟩ := List.mem_iff_getElem?.mp hy
  have hyok := hok tag y htag
  split_ifs with hc
  · rfl
  · cases hstate : y.state with
    | free =>
      simpa only [Inflight.Ok,hstate] using hyok
    | _ => simpa [hstate] using hc

lemma snapshot_failing (h : Vacant d.inflight) : (d.snapshot n).2.failing=false := by
  have hnil : d.inflight.filterMap (fun x => if x.state≠.free then x.srb else none)=[] := by
    refine List.filterMap_eq_nil_iff.mpr fun x hx => ?_
    rw [h x hx]
    split_ifs <;> rfl
  rw [Device.snapshot,hnil]
  rfl

end Teardown

namespace Machine

/-- A request enters the queue only while the queue is registered, and no two teardowns overlap. -/
def CarefulTurn (w : Machine) : Pc → Prop
  | .insert _ => w.shared.registered=true
  | .snapshot => ∀ pc∈w.threads, pc.tearing=false
  | _ => True

def Careful (w : Machine) : Move → Prop
  | .turn n _ => ∀ pc∈w.threads[n]?, w.CarefulTurn pc
  | _ => True

structure Torn (w : Machine) : Prop where
  vacant : w.shared.registered=false → Vacant w.shared.inflight
  begun : w.Each fun d _ pc => pc.begun=true → d.registered=false
  alone : ∀ (n m : ℕ) pc pc', w.threads[n]?=some pc → pc.failing=true →
    w.threads[m]?=some pc' → pc'.begun=true → m=n

lemma torn_new (queueDepth maxIoBytes : ℕ) (adapter : Bool) : (new queueDepth maxIoBytes adapter).Torn := by
  refine ⟨fun h => Bool.noConfusion h,fun n pc h => ?_,fun n m pc pc' h => ?_⟩ <;> simp [new] at h

variable {w : Machine}

lemma Torn.spawn (h : w.Torn) (hb : pc.begun=false) (hf : pc.failing=false) : Torn (Threads.spawn w pc) := by
  have hold {m : ℕ} {u : Pc} (hm : (Threads.spawn w pc).threads[m]?=some u)
      (hu : u.begun=true ∨ u.failing=true) : w.threads[m]?=some u := by
    obtain hm | ⟨-,rfl⟩ := Threads.get_spawn.mp hm
    · exact hm
    · simp [hb,hf] at hu
  refine ⟨h.vacant,h.begun.spawn fun hbegun => ?_,fun n m u v hn hu hm hv => ?_⟩
  · rw [hb] at hbegun
    cases hbegun
  · exact h.alone n m u v (hold hn (.inr hu)) hu (hold hm (.inl hv)) hv

lemma Torn.turn (h : w.Torn) (hs : SlotsOk w.shared.inflight) {n : ℕ} {i : Input}
    (hc : w.Careful (.turn n i)) : Torn (Threads.turn (act i) w n) := by
  cases hn : w.threads[n]? with
  | none => simpa [Threads.turn,hn] using h
  | some pc =>
    have ht := act_turn i n w.shared pc
    have hclosed : w.shared.registered=false → (act i n w.shared pc).1.registered=false := by
      intro hr
      by_contra hne
      rw [ht.registered (by simpa using hne)] at hr
      cases hr
    -- A turn begins a teardown only if no other one has requests left to complete.
    have hstart : pc=.snapshot → ∀ (m : ℕ) u, w.threads[m]?=some u → u.tearing=false := by
      rintro rfl m u hm
      exact hc _ hn u (List.mem_of_getElem? hm)
    have hshared : (Threads.turn (act i) w n).shared = (act i n w.shared pc).1 :=
      Threads.shared_turn hn
    refine ⟨fun hr => ?_,fun m u hm hu => ?_,fun a b u v ha hu hb hv => ?_⟩
    · rw [hshared] at hr ⊢
      -- The slots are empty from the look of the teardown on.
      by_cases hsnap : pc=.snapshot
      · subst hsnap
        exact snapshot_vacant n hs
      · have hr' : w.shared.registered=false := by
          obtain he | hb | he := ht.unregistered
          · exact he ▸ hr
          · exact h.begun n pc hn hb
          · exact absurd he hsnap
        refine act_vacant i n (h.vacant hr') fun srb he => ?_
        have hreg : w.shared.registered=true := hc (.insert srb) (he ▸ hn)
        rw [hr'] at hreg
        cases hreg
    · rw [hshared]
      obtain ⟨rfl,rfl⟩ | ⟨-,hm⟩ := (Threads.get_turn hn).mp hm
      · obtain hb | rfl := ht.begun hu
        · exact hclosed (h.begun m pc hn hb)
        · rfl
      · exact hclosed (h.begun m u hm hu)
    · obtain ⟨rfl,rfl⟩ | ⟨-,ha'⟩ := (Threads.get_turn hn).mp ha <;>
        obtain ⟨rfl,rfl⟩ | ⟨-,hb'⟩ := (Threads.get_turn hn).mp hb
      · rfl
      · obtain hf | rfl := ht.failing hu
        · exact h.alone a b pc v hn hf hb' hv
        · -- Another teardown has returned, so there was nothing left to complete.
          have hf := snapshot_failing a (h.vacant (h.begun b v hb' hv))
          rw [act,hf] at hu
          cases hu
      · obtain hb | rfl := ht.begun hv
        · exact h.alone a b u pc ha' hu hn hb
        · have hf := Pc.failing_tearing hu
          rw [hstart rfl a u ha'] at hf
          cases hf
      · exact h.alone a b u v ha' hu hb' hv

lemma Torn.step (h : w.Torn) (hg : w.Guarded) {a : Move} (hc : w.Careful a) : Torn (w.step a) := by
  cases a with
  | turn n i => exact h.turn hg.slots hc
  | _ => exact h.spawn rfl rfl

lemma Torn.settled (h : w.Torn) (ha : w.Accounted) {n : ℕ} (hn : w.threads[n]?=some .tornDown)
    (k : ℕ) : w.shared.inSlots k=0 ∧ w.total (Pc.hand k)=0 := by
  have hidle := ha.guarded.waited n _ hn rfl
  constructor
  · refine List.sum_eq_zero fun c hc => ?_
    obtain ⟨x,hx,rfl⟩ := List.mem_map.mp hc
    rw [h.vacant (h.begun n _ hn rfl) x hx]
    rfl
  · refine Threads.total_eq_zero fun m u hm => ?_
    have hhold : u.holds=0 := by
      have h₁ := Threads.le_total Pc.holds hm
      rw [ha.guarded.holders,hidle.2] at h₁
      omega
    cases u with
    | reject | copy | free | notify => cases hhold
    | fail failed pending =>
      cases failed with
      | nil => rfl
      | cons srb failed =>
        obtain rfl := h.alone m n _ _ hm rfl hn rfl
        rw [hn] at hm
        cases hm
    | _ => rfl

/-- No request is completed twice; and when a teardown has returned, every request that `QSubmit` has
accepted is completed, provided that none entered the queue after the look of a teardown. -/
theorem completed_once (queueDepth maxIoBytes : ℕ) (as : List Move) :
    (∀ k, (run step (new queueDepth maxIoBytes true) as).shared.completions k ≤ 1) ∧
    (AllSteps step Careful (new queueDepth maxIoBytes true) as →
      ∀ n : ℕ, (run step (new queueDepth maxIoBytes true) as).threads[n]? = some .tornDown →
      ∀ (m : ℕ) srb, (run step (new queueDepth maxIoBytes true) as).threads[m]? =
        some (.submitReturned srb .pending) →
      (run step (new queueDepth maxIoBytes true) as).shared.completions srb.id = 1) := by
  have ha : (run step (new queueDepth maxIoBytes true) as).Accounted :=
    run_induction step (fun _ a h => h.step a) (accounted_new queueDepth maxIoBytes) as
  refine ⟨fun k => ?_,fun h n hn m srb hm => ?_⟩
  · have h₁ := ha.balance k
    have h₂ := ha.assignments_le_one k
    omega
  · have ht : (run step (new queueDepth maxIoBytes true) as).Torn ∧
        (run step (new queueDepth maxIoBytes true) as).Guarded :=
      h.invariant step (P := fun w => w.Torn ∧ w.Guarded)
        (fun _ a h hc => ⟨h.1.step h.2 hc,h.2.step a⟩)
        ⟨torn_new queueDepth maxIoBytes true,guarded_new queueDepth maxIoBytes true⟩
    obtain rfl : srb.id=m := ha.own m _ hm srb rfl
    have h₁ := ha.balance srb.id
    have h₂ := ha.entered_eq hm
    obtain ⟨h₃,h₄⟩ := ht.1.settled ha hn srb.id
    simp only [Pc.entered,if_true] at h₂
    omega

instance decidableCarefulTurn (w : Machine) : ∀ pc, Decidable (w.CarefulTurn pc)
  | .insert _ => inferInstanceAs (Decidable (w.shared.registered=true))
  | .snapshot => inferInstanceAs (Decidable (∀ pc∈w.threads, pc.tearing=false))
  | .submitAcquire _ | .submitCheck _ | .wake _ _ | .woken _ _ | .submitRelease _ _
  | .submitReturned _ _ | .commitAcquire | .commitCheck | .drain _ _ | .reject _ _ | .copy _ _ _
  | .free _ _ _ | .notify _ _ _ | .pend _ | .arm _ | .recheck _ | .disarm _ | .unpend _
  | .cancelled _ | .commitRelease _ | .commitReturned _ | .flag _ | .swap _ | .claim _ | .claimed _
  | .cancelReturned | .fail _ _ | .dropFetch _ | .dropped _ | .waitRundown | .unlock | .tornDown =>
    inferInstanceAs (Decidable True)

instance decidableCareful (w : Machine) : ∀ a, Decidable (w.Careful a)
  | .turn n _ => inferInstanceAs (Decidable (∀ pc∈w.threads[n]?, w.CarefulTurn pc))
  | .submit _ | .commit | .cancel _ | .teardown => inferInstanceAs (Decidable True)

/-- A request is submitted, and then the queue is torn down. -/
def submittedFirst : List Move :=
  [.submit ⟨.write,0,512⟩]++turns 0 4++[.teardown]++turns 1 6

theorem completed_once_submittedFirst :
    (run step (new 2 4096 true) submittedFirst).threads =
      [.submitReturned ⟨0,⟨.write,0,512⟩⟩ .pending,.tornDown] ∧
    (run step (new 2 4096 true) submittedFirst).shared.completions 0 = 1 := by
  have h : AllSteps step Careful (new 2 4096 true) submittedFirst := by decide +kernel
  have ht : (run step (new 2 4096 true) submittedFirst).threads =
      [.submitReturned ⟨0,⟨.write,0,512⟩⟩ .pending,.tornDown] := by decide +kernel
  exact ⟨ht,(completed_once 2 4096 submittedFirst).2 h 1 (by rw [ht]; rfl) 0 ⟨0,⟨.write,0,512⟩⟩
    (by rw [ht]; rfl)⟩

/-- `QSubmit` has made its check when the teardown looks at the queue, and puts the request into a
slot after that; the teardown waits for the call, and returns. -/
def submittedLate : List Move :=
  [.submit ⟨.write,0,512⟩]++turns 0 2++[.teardown]++turns 1 1++turns 0 2++turns 1 5

/-- A second teardown returns while the first one still has the request in hand. -/
def tornTwice : List Move :=
  [.submit ⟨.write,0,512⟩]++turns 0 4++[.teardown,.teardown]++turns 1 1++turns 2 5

theorem tornDown_not_completed :
    (run step (new 2 4096 true) submittedLate).threads =
      [.submitReturned ⟨0,⟨.write,0,512⟩⟩ .pending,.tornDown] ∧
    (run step (new 2 4096 true) submittedLate).shared.completions 0 = 0 ∧
    (run step (new 2 4096 true) tornTwice).threads =
      [.submitReturned ⟨0,⟨.write,0,512⟩⟩ .pending,.fail [⟨0,⟨.write,0,512⟩⟩] none,.tornDown] ∧
    (run step (new 2 4096 true) tornTwice).shared.completions 0 = 0 := by
  decide +kernel

end Machine
end RamShared.Driver

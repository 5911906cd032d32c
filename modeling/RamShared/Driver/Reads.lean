import RamShared.Driver.Turns

/-! A `READ` that is completed with success carries its data, as long as its buffer can be addressed
when the completion is taken off the ring. -/
namespace RamShared.Driver
open Lib

/-- The completion of the request is taken off the ring, after the slot was given to the request, and
nobody has been given the slot since then. -/
def Consumed (log : List Event) (srb : Srb) (tag : ℕ) : Prop :=
  ∃ a b c, log = a++.assigned srb tag::(b++.consumed (some srb) tag::c) ∧
    ∀ s, .assigned s tag∉c

def Delivered (log : List Event) (srb : Srb) : Prop :=
  ∃ tag a b, log = a++.copied srb tag srb.request.dataTransferLength::b ∧ Consumed a srb tag

section Histories
variable {log : List Event} {srb : Srb} {tag : ℕ}

lemma Consumed.append (h : Consumed log srb tag) {es : List Event}
    (hes : ∀ s, .assigned s tag∉es) : Consumed (log++es) srb tag := by
  obtain ⟨a,b,c,rfl,hc⟩ := h
  refine ⟨a,b,c++es,by simp,fun s hs => ?_⟩
  obtain hs | hs := List.mem_append.mp hs
  · exact hc s hs
  · exact hes s hs

lemma Delivered.append (h : Delivered log srb) (es : List Event) : Delivered (log++es) srb := by
  obtain ⟨tag,a,b,rfl,ha⟩ := h
  exact ⟨tag,a,b++es,by simp,ha⟩

lemma split_append {e : Event} {es pre post : List Event} (h : log++es = pre++e::post) :
    (∃ post', log = pre++e::post') ∨ e∈es ∧ ∃ new, pre = log++new := by
  obtain ⟨new,rfl,he⟩ | ⟨c,rfl,he⟩ := List.append_eq_append_iff.mp h
  · exact .inr ⟨he ▸ List.mem_append_right new (List.mem_cons_self ..),new,rfl⟩
  · cases c with
    | nil =>
      obtain rfl : e::post=es := he
      exact .inr ⟨List.mem_cons_self ..,[],by simp⟩
    | cons x c =>
      obtain ⟨rfl,-⟩ : e=x ∧ _ := by simpa using he
      exact .inl ⟨c,rfl⟩

end Histories

def Working (d : Device) : Pc → Prop
  | .copy t _ _ => ∃ srb, t.srb=some srb ∧ t.op=srb.request.op ∧ t.bufSlot=t.tag ∧
    Consumed d.log srb t.tag
  | .free t _ _ | .notify t _ _ => ∃ srb, t.srb=some srb ∧ t.op=srb.request.op ∧
    (d.adapter=true → t.op=.read → t.ok=true → Delivered d.log srb)
  | _ => True

def Given (d : Device) : Prop :=
  ∀ (tag : ℕ) x srb, d.inflight[tag]?=some x → x.srb=some srb → .assigned srb tag∈d.log

/-- `StorPortGetSystemAddress` gives an address for the `READ` whose data is to be copied. -/
def AddressedTurn (i : Input) : Pc → Prop
  | .copy t _ _ => t.op=.read → t.ok=true → i.address=true
  | _ => True

section Turns
variable (i : Input) (n : ℕ) {d : Device}

lemma Given.set (h : Given d) {tag : ℕ} {y : Inflight} {es : List Event}
    (hy : ∀ srb, y.srb=some srb → .assigned srb tag∈es) (k : ℕ) (x : Inflight) (srb : Srb)
    (hx : (d.inflight.set tag y)[k]?=some x) (hs : x.srb=some srb) : .assigned srb k∈d.log++es := by
  by_cases hk : tag=k
  · subst hk
    obtain rfl : y=x := by
      rw [List.getElem?_set_self' ] at hx
      simp_all
    exact List.mem_append_right _ (hy srb hs)
  · rw [List.getElem?_set_ne hk] at hx
    exact List.mem_append_left _ (h k x srb hx hs)

lemma act_given (h : Given d) (pc : Pc) : Given (act i n d pc).1 := by
  obtain ⟨es,hlog,-⟩ := act_log i n d pc
  cases hp : pc.onSlots with
  | false =>
    intro tag x srb hx hs
    rw [(act_inflight i n d hp).1] at hx
    rw [hlog]
    exact List.mem_append_left es (h tag x srb hx hs)
  | true =>
  cases pc with
  | insert srb =>
    obtain he | ⟨tag,x,bounced,-,-,-,⟨-,he⟩ | ⟨irp,-,he⟩⟩ := d.insert_cases n srb
    all_goals simp only [act,he]
    · exact h
    · refine h.set fun s hs => ?_
      obtain rfl := Option.some.inj hs
      simp
    · intro k x s hx hs
      refine List.mem_append_left _ (h.set (fun s hs => ?_) k x s hx hs)
      obtain rfl := Option.some.inj hs
      simp
  | drain completed sawFailed =>
    obtain ⟨qs,⟨status,he⟩ | ⟨-,he⟩ | ⟨tag,x,-,-,he | ⟨status,k,saw,he⟩⟩⟩ :=
      d.drain_cases i n completed sawFailed
    all_goals simp only [act,he]
    · exact h
    · exact h
    · exact h.set (by simp)
    · exact h.set (by simp)
  | free t completed sawFailed =>
    intro tag x srb hx hs
    simp only [act,Device.setFree,List.getElem?_modify] at hx
    obtain ⟨y,hy,rfl⟩ := Option.map_eq_some_iff.mp hx
    refine h tag y srb hy ?_
    split_ifs at hs <;> exact hs
  | snapshot =>
    intro tag x srb hx hs
    simp only [act,Device.snapshot,List.getElem?_map] at hx
    obtain ⟨y,hy,rfl⟩ := Option.map_eq_some_iff.mp hx
    split_ifs at hs
    exact List.mem_append_left _ (h tag y srb hy hs)
  | _ => cases hp

lemma act_working (pc : Pc) : Working d pc → Given d → SlotsOk d.inflight →
    (pc.holds=1 → d.mapped=true) → AddressedTurn i pc → Working (act i n d pc).1 (act i n d pc).2 := by
  fun_cases act i n d pc
  all_goals first
  | exact fun _ _ _ _ _ => trivial
  | exact fun h _ _ _ _ => h
  | skip
  · rename_i srb
    intro _ _ _ _ _
    obtain he | ⟨tag,x,bounced,-,-,-,⟨-,he⟩ | ⟨irp,-,he⟩⟩ := d.insert_cases n srb <;> rw [he] <;>
      trivial
  · rename_i completed sawFailed
    intro _ hg hok _ _
    obtain ⟨qs,⟨status,he⟩ | ⟨-,he⟩ | ⟨tag,x,hx,hstate,he | ⟨status,k,saw,he⟩⟩⟩ :=
      d.drain_cases i n completed sawFailed
    all_goals rw [he]
    all_goals try trivial
    have hxok := hok tag x hx
    simp only [Inflight.Ok,hstate] at hxok
    obtain ⟨hb,srb,hs,hop⟩ := hxok
    obtain ⟨a,b,hlog⟩ := List.append_of_mem (hg tag x srb hx hs)
    exact ⟨srb,hs,hop,hb,a,b,[],by simp [hlog,hs],fun _ => List.not_mem_nil⟩
  · rename_i t completed sawFailed
    rintro ⟨srb,hs,hop,hb,hc⟩ _ _ hm ha
    refine ⟨srb,hs,hop,fun had hread hstatus => ⟨t.tag,d.log,[],?_,hc⟩⟩
    have hadapter : d.adapter=true := had
    simp [Device.copyOut,Device.record,hread,hstatus,hadapter,ha hread hstatus,hm rfl,hs,hb]

end Turns
variable {w : Machine}

namespace Machine

def Addressed (w : Machine) : Move → Prop
  | .turn n i => ∀ pc∈w.threads[n]?, AddressedTurn i pc
  | _ => True

structure Truthful (w : Machine) : Prop where
  guarded : w.Guarded
  given : Given w.shared
  working : w.Each fun d _ pc => Working d pc
  completed : ∀ srb pre post, srb.request.op=.read →
    w.shared.log = pre++.completed srb true::post → Delivered pre srb

lemma truthful_new (queueDepth maxIoBytes : ℕ) (adapter : Bool) :
    (new queueDepth maxIoBytes adapter).Truthful := by
  refine ⟨guarded_new queueDepth maxIoBytes adapter,fun tag x srb hx hs => ?_,nofun,
    fun srb pre post _ h => ?_⟩
  · obtain ⟨-,rfl⟩ : tag < maxQd ∧ ⟨none,.read,0,.free⟩=x := by
      simpa [new,Device.new,List.getElem?_replicate] using hx
    cases hs
  · simp [new,Device.new] at h

lemma Truthful.spawn (h : w.Truthful) {pc : Pc} (hg : Guarded (Threads.spawn w pc))
    (hw : Working w.shared pc) : Truthful (Threads.spawn w pc) :=
  ⟨hg,h.given,h.working.spawn hw,h.completed⟩

lemma Guarded.not_assigned (h : w.Guarded) {m : ℕ} {t : Taken} {completed : ℕ}
    {sawFailed : Bool} (hm : w.threads[m]?=some (.copy t completed sawFailed)) {n : ℕ}
    {pc pc' : Pc} {s : Srb} : ¬Emits n w.shared pc pc' (.assigned s t.tag) := by
  rintro ⟨-,x,hx,hfree⟩
  have h₁ := h.works t.tag
  have h₂ := Threads.le_total (Pc.works t.tag) hm
  simp [completing,hx,hfree] at h₁
  simp [Pc.works] at h₂
  omega

lemma Truthful.turn (h : w.Truthful) {n : ℕ} {i : Input}
    (ha : w.Addressed (.turn n i)) : Truthful (Threads.turn (act i) w n) := by
  cases hn : w.threads[n]? with
  | none => simpa [Threads.turn,hn] using h
  | some pc =>
    obtain ⟨es,hlog,hes⟩ := act_log i n w.shared pc
    refine ⟨h.guarded.turn n i,?_,h.working.turn (fun t ht => ?_) fun t m u ht hmn hm => ?_,?_⟩
    · rw [Threads.shared_turn hn]
      exact act_given i n h.given pc
    · exact act_working i n t (h.working n t ht) h.given h.guarded.slots (h.guarded.mapped ht) (ha t ht)
    · obtain rfl : pc=t := Option.some.inj (hn.symm.trans ht)
      have hadapter := (act_turn i n w.shared pc).adapter
      have hu := h.working m u hm
      cases u with
      | copy t completed sawFailed =>
        obtain ⟨srb,hs,hop,hb,hc⟩ := hu
        refine ⟨srb,hs,hop,hb,?_⟩
        rw [hlog]
        exact hc.append fun s hs => h.guarded.not_assigned hm (hes _ hs)
      | free t completed sawFailed | notify t completed sawFailed =>
        obtain ⟨srb,hs,hop,hd⟩ := hu
        refine ⟨srb,hs,hop,?_⟩
        rw [hlog,hadapter]
        exact fun had hread hok => (hd had hread hok).append es
      | _ => trivial
    · intro srb pre post hread hsplit
      rw [Threads.shared_turn hn,hlog] at hsplit
      obtain ⟨post',hold⟩ | ⟨he,new,rfl⟩ := split_append hsplit
      · exact h.completed srb pre post' hread hold
      · obtain ⟨had,hok⟩ := hes _ he
        obtain ⟨t,completed,sawFailed,rfl,hs,hstatus⟩ := hok rfl
        obtain ⟨s,hs',hop,hd⟩ := h.working n _ hn
        obtain rfl : srb=s := Option.some.inj (hs.symm.trans hs')
        exact (hd had (hop.trans hread) hstatus).append new

lemma Truthful.step (h : w.Truthful) {a : Move} (ha : w.Addressed a) : Truthful (w.step a) := by
  have hg := h.guarded.step a
  cases a with
  | turn n i => exact h.turn ha
  | _ => exact h.spawn hg trivial

/-- Before a `READ` is completed with success its data is copied out of the slot it was given, and
from the taking of its completion to the copy nobody else is given the slot. -/
theorem successful_read_delivered (queueDepth maxIoBytes : ℕ) (adapter : Bool) (as : List Move)
    (h : AllSteps step Addressed (new queueDepth maxIoBytes adapter) as) (srb : Srb)
    (hread : srb.request.op=.read) (pre post : List Event)
    (hlog : (run step (new queueDepth maxIoBytes adapter) as).shared.log =
      pre++.completed srb true::post) : Delivered pre srb :=
  (h.invariant step (fun _ _ ht ha => ht.step ha)
    (truthful_new queueDepth maxIoBytes adapter)).completed srb pre post hread hlog

instance decidableAddressedTurn (i : Input) : ∀ pc, Decidable (AddressedTurn i pc)
  | .copy t _ _ => inferInstanceAs (Decidable (t.op=.read → t.ok=true → i.address=true))
  | .submitAcquire _ | .submitCheck _ | .insert _ | .wake _ _ | .woken _ _ | .submitRelease _ _
  | .submitReturned _ _ | .commitAcquire | .commitCheck | .drain _ _ | .reject _ _ | .free _ _ _
  | .notify _ _ _ | .pend _ | .arm _ | .recheck _ | .disarm _ | .unpend _ | .cancelled _
  | .commitRelease _ | .commitReturned _ | .flag _ | .swap _ | .claim _ | .claimed _
  | .cancelReturned | .snapshot | .fail _ _ | .dropFetch _ | .dropped _ | .waitRundown | .unlock
  | .tornDown =>
    inferInstanceAs (Decidable True)

instance decidableAddressed (w : Machine) : ∀ a, Decidable (w.Addressed a)
  | .turn n i => inferInstanceAs (Decidable (∀ pc∈w.threads[n]?, AddressedTurn i pc))
  | .submit _ | .commit | .cancel _ | .teardown => inferInstanceAs (Decidable True)

/-- A `READ` is submitted, and its completion is taken off the ring; the buffer can be addressed then,
or cannot. -/
def readMoves (address : Bool) : List Move :=
  [.submit ⟨.read,0,512⟩]++turns 0 4++[.commit]++turns 1 2 ++
    [.turn 1 ⟨[⟨0,0,0⟩],true,true⟩,.turn 1 ⟨[],true,address⟩]++turns 1 2

theorem successful_read_delivered_readMoves :
    (run step (new 2 4096 true) (readMoves true)).shared.log =
      [.assigned ⟨0,⟨.read,0,512⟩⟩ 0,.consumed (some ⟨0,⟨.read,0,512⟩⟩) 0,
        .copied ⟨0,⟨.read,0,512⟩⟩ 0 512,.completed ⟨0,⟨.read,0,512⟩⟩ true] ∧
    Delivered [.assigned ⟨0,⟨.read,0,512⟩⟩ 0,.consumed (some ⟨0,⟨.read,0,512⟩⟩) 0,
      .copied ⟨0,⟨.read,0,512⟩⟩ 0 512] ⟨0,⟨.read,0,512⟩⟩ := by
  have hlog : (run step (new 2 4096 true) (readMoves true)).shared.log =
      [.assigned ⟨0,⟨.read,0,512⟩⟩ 0,.consumed (some ⟨0,⟨.read,0,512⟩⟩) 0,
        .copied ⟨0,⟨.read,0,512⟩⟩ 0 512,.completed ⟨0,⟨.read,0,512⟩⟩ true] := by decide +kernel
  exact ⟨hlog,successful_read_delivered 2 4096 true (readMoves true) (by decide +kernel) _ rfl _ []
    hlog⟩

theorem successful_read_not_delivered :
    (run step (new 2 4096 true) (readMoves false)).shared.log =
      [.assigned ⟨0,⟨.read,0,512⟩⟩ 0,.consumed (some ⟨0,⟨.read,0,512⟩⟩) 0] ++
        [.completed ⟨0,⟨.read,0,512⟩⟩ true] ∧
    ¬Delivered [.assigned ⟨0,⟨.read,0,512⟩⟩ 0,.consumed (some ⟨0,⟨.read,0,512⟩⟩) 0]
      ⟨0,⟨.read,0,512⟩⟩ := by
  refine ⟨by decide +kernel,fun ⟨tag,a,b,hlog,_⟩ => ?_⟩
  have hmem : .copied ⟨0,⟨.read,0,512⟩⟩ tag 512 ∈ a++.copied ⟨0,⟨.read,0,512⟩⟩ tag 512::b :=
    List.mem_append_right a (List.mem_cons_self ..)
  rw [← hlog] at hmem
  simp at hmem

end Machine
end RamShared.Driver

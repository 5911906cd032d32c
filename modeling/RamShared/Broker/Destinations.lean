import RamShared.Broker.Hygiene
import RamShared.Broker.Rulings

/-! Where a draining slice is bound. A move notes the destination, and a confirmed zeroing or a
failed mount clears it, so only slices that drain have one. -/
namespace RamShared.Broker
open Lib

variable {t : TenantId}

namespace BrokerCore
variable {F D : Type}

lemma onZeroOk_pendingDest (c : BrokerCore F D) (s : SliceId) : ((c.onZeroOk s).1.pendingDest=c.pendingDest ∨
      (c.onZeroOk s).1.pendingDest = c.pendingDest.erase s) ∧
    (c.sliceMap.In s .draining → s∉(c.onZeroOk s).1.pendingDest) := by
  have hself : s∉c.pendingDest.erase s := fun h =>
    (Std.TreeMap.mem_erase.mp h).1 (Nat.compare_eq_eq.mpr rfl)
  cases hr : c.sliceMap.release s with
  | error e =>
    simp only [onZeroOk,hr]
    refine ⟨.inl trivial,fun hs => ?_⟩
    rw [SliceMap.release_of_draining hs] at hr
    cases hr
  | ok m =>
    cases hd : c.pendingDest[s]? with
    | none =>
      simp only [onZeroOk,hr,hd]
      refine ⟨.inl trivial,fun _ h => ?_⟩
      rw [Std.TreeMap.mem_iff_isSome_getElem?,hd] at h
      cases h
    | some dest =>
      cases ha : m.assign s dest with
      | error e =>
        simp only [onZeroOk,hr,hd,ha]
        exact ⟨.inr trivial,fun _ => hself⟩
      | ok m' =>
        simp only [onZeroOk,hr,hd,ha]
        exact ⟨.inr trivial,fun _ => hself⟩

variable {c : BrokerCore F D} {s : SliceId}

lemma onZeroOk_free (hs : c.sliceMap.In s .draining) (hd : s∉c.pendingDest) :
    (c.onZeroOk s).1.sliceMap.In s .free := by
  have hr := SliceMap.release_of_draining hs
  have hnone : c.pendingDest[s]?=none := Std.TreeMap.getElem?_eq_none hd
  simp only [onZeroOk,hr,hnone]
  exact (SliceMap.in_of_transition hr).2

lemma onZeroOk_of_dest {dest : TenantId} (hs : c.sliceMap.In s .draining) (hd : c.pendingDest[s]?=some dest) :
    (c.onZeroOk s).1.sliceMap.ActiveFor s dest ∧ (c.onZeroOk s).2 = c.emitSwapon s dest := by
  have hr := SliceMap.release_of_draining hs
  have ha := SliceMap.assign_of_free (SliceMap.in_of_transition hr).2 dest
  simp only [onZeroOk,hr,hd,ha]
  exact ⟨SliceMap.activeFor_of_assign ha,rfl⟩

lemma Shift.dest {c' : BrokerCore F D} {e : CoreEvent F} (h : Shift c c' e)
    (hs : c'.pendingDest[s]?=some t) : c.pendingDest[s]?=some t := by
  have herase (k : SliceId) (h : (c.pendingDest.erase k)[s]?=some t) :
      c.pendingDest[s]?=some t := by
    rw [Std.TreeMap.getElem?_erase] at h
    split_ifs at h
    exact h
  cases h with
  | idle hm hd => rwa [hd] at hs
  | adopted hid ht hr hm hd => rwa [hd] at hs
  | unleased hm hd => rwa [hd] at hs
  | unmounted hm hd =>
    rw [hd] at hs
    exact herase _ hs
  | @zeroed k hm hd =>
    rw [hd] at hs
    rcases (c.onZeroOk_pendingDest k).1 with h | h <;> rw [h] at hs
    · exact hs
    · exact herase k hs

lemma Shift.mem_pendingDest {c' : BrokerCore F D} {e : CoreEvent F} (h : Shift c c' e)
    (hs : s∈c'.pendingDest) : s∈c.pendingDest := by
  rw [Std.TreeMap.mem_iff_isSome_getElem?,Option.isSome_iff_exists] at hs ⊢
  obtain ⟨t,ht⟩ := hs
  exact ⟨t,h.dest ht⟩

def Moving (c : BrokerCore F D) : Prop := ∀ s∈c.pendingDest, c.sliceMap.In s .draining

lemma moving_new (m : SliceMap) (cfg : BrokerCoreConfig F D) : (new m cfg).Moving :=
  fun _ hs => absurd hs Std.TreeMap.not_mem_emptyc

lemma expireLease_moving (hc : c.Moving) (now : ℕ) : (c.expireLease now).1.Moving := by
  obtain ⟨l,hm,-⟩ := (c.expireLease_quiet now).moves
  exact fun s hs => hm.in_draining (hc s (by simpa using hs))

lemma Applied.pendingDest {now : ℕ} {a : Action}
    {x : BrokerCore F D × List (Outbound F D)} (h : Applied c now a x) (ha : a.moves=false) :
    x.1.pendingDest=c.pendingDest := by
  cases h with
  | moved p q hm h => obtain rfl | rfl := hm <;> cases ha
  | leased h =>
    obtain ⟨m,b,h⟩ := h.core_eq
    rw [h]
  | _ => rfl

lemma Applied.moving {now : ℕ} {a : Action} {x : BrokerCore F D × List (Outbound F D)}
    (h : Applied c now a x) (hc : c.Moving) : x.1.Moving := by
  obtain ⟨l,hm,-⟩ := h.quiet.moves
  cases ha : a.moves with
  | false =>
    intro s hs
    rw [h.pendingDest ha] at hs
    exact hm.in_draining (hc s hs)
  | true =>
    cases h with
    | refused => exact hc
    | moved p q _ h =>
      intro k hk
      rcases Std.TreeMap.mem_insert.mp hk with hk | hk
      · rw [←Nat.compare_eq_eq.mp hk]
        exact (SliceMap.in_of_transition h).2
      · exact hm.in_draining (hc k hk)
    | _ => cases ha

section
variable [FloatOps F]

lemma applyActions_pendingDest (present : List (TenantView F)) (now : ℕ) {as : List Action}
    (ha : ∀ a∈as, a.moves=false) (c : BrokerCore F D) :
    (applyActions present now as c).1.pendingDest=c.pendingDest := by
  induction as generalizing c with
  | nil => rfl
  | cons a as ih =>
    rw [List.forall_mem_cons] at ha
    exact (ih ha.2 _).trans ((c.applied present now a).pendingDest ha.1)

variable {c : BrokerCore F D}

lemma applyActions_moving (present : List (TenantView F)) (now : ℕ) (as : List Action)
    (hc : c.Moving) : (applyActions present now as c).1.Moving := by
  induction as generalizing c with
  | nil => exact hc
  | cons a as ih => exact ih ((c.applied present now a).moving hc)

lemma carryOut_moving (hc : c.Moving) (now : ℕ) : (c.carryOut now).1.Moving := applyActions_moving _ now _ hc

end

section
variable [FloatOps F] [FloatOps D] [DebugMsg F]

lemma step_tick_carryOut (c : BrokerCore F D) (now : ℕ) (sensors : Sensors) (order : KeyOrder) :
    ∃ z d flag n, c.step ⟨.tick,now,sensors,order⟩ =
      { ((c.expireLease now).1.carryOut now).1 with
        pendingZero := z, demotesAtLastSample := d, reconFlag := flag, reconCount := n} := by
  obtain ⟨z,d,flag,n,h⟩ := c.step_tick now sensors order
  refine ⟨z,d,flag,n,h.trans ?_⟩
  rcases (c.expireLease now).1.tickArbiter_eq now with h | ⟨e,h,-⟩ <;> rw [h]

lemma step_moving {c : BrokerCore F D} (hc : c.Moving) (i : Input F) : (c.step i).Moving := by
  by_cases ht : i.event=.tick
  · rcases i with ⟨e,now,sensors,order⟩
    cases ht
    obtain ⟨z,d,flag,n,hs⟩ := c.step_tick_carryOut now sensors order
    rw [hs]
    exact carryOut_moving (expireLease_moving hc now) now
  · intro s hs
    have hd := hc s ((c.step_spec i ht).1.mem_pendingDest hs)
    rcases c.step_draining i hd with h | he
    · exact h
    · rcases i with ⟨e,now,sensors,order⟩
      cases he
      exact absurd hs ((c.onZeroOk_pendingDest s).2 hd)

end
end BrokerCore

/-! A demotion drains no slice: what its zeroing gives back is up to the ticks in between. -/

section
variable {F D : Type}

def CoreEvent.subject : CoreEvent F → Option SliceId
  | .msg _ (.swapOnDone s _ _) | .msg _ (.swapOffDone s _ _) | .zeroDone s _ => some s
  | _ => none

namespace BrokerCore

def Held (c : BrokerCore F D) (s : SliceId) (t : TenantId) : Prop :=
  c.sliceMap.ActiveFor s t ∨ c.sliceMap.In s .draining

lemma onZeroOk_activeFor_iff (c : BrokerCore F D) (s : SliceId) (t : TenantId) :
    (c.onZeroOk s).1.sliceMap.ActiveFor s t ↔
      c.sliceMap.ActiveFor s t ∨ c.sliceMap.In s .draining ∧ c.pendingDest[s]?=some t := by
  by_cases hdr : c.sliceMap.In s .draining
  · have hna : ¬c.sliceMap.ActiveFor s t := fun h => h.not_draining hdr
    simp only [hna,hdr,false_or,true_and]
    cases hd : c.pendingDest[s]? with
    | none =>
      have hfree := onZeroOk_free hdr fun h => by
        rw [Std.TreeMap.mem_iff_isSome_getElem?,hd] at h
        cases h
      constructor
      · rintro ⟨x,hx,ha,-⟩
        cases hfree.unique ⟨x,hx,ha⟩
      · intro h
        cases h
    | some dest =>
      have ha := (onZeroOk_of_dest hdr hd).1
      constructor
      · intro h
        rw [ha.unique h]
      · intro h
        cases h
        exact ha
  · simp only [hdr,false_and,or_false,SliceMap.ActiveFor,(c.onZeroOk_get s).1 hdr]

section
variable [FloatOps F] [FloatOps D] [DebugMsg F]
variable {s : SliceId} {c : BrokerCore F D}

lemma step_zeroDone {i : Input F} (hi : i.event=.zeroDone s true) (c : BrokerCore F D) :
    c.step i = (c.onZeroOk s).1 := by
  simp [step,handle,hi,onZeroDone]

lemma held_step (hc : c.Held s t) {i : Input F} (hi : i.event≠.zeroDone s true)
    (hf : ∀ sid detail, i.event≠.msg sid (.swapOnDone s false detail)) : (c.step i).Held s t := by
  rcases hc with ha | hd
  · rcases c.step_active i ha with h | h | ⟨sid,detail,h⟩
    · exact .inl h
    · exact .inr h
    · exact absurd h (hf sid detail)
  · rcases c.step_draining i hd with h | h
    · exact .inr h
    · exact absurd h hi

lemma held_run (hc : c.Held s t) {is : List (Input F)}
    (h : ∀ i∈is, i.event.subject≠some s) : (run step c is).Held s t := by
  induction is generalizing c with
  | nil => exact hc
  | cons i is ih =>
    have hi := h i (by simp)
    refine ih (held_step hc ?_ ?_) fun j hj => h j (by simp [hj])
    · intro he
      exact hi (by rw [he]; rfl)
    · intro sid detail he
      exact hi (by rw [he]; rfl)

lemma run_zeroDone_get (hc : ¬c.sliceMap.In s .draining) {zs : List (Input F)}
    (hz : ∀ i∈zs, i.event=.zeroDone s true) : (run step c zs).sliceMap.get s = c.sliceMap.get s := by
  induction zs generalizing c with
  | nil => rfl
  | cons z zs ih =>
    have hstep := c.step_zeroDone (hz z (by simp))
    obtain ⟨hget,hnot⟩ := c.onZeroOk_get s
    rw [run_cons,hstep,ih hnot fun i hi => hz i (by simp [hi]),hget hc]

/-- A tenant that is demoted swaps its slice off, and every zeroing ordered for it is confirmed:
the slice has left the tenant exactly if some tick had begun to drain it by then, and not to hand
it back to the same tenant. -/
theorem demoted_released_iff (c : BrokerCore F D) (d o : Input F) (js ks zs : List (Input F))
    {s : SliceId} {t : TenantId} {sid : ℕ} {reason detail : String}
    (ha : c.sliceMap.ActiveFor s t) (hd : d.event = .demote reason)
    (hj : ∀ i ∈ js, i.event.subject ≠ some s)
    (ho : o.event = .msg sid (.swapOffDone s true detail))
    (hk : ∀ i ∈ ks, i.event.subject ≠ some s) (hz : ∀ i ∈ zs, i.event = .zeroDone s true)
    (hne : zs ≠ []) :
    let c' := run step c (d::js++o::ks)
    ¬(run step c' zs).sliceMap.ActiveFor s t ↔
      c'.sliceMap.In s .draining ∧ c'.pendingDest[s]? ≠ some t := by
  intro c'
  have hheld : c'.Held s t := by
    have hstart : (run step c (d::js)).Held s t := by
      refine held_run (.inl ha) fun i hi => ?_
      rcases List.mem_cons.mp hi with rfl | hi
      · simp [hd,CoreEvent.subject]
      · exact hj i hi
    change (run step c (d::js++o::ks)).Held s t
    rw [run_append,run_cons]
    exact held_run (held_step hstart (i := o) (by simp [ho]) (by simp [ho])) hk
  cases zs with
  | nil => exact absurd rfl hne
  | cons z zs =>
    have hstep := c'.step_zeroDone (hz z (by simp))
    have hget := run_zeroDone_get (c'.onZeroOk_get s).2 fun i hi => hz i (List.mem_cons_of_mem z hi)
    have hiff := c'.onZeroOk_activeFor_iff s t
    rw [run_cons,hstep,SliceMap.ActiveFor,hget,← SliceMap.ActiveFor,hiff]
    rcases hheld with ha | hdr
    · simp [ha,ha.not_draining]
    · have hna : ¬c'.sliceMap.ActiveFor s t := fun h => h.not_draining hdr
      simp [hna,hdr]

end

/-- A lease is asked for before the tenant of the only slice is demoted, and the tick that revokes
the slice comes before the `SwapOffDone`. -/
theorem demoted_released_revoked :
    let c := run step mountedCore ([.msg 1 (.register protoVersion "b" .dccAgent),
      .msg 1 (.leaseRequest 4096)].map sampleInput)
    let d := sampleInput (.demote "shutdown")
    let o := sampleInput (.msg 0 (.swapOffDone 0 true ""))
    let z := sampleInput (.zeroDone 0 true)
    let c' := run step c (d::[sampleInput .tick]++o::[])
    c.sliceMap.ActiveFor 0 1 ∧ c'.sliceMap.In 0 .draining ∧ c'.pendingDest[0]? ≠ some 1 ∧
      ¬(run step c' [z]).sliceMap.ActiveFor 0 1 := by
  intro c d o z c'
  have ha : c.sliceMap.ActiveFor 0 1 := ⟨⟨0,0,4096,some 1,.active⟩,by decide +kernel,rfl,rfl⟩
  have hdr : c'.sliceMap.In 0 .draining := ⟨⟨0,0,4096,some 1,.draining⟩,by decide +kernel,rfl⟩
  have hdest : c'.pendingDest[0]? ≠ some 1 := by decide +kernel
  refine ⟨ha,hdr,hdest,?_⟩
  exact (demoted_released_iff c d o [sampleInput .tick] [] [z] ha rfl
    (by simp [sampleInput,CoreEvent.subject]) rfl (by simp) (by simp [z,sampleInput])
    (by simp)).mpr ⟨hdr,hdest⟩

/-- Without such a tick the zeroed slice stays active for the tenant that has just swapped it
off. -/
theorem demoted_stays_active :
    let c := run step mountedCore ([.demote "shutdown"].map sampleInput)
    let o := sampleInput (.msg 0 (.swapOffDone 0 true ""))
    mountedCore.sliceMap.get 0 = some ⟨0,0,4096,some 1,.active⟩ ∧
    (mountedCore.tenants[1]?.any fun x => x.present && x.sid == some 0) = true ∧
    zeroOrders (c.handle o).2 = [0] ∧
    ((c.step o).step (sampleInput (.zeroDone 0 true))).sliceMap.ActiveFor 0 1 := by
  exact ⟨by decide +kernel,by decide +kernel,by decide +kernel,
    ⟨⟨0,0,4096,some 1,.active⟩,by decide +kernel,rfl,rfl⟩⟩

end BrokerCore
end

end RamShared.Broker

import RamShared.Broker.Handle
import RamShared.Lib.Run

/-! Which slices the core orders to be wiped. The orders of a tick are for draining slices;
those that answer a message are for whatever slice the message names. -/
namespace RamShared.Broker
open Lib

namespace SliceMap

lemma In.of_get_eq {m m' : SliceMap} {s : SliceId} {state : SliceState} (h : m.In s state)
    (hg : m'.get s = m.get s) : m'.In s state := by
  obtain ⟨x,hx,hs⟩ := h
  exact ⟨x,hg.trans hx,hs⟩

lemma Moves.in_draining {m m' : SliceMap} {l : List SliceId} (h : Moves m l m') {s : SliceId}
    (hs : m.In s .draining) : m'.In s .draining := by
  obtain ⟨x,hx,hd⟩ := hs
  exact ⟨x,h.get_draining hx hd,hd⟩

end SliceMap

namespace BrokerCore
variable {F D : Type} [FloatOps F] [FloatOps D] [DebugMsg F] (c : BrokerCore F D)

/-- The event makes the core order no zeroing but of draining slices, and leaves only draining
slices waiting for one. -/
def ZeroesDraining (i : Input F) : Prop :=
  (∀ s∈zeroOrders (c.handle i).2,
    c.sliceMap.In s .draining ∧ (c.step i).sliceMap.In s .draining) ∧
  ∀ s∈(c.step i).pendingZero, (c.step i).sliceMap.In s .draining

omit [FloatOps F] [FloatOps D] [DebugMsg F] in
/-- A finished `SwapOff` and a failed zeroing arrive while their slice, if it exists, drains. -/
def Expected (i : Input F) : Prop :=
  match i.event with
  | .msg _ (.swapOffDone s true _) => ∀ x, c.sliceMap.get s=some x → x.state=.draining
  | .zeroDone s false => ∀ x, c.sliceMap.get s=some x → x.state=.draining
  | _ => True

/-- Every slice that waits for a zeroing is draining. -/
def PendingDraining : Prop :=
  ∀ s∈c.pendingZero, c.sliceMap.In s .draining

omit [FloatOps F] [FloatOps D] [DebugMsg F] in
lemma expected_of_plain {i : Input F} (h : i.event.plain=true) : c.Expected i := by
  rcases i with ⟨e,now,sensors,order⟩
  rcases e with ⟨sid,m⟩ | _ | _ | _ | _
  · rcases m with _ | _ | ⟨_,_ | _,_⟩ | ⟨_,_ | _,_⟩ | _ | _ | _ | _ | _ | _ | _ | _ | _ | _ | _ | _
    all_goals trivial
  all_goals trivial

variable {c : BrokerCore F D}

section
variable (hc : c.PendingDraining)
include hc

lemma zeroesDraining_of_plain {i : Input F} (h : i.event.plain=true) : c.ZeroesDraining i := by
  have hq := c.handle_quiet i h
  obtain ⟨l,hm,-⟩ := hq.moves
  refine ⟨fun s hs => ?_,fun s hs => ?_⟩
  · rw [hq.zeroOrders_eq] at hs
    cases hs
  · rw [step,hq.pendingZero_eq] at hs
    exact hm.in_draining (hc s hs)

lemma zeroesDraining_of_tick (now : ℕ) (sensors : Sensors)
    (order : KeyOrder) : c.ZeroesDraining ⟨.tick,now,sensors,order⟩ := by
  have ht := c.onTick_effect now sensors order
  obtain ⟨l,hm,-⟩ := ht.moves
  refine ⟨fun s hs => ?_,fun s hs => ?_⟩
  · obtain ⟨n,hn,-⟩ := ht.orders s hs
    have hd := hc s (by rw [Std.TreeMap.mem_iff_isSome_getElem?,hn]; rfl)
    exact ⟨hd,hm.in_draining hd⟩
  · exact hm.in_draining (hc s ((ht.keys s).mp hs))

lemma zeroesDraining_of_swapOnFailed (sid : ℕ) (s : SliceId)
    (detail : String) (now : ℕ) (sensors : Sensors) (order : KeyOrder) :
    c.ZeroesDraining ⟨.msg sid (.swapOnDone s false detail),now,sensors,order⟩ := by
  refine ⟨fun k hk => absurd hk (by simp [handle,onMsg,onSwapOnFailed,zeroOrders]),
    fun k hk => ?_⟩
  have hd := hc k hk
  rcases c.onSwapOnFailed_get s detail k with hg | ⟨rfl,x,hx,ha,-⟩
  · exact hd.of_get_eq hg
  · cases hd.unique ⟨x,hx,ha⟩

lemma zeroesDraining_of_zeroOk (s : SliceId) (now : ℕ) (sensors : Sensors)
    (order : KeyOrder) : c.ZeroesDraining ⟨.zeroDone s true,now,sensors,order⟩ := by
  refine ⟨fun k hk => ?_,fun k hk => ?_⟩
  · have h : zeroOrders (c.onZeroOk s).2=[] := (c.onZeroOk_noOrders s).1
    change k∈zeroOrders (c.onZeroOk s).2 at hk
    rw [h] at hk
    cases hk
  · change k∈(c.onZeroOk s).1.pendingZero at hk
    rw [onZeroOk_pendingZero,Std.TreeMap.mem_erase] at hk
    have hne : k≠s := fun h => hk.1 (by rw [h]; exact Nat.compare_eq_eq.mpr rfl)
    exact (hc k hk.2).of_get_eq (c.onZeroOk_get_of_ne hne)

lemma zeroesDraining_zeroFailed_iff (s : SliceId) (now : ℕ) (sensors : Sensors) (order : KeyOrder) :
    c.ZeroesDraining ⟨.zeroDone s false,now,sensors,order⟩ ↔
      ∀ x, c.sliceMap.get s=some x → x.state=.draining := by
  have hz : ∀ k, k∈zeroOrders (c.handle ⟨.zeroDone s false,now,sensors,order⟩).2 ↔
      k=s ∧ (c.sliceMap.get s).isSome := by
    intro k
    rcases hg : c.sliceMap.get s with _ | x <;>
      simp [handle,onZeroDone,zeroOrders,hg]
  constructor
  · intro h x hx
    obtain ⟨hs,-⟩ := h.1 s ((hz s).mpr ⟨rfl,by rw [hx]; rfl⟩)
    exact SliceMap.In.unique ⟨x,hx,rfl⟩ hs
  · refine fun h => ⟨fun k hk => ?_,hc⟩
    obtain ⟨rfl,hk⟩ := (hz k).mp hk
    obtain ⟨x,hx⟩ := Option.isSome_iff_exists.mp hk
    exact ⟨⟨x,hx,h x hx⟩,x,hx,h x hx⟩

lemma zeroesDraining_swapOffOk_iff (sid : ℕ) (s : SliceId)
    (detail : String) (now : ℕ) (sensors : Sensors) (order : KeyOrder) :
    c.ZeroesDraining ⟨.msg sid (.swapOffDone s true detail),now,sensors,order⟩ ↔
      ∀ x, c.sliceMap.get s=some x → x.state=.draining := by
  have he : c.handle ⟨.msg sid (.swapOffDone s true detail),now,sensors,order⟩ =
      c.onSwapOffOk s := rfl
  rcases hg : c.sliceMap.get s with _ | x
  · have hn : c.onSwapOffOk s = (c,[]) := by simp only [onSwapOffOk,hg]
    refine ⟨fun _ x hx => ?_,fun _ => ⟨fun k hk => ?_,?_⟩⟩
    · cases hx
    · rw [he,hn] at hk
      cases hk
    · rw [step,he,hn]
      exact hc
  · have hs : c.onSwapOffOk s = ({c with pendingZero := c.pendingZero.insertIfNew s 0},
        [.zeroSlice s x.offset x.len]) := by simp only [onSwapOffOk,hg]
    constructor
    · intro h y hy
      obtain ⟨hd,-⟩ := h.1 s (by rw [he,hs]; exact List.mem_singleton_self s)
      exact SliceMap.In.unique ⟨y,hg.trans hy,rfl⟩ hd
    · intro h
      have hd : c.sliceMap.In s .draining := ⟨x,hg,h x rfl⟩
      refine ⟨fun k hk => ?_,?_⟩
      · rw [he,hs] at hk
        obtain rfl := List.mem_singleton.mp hk
        rw [step,he,hs]
        exact ⟨hd,hd⟩
      · rw [step,he,hs]
        intro k hk
        rcases Std.TreeMap.mem_insertIfNew.mp hk with hk | hk
        · rw [←Nat.compare_eq_eq.mp hk]
          exact hd
        · exact hc k hk

lemma zeroesDraining_iff (i : Input F) : c.ZeroesDraining i ↔ c.Expected i := by
  rcases i with ⟨e,now,sensors,order⟩
  rcases e.cases_plain with h | ⟨sid,s,detail,rfl⟩ | ⟨sid,s,detail,rfl⟩ | ⟨s,_ | _,rfl⟩ | rfl
  · exact iff_of_true (zeroesDraining_of_plain hc h) (c.expected_of_plain h)
  · exact iff_of_true (zeroesDraining_of_swapOnFailed hc _ _ _ _ _ _) trivial
  · exact zeroesDraining_swapOffOk_iff hc _ _ _ _ _ _
  · exact zeroesDraining_zeroFailed_iff hc _ _ _ _
  · exact iff_of_true (zeroesDraining_of_zeroOk hc _ _ _ _) trivial
  · exact iff_of_true (zeroesDraining_of_tick hc _ _ _) trivial

end

/-- A run orders zeroings of draining slices only, and keeps only draining slices waiting for
one, exactly if every finished `SwapOff` and every failed zeroing is expected when it arrives. -/
theorem zeroesDraining_run_iff (m : SliceMap) (cfg : BrokerCoreConfig F D) (is : List (Input F)) :
    AllSteps step ZeroesDraining (new m cfg) is ↔ AllSteps step Expected (new m cfg) is := by
  refine AllSteps.iff_of_invariant step (P := PendingDraining) (fun c i _ h => h.2)
    (fun c i hc => zeroesDraining_iff hc i) (fun s hs => ?_) is
  exact absurd hs Std.TreeMap.not_mem_emptyc

def oneSlice : SliceMap := (SliceMap.new 1 4096 4096).toOption.get (by decide)

def sampleConfig : BrokerCoreConfig ℚ ℚ where
  arbiterCfg := .default
  endpoints := ⟨some "/run/ramshared/nbd.sock",none⟩
  swapPrio := some 1500
  leaseTtl := 30*10^9
  tolFrac := 1/10
  reconStreak := 3

def sampleInput (event : CoreEvent ℚ) : Input ℚ := ⟨event,0,⟨[],0,0⟩,⟨id,fun _ => .refl _⟩⟩

/-- A broker whose only slice is mounted by the tenant of session 0. -/
def mountedCore : BrokerCore ℚ ℚ :=
  run step (new oneSlice sampleConfig) ([.msg 0 (.register protoVersion "a" .nbdUnix),.tick,
    .msg 0 (.swapOnDone 0 true "")].map sampleInput)

/-- A demoted tenant swaps off a slice that nobody drained: the slice is active, is ordered to
be wiped, stays active, and waits for the zeroing. -/
theorem demoted_active_zeroed :
    let c := run step mountedCore ([.demote "shutdown"].map sampleInput)
    let i := sampleInput (.msg 0 (.swapOffDone 0 true ""))
    c.sliceMap.get 0 = some ⟨0,0,4096,some 1,.active⟩ ∧ zeroOrders (c.handle i).2 = [0] ∧
      (c.step i).sliceMap.get 0 = some ⟨0,0,4096,some 1,.active⟩ ∧ 0 ∈ (c.step i).pendingZero ∧
      ¬c.ZeroesDraining i := by
  intro c i
  have hg : c.sliceMap.get 0 = some ⟨0,0,4096,some 1,.active⟩ := by decide +kernel
  have hz : zeroOrders (c.handle i).2 = [0] := by decide +kernel
  refine ⟨hg,hz,by decide +kernel,by decide +kernel,fun h => ?_⟩
  obtain ⟨⟨x,hx,hs⟩,-⟩ := h.1 0 (by rw [hz]; exact List.mem_singleton_self 0)
  rw [hg] at hx
  cases hx
  cases hs

end BrokerCore

/-! Reports on a slice are read without asking which session they come from. -/

inductive Report
  | swapOn
  | swapOff
  deriving DecidableEq, Repr

def Report.msg {F : Type} : Report → SliceId → Bool → String → Msg F
  | .swapOn, s, ok, detail => .swapOnDone s ok detail
  | .swapOff, s, ok, detail => .swapOffDone s ok detail

namespace BrokerCore
variable {F D : Type} (c : BrokerCore F D)

/-- The session is the live one of the tenant that owns the slice. -/
def OwnedBy (sid : ℕ) (s : SliceId) : Prop :=
  ∃ x t, c.sliceMap.get s=some x ∧ x.tenant=some t ∧
    c.tenants[t]?.bind TenantState.sid=some sid

/-- The slices, their destinations and the slices awaiting a zeroing are as before, and no
zeroing is ordered. -/
structure Untouched (c : BrokerCore F D) (x : BrokerCore F D × List (Outbound F D)) : Prop where
  sliceMap_eq : x.1.sliceMap=c.sliceMap
  pendingDest_eq : ∀ s : SliceId, x.1.pendingDest[s]? = c.pendingDest[s]?
  pendingZero_eq : ∀ s : SliceId, x.1.pendingZero[s]? = c.pendingZero[s]?
  zeroOrders_eq : zeroOrders x.2=[]

lemma Untouched.refl {out : List (Outbound F D)} (h : zeroOrders out=[]) :
    Untouched c (c,out) := ⟨rfl,fun _ => rfl,fun _ => rfl,h⟩

/-- The reports that change nothing: a good mount, a failed unmount, a finished unmount of no
slice, and a failed mount of a slice that is neither active nor on its way to a tenant. -/
def Harmless (s : SliceId) : Report → Bool → Prop
  | .swapOn, ok => ok=true ∨ ¬c.sliceMap.In s .active ∧ c.pendingDest[s]?=none
  | .swapOff, ok => ok=false ∨ c.sliceMap.get s=none

lemma onSwapOffOk_untouched_iff (s : SliceId) : c.Untouched (c.onSwapOffOk s) ↔ c.sliceMap.get s=none := by
  unfold onSwapOffOk
  rcases c.sliceMap.get s with _ | x
  · exact iff_of_true (.refl c rfl) rfl
  · exact iff_of_false (fun h => nomatch h.zeroOrders_eq) (fun h => nomatch h)

lemma onSwapOnFailed_untouched_iff (s : SliceId) (detail : String) : c.Untouched (c.onSwapOnFailed s detail) ↔
      ¬c.sliceMap.In s .active ∧ c.pendingDest[s]?=none := by
  have hd (k : SliceId) : (c.onSwapOnFailed s detail).1.pendingDest[k]? =
      if s=k then none else c.pendingDest[k]? := by
    simp only [onSwapOnFailed,Std.TreeMap.getElem?_erase,Nat.compare_eq_eq]
  constructor
  · refine fun h => ⟨?_,?_⟩
    · rintro ⟨x,hx,hs⟩
      have hg := c.onSwapOnFailed_get_of_active hx hs detail s
      rw [h.sliceMap_eq,hx,if_pos rfl] at hg
      rw [Option.some.inj hg] at hs
      cases hs
    · rw [←h.pendingDest_eq s,hd,if_pos rfl]
  · rintro ⟨ha,hn⟩
    refine ⟨c.onSwapOnFailed_sliceMap ha detail,fun k => ?_,fun _ => rfl,rfl⟩
    rw [hd]
    split_ifs with hk
    · rw [←hk,hn]
    · rfl

/-- A report leaves the core untouched exactly if it is harmless, whoever sends it. -/
theorem report_untouched_iff [FloatOps F] [FloatOps D] [DebugMsg F] (c : BrokerCore F D)
    (sid : ℕ) (r : Report) (s : SliceId) (ok : Bool) (detail : String) (now : ℕ)
    (sensors : Sensors) (order : KeyOrder) :
    c.Untouched (c.handle ⟨.msg sid (r.msg s ok detail),now,sensors,order⟩) ↔
      c.Harmless s r ok := by
  cases r <;> cases ok
  · refine (c.onSwapOnFailed_untouched_iff s detail).trans ?_
    simp [Harmless]
  · exact iff_of_true (.refl c rfl) (.inl rfl)
  · exact iff_of_true (.refl c rfl) (.inl rfl)
  · refine (c.onSwapOffOk_untouched_iff s).trans ?_
    simp [Harmless]

/-- A session that never registered reports on the slice that the tenant of session 0 has
mounted: its failed mount frees the slice, its finished `SwapOff` has it wiped. -/
theorem foreign_report_accepted :
    mountedCore.sliceMap.get 0 = some ⟨0,0,4096,some 1,.active⟩ ∧ mountedCore.OwnedBy 0 0 ∧
    ¬mountedCore.OwnedBy 9 0 ∧ mountedCore.sessions[9]? = none ∧
    (mountedCore.step (sampleInput (.msg 9 (Report.swapOn.msg 0 false "")))).sliceMap.get 0 =
      some ⟨0,0,4096,none,.free⟩ ∧
    zeroOrders (mountedCore.handle (sampleInput (.msg 9 (Report.swapOff.msg 0 true "")))).2 =
      [0] ∧
    0 ∈ (mountedCore.step (sampleInput (.msg 9 (Report.swapOff.msg 0 true "")))).pendingZero := by
  have hg : mountedCore.sliceMap.get 0 = some ⟨0,0,4096,some 1,.active⟩ := by decide +kernel
  have ht : mountedCore.tenants[1]?.bind TenantState.sid = some 0 := by decide +kernel
  refine ⟨hg,⟨_,1,hg,rfl,ht⟩,?_,by decide +kernel,by decide +kernel,by decide +kernel,
    by decide +kernel⟩
  rintro ⟨x,t,hx,h,hsid⟩
  rw [hg] at hx
  cases hx
  cases h
  rw [ht] at hsid
  cases hsid

end BrokerCore

end RamShared.Broker

import RamShared.Broker.System

/-! No slice is zeroed while it is active, as long as no tick repeats an order that is still
outstanding. A slice that an agent is to swap off, or that the worker is to zero, is draining,
and there is one such obligation for it at a time. -/
namespace RamShared.Broker
open Lib Block Nbd

section
variable {F D : Type}
variable (link : ℕ → Bool) (out : List (Outbound F D))

lemma passed_sublist : (passed link out).Sublist out := by
  have h := (List.filter_sublist (p := fun x => link x.2) (l := out.zipIdx)).map Prod.fst
  rwa [List.zipIdx_map_fst] at h

lemma swapOffOrders_passed_le (s : SliceId) :
    (swapOffOrders (passed link out)).count s≤(swapOffOrders out).count s :=
  ((passed_sublist link out).filterMap _).count_le s

lemma zeroOrders_passed_le (s : SliceId) : (zeroOrders (passed link out)).count s≤(zeroOrders out).count s :=
  ((passed_sublist link out).filterMap _).count_le s

lemma map_sentSwapOffs : (sentSwapOffs out).map Prod.snd = swapOffOrders out := by
  unfold sentSwapOffs swapOffOrders
  rw [List.map_filterMap]
  refine List.filterMap_congr fun o _ => ?_
  split <;> simp_all

lemma map_sentJobs : (sentJobs out).map ZeroExport.slice = zeroOrders out := by
  unfold sentJobs zeroOrders
  rw [List.map_filterMap]
  refine List.filterMap_congr fun o _ => ?_
  split <;> simp_all

end

lemma count_map_erase {α β : Type} [BEq α] [LawfulBEq α] [DecidableEq β] {l : List α} {a : α}
    (h : a∈l) (f : α → β) (b : β) : (l.map f).count b = ((l.erase a).map f).count b+if f a=b then 1 else 0 := by
  rw [((List.perm_cons_erase h).map f).count_eq,List.map_cons,List.count_cons]
  simp only [beq_iff_eq]

/-- Legal moves and the orders to swap off that go with them, seen from one slice: either it is
not concerned, or it begins to drain and is ordered off once. -/
lemma SliceMap.Moves.swapOff_cases {m m' : SliceMap} {l orders : List SliceId}
    (h : m.Moves l m') (ho : orders.Sublist l) (s : SliceId) :
    (orders.count s=0 ∧ (m'.In s .draining ↔ m.In s .draining)) ∨
      orders.count s≤1 ∧ ¬m.In s .draining ∧ m'.In s .draining := by
  obtain ⟨hn,hin,hout⟩ := h.drained
  by_cases hs : s∈l
  · exact .inr ⟨(ho.count_le s).trans (List.nodup_iff_count_le_one.mp hn s),hin s hs⟩
  · exact .inl ⟨List.count_eq_zero.mpr fun h => hs (ho.subset h),hout s hs⟩

namespace System
variable {F D B : Type}

/-- How many agents and orders are concerned with the slice. -/
def load (σ : System F D B) (s : SliceId) : ℕ := σ.held.count s+σ.ordered.count s

structure Safe (σ : System F D B) : Prop where
  load_le_one : ∀ s, σ.load s≤1
  draining : ∀ s, 0<σ.load s → σ.core.sliceMap.In s .draining
  pending : ∀ s∈σ.core.pendingZero, σ.core.sliceMap.In s .draining ∧ σ.held.count s=0

variable {s : SliceId} (σ : System F D B)

lemma Safe.load_eq_zero {σ : System F D B} (h : σ.Safe) (hs : ¬σ.core.sliceMap.In s .draining) :
    σ.load s=0 := by
  by_contra hne
  exact hs (h.draining s (by omega))

lemma consume_of_plain {e : CoreEvent F} (h : e.plain=true) : σ.consume e = σ := by
  rcases e with ⟨sid,m⟩ | _ | _ | _ | _
  · rcases m with _ | _ | ⟨_,_ | _,_⟩ | ⟨_,_ | _,_⟩ | _ | _ | _ | _ | _ | _ | _ | _ | _ | _ | _ | _
    case swapOffDone.true => cases h
    all_goals rfl
  case zeroDone => cases h
  all_goals rfl

lemma load_consume_swapOff {sid : ℕ} (detail : String) (h : (sid,s)∈σ.swapOffs) (k : SliceId) : σ.load k =
      (σ.consume (.msg sid (.swapOffDone s true detail))).load k+if s=k then 1 else 0 := by
  have := count_map_erase h Prod.snd k
  simp only [load,ordered,consume,held] at this ⊢
  omega

lemma load_consume_zeroDone {ok : Bool} (h : (s,ok)∈σ.replies) (k : SliceId) :
    σ.load k = (σ.consume (.zeroDone s ok)).load k+if s=k then 1 else 0 := by
  have := count_map_erase h Prod.fst k
  simp only [load,ordered,consume,held,List.count_append] at this ⊢
  omega

lemma held_consume_le (e : CoreEvent F) (s : SliceId) : (σ.consume e).held.count s≤σ.held.count s := by
  unfold consume
  split
  · exact ((List.erase_sublist).map _).count_le s
  · exact le_refl _
  · exact le_refl _

section
variable [FloatOps F] [FloatOps D] [DebugMsg F]

lemma held_onCore (σ : System F D B) (i : Input F) (link : ℕ → Bool) : (σ.onCore i link).held =
      (σ.consume i.event).held++swapOffOrders (passed link (σ.core.handle i).2) := by
  rw [←map_sentSwapOffs]
  exact List.map_append

lemma ordered_onCore_count (σ : System F D B) (i : Input F) (link : ℕ → Bool) (s : SliceId) :
    (σ.onCore i link).ordered.count s = (σ.consume i.event).ordered.count s +
      (zeroOrders (passed link (σ.core.handle i).2)).count s := by
  rw [←map_sentJobs]
  simp only [ordered,onCore,List.map_append,List.count_append]
  omega

variable {σ : System F D B} {i : Input F} {s : SliceId}

lemma safe_onCore (link : ℕ → Bool)
    (hload : ∀ s, (σ.consume i.event).load s+(swapOffOrders (σ.core.handle i).2).count s +
      (zeroOrders (σ.core.handle i).2).count s≤1)
    (hdrain : ∀ s, 0<(σ.consume i.event).load s+(swapOffOrders (σ.core.handle i).2).count s +
      (zeroOrders (σ.core.handle i).2).count s → (σ.core.step i).sliceMap.In s .draining)
    (hpend : ∀ s∈(σ.core.step i).pendingZero, (σ.core.step i).sliceMap.In s .draining ∧
      (σ.consume i.event).held.count s+(swapOffOrders (σ.core.handle i).2).count s=0) :
    (σ.onCore i link).Safe := by
  have hT (s : SliceId) := swapOffOrders_passed_le link (σ.core.handle i).2 s
  have hO (s : SliceId) := zeroOrders_passed_le link (σ.core.handle i).2 s
  have hle (s : SliceId) : (σ.onCore i link).load s≤(σ.consume i.event).load s +
      (swapOffOrders (σ.core.handle i).2).count s+(zeroOrders (σ.core.handle i).2).count s := by
    have := hT s
    have := hO s
    simp only [load,held_onCore,ordered_onCore_count,List.count_append]
    omega
  refine ⟨fun s => (hle s).trans (hload s),fun s hs => hdrain s (hs.trans_le (hle s)),
    fun s hs => ?_⟩
  obtain ⟨hd,hz⟩ := hpend s hs
  refine ⟨hd,?_⟩
  have := hT s
  rw [held_onCore,List.count_append]
  omega

variable (h : σ.Safe)
include h

lemma safe_of_plain (hi : i.event.plain=true) (link : ℕ → Bool) : (σ.onCore i link).Safe := by
  have hq := σ.core.handle_quiet i hi
  obtain ⟨l,hm,hl⟩ := hq.moves
  refine safe_onCore link (fun s => ?_) (fun s hs => ?_) (fun s hs => ?_)
  all_goals
    rw [consume_of_plain σ hi] at *
    rcases hm.swapOff_cases hl s with ⟨h₀,hd⟩ | ⟨h₁,hb,ha⟩
  · have := h.load_le_one s
    rw [hq.zeroOrders_eq,List.count_nil]
    omega
  · have := h.load_eq_zero hb
    rw [hq.zeroOrders_eq,List.count_nil]
    omega
  · rw [hq.zeroOrders_eq,List.count_nil] at hs
    exact hd.mpr (h.draining s (by omega))
  · exact ha
  · rw [BrokerCore.step,hq.pendingZero_eq] at hs
    obtain ⟨hd',hz⟩ := h.pending s hs
    exact ⟨hd.mpr hd',by omega⟩
  · rw [BrokerCore.step,hq.pendingZero_eq] at hs
    exact absurd (h.pending s hs).1 hb

lemma safe_of_tick (now : ℕ) (sensors : Sensors) (order : KeyOrder)
    (hu : ∀ s∈σ.ordered, ¬σ.core.Retries s) (link : ℕ → Bool) :
    (σ.onCore ⟨.tick,now,sensors,order⟩ link).Safe := by
  have ht := σ.core.onTick_effect now sensors order
  obtain ⟨l,hm,hl⟩ := ht.moves
  have hO (s : SliceId) := List.nodup_iff_count_le_one.mp ht.orders_nodup s
  -- A slice whose order is repeated is draining and has no obligation left.
  have hr (s : SliceId) : (zeroOrders (σ.core.onTick now sensors order).2).count s=0 ∨
      σ.core.sliceMap.In s .draining ∧ σ.load s=0 := by
    by_cases hs : s∈zeroOrders (σ.core.onTick now sensors order).2
    · have ho : σ.ordered.count s=0 :=
        List.count_eq_zero.mpr fun hmem => hu s hmem (ht.orders s hs)
      obtain ⟨n,hn,-⟩ := ht.orders s hs
      obtain ⟨hd,hz⟩ := h.pending s (by rw [Std.TreeMap.mem_iff_isSome_getElem?,hn]; rfl)
      exact .inr ⟨hd,by rw [load]; omega⟩
    · exact .inl (List.count_eq_zero.mpr hs)
  have hs (s : SliceId) : σ.load s+(swapOffOrders (σ.core.onTick now sensors order).2).count s +
        (zeroOrders (σ.core.onTick now sensors order).2).count s≤1 ∧
      (0<σ.load s+(swapOffOrders (σ.core.onTick now sensors order).2).count s +
        (zeroOrders (σ.core.onTick now sensors order).2).count s →
          (σ.core.onTick now sensors order).1.sliceMap.In s .draining) := by
    have h₁ := h.load_le_one s
    have h₂ := hO s
    rcases hm.swapOff_cases hl s with ⟨h₀,hd⟩ | ⟨h₃,hb,ha⟩
    · rcases hr s with hz | ⟨hd',hz⟩
      · exact ⟨by omega,fun hp => hd.mpr (h.draining s (by omega))⟩
      · exact ⟨by omega,fun _ => hd.mpr hd'⟩
    · have h₄ := h.load_eq_zero hb
      rcases hr s with hz | ⟨hd',-⟩
      · exact ⟨by omega,fun _ => ha⟩
      · exact absurd hd' hb
  refine safe_onCore link (fun s => (hs s).1) (fun s => (hs s).2) fun s hp => ?_
  obtain ⟨hd',hz⟩ := h.pending s ((ht.keys s).mp hp)
  rcases hm.swapOff_cases hl s with ⟨h₀,hd⟩ | ⟨-,hb,-⟩
  · exact ⟨hd.mpr hd',Nat.add_eq_zero_iff.mpr ⟨hz,h₀⟩⟩
  · exact absurd hd' hb

lemma safe_of_swapOnFailed (sid : ℕ) (s : SliceId) (detail : String) (now : ℕ)
    (sensors : Sensors) (order : KeyOrder) (link : ℕ → Bool) :
    (σ.onCore ⟨.msg sid (.swapOnDone s false detail),now,sensors,order⟩ link).Safe := by
  have hd (k : SliceId) (hk : σ.core.sliceMap.In k .draining) :
      (σ.core.onSwapOnFailed s detail).1.sliceMap.In k .draining := by
    rcases σ.core.step_draining ⟨.msg sid (.swapOnDone s false detail),now,sensors,order⟩ hk
      with h | h
    · exact h
    · cases h
  exact safe_onCore link (fun k => h.load_le_one k) (fun k hk => hd k (h.draining k hk))
    fun k hk => ⟨hd k (h.pending k hk).1,(h.pending k hk).2⟩

lemma safe_of_exchange (hc : ∀ k, σ.load k = (σ.consume i.event).load k+if s=k then 1 else 0)
    (hm : (σ.core.step i).sliceMap = σ.core.sliceMap)
    (hp : ∀ k∈(σ.core.step i).pendingZero, k=s ∨ k∈σ.core.pendingZero)
    (hT : swapOffOrders (σ.core.handle i).2=[])
    (hO : ∀ k, (zeroOrders (σ.core.handle i).2).count k ≤ if s=k then 1 else 0) (link : ℕ → Bool) :
    (σ.onCore i link).Safe := by
  have hs := hc s
  have hle := h.load_le_one s
  rw [if_pos rfl] at hs
  have hd : σ.core.sliceMap.In s .draining := h.draining s (by omega)
  refine safe_onCore link (fun k => ?_) (fun k hk => ?_) (fun k hk => ?_) <;>
    rw [hT,List.count_nil] at *
  · have := hc k
    have := hO k
    have := h.load_le_one k
    omega
  · rw [hm]
    by_cases hks : s=k
    · exact hks ▸ hd
    · have h₁ := hc k
      have h₂ := hO k
      rw [if_neg hks] at h₁ h₂
      exact h.draining k (by omega)
  · rw [hm]
    rcases hp k hk with rfl | hk
    · refine ⟨hd,?_⟩
      have : (σ.consume i.event).load k=0 := by omega
      unfold load at this
      omega
    · have := σ.held_consume_le i.event k
      obtain ⟨hd',hz⟩ := h.pending k hk
      exact ⟨hd',by omega⟩

lemma safe_of_swapOffOk {sid : ℕ} (hs : (sid,s)∈σ.swapOffs) (detail : String)
    (now : ℕ) (sensors : Sensors) (order : KeyOrder) (link : ℕ → Bool) :
    (σ.onCore ⟨.msg sid (.swapOffDone s true detail),now,sensors,order⟩ link).Safe := by
  obtain ⟨hp,hT,hO⟩ := σ.core.onSwapOffOk_effect s
  refine safe_of_exchange h (s := s) ?_ ?_ ?_ ?_ ?_ link
  · exact σ.load_consume_swapOff detail hs
  · exact σ.core.onSwapOffOk_sliceMap s
  · exact hp
  · exact hT
  · exact hO

lemma safe_of_zeroFailed (hs : (s,false)∈σ.replies) (now : ℕ) (sensors : Sensors)
    (order : KeyOrder) (link : ℕ → Bool) : (σ.onCore ⟨.zeroDone s false,now,sensors,order⟩ link).Safe := by
  obtain ⟨hT,hO⟩ := σ.core.onZeroDone_false_effect s
  refine safe_of_exchange h (s := s) ?_ ?_ ?_ ?_ ?_ link
  · exact σ.load_consume_zeroDone hs
  · rfl
  · exact fun k hk => .inr hk
  · exact hT
  · exact hO

lemma safe_of_zeroOk (hs : (s,true)∈σ.replies) (now : ℕ) (sensors : Sensors)
    (order : KeyOrder) (link : ℕ → Bool) : (σ.onCore ⟨.zeroDone s true,now,sensors,order⟩ link).Safe := by
  have hc := σ.load_consume_zeroDone hs
  obtain ⟨hO,hT⟩ := σ.core.onZeroOk_noOrders s
  have hsame {k : SliceId} (hk : k≠s) (hd : σ.core.sliceMap.In k .draining) :
      (σ.core.onZeroOk s).1.sliceMap.In k .draining :=
    hd.of_get_eq (σ.core.onZeroOk_get_of_ne hk)
  have hload (k : SliceId) : (σ.consume (.zeroDone s true)).load k +
      (swapOffOrders (σ.core.onZeroOk s).2).count k+(zeroOrders (σ.core.onZeroOk s).2).count k =
        (σ.consume (.zeroDone s true)).load k := by
    rw [hO,hT,List.count_nil,Nat.add_zero]
  refine safe_onCore link (fun k => ?_) (fun k hk => ?_) (fun k hk => ?_)
  · refine (hload k).trans_le ?_
    have := hc k
    have := h.load_le_one k
    omega
  · have hk := hk.trans_eq (hload k)
    have h₁ := hc k
    have h₂ := h.load_le_one k
    by_cases hks : s=k
    · rw [if_pos hks] at h₁
      omega
    · exact hsame (Ne.symm hks) (h.draining k (by omega))
  · change k∈(σ.core.onZeroOk s).1.pendingZero at hk
    rw [BrokerCore.onZeroOk_pendingZero,Std.TreeMap.mem_erase] at hk
    obtain ⟨hd,hz⟩ := h.pending k hk.2
    have hne : k≠s := fun h => hk.1 (by rw [h]; exact Nat.compare_eq_eq.mpr rfl)
    refine ⟨hsame hne hd,?_⟩
    change _+(swapOffOrders (σ.core.onZeroOk s).2).count k=0
    rw [hT,List.count_nil]
    exact hz

lemma safe_core {link : ℕ → Bool} (he : σ.Enabled (.core i link))
    (hu : σ.Unhurried (.core i link)) : (σ.onCore i link).Safe := by
  rcases i with ⟨e,now,sensors,order⟩
  rcases e.cases_plain with hp | ⟨sid,s,detail,rfl⟩ | ⟨sid,s,detail,rfl⟩ | ⟨s,_ | _,rfl⟩ | rfl
  · exact safe_of_plain h hp link
  · exact safe_of_swapOnFailed h sid s detail now sensors order link
  · exact safe_of_swapOffOk h he detail now sensors order link
  · exact safe_of_zeroFailed h he now sensors order link
  · exact safe_of_zeroOk h he now sensors order link
  · exact safe_of_tick h now sensors order hu link

end

lemma Safe.of_perm {σ σ' : System F D B} (h : σ.Safe) (hc : σ'.core = σ.core)
    (hs : σ'.swapOffs = σ.swapOffs) (ho : σ'.ordered.Perm σ.ordered) : σ'.Safe := by
  have hheld : σ'.held = σ.held := congrArg (List.map Prod.snd) hs
  have hload (s : SliceId) : σ'.load s = σ.load s := by
    rw [load,load,hheld,ho.count_eq]
  refine ⟨fun s => ?_,fun s hl => ?_,fun s hp => ?_⟩
  · rw [hload]
    exact h.load_le_one s
  · rw [hload] at hl
    rw [hc]
    exact h.draining s hl
  · rw [hc] at hp ⊢
    rw [hheld]
    exact h.pending s hp

lemma safe_start {σ : System F D B} (h : σ.Safe) (he : σ.running=none) : σ.onStart.Safe := by
  rcases hj : σ.jobs with _ | ⟨job,jobs⟩
  · rwa [onStart,hj]
  · rw [onStart,hj]
    refine h.of_perm rfl rfl ?_
    simp only [ordered,hj,he,Option.toList_some,Option.toList_none,List.map_cons,List.map_nil,
      List.append_nil,List.cons_append]
    rw [List.append_assoc]
    exact List.perm_middle

section
variable [BlockBackend B]

lemma safe_work {σ : System F D B} (h : σ.Safe) : σ.onWork.Safe := by
  rcases hr : σ.running with _ | r
  · rwa [onWork,hr]
  have hdone (ok : Bool) (b : B) : System.Safe { σ with
      backend := b, running := none, replies := σ.replies++[(r.slice,ok)]} := by
    refine h.of_perm rfl rfl ?_
    simp only [ordered,hr,Option.toList_some,Option.toList_none,List.map_cons,List.map_nil,
      List.append_nil,List.map_append,List.append_assoc]
    exact (List.perm_append_comm).append_left _
  rw [onWork,hr]
  dsimp only
  split_ifs
  · split
    · exact hdone false _
    · refine h.of_perm rfl rfl ?_
      simp only [ordered,hr,Option.toList_some,List.map_cons,List.map_nil]
      exact .refl _
  · exact hdone true _

variable [FloatOps F] [FloatOps D] [DebugMsg F]

lemma safe_step {σ : System F D B} {a : SystemStep F} (h : σ.Safe)
    (ha : σ.Enabled a ∧ σ.Unhurried a) : (σ.step a).Safe := by
  cases a with
  | core i link => exact safe_core h ha.1 ha.2
  | start => exact safe_start h ha.1.1
  | work => exact safe_work h

omit [BlockBackend B] [FloatOps F] [FloatOps D] [DebugMsg F] in
lemma safe_new (m : SliceMap) (cfg : BrokerCoreConfig F D) (backend : B) : (new m cfg backend).Safe :=
  ⟨fun _ => Nat.zero_le _,fun _ h => absurd h (by simp [new,load,held,ordered]),
    fun _ h => absurd h Std.TreeMap.not_mem_emptyc⟩

/-- In a run of the system whose ticks repeat no outstanding order, the slice that the worker is
zeroing is active for nobody. -/
theorem no_zeroing_while_active (m : SliceMap) (cfg : BrokerCoreConfig F D) (backend : B)
    (as : List (SystemStep F))
    (h : AllSteps step (fun σ a => σ.Enabled a ∧ σ.Unhurried a) (new m cfg backend) as)
    {r : ZeroRun} (hr : (run step (new m cfg backend) as).running = some r) (t : TenantId) :
    ¬(run step (new m cfg backend) as).core.sliceMap.ActiveFor r.slice t := by
  have hs : (run step (new m cfg backend) as).Safe :=
    h.invariant step (fun _ _ hs ha => safe_step hs ha) (safe_new m cfg backend)
  intro ha
  refine ha.not_draining (hs.draining r.slice ?_)
  have : r.slice ∈ (run step (new m cfg backend) as).ordered := by
    simp [ordered,hr]
  have := List.count_pos_iff.mpr this
  rw [load]
  omega

end

def sampleStep (event : CoreEvent ℚ) : SystemStep ℚ :=
  .core (BrokerCore.sampleInput event) fun _ => true

/-- The only slice is mounted, revoked for a lease, and swapped off. -/
def revocation : List (SystemStep ℚ) :=
  [sampleStep (.msg 0 (.register protoVersion "a" .nbdUnix)),sampleStep .tick,
    sampleStep (.msg 1 (.register protoVersion "b" .dccAgent)),
    sampleStep (.msg 1 (.leaseRequest 4096)),sampleStep .tick,
    sampleStep (.msg 0 (.swapOffDone 0 true ""))]

def sampleSystem : System ℚ ℚ RamBackend :=
  new BrokerCore.oneSlice BrokerCore.sampleConfig (.new 4096)

theorem no_zeroing_while_active_revocation :
    (run step sampleSystem (revocation++[.start])).running = some ⟨⟨0,0,4096⟩,0⟩ ∧
    ∀ t, ¬(run step sampleSystem (revocation++[.start])).core.sliceMap.ActiveFor 0 t := by
  have hr : (run step sampleSystem (revocation++[.start])).running = some ⟨⟨0,0,4096⟩,0⟩ := by
    decide +kernel
  have h : AllSteps step (fun σ a => σ.Enabled a ∧ σ.Unhurried a) sampleSystem
      (revocation++[.start]) := by
    decide +kernel
  exact ⟨hr,no_zeroing_while_active _ _ _ _ h hr⟩

/-- The same slice again: the order waits for two ticks, is repeated, and is carried out; the slice
goes back to its tenant, and then the worker finds the second order. -/
def repeatedOrder : List (SystemStep ℚ) :=
  revocation++[sampleStep (.disconnected 1),sampleStep .tick,sampleStep .tick,.start,.work,.work,
    sampleStep (.zeroDone 0 true),sampleStep .tick,.start]

theorem repeatedOrder_zeroes_active :
    AllSteps step Enabled sampleSystem repeatedOrder ∧
    (run step sampleSystem repeatedOrder).running = some ⟨⟨0,0,4096⟩,0⟩ ∧
    (run step sampleSystem repeatedOrder).core.sliceMap.ActiveFor 0 1 :=
  ⟨by decide +kernel,by decide +kernel,⟨0,0,4096,some 1,.active⟩,by decide +kernel,rfl,rfl⟩

end System
end RamShared.Broker

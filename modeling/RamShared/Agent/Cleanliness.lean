import RamShared.Agent.Connections
import RamShared.Lib.Threads

/-! Failed mounts are clean, as long as none fails once its device is connected and no tick repeats
an order that is still outstanding. Of each slice there is one thing at a time on its way through the
fleet (an order to mount, what an agent holds of it, a result, an order to zero), and nothing of a
slice without a tenant. -/
namespace RamShared.Agent
open Broker Lib

namespace Fleet
variable {F D : Type} (φ : Fleet F D)

def asked : List (SliceId × String) := φ.down.filterMap fun x => mountOf x.2

/-- How much of the slice is with the agents, or on its way to or from them. -/
def load (s : SliceId) : ℕ :=
  (φ.asked.map Prod.fst).count s+(φ.hosts.map fun h => h.weight s).sum +
    φ.up.countP fun x => x.2.frees s

def ordered : List SliceId := φ.orders++φ.replies.map Prod.fst

structure Clean (φ : Fleet F D) : Prop where
  hosts : ∀ h∈φ.hosts, h.Sound
  named : ∀ e∈φ.asked, e.2 = exportOf e.1
  load_le_one : ∀ s, φ.load s+φ.ordered.count s≤1
  idle : ∀ s, φ.core.sliceMap.Idle s → φ.load s+φ.ordered.count s=0
  pending : ∀ s∈φ.core.pendingZero, ¬φ.core.sliceMap.Idle s ∧ φ.load s=0

lemma weight_le_load {h : Host} (hh : h∈φ.hosts) (s : SliceId) : h.weight s≤φ.load s := by
  have := List.single_le_sum (fun _ _ => Nat.zero_le _) _ (List.mem_map_of_mem (f := (·.weight s)) hh)
  rw [load]
  omega

lemma Clean.of_le {φ φ' : Fleet F D} (h : φ.Clean) (hc : φ'.core = φ.core)
    (hhosts : ∀ h∈φ'.hosts, h.Sound) (hn : ∀ e∈φ'.asked, e∈φ.asked)
    (hl : ∀ s, φ'.load s≤φ.load s) (ho : ∀ s, φ'.ordered.count s≤φ.ordered.count s) : φ'.Clean := by
  refine ⟨hhosts,fun e he => h.named e (hn e he),fun s => ?_,fun s hs => ?_,fun s hs => ?_⟩
  · have h₁ := h.load_le_one s
    have h₂ := hl s
    have h₃ := ho s
    omega
  · rw [hc] at hs
    have h₁ := h.idle s hs
    have h₂ := hl s
    have h₃ := ho s
    omega
  · rw [hc] at hs ⊢
    obtain ⟨h₁,h₂⟩ := h.pending s hs
    exact ⟨h₁,Nat.le_zero.mp (h₂ ▸ hl s)⟩

lemma clean_new (m : SliceMap) (cfg : BrokerCoreConfig F D) (cfgs : List AgentConfig) :
    (new m cfg cfgs).Clean := by
  have hl (s : SliceId) : (new m cfg cfgs).load s=0 := by
    simp [load,asked,new,Host.weight_new,Function.comp_def]
  refine ⟨fun h hh => ?_,nofun,fun s => ?_,fun s _ => ?_,
    fun s hs => absurd hs Std.TreeMap.not_mem_emptyc⟩
  · obtain ⟨cfg,-,rfl⟩ := List.mem_map.mp hh
    exact Host.sound_new cfg 0
  · rw [hl]
    exact Nat.zero_le _
  · rw [hl]
    rfl

section Agents

variable {φ : Fleet F D}

lemma onAgent_spec (h : ∀ h∈φ.hosts, h.Sound) {n : ℕ} {x : AgentStep F} {host : Host}
    (hn : φ.hosts[n]?=some host) (hw : ∀ s, host.weight s≤1) (hx : host.Admissible x) :
    (∀ h∈(φ.onAgent n x).hosts, h.Sound) ∧
      ∀ s, (φ.onAgent n x).load s≤φ.load s+((Host.told x).map Prod.fst).count s := by
  obtain ⟨h₁,h₂⟩ := Host.step_spec (h host (List.mem_of_getElem? hn)) hw x hx
  simp only [onAgent,hn]
  refine ⟨fun k hk => ?_,fun s => ?_⟩
  · obtain hk | rfl := List.mem_or_eq_of_mem_set hk
    · exact h k hk
    · exact h₁
  · have hs := h₂ s
    have hsum := sum_map_set (fun h => h.weight s) hn {host with agent := host.agent.step host.cfg x}
    have hup : (((host.agent.reported x).filterMap resultOf).map fun r => (host.sid,r)).countP
        (fun y => y.2.frees s) = ((host.agent.reported x).filterMap resultOf).countP
          (ExecResult.frees s) :=
      List.countP_map
    simp only [load,asked,List.countP_append,hup] at hsum ⊢
    omega

lemma Clean.onAgent (h : φ.Clean) (n : ℕ) (x : AgentStep F)
    (hx : ∀ host∈φ.hosts[n]?, host.Admissible x) (ht : Host.told x=[]) : (φ.onAgent n x).Clean := by
  cases hn : φ.hosts[n]? with
  | none => simpa [Fleet.onAgent,hn] using h
  | some host =>
    have hw (s : SliceId) : host.weight s≤1 := by
      have h₁ := φ.weight_le_load (List.mem_of_getElem? hn) s
      have h₂ := h.load_le_one s
      omega
    obtain ⟨h₁,h₂⟩ := onAgent_spec h.hosts hn hw (hx host hn)
    refine h.of_le ?_ h₁ ?_ (fun s => (h₂ s).trans (by simp [ht])) ?_
    all_goals simp only [Fleet.onAgent,hn]
    · exact fun e he => he
    · exact fun s => le_rfl

lemma Clean.onConnect (h : φ.Clean) (n sid : ℕ) : (φ.onConnect n sid).Clean := by
  cases hn : φ.hosts[n]? with
  | none => simpa [Fleet.onConnect,hn] using h
  | some host =>
    have hw (s : SliceId) : host.weight s≤1 := by
      have h₁ := φ.weight_le_load (List.mem_of_getElem? hn) s
      have h₂ := h.load_le_one s
      omega
    obtain ⟨h₁,h₂⟩ := Host.step_spec (h.hosts host (List.mem_of_getElem? hn)) hw
      (.connect : AgentStep F) nofun
    simp only [Fleet.onConnect,hn]
    refine h.of_le rfl (fun k hk => ?_) (fun e he => he) (fun s => ?_) fun s => le_rfl
    · obtain hk | rfl := List.mem_or_eq_of_mem_set hk
      · exact h.hosts k hk
      · exact ⟨h₁.commands,h₁.active,h₁.connected,h₁.swapped,h₁.executor,h₁.cleanup,h₁.waiting⟩
    · have hs : Host.weight { host with
          sid := sid, agent := host.agent.step host.cfg (.connect : AgentStep F)} s≤host.weight s :=
        h₂ s
      have hsum := sum_map_set (fun h => h.weight s) hn
        {host with sid := sid, agent := host.agent.step host.cfg (.connect : AgentStep F)}
      simp only [load,asked] at hsum ⊢
      omega

lemma Clean.onReceive (h : φ.Clean) (n : ℕ) : (φ.onReceive n).Clean := by
  cases hn : φ.hosts[n]? with
  | none => simpa [Fleet.onReceive,hn] using h
  | some host =>
    cases hd : φ.down.find? fun x => x.1 = host.sid with
    | none => simpa [Fleet.onReceive,hn,hd] using h
    | some x =>
      obtain ⟨sid,m⟩ := x
      simp only [Fleet.onReceive,hn,hd]
      obtain ⟨hsid,l₁,l₂,hl,hl₁⟩ := List.find?_eq_some_iff_append.mp hd
      have he : φ.down.eraseP (fun x => decide (x.1=host.sid)) = l₁++l₂ := by
        rw [hl,List.eraseP_append_right _ (by simpa using hl₁)]
        simp [hsid]
      have hperm : φ.down.Perm ((sid,m)::(l₁++l₂)) := hl ▸ List.perm_middle
      have hasked : φ.asked.Perm ((mountOf m).toList++(l₁++l₂).filterMap fun x => mountOf x.2) := by
        have := hperm.filterMap fun x => mountOf x.2
        rw [List.filterMap_cons] at this
        cases hm : mountOf m <;> simpa [asked,hm] using this
      rw [he]
      have hw (s : SliceId) : host.weight s≤1 := by
        have h₁ := φ.weight_le_load (List.mem_of_getElem? hn) s
        have h₂ := h.load_le_one s
        omega
      have hx : host.Admissible (.message m) := fun e he => h.named e
        (hasked.mem_iff.mpr (List.mem_append_left _ he))
      obtain ⟨h₁,h₂⟩ := onAgent_spec (φ := {φ with down := l₁++l₂}) h.hosts hn hw hx
      refine h.of_le ?_ h₁ ?_ (fun s => (h₂ s).trans ?_) ?_
      · simp only [Fleet.onAgent,hn]
      · simp only [Fleet.onAgent,hn]
        exact fun e he => hasked.mem_iff.mpr (List.mem_append_right _ he)
      · have hc := (hasked.map Prod.fst).count_eq s
        rw [List.map_append,List.count_append] at hc
        simp only [load,asked,Host.told] at hc ⊢
        omega
      · simp only [Fleet.onAgent,hn]
        exact fun s => le_rfl

end Agents
section Core

lemma sentMessages_mounts (out : List (Outbound F D)) :
    (sentMessages out).filterMap (fun x => mountOf x.2) = mounts out := by
  unfold sentMessages mounts
  rw [List.filterMap_filterMap]
  refine List.filterMap_congr fun o _ => ?_
  cases o with
  | toSession sid m => cases m <;> rfl
  | _ => rfl

lemma consume_ordered_le (e : CoreEvent F) (s : SliceId) : (φ.consume e).ordered.count s≤φ.ordered.count s := by
  cases e with
  | msg sid m => cases hm : resultOf m <;> simp [consume,hm,ordered]
  | zeroDone k ok =>
    simp only [consume,ordered,List.count_append]
    exact Nat.add_le_add_left (((List.erase_sublist).map _).count_le s) _
  | _ => exact le_rfl

lemma consume_load_le (e : CoreEvent F) (s : SliceId) : (φ.consume e).load s≤φ.load s := by
  cases e with
  | msg sid m =>
    cases hm : resultOf m with
    | none => simp [consume,hm]
    | some r =>
      simp only [consume,hm,load,asked,Option.elim]
      exact Nat.add_le_add_left ((List.erase_sublist).countP_le) _
  | _ => exact le_rfl

lemma load_consume_result {sid : ℕ} {m : Msg F} {r : ExecResult}
    (hm : resultOf m=some r) (hr : (sid,r)∈φ.up) (hok : r.isOn≠r.ok) (s : SliceId) :
    φ.load s = (φ.consume (.msg sid m)).load s+if r.slice=s then 1 else 0 := by
  have hc := (List.perm_cons_erase hr).countP_eq fun x => x.2.frees s
  rw [List.countP_cons] at hc
  have hf : (if r.frees s=true then 1 else 0) = if r.slice=s then 1 else 0 := by
    simp [ExecResult.frees,hok]
  simp only [consume,hm,load,asked,Option.elim,hf] at hc ⊢
  omega

variable {s : SliceId} {φ : Fleet F D} {i : Input F}

lemma ordered_consume_zeroDone (φ : Fleet F D) {ok : Bool} (h : (s,ok)∈φ.replies) (k : SliceId) :
    φ.ordered.count k = (φ.consume (.zeroDone s ok)).ordered.count k+if s=k then 1 else 0 := by
  have := count_map_erase h Prod.fst k
  simp only [consume,ordered,List.count_append] at this ⊢
  omega

variable [FloatOps F] [FloatOps D] [DebugMsg F]

section
variable (h : φ.Clean)
include h

lemma Clean.onCore (link : ℕ → Bool) (hn : ∀ e∈mounts (φ.core.handle i).2, e.2 = exportOf e.1)
    (hone : ∀ s, (φ.consume i.event).load s+((mounts (φ.core.handle i).2).map Prod.fst).count s +
      ((φ.consume i.event).ordered.count s+(zeroOrders (φ.core.handle i).2).count s)≤1)
    (hidle : ∀ s, (φ.core.step i).sliceMap.Idle s →
      (φ.consume i.event).load s+((mounts (φ.core.handle i).2).map Prod.fst).count s +
        ((φ.consume i.event).ordered.count s+(zeroOrders (φ.core.handle i).2).count s)=0)
    (hpend : ∀ s∈(φ.core.step i).pendingZero, ¬(φ.core.step i).sliceMap.Idle s ∧
      (φ.consume i.event).load s+((mounts (φ.core.handle i).2).map Prod.fst).count s=0) :
    (φ.onCore i link).Clean := by
  have hdown : (φ.consume i.event).down = φ.down ∧ (φ.consume i.event).hosts = φ.hosts := by
    cases i.event with
    | msg sid m => cases hm : resultOf m <;> simp [consume,hm]
    | _ => exact ⟨rfl,rfl⟩
  have hsub := passed_sublist link (φ.core.handle i).2
  have hasked : (φ.onCore i link).asked = φ.asked++mounts (passed link (φ.core.handle i).2) := by
    simp only [asked,Fleet.onCore,List.filterMap_append,sentMessages_mounts,hdown.1]
  have hload (s : SliceId) : (φ.onCore i link).load s ≤
      (φ.consume i.event).load s+((mounts (φ.core.handle i).2).map Prod.fst).count s := by
    have hle := ((hsub.filterMap Outbound.mount).map Prod.fst).count_le s
    have he : (φ.onCore i link).load s = (φ.consume i.event).load s +
        ((mounts (passed link (φ.core.handle i).2)).map Prod.fst).count s := by
      rw [load,hasked,List.map_append,List.count_append,load,asked,asked,hdown.1]
      simp only [Fleet.onCore]
      omega
    rw [he]
    exact Nat.add_le_add_left hle _
  have hord (s : SliceId) : (φ.onCore i link).ordered.count s ≤
      (φ.consume i.event).ordered.count s+(zeroOrders (φ.core.handle i).2).count s := by
    have := zeroOrders_passed_le link (φ.core.handle i).2 s
    simp only [ordered,Fleet.onCore,List.count_append]
    omega
  refine ⟨?_,fun e he => ?_,fun s => ?_,fun s hs => ?_,fun s hs => ?_⟩
  · simpa only [Fleet.onCore,hdown.2] using h.hosts
  · rw [hasked,List.mem_append] at he
    exact he.elim (h.named e) fun he => hn e ((hsub.filterMap Outbound.mount).subset he)
  · exact (Nat.add_le_add (hload s) (hord s)).trans (hone s)
  · exact Nat.le_zero.mp ((Nat.add_le_add (hload s) (hord s)).trans (hidle s hs).le)
  · obtain ⟨h₁,h₂⟩ := hpend s hs
    exact ⟨h₁,Nat.le_zero.mp ((hload s).trans h₂.le)⟩

lemma Clean.of_plain (hi : i.event.plain=true) (link : ℕ → Bool) : (φ.onCore i link).Clean := by
  have hh := φ.core.handle_hands i hi
  have hq := φ.core.handle_quiet i hi
  have hl := φ.consume_load_le i.event
  have ho := φ.consume_ordered_le i.event
  refine h.onCore link hh.named (fun s => ?_) (fun s hs => ?_) fun s hs => ?_
  · have h₁ := h.load_le_one s
    have h₂ := hl s
    have h₃ := ho s
    rw [hq.zeroOrders_eq,List.count_nil]
    obtain ⟨h₀,-⟩ | ⟨h₀,hb,-⟩ := hh.slice s
    · omega
    · have := h.idle s hb
      omega
  · have h₂ := hl s
    have h₃ := ho s
    rw [hq.zeroOrders_eq,List.count_nil]
    obtain ⟨h₀,hb⟩ | ⟨-,-,ha⟩ := hh.slice s
    · have := h.idle s (hb hs)
      omega
    · exact absurd hs ha
  · rw [BrokerCore.step,hq.pendingZero_eq] at hs
    obtain ⟨hb,hz⟩ := h.pending s hs
    have h₂ := hl s
    obtain ⟨h₀,hi⟩ | ⟨-,hi,-⟩ := hh.slice s
    · exact ⟨fun ha => hb (hi ha),by omega⟩
    · exact absurd hi hb

lemma Clean.of_tick (now : ℕ) (sensors : Sensors) (order : KeyOrder)
    (hu : ∀ s∈φ.ordered, ¬φ.core.Retries s) (link : ℕ → Bool) :
    (φ.onCore ⟨.tick,now,sensors,order⟩ link).Clean := by
  have hh := φ.core.onTick_hands now sensors order
  have ht := φ.core.onTick_effect now sensors order
  -- A slice whose order is repeated has a tenant, and there is nothing of it on its way.
  have hr (s : SliceId) : (zeroOrders (φ.core.onTick now sensors order).2).count s=0 ∨
      (zeroOrders (φ.core.onTick now sensors order).2).count s=1 ∧
        ¬φ.core.sliceMap.Idle s ∧ φ.load s+φ.ordered.count s=0 := by
    by_cases hs : s∈zeroOrders (φ.core.onTick now sensors order).2
    · have ho : φ.ordered.count s=0 :=
        List.count_eq_zero.mpr fun hmem => hu s hmem (ht.orders s hs)
      obtain ⟨n,hn,-⟩ := ht.orders s hs
      obtain ⟨hd,hz⟩ := h.pending s (by rw [Std.TreeMap.mem_iff_isSome_getElem?,hn]; rfl)
      exact .inr ⟨List.count_eq_one_of_mem ht.orders_nodup hs,hd,by omega⟩
    · exact .inl (List.count_eq_zero.mpr hs)
  refine h.onCore link hh.named (fun s => ?_) (fun s hs => ?_) fun s hs => ?_
  · change φ.load s+((mounts (φ.core.onTick now sensors order).2).map Prod.fst).count s +
      (φ.ordered.count s+(zeroOrders (φ.core.onTick now sensors order).2).count s)≤1
    have h₁ := h.load_le_one s
    obtain ⟨h₀,-⟩ | ⟨h₀,hb,-⟩ := hh.slice s <;> obtain hz | ⟨hz,hn,hz'⟩ := hr s
    · omega
    · omega
    · have := h.idle s hb
      omega
    · exact absurd hb hn
  · change φ.load s+((mounts (φ.core.onTick now sensors order).2).map Prod.fst).count s +
      (φ.ordered.count s+(zeroOrders (φ.core.onTick now sensors order).2).count s)=0
    obtain ⟨h₀,hb⟩ | ⟨-,-,ha⟩ := hh.slice s
    · have := h.idle s (hb hs)
      obtain hz | ⟨-,hn,-⟩ := hr s
      · omega
      · exact absurd (hb hs) hn
    · exact absurd hs ha
  · obtain ⟨hb,hz⟩ := h.pending s ((ht.keys s).mp hs)
    obtain ⟨h₀,hi⟩ | ⟨-,hi,-⟩ := hh.slice s
    · exact ⟨fun ha => hb (hi ha),Nat.add_eq_zero_iff.mpr ⟨hz,h₀⟩⟩
    · exact absurd hi hb

lemma Clean.of_exchange (hc : ∀ k, φ.load k+φ.ordered.count k =
      (φ.consume i.event).load k+(φ.consume i.event).ordered.count k+if s=k then 1 else 0)
    (hm : (φ.core.step i).sliceMap = φ.core.sliceMap)
    (hp : ∀ k∈(φ.core.step i).pendingZero, k=s ∨ k∈φ.core.pendingZero) (hM : mounts (φ.core.handle i).2=[])
    (hO : ∀ k, (zeroOrders (φ.core.handle i).2).count k ≤ if s=k then 1 else 0) (link : ℕ → Bool) :
    (φ.onCore i link).Clean := by
  have hs := hc s
  have hle := h.load_le_one s
  rw [if_pos rfl] at hs
  have hb : ¬φ.core.sliceMap.Idle s := fun hi => by
    have := h.idle s hi
    omega
  refine h.onCore link (by rw [hM]; exact nofun) (fun k => ?_) (fun k hk => ?_) fun k hk => ?_ <;>
    rw [hM,List.map_nil,List.count_nil]
  · have h₁ := hc k
    have h₂ := hO k
    have h₃ := h.load_le_one k
    omega
  · rw [hm] at hk
    have hks : s≠k := fun he => hb (he ▸ hk)
    have h₁ := hc k
    have h₂ := hO k
    have h₃ := h.idle k hk
    rw [if_neg hks] at h₁ h₂
    omega
  · rw [hm]
    obtain rfl | hk := hp k hk
    · exact ⟨hb,by omega⟩
    · have h₁ := φ.consume_load_le i.event k
      obtain ⟨h₂,h₃⟩ := h.pending k hk
      exact ⟨h₂,by omega⟩

lemma Clean.of_swapOffOk {sid : ℕ} {detail : String}
    (hs : (sid,⟨false,s,true,detail⟩)∈φ.up) (now : ℕ) (sensors : Sensors) (order : KeyOrder) (link : ℕ → Bool) :
    (φ.onCore ⟨.msg sid (.swapOffDone s true detail),now,sensors,order⟩ link).Clean := by
  obtain ⟨hp,-,hO⟩ := φ.core.onSwapOffOk_effect s
  refine h.of_exchange (s := s) (fun k => ?_) ?_ ?_ ?_ ?_ link
  · have hl := φ.load_consume_result (m := .swapOffDone s true detail) rfl hs (by simp) k
    have ho : (φ.consume (.msg sid (.swapOffDone s true detail))).ordered = φ.ordered := rfl
    dsimp only at hl ⊢
    rw [hl,ho]
    omega
  · exact φ.core.onSwapOffOk_sliceMap s
  · exact hp
  · refine (φ.core.handle_plain _ ?_ ?_).1 <;> simp
  · exact hO

lemma Clean.of_zeroFailed (hs : (s,false)∈φ.replies) (now : ℕ) (sensors : Sensors)
    (order : KeyOrder) (link : ℕ → Bool) : (φ.onCore ⟨.zeroDone s false,now,sensors,order⟩ link).Clean := by
  obtain ⟨-,hO⟩ := φ.core.onZeroDone_false_effect s
  refine h.of_exchange (s := s) (fun k => ?_) ?_ ?_ ?_ ?_ link
  · have ho := φ.ordered_consume_zeroDone hs k
    have hl : (φ.consume (.zeroDone s false)).load k = φ.load k := rfl
    dsimp only
    rw [hl,ho]
    omega
  · rfl
  · exact fun k hk => .inr hk
  · refine (φ.core.handle_plain _ ?_ ?_).1 <;> simp
  · exact hO

lemma Clean.of_swapOnFailed {sid : ℕ} {detail : String}
    (hs : (sid,⟨true,s,false,detail⟩)∈φ.up) (now : ℕ) (sensors : Sensors) (order : KeyOrder) (link : ℕ → Bool) :
    (φ.onCore ⟨.msg sid (.swapOnDone s false detail),now,sensors,order⟩ link).Clean := by
  have hl := φ.load_consume_result (m := .swapOnDone s false detail) rfl hs (by simp)
  have hle := h.load_le_one s
  have hls := hl s
  rw [if_pos rfl] at hls
  have hM : mounts (φ.core.handle ⟨.msg sid (.swapOnDone s false detail),now,sensors,order⟩).2=[] := by
    refine (φ.core.handle_plain _ ?_ ?_).1 <;> simp
  have hO : zeroOrders
      (φ.core.handle ⟨.msg sid (.swapOnDone s false detail),now,sensors,order⟩).2=[] := rfl
  have hsame {k : SliceId} (hk : k≠s)
      (hi : (φ.core.onSwapOnFailed s detail).1.sliceMap.Idle k) : φ.core.sliceMap.Idle k := by
    obtain hg | ⟨rfl,-⟩ := φ.core.onSwapOnFailed_get s detail k
    · obtain ⟨x,hx,hstate⟩ := SliceMap.idle_iff.mp hi
      exact SliceMap.idle_iff.mpr ⟨x,hg ▸ hx,hstate⟩
    · exact absurd rfl hk
  refine h.onCore link (by rw [hM]; exact nofun) (fun k => ?_) (fun k hk => ?_) fun k hk => ?_ <;>
    rw [hM,List.map_nil,List.count_nil]
  · have h₁ := φ.consume_load_le (.msg sid (.swapOnDone s false detail)) k
    have h₂ := φ.consume_ordered_le (.msg sid (.swapOnDone s false detail)) k
    have h₃ := h.load_le_one k
    rw [hO,List.count_nil]
    dsimp only
    omega
  · have h₂ := φ.consume_ordered_le (.msg sid (.swapOnDone s false detail)) k
    rw [hO,List.count_nil]
    dsimp only
    by_cases hks : k=s
    · subst hks
      omega
    · have h₁ := φ.consume_load_le (.msg sid (.swapOnDone s false detail)) k
      have h₃ := h.idle k (hsame hks hk)
      omega
  · obtain ⟨h₁,h₂⟩ := h.pending k hk
    have hks : k≠s := fun he => by
      subst he
      omega
    have h₃ := φ.consume_load_le (.msg sid (.swapOnDone s false detail)) k
    exact ⟨fun hi => h₁ (hsame hks hi),by dsimp only; omega⟩

lemma Clean.of_zeroOk (hs : (s,true)∈φ.replies) (now : ℕ) (sensors : Sensors)
    (order : KeyOrder) (link : ℕ → Bool) : (φ.onCore ⟨.zeroDone s true,now,sensors,order⟩ link).Clean := by
  have ho := φ.ordered_consume_zeroDone hs
  have hos := ho s
  have hle := h.load_le_one s
  rw [if_pos rfl] at hos
  have hl (k : SliceId) : (φ.consume (.zeroDone s true)).load k = φ.load k := rfl
  obtain ⟨hO,-⟩ := φ.core.onZeroOk_noOrders s
  have hsame {k : SliceId} (hk : k≠s) (hi : (φ.core.onZeroOk s).1.sliceMap.Idle k) :
      φ.core.sliceMap.Idle k := by
    obtain ⟨x,hx,hstate⟩ := SliceMap.idle_iff.mp hi
    exact SliceMap.idle_iff.mpr ⟨x,φ.core.onZeroOk_get_of_ne hk ▸ hx,hstate⟩
  have hmount (k : SliceId) : ((mounts (φ.core.onZeroOk s).2).map Prod.fst).count k=0 ∨
      k=s ∧ ((mounts (φ.core.onZeroOk s).2).map Prod.fst).count k=1 ∧
        ¬(φ.core.onZeroOk s).1.sliceMap.Idle s := by
    obtain hm | ⟨hm,ha⟩ := φ.core.onZeroOk_mounts s
    · exact .inl (by rw [hm]; rfl)
    · by_cases hk : k=s
      · exact .inr ⟨hk,by simp [hm,hk],ha.not_idle (by simp) (by simp)⟩
      · exact .inl (by simp [hm,Ne.symm hk])
  refine h.onCore link ?_ (fun k => ?_) (fun k hk => ?_) fun k hk => ?_
  · change ∀ e∈mounts (φ.core.onZeroOk s).2, e.2 = exportOf e.1
    obtain hm | ⟨hm,-⟩ := φ.core.onZeroOk_mounts s <;> rw [hm]
    · exact nofun
    · intro e he
      rw [List.mem_singleton.mp he]
      rfl
  · change (φ.consume (.zeroDone s true)).load k +
      ((mounts (φ.core.onZeroOk s).2).map Prod.fst).count k +
      ((φ.consume (.zeroDone s true)).ordered.count k+(zeroOrders (φ.core.onZeroOk s).2).count k)≤1
    rw [hO,List.count_nil,hl]
    have h₁ := ho k
    have h₂ := h.load_le_one k
    obtain hz | ⟨rfl,hz,-⟩ := hmount k <;> omega
  · change (φ.consume (.zeroDone s true)).load k +
      ((mounts (φ.core.onZeroOk s).2).map Prod.fst).count k +
      ((φ.consume (.zeroDone s true)).ordered.count k+(zeroOrders (φ.core.onZeroOk s).2).count k)=0
    rw [hO,List.count_nil,hl]
    obtain hz | ⟨rfl,-,hi⟩ := hmount k
    · by_cases hks : k=s
      · subst hks
        omega
      · have h₁ := ho k
        have h₂ := h.idle k (hsame hks hk)
        omega
    · exact absurd hk hi
  · change k∈(φ.core.onZeroOk s).1.pendingZero at hk
    rw [BrokerCore.onZeroOk_pendingZero,Std.TreeMap.mem_erase] at hk
    have hne : k≠s := fun he => hk.1 (by rw [he]; exact Nat.compare_eq_eq.mpr rfl)
    obtain ⟨h₁,h₂⟩ := h.pending k hk.2
    refine ⟨fun hi => h₁ (hsame hne hi),?_⟩
    change (φ.consume (.zeroDone s true)).load k +
      ((mounts (φ.core.onZeroOk s).2).map Prod.fst).count k=0
    obtain hz | ⟨he,-⟩ := hmount k
    · rw [hl,hz,h₂]
    · exact absurd he hne

lemma Clean.core {link : ℕ → Bool} (he : φ.Enabled (.core i link))
    (hu : φ.Unhurried (.core i link)) : (φ.onCore i link).Clean := by
  obtain ⟨e,now,sensors,order⟩ := i
  obtain hp | ⟨sid,s,detail,rfl⟩ | ⟨sid,s,detail,rfl⟩ | ⟨s,ok,rfl⟩ | rfl := e.cases_plain
  · exact h.of_plain hp link
  · exact h.of_swapOnFailed (he _ rfl) now sensors order link
  · exact h.of_swapOffOk (he _ rfl) now sensors order link
  · cases ok with
    | false => exact h.of_zeroFailed he now sensors order link
    | true => exact h.of_zeroOk he now sensors order link
  · exact h.of_tick now sensors order hu link

end

lemma Clean.step {a : FleetStep F} (h : φ.Clean) (ha : φ.Enabled a ∧ φ.Tidy a ∧ φ.Unhurried a) :
    (φ.step a).Clean := by
  obtain ⟨he,ht,hu⟩ := ha
  cases a with
  | core i link => exact h.core he hu
  | zeroed ok =>
    cases ho : φ.orders with
    | nil => simpa [Fleet.step,onZeroed,ho] using h
    | cons s orders =>
      simp only [Fleet.step,onZeroed,ho]
      refine h.of_le rfl h.hosts (fun e he => he) (fun k => le_rfl) fun k => ?_
      simp only [ordered,ho,List.map_append,List.count_append,List.map_cons,List.map_nil,
        List.count_cons,List.count_nil]
      omega
  | connect n sid => exact h.onConnect n sid
  | receive n => exact h.onReceive n
  | report n written => exact h.onAgent n _ (fun _ _ => nofun) rfl
  | stop n => exact h.onAgent n _ (fun _ _ => nofun) rfl
  | exec n outcome => exact h.onAgent n _ (fun host hh => ⟨he host hh,ht host hh⟩) rfl
  | clean n outcome => exact h.onAgent n _ (fun host hh => he host hh) rfl
  | reorder n order => exact h.onAgent n _ (fun _ _ => nofun) rfl
  | loseDown k =>
    have hsub : (φ.down.eraseIdx k).Sublist φ.down := List.eraseIdx_sublist ..
    refine h.of_le rfl h.hosts (fun e he => (hsub.filterMap _).subset he) (fun s => ?_) fun s => le_rfl
    have := ((hsub.filterMap fun x => mountOf x.2).map Prod.fst).count_le s
    simp only [Fleet.step,load,asked]
    omega
  | loseUp k =>
    have hsub : (φ.up.eraseIdx k).Sublist φ.up := List.eraseIdx_sublist ..
    refine h.of_le rfl h.hosts (fun e he => he) (fun s => ?_) fun s => le_rfl
    have := hsub.countP_le (p := fun x => x.2.frees s)
    simp only [Fleet.step,load,asked]
    omega

/-- No agent has a device connected to the export of the slice. -/
def Unlinked (φ : Fleet F D) (s : SliceId) : Prop :=
  ∀ h∈φ.hosts, ∀ e∈h.agent.devices.connected, e.2 ≠ exportOf s

omit [FloatOps F] [FloatOps D] [DebugMsg F] in
instance decidableUnlinked (φ : Fleet F D) (s : SliceId) : Decidable (φ.Unlinked s) :=
  inferInstanceAs (Decidable (∀ h∈φ.hosts, ∀ e∈h.agent.devices.connected, e.2 ≠ exportOf s))

omit [FloatOps F] [FloatOps D] [DebugMsg F] in
lemma Clean.unlinked (h : φ.Clean) (hz : (φ.hosts.map fun h => h.weight s).sum=0) : φ.Unlinked s := by
  intro host hh e he hs
  obtain ⟨k,rfl⟩ := (h.hosts host hh).connected e he
  obtain rfl : k=s := exportOf_inj.mp hs
  have h₁ := List.single_le_sum (fun _ _ => Nat.zero_le _) _
    (List.mem_map_of_mem (f := (·.weight k)) hh)
  have h₂ := List.count_pos_iff.mpr he
  rw [hz] at h₁
  simp only [Host.weight] at h₁
  omega

/-- In a run in which no mount fails once its device is connected, and no tick repeats an outstanding
order, no agent is connected to the export of a free slice, nor to one that is ordered on. -/
theorem free_slice_unlinked (m : SliceMap) (cfg : BrokerCoreConfig F D) (cfgs : List AgentConfig)
    (as : List (FleetStep F))
    (h : AllSteps Fleet.step (fun φ a => φ.Enabled a ∧ φ.Tidy a ∧ φ.Unhurried a) (new m cfg cfgs) as) :
    (∀ s, (run Fleet.step (new m cfg cfgs) as).core.sliceMap.In s .free →
      (run Fleet.step (new m cfg cfgs) as).Unlinked s) ∧
    ∀ e ∈ (run Fleet.step (new m cfg cfgs) as).asked,
      (run Fleet.step (new m cfg cfgs) as).Unlinked e.1 := by
  have hc : (run Fleet.step (new m cfg cfgs) as).Clean :=
    h.invariant Fleet.step (fun _ _ hc ha => hc.step ha) (clean_new m cfg cfgs)
  refine ⟨fun s hs => hc.unlinked ?_,fun e he => hc.unlinked ?_⟩
  · have := hc.idle s (.inl hs)
    rw [load] at this
    omega
  · have h₁ := hc.load_le_one e.1
    have h₂ := List.count_pos_iff.mpr (List.mem_map_of_mem (f := Prod.fst) he)
    rw [load] at h₁
    omega

end Core

/-- Two agents, the first of which is told to mount the only slice. -/
def sampleFleet : Fleet ℚ ℚ :=
  new BrokerCore.oneSlice BrokerCore.sampleConfig [⟨"/dev/nbd",none⟩,⟨"/dev/nbd",none⟩]

def sampleStep (event : CoreEvent ℚ) : FleetStep ℚ :=
  .core (BrokerCore.sampleInput event) fun _ => true

def orderedOn : List (FleetStep ℚ) :=
  [sampleStep (.msg 0 (.register protoVersion "a" .nbdUnix)),.connect 0 0,sampleStep .tick,.receive 0,.receive 0,
    .exec 0 (.ok ())]

def refusedClient : List (FleetStep ℚ) :=
  orderedOn++[.exec 0 (.error ⟨none,"refused"⟩),.report 0 true,
    sampleStep (.msg 0 (.swapOnDone 0 false "nbd-client: refused"))]

theorem free_slice_unlinked_refusedClient :
    (run step sampleFleet refusedClient).core.sliceMap.In 0 .free ∧
    (run step sampleFleet refusedClient).Unlinked 0 := by
  have h : AllSteps step (fun φ a => φ.Enabled a ∧ φ.Tidy a ∧ φ.Unhurried a) sampleFleet
      refusedClient := by
    decide +kernel
  have hf : (run step sampleFleet refusedClient).core.sliceMap.In 0 .free :=
    ⟨⟨0,0,4096,none,.free⟩,by decide +kernel,rfl⟩
  exact ⟨hf,(free_slice_unlinked _ _ _ _ h).1 0 hf⟩

/-- The device is connected, and `mkswap` fails on it. -/
def failedFormat : List (FleetStep ℚ) :=
  orderedOn++[.exec 0 (.ok ()),.exec 0 (.error ⟨none,"device busy"⟩),.report 0 true,
    sampleStep (.msg 0 (.swapOnDone 0 false "mkswap: device busy"))]

/-- The second agent registers, the first one is gone, and the slice is ordered on again. -/
def handedOver : List (FleetStep ℚ) :=
  failedFormat++[sampleStep (.msg 1 (.register protoVersion "b" .nbdUnix)),.connect 1 1,
    sampleStep (.disconnected 0),sampleStep .tick]

/-- A holder of leases asks for the slice, and the first agent is told to give it up. -/
def revoked (sid : ℕ) : List (FleetStep ℚ) :=
  [sampleStep (.msg sid (.register protoVersion "b" .dccAgent)),
    sampleStep (.msg sid (.leaseRequest 4096)),sampleStep .tick,.receive 0]

/-- No mount fails, but a tick repeats the order to zero the slice; the second answer comes when the
slice is mounted again and has just been revoked. -/
def repeatedOrder : List (FleetStep ℚ) :=
  orderedOn++List.replicate 4 (.exec 0 (.ok ()))++revoked 1 ++
    List.replicate 4 (.exec 0 (.ok ()))++[.report 0 true,.report 0 true,
    sampleStep (.msg 0 (.swapOffDone 0 true "/dev/nbd0")),sampleStep (.disconnected 1),
    sampleStep .tick,sampleStep .tick,.zeroed true,.zeroed true,sampleStep (.zeroDone 0 true),
    sampleStep .tick,.receive 0]++List.replicate 5 (.exec 0 (.ok ()))++revoked 2 ++
    [sampleStep (.zeroDone 0 true)]

/-- The slice is free, and the first agent is still connected to its export; so it is when the slice
is the second one's. The same comes of a repeated order. -/
theorem free_slice_linked :
    AllSteps step (fun φ a => φ.Enabled a ∧ φ.Unhurried a) sampleFleet handedOver ∧
    (run step sampleFleet failedFormat).core.sliceMap.In 0 .free ∧
    ¬(run step sampleFleet failedFormat).Unlinked 0 ∧
    (run step sampleFleet handedOver).core.sliceMap.ActiveFor 0 2 ∧
    (0,"s0") ∈ (run step sampleFleet handedOver).asked ∧
    ¬(run step sampleFleet handedOver).Unlinked 0 ∧
    AllSteps step (fun φ a => φ.Enabled a ∧ φ.Tidy a) sampleFleet repeatedOrder ∧
    (run step sampleFleet repeatedOrder).core.sliceMap.In 0 .free ∧
    ¬(run step sampleFleet repeatedOrder).Unlinked 0 :=
  ⟨by decide +kernel,⟨⟨0,0,4096,none,.free⟩,by decide +kernel,rfl⟩,by decide +kernel,
    ⟨⟨0,0,4096,some 2,.active⟩,by decide +kernel,rfl,rfl⟩,by decide +kernel,by decide +kernel,
    by decide +kernel,⟨⟨0,0,4096,none,.free⟩,by decide +kernel,rfl⟩,by decide +kernel⟩

end Fleet
end RamShared.Agent

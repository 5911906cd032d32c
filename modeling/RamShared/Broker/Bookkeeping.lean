import RamShared.Broker.Destinations

/-! The slice map and the moves in flight. Whatever the handlers do, results of transitions ignored
or not, they change the map by legal transitions only: windows stay, and a slice has an owner
exactly while it is active or draining. -/
namespace RamShared.Broker
open Lib

/-- The owner is noted exactly while the slice is active or draining. -/
def Slice.Owned (x : Slice) : Prop := x.tenant.isSome ↔ x.state=.active ∨ x.state=.draining

def Slice.window (x : Slice) : SliceId × ℕ × ℕ := (x.id,x.offset,x.len)

lemma CellMove.owned {x y : Slice} (h : CellMove x y) (hx : x.Owned) : y.Owned := by
  cases h <;> simp_all [Slice.Owned]

namespace SliceMap

variable {m m' : SliceMap}

lemma windows_put (m : SliceMap) (s : SliceId) (state : SliceState) (tenant : Option TenantId) :
    (m.put s state tenant).slices.map Slice.window = m.slices.map Slice.window := by
  rw [put,List.map_map]
  refine List.map_congr_left fun x _ => ?_
  simp only [Function.comp_apply]
  split_ifs <;> rfl

lemma windows_transition {s : SliceId} {source target : SliceState}
    {refuse : SliceState → SliceError} {owner : Option TenantId → Option TenantId}
    (h : m.transition s source target refuse owner=.ok m') :
    m'.slices.map Slice.window = m.slices.map Slice.window := by
  obtain ⟨x,-,-,rfl⟩ := transition_eq_ok h
  exact m.windows_put s target _

lemma Reworked.windows (h : Reworked m m') : m'.slices.map Slice.window = m.slices.map Slice.window := by
  induction h with
  | refl => rfl
  | move h _ ih => cases h <;> exact ih.trans (windows_transition ‹_›)
  | release h _ ih => exact ih.trans (windows_transition h)

/-- Every slice has an owner exactly while it is active or draining. -/
def Owned (m : SliceMap) : Prop := ∀ s x, m.get s=some x → x.Owned

lemma Reworked.owned (h : Reworked m m') (hm : m.Owned) : m'.Owned := by
  induction h with
  | refl => exact hm
  | move h _ ih =>
    refine ih fun s y hy => ?_
    obtain ⟨-,hg⟩ | ⟨x,y',hx,hy',hc,-⟩ := h.cell s
    · exact hm s y (hg ▸ hy)
    · cases hy'.symm.trans hy
      exact hc.owned (hm s x hx)
  | release h _ ih =>
    refine ih fun s y hy => ?_
    obtain ⟨-,hg⟩ | ⟨-,x,hx,-,hg⟩ := get_transition h s
    · exact hm s y (hg ▸ hy)
    · cases hg.symm.trans hy
      simp [Slice.Owned]

lemma owned_new {k sliceBytes backingBytes : ℕ} (h : new k sliceBytes backingBytes=.ok m) : m.Owned := by
  intro s x hx
  have hx := mem_of_get hx
  unfold new at h
  split_ifs at h
  split at h
  · cases h
  · split_ifs at h
    cases h
    obtain ⟨i,-,rfl⟩ := List.mem_map.mp hx
    simp [Slice.Owned]

lemma windows_new {k sliceBytes backingBytes : ℕ} (h : new k sliceBytes backingBytes=.ok m) :
    m.slices.Pairwise (fun x y => x.offset+x.len≤y.offset) ∧
      ∀ x∈m.slices, x.offset+x.len≤backingBytes := by
  refine ⟨List.pairwise_iff_getElem.mpr fun i j hi hj hij => ?_,fun x hx => ?_⟩
  · obtain ⟨hoff,hlen,-⟩ := getElem?_new h (List.getElem?_eq_getElem hi)
    obtain ⟨hoff',-⟩ := getElem?_new h (List.getElem?_eq_getElem hj)
    rw [hoff,hlen,hoff',←Nat.succ_mul]
    exact Nat.mul_le_mul_right _ hij
  · obtain ⟨i,hi⟩ := List.mem_iff_getElem?.mp hx
    obtain ⟨hoff,hlen,hle,-⟩ := getElem?_new h hi
    rwa [hoff,hlen]

end SliceMap

namespace BrokerCore
variable {F D : Type}
variable (c : BrokerCore F D)

variable [FloatOps F] [FloatOps D] [DebugMsg F]

lemma step_leaves {c : BrokerCore F D} {i : Input F} {s : SliceId} {d : TenantId}
    (hd : c.pendingDest[s]?=some d) (hs : c.sliceMap.In s .draining)
    (hleft : ¬(c.step i).sliceMap.In s .draining) :
    ∃ m, c.sliceMap.release s=.ok m ∧ m.assign s d=.ok (c.step i).sliceMap := by
  obtain h | he := c.step_draining i hs
  · exact absurd h hleft
  rcases i with ⟨e,now,sensors,order⟩
  cases he
  have hr := SliceMap.release_of_draining hs
  have ha := SliceMap.assign_of_free (SliceMap.in_of_transition hr).2 d
  refine ⟨_,hr,ha.trans ?_⟩
  change _ = Except.ok (c.onZeroOk s).1.sliceMap
  simp only [onZeroOk,hr,hd,ha]

/-- The books of a core: owners, windows, and the moves in flight with what ends them. -/
structure Booked (backingBytes : ℕ) (m : SliceMap) (c : BrokerCore F D) : Prop where
  owners : ∀ x∈c.sliceMap.slices, x.tenant.isSome ↔ x.state=.active ∨ x.state=.draining
  windows : c.sliceMap.slices.map Slice.window = m.slices.map Slice.window
  disjoint : c.sliceMap.slices.Pairwise fun x y => x.offset+x.len≤y.offset
  inside : ∀ x∈c.sliceMap.slices, x.offset+x.len≤backingBytes
  bound : ∀ s∈c.pendingDest, c.sliceMap.In s .draining
  arrives : ∀ i s d, c.pendingDest[s]?=some d → ¬(c.step i).sliceMap.In s .draining →
    (c.step i).sliceMap.ActiveFor s d ∧ ∃ between, c.sliceMap.release s=.ok between ∧
      between.assign s d=.ok (c.step i).sliceMap ∧ ∀ x, between.get s=some x → x.tenant=none

lemma run_reworked (m : SliceMap) (cfg : BrokerCoreConfig F D) (hm : m.Owned) (is : List (Input F)) :
    (run step (new m cfg) is).sliceMap.Owned ∧
      (run step (new m cfg) is).sliceMap.slices.map Slice.window = m.slices.map Slice.window :=
  run_induction (P := fun c : BrokerCore F D =>
      c.sliceMap.Owned ∧ c.sliceMap.slices.map Slice.window = m.slices.map Slice.window) _
    (fun c i hc => ⟨(c.step_reworked i).owned hc.1,(c.step_reworked i).windows.trans hc.2⟩) ⟨hm,rfl⟩ is

/-- In every reachable state the books are right. -/
theorem bookkeeping {k sliceBytes backingBytes : ℕ} {m : SliceMap}
    (hm : SliceMap.new k sliceBytes backingBytes = .ok m) (cfg : BrokerCoreConfig F D)
    (is : List (Input F)) : Booked backingBytes m (run step (new m cfg) is) := by
  obtain ⟨howned,hwindows⟩ := run_reworked m cfg (SliceMap.owned_new hm) is
  have hmoving : (run step (new m cfg) is).Moving :=
    run_induction (P := Moving) _ (fun c i hc => step_moving hc i) (moving_new m cfg) is
  generalize run step (new m cfg) is = c at howned hwindows hmoving
  obtain ⟨hdisjoint,hinside⟩ := SliceMap.windows_new hm
  -- geometry is read off the windows, which are those of the new map
  have hpairs : (c.sliceMap.slices.map Slice.window).Pairwise fun a b => a.2.1+a.2.2 ≤ b.2.1 := by
    rw [hwindows]
    exact List.pairwise_map.mpr hdisjoint
  have hends : ∀ w ∈ c.sliceMap.slices.map Slice.window, w.2.1+w.2.2 ≤ backingBytes := by
    rw [hwindows]
    exact List.forall_mem_map.mpr hinside
  refine ⟨fun x hx => ?_,hwindows,List.pairwise_map.mp hpairs,List.forall_mem_map.mp hends,hmoving,
    fun i s d hd hleft => ?_⟩
  · obtain ⟨s,hs⟩ := List.mem_iff_getElem?.mp hx
    exact howned s x (by rwa [SliceMap.get_eq_getElem?])
  · have hs : c.sliceMap.In s .draining := hmoving s (by
      rw [Std.TreeMap.mem_iff_isSome_getElem?,hd]
      rfl)
    obtain ⟨between,hr,ha⟩ := step_leaves hd hs hleft
    obtain ⟨hne,-⟩ | ⟨-,x,-,-,hget⟩ := SliceMap.get_transition hr s
    · exact absurd rfl hne
    refine ⟨SliceMap.activeFor_of_assign ha,between,hr,ha,fun z hz => ?_⟩
    cases hget.symm.trans hz
    rfl

/-- Three tenants; the first holds the slice, the third is under pressure. -/
def movedSlice : List (Input ℚ) :=
  ([.msg 0 (.register protoVersion "a" .nbdUnix),.tick,.msg 1 (.register protoVersion "b" .nbdUnix),
    .msg 2 (.register protoVersion "c" .nbdUnix),.msg 0 (.psi ⟨1,0,0⟩ [] none),
    .msg 2 (.psi ⟨20,0,0⟩ [] none),.tick,.tick,.tick,.tick,.tick,
    .msg 0 (.swapOffDone 0 true "")] : List (CoreEvent ℚ)).map sampleInput

/-- Under pressure the only slice is to move to the third tenant, and it arrives there. -/
theorem bookkeeping_moved :
    (run step (new oneSlice sampleConfig) movedSlice).pendingDest[0]? = some 3 ∧
    ((run step (new oneSlice sampleConfig) movedSlice).step
      (sampleInput (.zeroDone 0 true))).sliceMap.ActiveFor 0 3 := by
  have hd : (run step (new oneSlice sampleConfig) movedSlice).pendingDest[0]? = some 3 := by
    decide +kernel
  have hget : ((run step (new oneSlice sampleConfig) movedSlice).step
      (sampleInput (.zeroDone 0 true))).sliceMap.get 0 = some ⟨0,0,4096,some 3,.active⟩ := by
    decide +kernel
  have hleft : ¬((run step (new oneSlice sampleConfig) movedSlice).step
      (sampleInput (.zeroDone 0 true))).sliceMap.In 0 .draining := by
    rintro ⟨x,hx,hs⟩
    cases hget.symm.trans hx
    cases hs
  have hm : SliceMap.new 1 4096 4096 = .ok oneSlice := rfl
  exact ⟨hd,((bookkeeping hm sampleConfig movedSlice).arrives _ 0 3 hd hleft).1⟩

end BrokerCore
end RamShared.Broker

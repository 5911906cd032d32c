import RamShared.OriginCache.Io
import Mathlib.Data.Finset.Card

/-! Which chunks hold memory. Requests never change that; releasing gives up the chunks used longest
ago, one by one, until the rest fits the target. -/
namespace RamShared.OriginCache
open Lib Block
open VramProvider (Mem)

/-- What the growth policy reads of a backend: its counters and the chunks that hold memory. -/
structure PolicyView where
  chunkBytes : ℕ
  healthySamples : ℕ
  restrictedSamples : ℕ
  lastGrowthAt : Option ℕ
  held : Finset ℕ

namespace WriteThroughCacheBackend
variable {P O : Type} [VramProvider P] (b : WriteThroughCacheBackend P O)

def heldChunks : Finset ℕ :=
  (Finset.range b.chunks.length).filter fun i => (b.chunkMem i).isSome

def lastAccessOf (i : ℕ) : ℕ :=
  (b.chunks[i]?.map CacheChunk.lastAccess).getD 0

def policyView : PolicyView :=
  ⟨b.chunkBytes,b.healthySamples,b.restrictedSamples,b.lastGrowthAt,b.heldChunks⟩

/-- What no helper of a request changes. -/
def view : OriginView O × PolicyView := (b.originView,b.policyView)

variable {b : WriteThroughCacheBackend P O} {index : ℕ}

lemma mem_heldChunks {i : ℕ} : i∈b.heldChunks ↔ (b.chunkMem i).isSome := by
  rw [heldChunks,Finset.mem_filter,Finset.mem_range,and_iff_right_iff_imp]
  intro h
  by_contra hi
  rw [chunkMem,List.getElem?_eq_none (not_lt.mp hi)] at h
  cases h

lemma chunkMem_modifyChunk (b : WriteThroughCacheBackend P O) (index i : ℕ)
    (f : CacheChunk (Mem P) → CacheChunk (Mem P)) : (b.modifyChunk index f).chunkMem i =
      if index=i then b.chunks[i]?.bind fun c => (f c).mem else b.chunkMem i := by
  simp only [chunkMem,modifyChunk,List.getElem?_modify]
  cases b.chunks[i]? with
  | none => split_ifs <;> rfl
  | some c => split_ifs <;> rfl

variable {b' : WriteThroughCacheBackend P O}

lemma heldChunks_congr
    (h : ∀ i, (b'.chunkMem i).isSome = (b.chunkMem i).isSome) : b'.heldChunks=b.heldChunks := by
  ext i
  rw [mem_heldChunks,mem_heldChunks,h]

lemma card_filter_range_getElem? {α : Type} (p : α → Bool) (l : List α) :
    ((Finset.range l.length).filter fun i => (l[i]?.any p : Bool)).card = l.countP p := by
  induction l using List.reverseRecOn with
  | nil => rfl
  | append_singleton l a ih =>
    rw [List.length_append,List.length_singleton,Finset.range_add_one,Finset.filter_insert,
      List.countP_append,←ih]
    have hinit : ((Finset.range l.length).filter fun i => ((l++[a])[i]?.any p : Bool)) =
        (Finset.range l.length).filter fun i => (l[i]?.any p : Bool) := by
      refine Finset.filter_congr fun i hi => ?_
      rw [List.getElem?_append_left (Finset.mem_range.mp hi)]
    rw [hinit]
    cases hp : p a <;> simp [hp]

lemma card_heldChunks (b : WriteThroughCacheBackend P O) :
    b.heldChunks.card = b.chunks.countP fun c => c.mem.isSome := by
  rw [←card_filter_range_getElem?,heldChunks]
  congr 1
  refine Finset.filter_congr fun i _ => ?_
  cases h : b.chunks[i]? <;> simp [chunkMem,h]

lemma cachedBytes_eq (b : WriteThroughCacheBackend P O) :
    b.cachedBytes = b.heldChunks.card*b.chunkBytes%2^64 := by
  have hfold (cs : List (CacheChunk (Mem P))) (total : ℕ) (htotal : total<2^64) :
      cs.foldl (fun total chunk => wrappingAdd 64 total (if chunk.mem.isSome then b.chunkBytes else 0))
        total = (total+(cs.countP fun c => c.mem.isSome)*b.chunkBytes)%2^64 := by
    induction cs generalizing total with
    | nil => simpa using (Nat.mod_eq_of_lt htotal).symm
    | cons c cs ih =>
      have hlt : wrappingAdd 64 total (if c.mem.isSome then b.chunkBytes else 0)<2^64 :=
        Nat.mod_lt _ (by decide)
      rw [List.foldl_cons,ih _ hlt,List.countP_cons,wrappingAdd]
      cases c.mem.isSome with
      | false => simp
      | true => simp [Nat.add_mul,Nat.add_assoc,Nat.add_comm]
  rw [card_heldChunks,cachedBytes,hfold _ 0 (by decide),Nat.zero_add]

variable {f : CacheChunk (Mem P) → CacheChunk (Mem P)} {target : ℕ}

lemma view_eq_of_heldChunks (h : b'.view = (b.originView,{b.policyView with held := b'.heldChunks}))
    (hm : ∀ i, (b'.chunkMem i).isSome = (b.chunkMem i).isSome) : b'.view=b.view := by
  rw [h,heldChunks_congr hm]
  rfl

lemma modifyChunk_view (b : WriteThroughCacheBackend P O) (index : ℕ)
    (hf : ∀ c, (f c).mem.isSome=c.mem.isSome) : (b.modifyChunk index f).view=b.view := by
  refine view_eq_of_heldChunks rfl fun i => ?_
  rw [chunkMem_modifyChunk]
  split_ifs
  · cases h : b.chunks[i]? <;> simp [chunkMem,h,hf]
  · rfl

lemma invalidateChunk_view (b : WriteThroughCacheBackend P O) (index : ℕ) :
    (b.invalidateChunk index).view=b.view := b.modifyChunk_view index fun _ => rfl

lemma touch_view (b : WriteThroughCacheBackend P O) (index : ℕ) : (b.touch index).view=b.view :=
  modifyChunk_view {b with accessClock := bump b.accessClock} index fun _ => rfl

lemma storeMem_view {old : Mem P} (h : b.chunkMem index=some old) (provider : P) (mem : Mem P) :
    (b.storeMem provider index mem).view=b.view := by
  refine view_eq_of_heldChunks rfl fun i => ?_
  rw [storeMem,chunkMem_modifyChunk]
  split_ifs with hi
  · subst hi
    rw [h]
    cases hc : b.chunks[index]? with
    | none => simp [chunkMem,hc] at h
    | some c => rfl
  · rfl

lemma invalidateCached_view (b : WriteThroughCacheBackend P O) (indices : List ℕ) :
    (b.invalidateCached indices).view=b.view := by
  induction indices generalizing b with
  | nil => rfl
  | cons index indices ih =>
    refine (ih _).trans ?_
    beta_reduce
    split_ifs
    · exact b.invalidateChunk_view index
    · rfl

lemma invalidateAllCached_view (b : WriteThroughCacheBackend P O) : b.invalidateAllCached.view=b.view :=
  b.invalidateCached_view _

lemma invalidateCachedRange_view (b : WriteThroughCacheBackend P O) (off len : ℕ) :
    (b.invalidateCachedRange off len).view=b.view := by
  unfold invalidateCachedRange
  split_ifs
  · rfl
  · exact b.invalidateCached_view _

lemma cacheReadLoop_view (ps : List Piece) (b : WriteThroughCacheBackend P O) :
    (cacheReadLoop ps b).2.view=b.view := by
  induction ps generalizing b with
  | nil => rfl
  | cons p ps ih =>
    rw [cacheReadLoop]
    split
    · rfl
    · split
      · rfl
      · rename_i provider _
        have h := (ih (({b with provider := provider}).touch p.index)).trans
          (touch_view {b with provider := provider} p.index)
        split <;> rename_i hl <;> rw [hl] at h <;> exact h

lemma cacheRead_view (b : WriteThroughCacheBackend P O) (off len : ℕ) :
    (b.cacheRead off len).2.view=b.view := cacheReadLoop_view _ b

lemma updatePiece_view (b : WriteThroughCacheBackend P O) (p : Piece) (data : List UInt8)
    (countRefusals : Bool) : (b.updatePiece p data countRefusals).view=b.view := by
  unfold updatePiece
  cases hmem : b.chunkMem p.index with
  | none => cases countRefusals <;> rfl
  | some mem =>
    dsimp only
    rcases VramProvider.writeAt b.provider mem p.relative data with ⟨e | u,mem',provider⟩
    · exact (invalidateChunk_view _ p.index).trans (storeMem_view hmem provider mem')
    · have hmark := modifyChunk_view ((b.storeMem provider p.index mem').touch p.index) p.index
        (f := CacheChunk.markFullyCoveredBlocks b.block p.relative p.count) fun _ => rfl
      exact hmark.trans ((touch_view _ p.index).trans (storeMem_view hmem provider mem'))

lemma updateCachedChunks_view (b : WriteThroughCacheBackend P O) (off : ℕ) (data : List UInt8)
    (countRefusals : Bool) : (b.updateCachedChunks off data countRefusals).view=b.view := by
  unfold updateCachedChunks
  generalize pieces b.chunkBytes off data.length=ps
  induction ps generalizing b data with
  | nil => rfl
  | cons p ps ih => exact (ih _ _).trans (b.updatePiece_view _ _ _)

lemma promote_view (b : WriteThroughCacheBackend P O) (off : ℕ) (data : List UInt8) :
    (b.promote off data).view=b.view := by
  unfold promote
  split_ifs
  · exact b.updateCachedChunks_view off data true
  · rfl

section
variable [OriginStorage O] (b : WriteThroughCacheBackend P O)
variable (off : ℕ) (data : List UInt8)

lemma writeOrigin_policyView : (b.writeOrigin off data).2.policyView=b.policyView := by
  unfold writeOrigin
  rcases writeAllAt b.origin off data with ⟨e | u,origin⟩
  · exact congrArg Prod.snd (invalidateCachedRange_view {b with origin := origin} off data.length)
  · rfl

lemma syncDirtyOrigin_policyView : b.syncDirtyOrigin.2.policyView=b.policyView := by
  unfold syncDirtyOrigin
  split
  · rfl
  rcases OriginStorage.syncData b.origin with ⟨e | u,origin⟩
  · exact congrArg Prod.snd (invalidateCached_view {b with origin := origin} _)
  · rfl

lemma probeOrigin_policyView : b.probeOrigin.2.policyView=b.policyView := by
  unfold probeOrigin
  rcases readExactAt b.origin 0 b.block with ⟨e | bytes,origin⟩
  · rfl
  dsimp only
  rcases OriginStorage.syncData origin with ⟨e | u,origin'⟩
  · rfl
  · unfold recordProbe
    dsimp only
    split_ifs <;> rfl

lemma readFromOrigin_policyView (len : ℕ) : (b.readFromOrigin off len).2.policyView=b.policyView := by
  unfold readFromOrigin
  rcases readExactAt b.origin off len with ⟨e | bytes,origin⟩
  · rfl
  · exact congrArg Prod.snd (promote_view _ off bytes)

lemma readAt_policyView (len : ℕ) : (b.readAt off len).2.policyView=b.policyView := by
  unfold readAt
  split
  · rfl
  split
  · rfl
  split_ifs
  · rfl
  · have hview := congrArg Prod.snd (b.cacheRead_view off len)
    generalize b.cacheRead off len = x at hview ⊢
    obtain ⟨index | buf,b'⟩ := x
    · refine (readFromOrigin_policyView _ off len).trans ?_
      exact (congrArg Prod.snd (invalidateChunk_view _ index)).trans hview
    · exact hview
  · exact b.readFromOrigin_policyView off len

lemma writeAt_policyView : (b.writeAt off data).2.policyView=b.policyView := by
  unfold writeAt
  split
  · rfl
  split
  · rfl
  split_ifs
  · rfl
  have hview := b.writeOrigin_policyView off data
  generalize b.writeOrigin off data = x at hview ⊢
  obtain ⟨e | u,b'⟩ := x
  · exact hview
  · exact (congrArg Prod.snd (updateCachedChunks_view _ off data false)).trans hview

lemma writeAtWithOptions_policyView (options : WriteOptions) :
    (b.writeAtWithOptions off data options).2.policyView=b.policyView := by
  unfold writeAtWithOptions
  split
  · exact b.writeAt_policyView off data
  split
  · rfl
  split
  · rfl
  split
  · rfl
  have hview := b.writeOrigin_policyView off data
  generalize b.writeOrigin off data = x at hview ⊢
  obtain ⟨e | u,b'⟩ := x
  · exact hview
  dsimp only at hview ⊢
  have hsync := b'.syncDirtyOrigin_policyView.trans hview
  generalize b'.syncDirtyOrigin = y at hsync ⊢
  obtain ⟨e | u,b''⟩ := y
  · exact hsync
  · exact (congrArg Prod.snd (updateCachedChunks_view _ off data false)).trans hsync

lemma flush_policyView : b.flush.2.policyView=b.policyView := by
  unfold flush
  split
  · rfl
  · exact b.syncDirtyOrigin_policyView

end

/-- The chunks that were given up: the ones used longest ago, and no more of them than it took to get
down to the target. -/
structure Evicted (target : ℕ) (b b' : WriteThroughCacheBackend P O) : Prop where
  view_eq : b'.policyView = {b.policyView with held := b'.heldChunks}
  provider_eq : b'.provider=b.provider
  subset : b'.heldChunks ⊆ b.heldChunks
  access_eq : ∀ i, b'.lastAccessOf i = b.lastAccessOf i
  oldest : ∀ i∈b.heldChunks, i∉b'.heldChunks → ∀ j∈b'.heldChunks,
    b.lastAccessOf i≤b.lastAccessOf j
  needed : b'.heldChunks=b.heldChunks ∨ target<(b'.heldChunks.card+1)*b.chunkBytes
  enough : b'.heldChunks.card*b.chunkBytes≤target

lemma Evicted.refl (h : b.heldChunks.card*b.chunkBytes≤target) : Evicted target b b :=
  ⟨rfl,rfl,Finset.Subset.refl _,fun _ => rfl,fun _ hi hi' => absurd hi hi',.inl rfl,h⟩

lemma Evicted.cons {b₁ b₂ : WriteThroughCacheBackend P O} (h : Evicted target b₁ b₂)
    (hview : b₁.policyView = {b.policyView with held := b.heldChunks.erase index})
    (hprovider : b₁.provider=b.provider) (haccess : ∀ i, b₁.lastAccessOf i = b.lastAccessOf i)
    (hin : index∈b.heldChunks)
    (hleast : ∀ j∈b.heldChunks, b.lastAccessOf index≤b.lastAccessOf j)
    (hover : target<b.heldChunks.card*b.chunkBytes) : Evicted target b b₂ := by
  have hheld : b₁.heldChunks = b.heldChunks.erase index := congrArg PolicyView.held hview
  have hchunk : b₁.chunkBytes=b.chunkBytes := congrArg PolicyView.chunkBytes hview
  have hsub : b₁.heldChunks ⊆ b.heldChunks := hheld ▸ Finset.erase_subset _ _
  refine ⟨?_,h.provider_eq.trans hprovider,h.subset.trans hsub,fun i => (h.access_eq i).trans (haccess i),
    fun i hi hi' j hj => ?_,.inr ?_,hchunk ▸ h.enough⟩
  · rw [h.view_eq,hview]
  · by_cases hidx : i=index
    · rw [hidx]
      exact hleast j (hsub (h.subset hj))
    · rw [←haccess i,←haccess j]
      exact h.oldest i (by rw [hheld]; exact Finset.mem_erase.mpr ⟨hidx,hi⟩) hi' j hj
  · obtain heq | hneeded := h.needed
    · rw [heq,hheld,Finset.card_erase_add_one hin]
      exact hover
    · rwa [hchunk] at hneeded

lemma lruIndex_spec (h : b.lruIndex=some index) :
    index∈b.heldChunks ∧ ∀ j∈b.heldChunks, b.lastAccessOf index≤b.lastAccessOf j := by
  obtain ⟨⟨c,i⟩,hmin,rfl⟩ := Option.map_eq_some_iff.mp h
  have hmem : (c,i)∈b.chunks.zipIdx.filter fun x => x.1.mem.isSome := List.argmin_mem hmin
  obtain ⟨hzip,hsome⟩ := List.mem_filter.mp hmem
  have hc : b.chunks[i]?=some c := List.mem_zipIdx_iff_getElem?.mp hzip
  refine ⟨mem_heldChunks.mpr (by rw [chunkMem,hc]; exact hsome),fun j hj => ?_⟩
  rw [mem_heldChunks] at hj
  cases hd : b.chunks[j]? with
  | none => simp [chunkMem,hd] at hj
  | some d =>
    have hj' : (d,j)∈b.chunks.zipIdx.filter fun x => x.1.mem.isSome :=
      List.mem_filter.mpr ⟨List.mem_zipIdx_iff_getElem?.mpr hd,by simpa [chunkMem,hd] using hj⟩
    have hle := List.le_of_mem_argmin hj' hmin
    simpa [lastAccessOf,hc,hd] using hle

lemma lruIndex_isSome (h : b.heldChunks.Nonempty) : ∃ index, b.lruIndex=some index := by
  obtain ⟨i,hi⟩ := h
  rw [mem_heldChunks] at hi
  cases hlru : b.lruIndex with
  | some index => exact ⟨index,rfl⟩
  | none =>
    have hempty := List.argmin_eq_none.mp (Option.map_eq_none_iff.mp hlru)
    cases hc : b.chunks[i]? with
    | none => simp [chunkMem,hc] at hi
    | some c =>
      have hmem : (c,i)∈b.chunks.zipIdx.filter fun x => x.1.mem.isSome :=
        List.mem_filter.mpr ⟨List.mem_zipIdx_iff_getElem?.mpr hc,by simpa [chunkMem,hc] using hi⟩
      rw [hempty] at hmem
      cases hmem

lemma dropChunk_policyView (b : WriteThroughCacheBackend P O) (index : ℕ) :
    (b.modifyChunk index fun c => {c with mem := none}).policyView =
      {b.policyView with held := b.heldChunks.erase index} := by
  have hheld : (b.modifyChunk index fun c => {c with mem := none}).heldChunks =
      b.heldChunks.erase index := by
    ext i
    rw [mem_heldChunks,chunkMem_modifyChunk,Finset.mem_erase,mem_heldChunks]
    split_ifs with hi
    · cases b.chunks[i]? <;> simp [hi]
    · simp [Ne.symm hi]
  exact congrArg (PolicyView.mk b.chunkBytes b.healthySamples b.restrictedSamples b.lastGrowthAt) hheld

lemma heldChunks_fillChunk (hlt : index<b.chunks.length) (hf : ∀ c, (f c).mem.isSome) :
    (b.modifyChunk index f).heldChunks = insert index b.heldChunks := by
  ext i
  rw [mem_heldChunks,chunkMem_modifyChunk,Finset.mem_insert,mem_heldChunks]
  split_ifs with hi
  · subst hi
    simp [hlt,hf]
  · simp [Ne.symm hi]

lemma lastAccessOf_modifyChunk (b : WriteThroughCacheBackend P O) (index i : ℕ)
    (hf : ∀ c, (f c).lastAccess=c.lastAccess) : (b.modifyChunk index f).lastAccessOf i = b.lastAccessOf i := by
  simp only [lastAccessOf,modifyChunk,List.getElem?_modify]
  cases b.chunks[i]? with
  | none => rfl
  | some c => split_ifs <;> simp [hf]

lemma evictOne_policyView (b : WriteThroughCacheBackend P O) (index : ℕ) (t : CacheTelemetry) :
    ({ (b.invalidateChunk index).modifyChunk index fun c => { c with mem := none} with
      telemetry := t}).policyView = { b.policyView with held := b.heldChunks.erase index} := by
  have hsame : (b.invalidateChunk index).policyView=b.policyView :=
    congrArg Prod.snd (b.invalidateChunk_view index)
  have hview := (b.invalidateChunk index).dropChunk_policyView index
  rwa [hsame,show (b.invalidateChunk index).heldChunks = b.heldChunks from
    congrArg PolicyView.held hsame] at hview

lemma Evicted.round (t : CacheTelemetry)
    (h : Evicted target { (b.invalidateChunk index).modifyChunk index fun c => { c with mem := none} with
      telemetry := t} b') (hindex : b.lruIndex=some index)
    (hover : target<b.heldChunks.card*b.chunkBytes) : Evicted target b b' := by
  obtain ⟨hin,hleast⟩ := lruIndex_spec hindex
  refine h.cons (b.evictOne_policyView index t) rfl (fun i => ?_) hin hleast hover
  exact (lastAccessOf_modifyChunk (b.invalidateChunk index) index i
    (f := fun c => {c with mem := none}) fun _ => rfl).trans
      (b.lastAccessOf_modifyChunk index i (f := CacheChunk.invalidate) fun _ => rfl)

lemma releaseLruLoop_evicted (target : ℕ) {fuel released : ℕ} (hfuel : b.heldChunks.card≤fuel)
    (hfits : b.heldChunks.card*b.chunkBytes<2^64) :
    Evicted target b (releaseLruLoop target fuel released b).2 := by
  induction fuel generalizing released b with
  | zero =>
    refine .refl ?_
    rw [Nat.le_zero.mp hfuel,Nat.zero_mul]
    exact Nat.zero_le _
  | succ fuel ih =>
    rw [releaseLruLoop,cachedBytes_eq,Nat.mod_eq_of_lt hfits]
    split_ifs with hover
    · have hne : b.heldChunks.Nonempty := by
        rw [←Finset.card_pos]
        by_contra hzero
        rw [Nat.eq_zero_of_not_pos hzero,Nat.zero_mul] at hover
        exact absurd hover (Nat.not_lt_zero _)
      obtain ⟨index,hindex⟩ := lruIndex_isSome hne
      rw [hindex]
      have hcard := Finset.card_erase_add_one (lruIndex_spec hindex).1
      refine Evicted.round _ (ih ?_ ?_) hindex hover
      · refine (congrArg (fun v : PolicyView => v.held.card) (b.evictOne_policyView index _)).trans_le ?_
        show (b.heldChunks.erase index).card≤fuel
        omega
      · refine (congrArg (fun v : PolicyView => v.held.card*v.chunkBytes)
          (b.evictOne_policyView index _)).trans_lt ?_
        exact (Nat.mul_le_mul_right _ Finset.card_erase_le).trans_lt hfits
    · exact .refl (not_lt.mp hover)

lemma releaseLruTo_evicted (hfits : b.heldChunks.card*b.chunkBytes<2^64) (target : ℕ) :
    Evicted target b (b.releaseLruTo target).2 := by
  refine releaseLruLoop_evicted target ?_ hfits
  rw [card_heldChunks]
  exact List.countP_le_length

end WriteThroughCacheBackend
end RamShared.OriginCache

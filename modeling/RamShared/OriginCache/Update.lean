import RamShared.OriginCache.Contents

/-! How the loops and the maintenance of the cache change the cached copy: an update takes a
range over piece by piece, a read only stamps chunks, and growing, shrinking and releasing
the cache add no byte. -/
namespace RamShared.OriginCache
open Lib Block

namespace WriteThroughCacheBackend
variable {P O : Type} [VramProvider P] [LawfulVram P]
variable {a : ℕ} {img : Image UInt8} (b : WriteThroughCacheBackend P O)

lemma cachedByte_storeMem_of_ne (provider : P) {index : ℕ} (mem : VramProvider.Mem P)
    (h : index ≠ a/b.chunkBytes) : (b.storeMem provider index mem).cachedByte a = b.cachedByte a :=
  (cachedByte_modifyChunk _ _ _ _).trans (if_neg h)

/-- A cached byte of a chunk that was written through comes from the new contents of the chunk; it
was cached before, or lies in the written range. -/
lemma cachedByte_markFullyCoveredBlocks (hb : 0<b.block) {index relative count : ℕ}
    {mem mem' : VramProvider.Mem P} (provider : P) {v : UInt8} (hi : index = a/b.chunkBytes)
    (hm : b.chunkMem index=some mem) (h : (((b.storeMem provider index mem').touch index).modifyChunk index
      (CacheChunk.markFullyCoveredBlocks b.block relative count)).cachedByte a=some v) :
    v = LawfulVram.contents mem' (a%b.chunkBytes) ∧
      (b.cachedByte a=some (LawfulVram.contents mem (a%b.chunkBytes)) ∨
        relative≤a%b.chunkBytes ∧ a%b.chunkBytes < relative+count) := by
  rw [cachedByte_modifyChunk,if_pos (by exact hi)] at h
  simp only [Option.bind_eq_some_iff] at h
  obtain ⟨c,hc,h⟩ := h
  simp only [touch,storeMem,modifyChunk,List.getElem?_modify,if_pos hi] at hc
  obtain ⟨c₀,hc₀,rfl⟩ : ∃ c₀, b.chunks[a/b.chunkBytes]?=some c₀ ∧
      {c₀ with mem := some mem', lastAccess := bump b.accessClock}=c := by
    rcases hx : b.chunks[a/b.chunkBytes]? with _ | c₀
    · simp [hx] at hc
    · exact ⟨c₀,rfl,by simpa [hx] using hc⟩
  have hm₀ : c₀.mem=some mem := by
    rw [chunkMem,hi,hc₀] at hm
    exact hm
  obtain ⟨⟨m,hmem,hv⟩,hsrc⟩ := CacheChunk.byteAt_markFullyCoveredBlocks hb h
  cases hmem
  refine ⟨hv.symm,?_⟩
  rcases hsrc with hv | hin
  · left
    simp only [cachedByte,hc₀,Option.bind_some,CacheChunk.byteAt,hm₀]
    exact if_pos hv
  · exact Or.inr hin

lemma cachedByte_updatePiece (hb : 0<b.block) (p : Piece) (data : List UInt8) (countRefusals : Bool) {v : UInt8}
    (h : (b.updatePiece p data countRefusals).cachedByte a=some v) :
    (b.cachedByte a=some v ∧ p.index ≠ a/b.chunkBytes) ∨
      ∃ mem, p.index = a/b.chunkBytes ∧ b.chunkMem p.index=some mem ∧
        v = (LawfulVram.contents mem).store p.relative data (a%b.chunkBytes) ∧
        (b.cachedByte a=some (LawfulVram.contents mem (a%b.chunkBytes)) ∨
          p.relative≤a%b.chunkBytes ∧ a%b.chunkBytes<p.relative+p.count) := by
  unfold updatePiece at h
  rcases hm : b.chunkMem p.index with _ | mem
  · left
    have h' : b.cachedByte a=some v := by
      rw [hm] at h
      cases countRefusals <;> exact h
    refine ⟨h',fun hi => ?_⟩
    rw [b.cachedByte_of_chunkMem_none (by rwa [←hi])] at h'
    cases h'
  have hw := LawfulVram.writeAt_ok b.provider mem p.relative data
  rw [hm] at h
  simp only at h
  generalize VramProvider.writeAt b.provider mem p.relative data = x at hw h
  rcases x with ⟨e | ⟨⟩,mem',provider⟩
  · left
    have hi : p.index ≠ a/b.chunkBytes := by
      intro hi
      simp only at h
      rw [cachedByte_invalidateChunk _ (by exact hi)] at h
      cases h
    have h' := forgets_invalidateChunk _ _ a v h
    exact ⟨(b.cachedByte_storeMem_of_ne provider mem' hi).symm.trans h',hi⟩
  · simp only at h hw
    by_cases hi : p.index = a/b.chunkBytes
    · obtain ⟨hv,hsrc⟩ := b.cachedByte_markFullyCoveredBlocks hb provider hi hm h
      exact .inr ⟨mem,hi,rfl,by rw [←(hw trivial).2,hv],hsrc⟩
    · left
      rw [cachedByte_modifyChunk,if_neg (by exact hi)] at h
      have h' := forgets_touch _ _ a v h
      exact ⟨(b.cachedByte_storeMem_of_ne provider mem' hi).symm.trans h',hi⟩

lemma updatePiece_coherentOutside (hb : 0<b.block) (hc : 0<b.chunkBytes) {off len : ℕ}
    (countRefusals : Bool) (h : CoherentOutside img b.cachedByte off (off+len)) : CoherentOutside img
      (b.updatePiece ⟨off/b.chunkBytes,off%b.chunkBytes,firstCount b.chunkBytes off len⟩
        (img.load off (firstCount b.chunkBytes off len)) countRefusals).cachedByte
      (off+firstCount b.chunkBytes off len) (off+len) := by
  intro a v ha ho
  have hle := firstCount_le b.chunkBytes off len
  rcases b.cachedByte_updatePiece hb _ _ _ ha with ⟨hold,hne⟩ | ⟨mem,hi,-,hv,hsrc⟩
  · refine h a v hold (or_iff_not_imp_left.mpr fun hlo => ?_)
    by_contra hhi
    have hlt : a<off+firstCount b.chunkBytes off len := by omega
    exact hne (div_of_mem_firstPiece hc (not_lt.mp hlo) hlt).1.symm
  · have hrel := relative_mem_iff (firstCount b.chunkBytes off len) hi
    simp only at hv hsrc
    by_cases hmem : off≤a ∧ a<off+firstCount b.chunkBytes off len
    · have hm := (div_of_mem_firstPiece hc hmem.1 hmem.2).2
      rw [hv,hm,Image.store_load_apply _ _ (by omega),Nat.add_sub_cancel' hmem.1]
    · rw [←hrel] at hmem
      rw [Image.store_outside _ _ (by rw [Image.length_load]; omega)] at hv
      exact h a v (hv ▸ hsrc.resolve_right hmem) (by omega)

lemma updateCachedLoop_coherent {chunk : ℕ} (hc : 0<chunk) (countRefusals : Bool) (off len : ℕ) :
    ∀ b : WriteThroughCacheBackend P O, 0<b.block → b.chunkBytes=chunk →
      CoherentOutside img b.cachedByte off (off+len) → Coherent img
        (updateCachedLoop countRefusals (pieces chunk off len) (img.load off len) b).cachedByte := by
  refine pieces_induction hc
    (P := fun off len ps => ∀ b : WriteThroughCacheBackend P O, 0<b.block →
      b.chunkBytes=chunk → CoherentOutside img b.cachedByte off (off+len) →
      Coherent img (updateCachedLoop countRefusals ps (img.load off len) b).cachedByte)
    (fun off b _ _ h => h.coherent (le_refl _)) (fun off len hl ih b hb hbc h => ?_) off len
  have hle := firstCount_le chunk off len
  subst hbc
  have hstep := b.updatePiece_coherentOutside hb hc countRefusals h
  simp only [updateCachedLoop]
  rw [Image.take_load _ _ _ _ hle,Image.drop_load _ _ _ _ hle]
  refine ih _ ?_ ?_ ?_
  · exact lt_of_lt_of_eq hb (congrArg (fun v => v.1.block) (b.updatePiece_view _ _ _)).symm
  · exact congrArg (fun v => v.1.chunkBytes) (b.updatePiece_view _ _ _)
  · rwa [show off+firstCount b.chunkBytes off len+(len-firstCount b.chunkBytes off len) =
      off+len by omega]

/-- Reading a covered range through the cache returns the origin's bytes. The regions
themselves stay in place while the loop stamps the chunks it visits. -/
lemma cacheReadLoop_ok {chunk : ℕ} (hc : 0<chunk) (off len : ℕ) : ∀ b : WriteThroughCacheBackend P O, ∀ buf,
      (∀ a, off≤a → a<off+len → ∀ mem, b.chunkMem (a/chunk)=some mem →
        LawfulVram.contents mem (a%chunk) = img a) →
      (cacheReadLoop (pieces chunk off len) b).1=.ok buf → buf = img.load off len := by
  refine pieces_induction hc
    (P := fun off len ps => ∀ b : WriteThroughCacheBackend P O, ∀ buf,
      (∀ a, off≤a → a<off+len → ∀ mem, b.chunkMem (a/chunk)=some mem →
        LawfulVram.contents mem (a%chunk) = img a) →
      (cacheReadLoop ps b).1=.ok buf → buf = img.load off len)
    (fun off b buf _ h => ?_) (fun off len hl ih b buf hmem h => ?_) off len
  · cases h
    rfl
  · have hle := firstCount_le chunk off len
    rw [cacheReadLoop] at h
    dsimp only at h
    rcases hm : b.chunkMem (off/chunk) with _ | mem
    · simp [hm] at h
    rw [hm] at h
    dsimp only at h
    have hr := LawfulVram.readAt_ok b.provider mem (off%chunk) (firstCount chunk off len)
    generalize VramProvider.readAt b.provider mem (off%chunk) (firstCount chunk off len)=x
      at hr h
    rcases x with ⟨e | bytes,provider⟩
    · cases h
    dsimp only at hr h
    have hi := ih (({b with provider := provider}).touch (off/chunk))
    generalize cacheReadLoop _ (({b with provider := provider}).touch (off/chunk))=y
      at hi h
    rcases y with ⟨e | rest,b'⟩
    · cases h
    have hrest := hi rest (fun a h₁ h₂ mem' hm' => ?_) rfl
    · cases h
      have hfirst : (LawfulVram.contents mem).load (off%chunk) (firstCount chunk off len) =
          img.load off (firstCount chunk off len) := by
        refine Image.load_congr fun i hi => ?_
        obtain ⟨hd,hr⟩ := div_of_mem_firstPiece hc (Nat.le_add_right off i)
          (Nat.add_lt_add_left hi off)
        rw [←hmem (off+i) (by omega) (by omega) mem (by rwa [hd]),hr,Nat.add_sub_cancel_left]
      rw [(hr bytes rfl).2,hrest,hfirst,←Image.load_add,Nat.add_sub_cancel' hle]
    · refine hmem a (by omega) (by omega) mem' ?_
      rwa [chunkMem_touch] at hm'

lemma forgets_cacheReadLoop (ps : List Piece) (b : WriteThroughCacheBackend P O) :
    Forgets b.cachedByte (cacheReadLoop ps b).2.cachedByte := by
  induction ps generalizing b with
  | nil => exact Forgets.refl _
  | cons p ps ih =>
    rw [cacheReadLoop]
    split
    · exact Forgets.refl _
    · split
      · exact Forgets.refl _
      · rename_i provider _
        have h := (({b with provider := provider}).forgets_touch p.index).trans
          (ih (({b with provider := provider}).touch p.index))
        split <;> rename_i hl <;> rw [hl] at h <;> exact h

lemma forgets_releaseLruLoop (target fuel released : ℕ) (b : WriteThroughCacheBackend P O) :
    Forgets b.cachedByte (releaseLruLoop target fuel released b).2.cachedByte := by
  induction fuel generalizing released b with
  | zero => exact Forgets.refl _
  | succ fuel ih =>
    rw [releaseLruLoop]
    split_ifs
    · split
      · exact Forgets.refl _
      · rename_i index _
        refine (b.forgets_invalidateChunk index).trans (Forgets.trans ?_ (ih _ _))
        exact forgets_modifyChunk _ index fun c r v h => by simp [CacheChunk.byteAt] at h
    · exact Forgets.refl _

lemma forgets_allocateOneChunk : Forgets b.cachedByte b.allocateOneChunk.2.cachedByte := by
  unfold allocateOneChunk
  split
  · exact Forgets.refl _
  · split
    · exact Forgets.refl _
    · split
      · exact Forgets.refl _
      · refine forgets_modifyChunk _ _ fun c r v h => ?_
        have := CacheChunk.getD_map_false c.valid (r/b.block)
        simp only [CacheChunk.byteAt,this] at h
        simp at h

lemma forgets_reclaim (restricted : Bool) (target : ℕ) :
    Forgets b.cachedByte (b.reclaim restricted target).2.cachedByte := by
  unfold reclaim
  split_ifs
  · exact forgets_releaseLruLoop _ _ _ b
  · exact Forgets.refl _

lemma forgets_grow (restricted : Bool) (target now : ℕ) :
    Forgets b.cachedByte (b.grow restricted target now).2.cachedByte := by
  unfold grow
  split_ifs
  · have h := ({b with lastGrowthAt := some now}).forgets_allocateOneChunk
    split <;> rename_i hl <;> rw [hl] at h <;> exact h
  · exact Forgets.refl _

lemma forgets_watchExcess (target now : ℕ) : Forgets b.cachedByte (b.watchExcess target now).cachedByte := by
  unfold watchExcess
  split_ifs <;> exact Forgets.refl _

lemma forgets_observeGpu (sample : Option GpuSample) (now : ℕ) :
    Forgets b.cachedByte (b.observeGpu sample now).2.cachedByte := by
  unfold observeGpu
  refine Forgets.trans ?_ (Forgets.trans (forgets_grow _ _ _ now) (forgets_watchExcess _ _ _))
  refine Forgets.trans ?_ (forgets_reclaim _ _ _)
  split_ifs <;> exact Forgets.refl _

end WriteThroughCacheBackend
end RamShared.OriginCache

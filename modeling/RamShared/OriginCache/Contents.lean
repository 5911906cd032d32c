import RamShared.OriginCache.Holdings

/-! The bytes a backend would serve from VRAM, as a partial copy of the origin, and how the
cache operations change that copy. -/
namespace RamShared.OriginCache
open Lib Block
open VramProvider (Mem)

namespace CacheChunk
variable {P : Type} [VramProvider P] [LawfulVram P]

/-- The byte at `r` counts as cached when its block is valid in the current generation. -/
def byteAt (block : ℕ) (c : CacheChunk (Mem P)) (r : ℕ) : Option UInt8 :=
  if c.validityGeneration=c.generation ∧ c.valid.getD (r/block) false=true then
    c.mem.map fun m => LawfulVram.contents m r
  else none

lemma getD_map_false (valid : List Bool) (i : ℕ) : (valid.map fun _ => false).getD i false=false := by
  rw [List.getD_eq_getElem?_getD,List.getElem?_map]
  cases valid[i]? <;> rfl

@[simp] lemma byteAt_invalidate (block : ℕ) (c : CacheChunk (Mem P)) (r : ℕ) :
    c.invalidate.byteAt block r=none := by
  have := getD_map_false c.valid (r/block)
  simp only [byteAt,invalidate,this]
  simp

lemma byteAt_of_covers {block relative count r : ℕ} {c : CacheChunk (Mem P)}
    (hb : 0<block) (h : c.covers block relative count=true) {m : Mem P}
    (hm : c.mem=some m) (h₁ : relative ≤ r) (h₂ : r < relative+count) :
    c.byteAt block r=some (LawfulVram.contents m r) := by
  simp only [covers,Bool.and_eq_true,decide_eq_true_eq,List.all_eq_true,
    List.mem_range'_1] at h
  obtain ⟨⟨-,hg⟩,hv⟩ := h
  have hlow : relative/block ≤ r/block := Nat.div_le_div_right h₁
  have hhigh : r/block<divCeil (relative+count) block := div_lt_divCeil hb h₂
  have := hv (r/block) ⟨hlow,by omega⟩
  simp only [byteAt,hg,this,hm]
  rfl

/-- After marking, a byte is cached because it already was or because it lies in a block that
the range covers completely. -/
lemma byteAt_markFullyCoveredBlocks {block relative len r : ℕ} (hb : 0<block)
    {c : CacheChunk (Mem P)} {v : UInt8}
    (h : (c.markFullyCoveredBlocks block relative len).byteAt block r=some v) :
    (∃ m, c.mem=some m ∧ LawfulVram.contents m r=v) ∧
      ((c.validityGeneration=c.generation ∧ c.valid.getD (r/block) false=true) ∨
        (relative ≤ r ∧ r < relative+len)) := by
  unfold byteAt at h
  split_ifs at h with hc
  obtain ⟨-,hv⟩ := hc
  refine ⟨by simpa [markFullyCoveredBlocks] using h,?_⟩
  simp only [markFullyCoveredBlocks,List.getD_eq_getElem?_getD,List.getElem?_mapIdx] at hv
  by_cases hin : divCeil relative block ≤ r/block ∧ r/block<(relative+len)/block
  · right
    have hlow := le_divCeil_mul hb relative
    have hr := Nat.div_mul_le_self r block
    have hle : divCeil relative block*block ≤ r/block*block :=
      Nat.mul_le_mul_right block hin.1
    have hend : (r/block+1)*block≤(relative+len)/block*block :=
      Nat.mul_le_mul_right block hin.2
    have hlt := Nat.lt_div_mul_add hb (a := r)
    have hq := Nat.div_mul_le_self (relative+len) block
    rw [Nat.add_mul] at hend
    omega
  · left
    have hg : c.validityGeneration=c.generation := by
      by_contra hne
      rw [if_pos hne,List.getElem?_map] at hv
      rcases hx : c.valid[r/block]? with _ | x
      · simp [hx] at hv
      · simp only [hx,Option.map_some,Option.getD_some,Bool.false_or,Bool.and_eq_true,
          decide_eq_true_eq] at hv
        exact hin hv
    rw [if_neg (not_not.mpr hg)] at hv
    refine ⟨hg,?_⟩
    rw [List.getD_eq_getElem?_getD]
    rcases hx : c.valid[r/block]? with _ | x
    · simp [hx] at hv
    · simp only [hx,Option.map_some,Option.getD_some,Bool.or_eq_true,Bool.and_eq_true,
        decide_eq_true_eq] at hv
      rcases hv with hv | hv
      · simpa using hv
      · exact absurd hv hin

end CacheChunk

namespace WriteThroughCacheBackend
variable {P O : Type} [VramProvider P] [LawfulVram P]

/-- The partial copy of the origin that the cache holds. -/
def cachedByte (b : WriteThroughCacheBackend P O) : Copy UInt8 := fun a =>
  b.chunks[a/b.chunkBytes]?.bind fun c => c.byteAt b.block (a%b.chunkBytes)

variable (b : WriteThroughCacheBackend P O) (index : ℕ)

lemma cachedByte_modifyChunk (f : CacheChunk (Mem P) → CacheChunk (Mem P)) (a : ℕ) :
    (b.modifyChunk index f).cachedByte a = if index = a/b.chunkBytes then
        b.chunks[a/b.chunkBytes]?.bind fun c => (f c).byteAt b.block (a%b.chunkBytes) else b.cachedByte a := by
  simp only [cachedByte,modifyChunk,List.getElem?_modify]
  split_ifs <;> cases b.chunks[a/b.chunkBytes]? <;> rfl

lemma forgets_modifyChunk {f : CacheChunk (Mem P) → CacheChunk (Mem P)}
    (hf : ∀ c r v, (f c).byteAt b.block r=some v → c.byteAt b.block r=some v) :
    Forgets b.cachedByte (b.modifyChunk index f).cachedByte := by
  intro a v h
  rw [cachedByte_modifyChunk] at h
  split_ifs at h with hi
  · simp only [Option.bind_eq_some_iff] at h
    obtain ⟨c,hc,h⟩ := h
    simp only [cachedByte,hc,Option.bind_some]
    exact hf c _ v h
  · exact h

lemma forgets_touch : Forgets b.cachedByte (b.touch index).cachedByte :=
  forgets_modifyChunk ({b with accessClock := bump b.accessClock}) index fun _ _ _ h => h

lemma forgets_invalidateChunk : Forgets b.cachedByte (b.invalidateChunk index).cachedByte :=
  b.forgets_modifyChunk index fun c r v h => by simp at h

lemma cachedByte_invalidateChunk {index a : ℕ} (h : index = a/b.chunkBytes) :
    (b.invalidateChunk index).cachedByte a=none := by
  have := b.cachedByte_modifyChunk index CacheChunk.invalidate a
  rw [if_pos h] at this
  refine this.trans ?_
  cases b.chunks[a/b.chunkBytes]? <;> simp

lemma cachedByte_of_chunkMem_none {a : ℕ} (h : b.chunkMem (a/b.chunkBytes)=none) : b.cachedByte a=none := by
  unfold chunkMem at h
  unfold cachedByte
  rcases hc : b.chunks[a/b.chunkBytes]? with _ | c
  · rfl
  · simp only [hc,Option.bind_some] at h ⊢
    simp [CacheChunk.byteAt,h]

lemma invalidateCached_spec (indices : List ℕ) : Forgets b.cachedByte (b.invalidateCached indices).cachedByte ∧
      ∀ a, a/b.chunkBytes∈indices → (b.invalidateCached indices).cachedByte a=none := by
  induction indices generalizing b with
  | nil => exact ⟨Forgets.refl _,fun _ h => by simp at h⟩
  | cons index indices ih =>
    generalize hb : (if (b.chunkMem index).isSome then b.invalidateChunk index else b)=b'
    have hch : b'.chunkBytes=b.chunkBytes := by rw [←hb]; split_ifs <;> rfl
    have hf : Forgets b.cachedByte b'.cachedByte := by
      rw [←hb]
      split_ifs
      · exact b.forgets_invalidateChunk index
      · exact Forgets.refl _
    have hd : ∀ a, a/b.chunkBytes=index → b'.cachedByte a=none := by
      intro a ha
      rw [←hb]
      split_ifs with hm
      · exact b.cachedByte_invalidateChunk ha.symm
      · exact b.cachedByte_of_chunkMem_none (by rw [ha]; simpa using hm)
    have he : b.invalidateCached (index::indices) = b'.invalidateCached indices := by
      rw [←hb]; rfl
    obtain ⟨hf',hd'⟩ := ih b'
    rw [he]
    refine ⟨hf.trans hf',fun a ha => ?_⟩
    rcases List.mem_cons.mp ha with ha | ha
    · exact hf'.none (hd a ha)
    · exact hd' a (by rwa [hch])

lemma invalidateCachedRange_spec (off len : ℕ) :
    Forgets b.cachedByte (b.invalidateCachedRange off len).cachedByte ∧
      ∀ a, off≤a → a<off+len → (b.invalidateCachedRange off len).cachedByte a=none := by
  unfold invalidateCachedRange
  split_ifs with hl
  · exact ⟨Forgets.refl _,fun a h₁ h₂ => by omega⟩
  · refine ⟨(b.invalidateCached_spec _).1,fun a h₁ h₂ => (b.invalidateCached_spec _).2 a ?_⟩
    have hlow : off/b.chunkBytes≤a/b.chunkBytes := Nat.div_le_div_right h₁
    have hhigh : a/b.chunkBytes≤(off+len-1)/b.chunkBytes :=
      Nat.div_le_div_right (by omega)
    rw [List.mem_range'_1]
    omega

lemma forgets_invalidateAllCached :
    Forgets b.cachedByte b.invalidateAllCached.cachedByte := (b.invalidateCached_spec _).1

lemma cachedByte_invalidateAllCached (a : ℕ) : b.invalidateAllCached.cachedByte a=none := by
  by_cases h : a/b.chunkBytes<b.chunks.length
  · exact (b.invalidateCached_spec _).2 a (List.mem_range.mpr h)
  · refine b.forgets_invalidateAllCached.none ?_
    unfold cachedByte
    rw [List.getElem?_eq_none_iff.mpr (by omega)]
    rfl

end WriteThroughCacheBackend
end RamShared.OriginCache

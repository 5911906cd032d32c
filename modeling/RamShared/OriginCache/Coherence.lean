import RamShared.OriginCache.Update

/-! The write-through cache never serves a stale byte. The invariant is that the cached bytes
form a coherent partial copy of the origin; a write opens an exception range that the
update of the cache closes piece by piece. -/
namespace RamShared.OriginCache
open Lib Block

namespace WriteThroughCacheBackend
variable {P O : Type} [VramProvider P] [LawfulVram P]
variable [OriginStorage O] [LawfulOrigin O]
open LawfulOrigin

/-- A usable geometry, and cached bytes that agree with the origin outside `[lo, hi)`. -/
structure SoundOutside (b : WriteThroughCacheBackend P O) (lo hi : ℕ) : Prop where
  block_pos : 0<b.block
  chunk_pos : 0<b.chunkBytes
  coherent : CoherentOutside (volatile b.origin) b.cachedByte lo hi

def Sound (b : WriteThroughCacheBackend P O) : Prop := b.SoundOutside 0 0

variable {b : WriteThroughCacheBackend P O}

lemma Sound.coherent (h : b.Sound) :
    Coherent (volatile b.origin) b.cachedByte := (SoundOutside.coherent h).coherent (le_refl 0)

lemma Sound.outside (h : b.Sound) (lo hi : ℕ) :
    b.SoundOutside lo hi := ⟨h.block_pos,h.chunk_pos,h.coherent.outside lo hi⟩

lemma SoundOutside.forget {b' : WriteThroughCacheBackend P O} {lo hi : ℕ} (h : b.SoundOutside lo hi)
    (hb : b'.block=b.block) (hc : b'.chunkBytes=b.chunkBytes)
    (ho : volatile b'.origin = volatile b.origin) (hf : Forgets b.cachedByte b'.cachedByte) :
    b'.SoundOutside lo hi :=
  ⟨hb ▸ h.block_pos,hc ▸ h.chunk_pos,ho ▸ h.coherent.forget hf⟩

lemma SoundOutside.of_view {b' : WriteThroughCacheBackend P O} {lo hi : ℕ}
    (h : b.SoundOutside lo hi) (hv : b'.originView=b.originView)
    (hf : Forgets b.cachedByte b'.cachedByte) : b'.SoundOutside lo hi :=
  h.forget (congrArg OriginView.block hv) (congrArg OriginView.chunkBytes hv)
    (congrArg (fun v => volatile v.origin) hv) hf

lemma updateCachedChunks_sound {off : ℕ} {data : List UInt8} (h : b.SoundOutside off (off+data.length))
    (hd : data = (volatile b.origin).load off data.length) (countRefusals : Bool) :
    (b.updateCachedChunks off data countRefusals).Sound := by
  have hv := congrArg Prod.fst (b.updateCachedChunks_view off data countRefusals)
  have hc := updateCachedLoop_coherent h.chunk_pos countRefusals off data.length b h.block_pos rfl
    h.coherent
  rw [←hd] at hc
  refine ⟨?_,?_,?_⟩
  · exact lt_of_lt_of_eq h.block_pos (congrArg OriginView.block hv).symm
  · exact lt_of_lt_of_eq h.chunk_pos (congrArg OriginView.chunkBytes hv).symm
  · rw [show (b.updateCachedChunks off data countRefusals).origin = b.origin from
      congrArg OriginView.origin hv]
    exact hc.outside 0 0

lemma promote_sound (h : b.Sound) {off : ℕ} {data : List UInt8}
    (hd : data = (volatile b.origin).load off data.length) : (b.promote off data).Sound := by
  unfold promote
  split_ifs
  · exact updateCachedChunks_sound (h.outside _ _) hd true
  · exact h.forget rfl rfl rfl (Forgets.refl _)

lemma writeOrigin_sound (h : b.Sound) (off : ℕ) (data : List UInt8) :
    (∀ e, (b.writeOrigin off data).1=.error e → (b.writeOrigin off data).2.Sound) ∧
    ((b.writeOrigin off data).1=.ok () → (b.writeOrigin off data).2.SoundOutside off (off+data.length) ∧
      data = (volatile (b.writeOrigin off data).2.origin).load off data.length) := by
  have hout := fun a => writeAllAt_outside b.origin off data (a := a)
  have hok : (writeAllAt b.origin off data).1=.ok () → _ := writeAllAt_ok
  unfold writeOrigin
  generalize writeAllAt b.origin off data = x at hout hok ⊢
  rcases x with ⟨e | ⟨⟩,origin⟩
  · refine ⟨fun _ _ => ?_,fun h' => absurd h' (by simp)⟩
    dsimp only
    generalize hb' : ({b with origin := origin}).invalidateCachedRange off data.length=b'
    obtain ⟨hf,hd⟩ := ({b with origin := origin}).invalidateCachedRange_spec off data.length
    have hv := congrArg Prod.fst (({b with origin := origin}).invalidateCachedRange_view off data.length)
    rw [hb'] at hf hd hv
    have hs : b'.SoundOutside off (off+data.length) :=
      (⟨h.block_pos,h.chunk_pos,h.coherent.of_change hout⟩ :
        ({b with origin := origin}).SoundOutside off (off+data.length)).of_view hv hf
    exact ⟨hs.block_pos,hs.chunk_pos,(hs.coherent.drop (Forgets.refl _) hd).outside 0 0⟩
  · refine ⟨fun _ h' => absurd h' (by simp),fun _ => ⟨⟨h.block_pos,h.chunk_pos,?_⟩,?_⟩⟩
    · exact h.coherent.of_change hout
    · simp only at hok ⊢
      rw [hok trivial,Image.load_store_self]

lemma syncDirtyOrigin_sound {lo hi : ℕ} (h : b.SoundOutside lo hi) :
    (∀ e, b.syncDirtyOrigin.1=.error e → b.syncDirtyOrigin.2.Sound) ∧
    b.syncDirtyOrigin.2.SoundOutside lo hi ∧
    volatile b.syncDirtyOrigin.2.origin = volatile b.origin := by
  have hsync := syncData_volatile b.origin
  unfold syncDirtyOrigin
  split_ifs
  · exact ⟨fun _ h' => absurd h' (by simp),h,rfl⟩
  generalize OriginStorage.syncData b.origin = x at hsync ⊢
  rcases x with ⟨e | ⟨⟩,origin⟩
  · have hv := congrArg Prod.fst (({b with origin := origin}).invalidateAllCached_view)
    have hf := ({b with origin := origin}).forgets_invalidateAllCached
    have hn := ({b with origin := origin}).cachedByte_invalidateAllCached
    dsimp only
    generalize ({b with origin := origin}).invalidateAllCached = b' at hv hf hn ⊢
    have ho : volatile b'.origin = volatile b.origin :=
      (congrArg (fun v => volatile v.origin) hv).trans hsync
    have hs : b'.SoundOutside lo hi :=
      h.forget (congrArg OriginView.block hv) (congrArg OriginView.chunkBytes hv) ho hf
    refine ⟨fun _ _ => ⟨hs.block_pos,hs.chunk_pos,fun a v ha => ?_⟩,hs.forget rfl rfl rfl
      (Forgets.refl _),ho⟩
    exact absurd (ha.symm.trans (hn a)) (by simp)
  · exact ⟨fun _ h' => absurd h' (by simp),h.forget rfl rfl hsync (Forgets.refl _),hsync⟩

section
variable (h : b.Sound)
include h

lemma cachedByte_of_rangeIsCached {off len : ℕ} (hr : b.rangeIsCached off len=true)
    {a : ℕ} (h₁ : off≤a) (h₂ : a<off+len) {mem : VramProvider.Mem P}
    (hm : b.chunkMem (a/b.chunkBytes)=some mem) :
    b.cachedByte a=some (LawfulVram.contents mem (a%b.chunkBytes)) := by
  obtain ⟨p,hp,hi,hlo,hhi⟩ := exists_piece h.chunk_pos off len h₁ h₂
  have hcov := List.all_eq_true.mp hr p hp
  rw [hi] at hcov
  rcases hx : b.chunks[a/b.chunkBytes]? with _ | c
  · simp [hx] at hcov
  rw [hx,Option.any_some] at hcov
  rw [chunkMem,hx] at hm
  simp only [cachedByte,hx,Option.bind_some]
  exact CacheChunk.byteAt_of_covers h.block_pos hcov hm hlo hhi

lemma readFromOrigin_sound (off len : ℕ) : (b.readFromOrigin off len).2.Sound ∧
    volatile (b.readFromOrigin off len).2.origin = volatile b.origin ∧
    ∀ buf, (b.readFromOrigin off len).1=.ok buf → buf = (volatile b.origin).load off len := by
  have hv := readExactAt_volatile b.origin off len
  have hok : ∀ buf, (readExactAt b.origin off len).1=.ok buf → _ :=
    fun buf => readExactAt_ok
  unfold readFromOrigin
  generalize readExactAt b.origin off len = x at hv hok ⊢
  rcases x with ⟨e | buf,origin⟩
  · exact ⟨h.forget rfl rfl hv (Forgets.refl _),hv,fun _ h' => by cases h'⟩
  have hbuf := hok buf rfl
  dsimp only at hv ⊢
  refine ⟨promote_sound ?_ ?_,?_,?_⟩
  · exact h.forget rfl rfl hv (Forgets.refl _)
  · rw [hbuf,Image.length_load]
    exact congrArg (Image.load · off len) hv.symm
  · exact (congrArg (fun v : OriginView O × PolicyView => volatile v.1.origin) (promote_view _ off buf)).trans hv
  · rintro _ ⟨⟩
    exact hbuf

lemma readAt_sound (off len : ℕ) : (b.readAt off len).2.Sound ∧
    volatile (b.readAt off len).2.origin = volatile b.origin ∧
    ∀ buf, (b.readAt off len).1=.ok buf → buf = (volatile b.origin).load off len := by
  have herr : ∀ e : IoError, b.Sound ∧ volatile b.origin = volatile b.origin ∧
      ∀ buf, (Except.error e : Except IoError (List UInt8))=.ok buf →
        buf = (volatile b.origin).load off len :=
    fun e => ⟨h,rfl,fun _ h' => by cases h'⟩
  unfold readAt
  split
  · exact herr _
  split
  · exact herr _
  split_ifs with hl hr
  · subst hl
    refine ⟨h,rfl,?_⟩
    rintro _ ⟨⟩
    rfl
  · have hf := forgets_cacheReadLoop (pieces b.chunkBytes off len) b
    have hv := congrArg Prod.fst (b.cacheRead_view off len)
    have hread : ∀ buf, (b.cacheRead off len).1=.ok buf →
        buf = (volatile b.origin).load off len :=
      fun buf => cacheReadLoop_ok h.chunk_pos off len b buf fun a h₁ h₂ mem hm =>
        h.coherent a _ (cachedByte_of_rangeIsCached h hr h₁ h₂ hm)
    change Forgets b.cachedByte (b.cacheRead off len).2.cachedByte at hf
    generalize b.cacheRead off len = x at hf hv hread ⊢
    rcases x with ⟨index | buf,b'⟩
    · have hs : ({ b' with telemetry := { b'.telemetry with
          cacheReadFailures := bump b'.telemetry.cacheReadFailures}} :
            WriteThroughCacheBackend P O).Sound := h.of_view hv hf
      have hi := hs.of_view (congrArg Prod.fst (invalidateChunk_view _ index))
        (forgets_invalidateChunk _ index)
      obtain ⟨h₁,h₂,h₃⟩ := readFromOrigin_sound hi off len
      have ho := congrArg (fun v => volatile v.origin) hv
      exact ⟨h₁,h₂.trans ho,fun buf hb => (h₃ buf hb).trans (congrArg (Image.load · off len) ho)⟩
    · refine ⟨h.of_view hv hf,congrArg (fun v => volatile v.origin) hv,?_⟩
      rintro _ ⟨⟩
      exact hread buf rfl
  · exact readFromOrigin_sound h off len

lemma writeAt_sound (off : ℕ) (data : List UInt8) : (b.writeAt off data).2.Sound := by
  unfold writeAt
  split
  · exact h
  split
  · exact h
  split_ifs
  · exact h
  obtain ⟨herr,hok⟩ := writeOrigin_sound h off data
  generalize b.writeOrigin off data = x at herr hok ⊢
  rcases x with ⟨e | ⟨⟩,b'⟩
  · exact herr e rfl
  · obtain ⟨hs,hd⟩ := hok rfl
    dsimp only at hs hd ⊢
    refine updateCachedChunks_sound ?_ ?_ false
    · exact hs.forget rfl rfl rfl (Forgets.refl _)
    · exact hd

lemma writeAtWithOptions_sound (off : ℕ) (data : List UInt8) (options : WriteOptions) :
    (b.writeAtWithOptions off data options).2.Sound := by
  unfold writeAtWithOptions
  split
  · exact writeAt_sound h off data
  split
  · exact h
  split
  · exact h
  split
  · exact h
  obtain ⟨herr,hok⟩ := writeOrigin_sound h off data
  generalize b.writeOrigin off data = x at herr hok ⊢
  rcases x with ⟨e | ⟨⟩,b'⟩
  · exact herr e rfl
  obtain ⟨hs,hd⟩ := hok rfl
  obtain ⟨serr,hs',ho⟩ := syncDirtyOrigin_sound hs
  dsimp only at hd ⊢
  generalize b'.syncDirtyOrigin = y at serr hs' ho ⊢
  rcases y with ⟨e | ⟨⟩,b''⟩
  · exact serr e rfl
  · exact updateCachedChunks_sound hs' (hd.trans (congrArg (Image.load · off data.length) ho.symm))
      false

lemma flush_sound : b.flush.2.Sound := by
  unfold flush
  split
  · exact h
  · exact (syncDirtyOrigin_sound h).2.1

lemma recordProbe_sound : b.recordProbe.Sound := by
  unfold recordProbe
  dsimp only
  split_ifs <;> exact h.forget rfl rfl rfl (Forgets.refl _)

lemma probeOrigin_sound : b.probeOrigin.2.Sound := by
  have hr := readExactAt_volatile b.origin 0 b.block
  unfold probeOrigin
  generalize readExactAt b.origin 0 b.block = x at hr ⊢
  rcases x with ⟨e | bytes,origin⟩
  · exact h.forget rfl rfl hr (Forgets.refl _)
  have hsync := (syncData_volatile origin).trans hr
  dsimp only
  generalize OriginStorage.syncData origin = y at hsync ⊢
  rcases y with ⟨e | ⟨⟩,origin'⟩
  · exact h.forget rfl rfl hsync (Forgets.refl _)
  · exact recordProbe_sound (h.forget rfl rfl hsync (Forgets.refl _))

lemma step_sound (op : Op) : (b.step op).Sound := by
  cases op with
  | readAt off len => exact (readAt_sound h off len).1
  | writeAt off data => exact writeAt_sound h off data
  | writeAtWithOptions off data options => exact writeAtWithOptions_sound h off data options
  | flush => exact flush_sound h
  | observeGpu sample now =>
    exact h.of_view (b.observeGpu_originView sample now) (b.forgets_observeGpu sample now)
  | setPhysicalCapBytes capBytes => exact h.forget rfl rfl rfl (Forgets.refl _)
  | releaseCache =>
    exact h.of_view b.releaseCache_originView (forgets_releaseLruLoop _ _ _ b)
  | probeOrigin => exact probeOrigin_sound h

end

lemma withChunkBytes_sound {provider : P} {origin : O} {size block chunkBytes : ℕ}
    (h : withChunkBytes provider origin size block chunkBytes=.ok b) : b.Sound := by
  unfold withChunkBytes at h
  split_ifs at h with hg
  cases h
  push Not at hg
  refine ⟨Nat.pos_of_ne_zero hg.2.1,Nat.pos_of_ne_zero hg.2.2.1,fun a v ha => ?_⟩
  simp only [cachedByte,List.getElem?_map,Option.bind_map,Option.bind_eq_some_iff] at ha
  obtain ⟨index,-,ha⟩ := ha
  simp [CacheChunk.byteAt] at ha

/-- Whatever operations a backend has been through, and however its origin and its VRAM behaved,
a read that succeeds returns the bytes its origin holds at that moment. -/
theorem readAt_never_stale (provider : P) (origin : O) (size block chunkBytes : ℕ)
    {b : WriteThroughCacheBackend P O}
    (h : withChunkBytes provider origin size block chunkBytes = .ok b) (ops : List Op)
    (off len : ℕ) (buf : List UInt8) (hr : ((run step b ops).readAt off len).1 = .ok buf) :
    buf = (volatile (run step b ops).origin).load off len ∧
      volatile ((run step b ops).readAt off len).2.origin = volatile (run step b ops).origin := by
  have hs : (run step b ops).Sound :=
    run_induction step (P := Sound) (fun _ op hs => step_sound hs op) (withChunkBytes_sound h) ops
  obtain ⟨-,ho,hbuf⟩ := readAt_sound hs off len
  exact ⟨hbuf buf hr,ho⟩

/-- Three healthy samples grow the cache by a chunk, one read fills it and one is served from
it; a write then takes one of its two bytes and fails, and three probes follow. -/
def warmOps : List Op :=
  [.observeGpu (some ⟨4*gib,0,0⟩) 0,.observeGpu (some ⟨4*gib,0,0⟩) 1,
    .observeGpu (some ⟨4*gib,0,0⟩) 2,.readAt 0 2,.readAt 0 2,.writeAt 0 [7,8],
    .probeOrigin,.probeOrigin,.probeOrigin]

def warmOrigin : OriginScript :=
  ⟨fun _ => 3,fun _ => 3,[{},{count := some 1},{ok := false, junk := fun _ => 9}]⟩

def warmBackend : WriteThroughCacheBackend VramScript OriginScript :=
  (withChunkBytes (⟨[]⟩ : VramScript) warmOrigin 4 1 2).toOption.get (by decide)

theorem readAt_never_stale_warm :
    (run step warmBackend warmOps).telemetry.cacheReadBytes = 2 ∧
      ((run step warmBackend warmOps).readAt 0 2).1 = .ok [7,9] ∧
      [7,9] = (volatile (run step warmBackend warmOps).origin).load 0 2 := by
  have hb : withChunkBytes (⟨[]⟩ : VramScript) warmOrigin 4 1 2 = .ok warmBackend := rfl
  have hr : ((run step warmBackend warmOps).readAt 0 2).1 = .ok [7,9] := by decide +kernel
  exact ⟨by decide +kernel,hr,(readAt_never_stale _ _ _ _ _ hb warmOps 0 2 [7,9] hr).1⟩

end WriteThroughCacheBackend
end RamShared.OriginCache

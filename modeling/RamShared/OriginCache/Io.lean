import RamShared.OriginCache.State
import RamShared.Block.Backend
import RamShared.Lib.Pieces
import RamShared.Lib.Run

/-! Block I/O of the write-through cache. The loops of the source walk a request chunk by
chunk; here they recurse over the pieces of that walk. -/
namespace RamShared.OriginCache
open Lib Block

namespace WriteThroughCacheBackend
variable {P O : Type} [VramProvider P] (b : WriteThroughCacheBackend P O) (off len : ℕ)

def checkRange : Except IoError Unit :=
  match (checkedAdd 64 off len).filter fun stop => decide (stop≤b.size) with
  | some _ => .ok ()
  | none => .error ⟨"origin cache I/O is out of range"⟩

def markOriginFailed : WriteThroughCacheBackend P O :=
  {b with originState := .failed, originProbeSuccesses := 0}

def requireReadyOrigin : Except IoError Unit :=
  if b.originState=.ready then .ok ()
  else .error ⟨"origin authority is unavailable pending three read+sync probes"⟩

def invalidateCached (indices : List ℕ) : WriteThroughCacheBackend P O :=
  indices.foldl (fun b index => if (b.chunkMem index).isSome then b.invalidateChunk index else b) b

def invalidateCachedRange : WriteThroughCacheBackend P O :=
  if len=0 then b
  else
    let first := off/b.chunkBytes
    let last := (off+len-1)/b.chunkBytes
    b.invalidateCached (List.range' first (last+1-first))

def invalidateAllCached : WriteThroughCacheBackend P O :=
  b.invalidateCached (List.range b.chunks.length)

def rangeIsCached : Bool :=
  (pieces b.chunkBytes off len).all fun p =>
    b.chunks[p.index]?.any (CacheChunk.covers b.block p.relative p.count)

def touch (index : ℕ) : WriteThroughCacheBackend P O :=
  let clock := bump b.accessClock
  ({b with accessClock := clock}).modifyChunk index fun c => {c with lastAccess := clock}

/-- The loop of `cache_read`; a failure names the chunk it happened in. -/
def cacheReadLoop : List Piece → WriteThroughCacheBackend P O →
    Except ℕ (List UInt8) × WriteThroughCacheBackend P O
  | [], b => (.ok [],b)
  | p::ps, b =>
    match b.chunkMem p.index with
    | none => (.error p.index,b)
    | some mem =>
      match VramProvider.readAt b.provider mem p.relative p.count with
      | (.error _,provider) => (.error p.index,{b with provider := provider})
      | (.ok bytes,provider) =>
        match cacheReadLoop ps (({b with provider := provider}).touch p.index) with
        | (.error index,b) => (.error index,b)
        | (.ok rest,b) => (.ok (bytes++rest),b)

def cacheRead : Except ℕ (List UInt8) × WriteThroughCacheBackend P O :=
  cacheReadLoop (pieces b.chunkBytes off len) b

def refusePromotion : WriteThroughCacheBackend P O :=
  { b with
    telemetry := { b.telemetry with promotionRefusals := bump b.telemetry.promotionRefusals}}

def storeMem (provider : P) (index : ℕ) (mem : VramProvider.Mem P) : WriteThroughCacheBackend P O :=
  ({b with provider := provider}).modifyChunk index fun c => {c with mem := some mem}

def countCacheWriteFailure : WriteThroughCacheBackend P O :=
  { b with
    telemetry := { b.telemetry with cacheWriteFailures := bump b.telemetry.cacheWriteFailures}}

def updatePiece (p : Piece) (data : List UInt8)
    (countRefusals : Bool) : WriteThroughCacheBackend P O :=
  match b.chunkMem p.index with
  | none => if countRefusals then b.refusePromotion else b
  | some mem =>
    match VramProvider.writeAt b.provider mem p.relative data with
    | (.error _,mem,provider) =>
      (b.storeMem provider p.index mem).countCacheWriteFailure.invalidateChunk p.index
    | (.ok (),mem,provider) =>
      ((b.storeMem provider p.index mem).touch p.index).modifyChunk p.index
        (CacheChunk.markFullyCoveredBlocks b.block p.relative p.count)

def updateCachedLoop (countRefusals : Bool) : List Piece → List UInt8 →
    WriteThroughCacheBackend P O → WriteThroughCacheBackend P O
  | [], _, b => b
  | p::ps, data, b =>
    updateCachedLoop countRefusals ps (data.drop p.count)
      (b.updatePiece p (data.take p.count) countRefusals)

def updateCachedChunks (off : ℕ) (data : List UInt8) (countRefusals : Bool) : WriteThroughCacheBackend P O :=
  updateCachedLoop countRefusals (pieces b.chunkBytes off data.length) data b

/-- Take over bytes just read from the origin, unless the cache already exceeds its target. -/
def promote (off : ℕ) (data : List UInt8) : WriteThroughCacheBackend P O :=
  if b.cachedBytes≤b.targetBytes then b.updateCachedChunks off data true
  else b.refusePromotion

variable [OriginStorage O]

def writeOrigin (b : WriteThroughCacheBackend P O) (off : ℕ) (data : List UInt8) :
    Except IoError Unit × WriteThroughCacheBackend P O :=
  match writeAllAt b.origin off data with
  | (.error e,origin) =>
    (.error e,(({b with origin := origin}).invalidateCachedRange off data.length).markOriginFailed)
  | (.ok (),origin) =>
    (.ok (),{ b with
      origin := origin
      originDirty := true
      telemetry := { b.telemetry with
        originWrittenBytes :=
          saturatingAdd 64 b.telemetry.originWrittenBytes data.length}})

def syncDirtyOrigin (b : WriteThroughCacheBackend P O) :
    Except IoError Unit × WriteThroughCacheBackend P O :=
  if !b.originDirty then (.ok (),b)
  else match OriginStorage.syncData b.origin with
    | (.error e,origin) =>
      (.error e,({b with origin := origin}).invalidateAllCached.markOriginFailed)
    | (.ok (),origin) =>
      (.ok (),{ b with
        origin := origin
        originDirty := false
        telemetry := { b.telemetry with originSyncs := bump b.telemetry.originSyncs}})

def recordProbe (b : WriteThroughCacheBackend P O) : WriteThroughCacheBackend P O :=
  let b := { b with
    originDirty := false
    telemetry := { b.telemetry with originSyncs := bump b.telemetry.originSyncs}}
  if b.originState=.failed ∨ b.originState=.degraded then
    let successes := saturatingAdd 8 b.originProbeSuccesses 1
    if successes ≥ 3 then {b with originState := .ready, originProbeSuccesses := 0}
    else {b with originState := .degraded, originProbeSuccesses := successes}
  else b

def probeOrigin (b : WriteThroughCacheBackend P O) :
    Except IoError OriginState × WriteThroughCacheBackend P O :=
  match readExactAt b.origin 0 b.block with
  | (.error e,origin) => (.error e,({b with origin := origin}).markOriginFailed)
  | (.ok _,origin) =>
    match OriginStorage.syncData origin with
    | (.error e,origin) => (.error e,({b with origin := origin}).markOriginFailed)
    | (.ok (),origin) =>
      let b := ({b with origin := origin}).recordProbe
      (.ok b.originState,b)

/-- The fallback of `read_at`: the origin answers and the cache may take the bytes over. -/
def readFromOrigin (b : WriteThroughCacheBackend P O) (off len : ℕ) :
    Except IoError (List UInt8) × WriteThroughCacheBackend P O :=
  match readExactAt b.origin off len with
  | (.error e,origin) => (.error e,({b with origin := origin}).markOriginFailed)
  | (.ok buf,origin) =>
    (.ok buf,({ b with
      origin := origin
      telemetry := { b.telemetry with
        fallbackReads := bump b.telemetry.fallbackReads}}).promote off buf)

def readAt (b : WriteThroughCacheBackend P O) (off len : ℕ) :
    Except IoError (List UInt8) × WriteThroughCacheBackend P O :=
  match b.checkRange off len with
  | .error e => (.error e,b)
  | .ok () =>
    match b.requireReadyOrigin with
    | .error e => (.error e,b)
    | .ok () =>
      if len=0 then (.ok [],b)
      else if b.rangeIsCached off len then
        match b.cacheRead off len with
        | (.ok buf,b) =>
          (.ok buf,{ b with
            telemetry := { b.telemetry with
              cacheReadBytes := saturatingAdd 64 b.telemetry.cacheReadBytes len}})
        | (.error index,b) =>
          (({ b with
            telemetry := { b.telemetry with
              cacheReadFailures := bump b.telemetry.cacheReadFailures}}).invalidateChunk
                index).readFromOrigin off len
      else b.readFromOrigin off len

def writeAt (b : WriteThroughCacheBackend P O) (off : ℕ) (data : List UInt8) :
    Except IoError Unit × WriteThroughCacheBackend P O :=
  match b.checkRange off data.length with
  | .error e => (.error e,b)
  | .ok () =>
    match b.requireReadyOrigin with
    | .error e => (.error e,b)
    | .ok () =>
      if data=[] then (.ok (),b)
      else match b.writeOrigin off data with
        | (.error e,b) => (.error e,b)
        | (.ok (),b) =>
          (.ok (),({ b with
            telemetry := { b.telemetry with
              batchedWrites := bump b.telemetry.batchedWrites}}).updateCachedChunks
                off data false)

def writeAtWithOptions (b : WriteThroughCacheBackend P O) (off : ℕ) (data : List UInt8)
    (options : WriteOptions) : Except IoError Unit × WriteThroughCacheBackend P O :=
  if !options.fua then b.writeAt off data
  else match b.checkRange off data.length with
    | .error e => (.error e,b)
    | .ok () =>
      match b.requireReadyOrigin with
      | .error e => (.error e,b)
      | .ok () =>
        if data=[] then (.ok (),b)
        else match b.writeOrigin off data with
          | (.error e,b) => (.error e,b)
          | (.ok (),b) =>
            match b.syncDirtyOrigin with
            | (.error e,b) => (.error e,b)
            | (.ok (),b) => (.ok (),b.updateCachedChunks off data false)

def flush (b : WriteThroughCacheBackend P O) :
    Except IoError Unit × WriteThroughCacheBackend P O :=
  match b.requireReadyOrigin with
  | .error e => (.error e,b)
  | .ok () => b.syncDirtyOrigin

instance : BlockBackend (WriteThroughCacheBackend P O) where
  sizeBytes := size
  blockSize := block
  readAt := readAt
  writeAt := writeAt
  flush := flush
  writeAtWithOptions := writeAtWithOptions

inductive Op
  | readAt (off len : ℕ)
  | writeAt (off : ℕ) (data : List UInt8)
  | writeAtWithOptions (off : ℕ) (data : List UInt8) (options : WriteOptions)
  | flush
  | observeGpu (sample : Option GpuSample) (now : ℕ)
  | setPhysicalCapBytes (capBytes : ℕ)
  | releaseCache
  | probeOrigin

def step (b : WriteThroughCacheBackend P O) : Op → WriteThroughCacheBackend P O
  | .readAt off len => (b.readAt off len).2
  | .writeAt off data => (b.writeAt off data).2
  | .writeAtWithOptions off data options => (b.writeAtWithOptions off data options).2
  | .flush => b.flush.2
  | .observeGpu sample now => (b.observeGpu sample now).2
  | .setPhysicalCapBytes capBytes => b.setPhysicalCapBytes capBytes
  | .releaseCache => b.releaseCache.2
  | .probeOrigin => b.probeOrigin.2

end WriteThroughCacheBackend

/-! Every helper that only manages VRAM preserves what the origin protocol depends on. -/

/-- Geometry, origin and origin protocol state of a backend. -/
structure OriginView (O : Type) where
  origin : O
  size : ℕ
  block : ℕ
  chunkBytes : ℕ
  originState : OriginState
  originProbeSuccesses : ℕ
  originDirty : Bool

namespace WriteThroughCacheBackend
variable {P O : Type} [VramProvider P]

def originView (b : WriteThroughCacheBackend P O) : OriginView O :=
  ⟨b.origin,b.size,b.block,b.chunkBytes,b.originState,b.originProbeSuccesses,b.originDirty⟩

variable (b : WriteThroughCacheBackend P O) (index target : ℕ)

lemma chunkMem_touch (i : ℕ) : (b.touch index).chunkMem i = b.chunkMem i := by
  simp only [chunkMem,touch,modifyChunk,List.getElem?_modify]
  cases b.chunks[i]? with
  | none => rfl
  | some c => simp only [Option.map_eq_map,Option.map_some,Option.bind_some]; split_ifs <;> rfl

@[simp] lemma releaseLruLoop_originView (fuel released : ℕ) (b : WriteThroughCacheBackend P O) :
    (releaseLruLoop target fuel released b).2.originView=b.originView := by
  induction fuel generalizing released b with
  | zero => rfl
  | succ fuel ih =>
    rw [releaseLruLoop]
    split_ifs
    · split
      · rfl
      · exact ih _ _
    · rfl

@[simp] lemma releaseLruTo_originView :
    (b.releaseLruTo target).2.originView=b.originView := releaseLruLoop_originView _ _ _ b

@[simp] lemma releaseCache_originView : b.releaseCache.2.originView=b.originView := b.releaseLruTo_originView 0

@[simp] lemma allocateOneChunk_originView : b.allocateOneChunk.2.originView=b.originView := by
  unfold allocateOneChunk
  split
  · rfl
  · split
    · rfl
    · split <;> rfl

@[simp] lemma reclaim_originView (restricted : Bool) (target : ℕ) :
    (b.reclaim restricted target).2.originView=b.originView := by
  unfold reclaim
  split_ifs
  · exact b.releaseLruTo_originView target
  · rfl

@[simp] lemma grow_originView (restricted : Bool) (target now : ℕ) :
    (b.grow restricted target now).2.originView=b.originView := by
  unfold grow
  split_ifs
  · have h := ({b with lastGrowthAt := some now}).allocateOneChunk_originView
    split <;> rename_i hl <;> rw [hl] at h <;> exact h
  · rfl

@[simp] lemma watchExcess_originView (now : ℕ) : (b.watchExcess target now).originView=b.originView := by
  unfold watchExcess
  split_ifs <;> rfl

@[simp] lemma observeGpu_originView (sample : Option GpuSample) (now : ℕ) :
    (b.observeGpu sample now).2.originView=b.originView := by
  unfold observeGpu
  simp only [watchExcess_originView,grow_originView,reclaim_originView]
  split_ifs <;> rfl

end WriteThroughCacheBackend

end RamShared.OriginCache

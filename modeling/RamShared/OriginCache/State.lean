import RamShared.Block.Vram
import RamShared.Block.Origin

/-! The write-through cache: an authoritative origin and a revocable set of VRAM chunks.
A chunk carries one validity bit per block; the bits count only while the generation they
were written in is the current one. -/
namespace RamShared.OriginCache
open Lib Block

def gib : ℕ := 1024*1024*1024
def originCacheChunkBytes : ℕ := 128*1024*1024
def healthySamplesToGrow : ℕ := 3
def restrictedSamplesToReclaim : ℕ := 3
def growthInterval : ℕ := 2*10^9
def stuckAfter : ℕ := 2*10^9

structure GpuSample where
  budgetBytes : ℕ
  externalUsageBytes : ℕ
  totalVramBytes : ℕ
  deriving DecidableEq, Repr

def physicalTargetBytes (logicalBytes : ℕ) : Option GpuSample → ℕ
  | none => 0
  | some sample =>
    let reserve := max (divCeil sample.totalVramBytes 5) (2*gib)
    min (sample.budgetBytes-sample.externalUsageBytes-reserve) logicalBytes

structure CachePolicyOutcome where
  targetBytes : ℕ
  allocatedBytes : ℕ
  releasedBytes : ℕ
  deriving DecidableEq, Repr

structure CacheChunk (M : Type) where
  mem : Option M
  generation : ℕ
  validityGeneration : ℕ
  valid : List Bool
  lastAccess : ℕ

namespace CacheChunk
variable {M : Type}

def invalidate (c : CacheChunk M) : CacheChunk M :=
  { c with
    generation := max (wrappingAdd 64 c.generation 1) 1
    valid := c.valid.map fun _ => false}

/-- The body of `mark_fully_covered_blocks`: bits of an older generation are dropped first. -/
def markFullyCoveredBlocks (block relative len : ℕ) (c : CacheChunk M) : CacheChunk M :=
  let first := divCeil relative block
  let last := (relative+len)/block
  let valid :=
    if c.validityGeneration≠c.generation then c.valid.map fun _ => false else c.valid
  { c with
    validityGeneration := c.generation
    valid := valid.mapIdx fun i v => v || (decide (first ≤ i) && decide (i<last))}

/-- All blocks touched by `[relative, relative+count)` are valid in the current generation. -/
def covers (block relative count : ℕ) (c : CacheChunk M) : Bool :=
  let firstBlock := relative/block
  let lastBlock := divCeil (relative+count) block
  c.mem.isSome && decide (c.validityGeneration=c.generation) &&
    (List.range' firstBlock (lastBlock-firstBlock)).all fun i => c.valid.getD i false

end CacheChunk

structure WriteThroughCacheBackend (P O : Type) [VramProvider P] where
  provider : P
  origin : O
  size : ℕ
  block : ℕ
  chunkBytes : ℕ
  chunks : List (CacheChunk (VramProvider.Mem P))
  telemetry : CacheTelemetry
  targetBytes : ℕ
  physicalCapBytes : ℕ
  healthySamples : ℕ
  restrictedSamples : ℕ
  lastGrowthAt : Option ℕ
  overTargetSince : Option ℕ
  accessClock : ℕ
  originState : OriginState
  originProbeSuccesses : ℕ
  originDirty : Bool
  cacheState : CacheState

namespace WriteThroughCacheBackend
variable {P O : Type} [VramProvider P]

def withChunkBytes (provider : P) (origin : O) (size block chunkBytes : ℕ) :
    Except IoError (WriteThroughCacheBackend P O) :=
  if size=0 ∨ block=0 ∨ chunkBytes=0 ∨ ¬block ∣ size ∨ ¬block ∣ chunkBytes then
    .error ⟨"invalid origin cache geometry"⟩
  else
    .ok
      { provider := provider
        origin := origin
        size := size
        block := block
        chunkBytes := chunkBytes
        chunks := (List.range (divCeil size chunkBytes)).map fun index =>
          { mem := none
            generation := 1
            validityGeneration := 0
            valid := List.replicate (min chunkBytes (size-index*chunkBytes)/block) false
            lastAccess := 0}
        telemetry := {}
        targetBytes := 0
        physicalCapBytes := size
        healthySamples := 0
        restrictedSamples := 0
        lastGrowthAt := none
        overTargetSince := none
        accessClock := 0
        originState := .ready
        originProbeSuccesses := 0
        originDirty := false
        cacheState := .off}

def new (provider : P) (origin : O) (size block : ℕ) : Except IoError (WriteThroughCacheBackend P O) :=
  withChunkBytes provider origin size block originCacheChunkBytes

variable (b : WriteThroughCacheBackend P O)

def modifyChunk (index : ℕ) (f : CacheChunk (VramProvider.Mem P) → CacheChunk (VramProvider.Mem P)) :
    WriteThroughCacheBackend P O :=
  {b with chunks := b.chunks.modify index f}

def chunkMem (index : ℕ) : Option (VramProvider.Mem P) :=
  b.chunks[index]?.bind CacheChunk.mem

def cachedBytes : ℕ :=
  b.chunks.foldl
    (fun total chunk => wrappingAdd 64 total (if chunk.mem.isSome then b.chunkBytes else 0)) 0

def setPhysicalCapBytes (capBytes : ℕ) : WriteThroughCacheBackend P O :=
  {b with physicalCapBytes := min capBytes b.size}

def invalidateChunk (index : ℕ) : WriteThroughCacheBackend P O :=
  { b.modifyChunk index CacheChunk.invalidate with
    telemetry := { b.telemetry with invalidations := bump b.telemetry.invalidations}}

/-- The first cached chunk among those used longest ago. -/
def lruIndex : Option ℕ :=
  ((b.chunks.zipIdx.filter fun x => x.1.mem.isSome).argmin fun x => x.1.lastAccess).map Prod.snd

/-- The loop of `release_lru_to`. Each round frees a chunk, so there are no more rounds than
chunks. -/
def releaseLruLoop (target : ℕ) : ℕ → ℕ → WriteThroughCacheBackend P O →
    ℕ × WriteThroughCacheBackend P O
  | 0, released, b => (released,b)
  | fuel+1, released, b =>
    if b.cachedBytes > target then
      match b.lruIndex with
      | none => (released,b)
      | some index =>
        let b := (b.invalidateChunk index).modifyChunk index fun c => {c with mem := none}
        releaseLruLoop target fuel (saturatingAdd 64 released b.chunkBytes)
          {b with telemetry := {b.telemetry with releases := bump b.telemetry.releases}}
    else (released,b)

def releaseLruTo (target : ℕ) : ℕ × WriteThroughCacheBackend P O :=
  releaseLruLoop target b.chunks.length 0 b

def releaseCache : ℕ × WriteThroughCacheBackend P O :=
  ((b.releaseLruTo 0).1,{(b.releaseLruTo 0).2 with cacheState := .off})

def countAllocationFailure (provider : P) : WriteThroughCacheBackend P O :=
  { b with
    provider := provider
    telemetry := { b.telemetry with allocationFailures := bump b.telemetry.allocationFailures}}

def allocateOneChunk : Except Unit ℕ × WriteThroughCacheBackend P O :=
  match b.chunks.findIdx? fun chunk => chunk.mem.isNone with
  | none => (.ok 0,b)
  | some index =>
    match VramProvider.alloc b.provider b.chunkBytes with
    | (.error _,provider) => (.error (),b.countAllocationFailure provider)
    | (.ok mem,provider) =>
      match VramProvider.zero provider mem with
      | (.error _,_,provider) => (.error (),b.countAllocationFailure provider)
      | (.ok (),mem,provider) =>
        let clock := bump b.accessClock
        (.ok b.chunkBytes,
          ({b with provider := provider, accessClock := clock}).modifyChunk index fun c =>
            { c with
              lastAccess := clock
              validityGeneration := c.generation
              valid := c.valid.map fun _ => false
              mem := some mem})

def reclaim (restricted : Bool) (target : ℕ) : ℕ × WriteThroughCacheBackend P O :=
  if restricted && decide (b.restrictedSamples ≥ restrictedSamplesToReclaim) then
    ((b.releaseLruTo target).1,{(b.releaseLruTo target).2 with restrictedSamples := 0})
  else (0,b)

def grow (restricted : Bool) (target now : ℕ) : ℕ × WriteThroughCacheBackend P O :=
  if !restricted && decide (b.healthySamples ≥ healthySamplesToGrow) &&
      decide (saturatingAdd 64 b.cachedBytes b.chunkBytes≤target) &&
      b.lastGrowthAt.all (fun previous => decide (now-previous ≥ growthInterval)) then
    match ({b with lastGrowthAt := some now}).allocateOneChunk with
    | (.ok bytes,b) => (bytes,b)
    | (.error (),b) => (0,{b with cacheState := .unavailable})
  else (0,b)

def watchExcess (target now : ℕ) : WriteThroughCacheBackend P O :=
  if b.cachedBytes-target > b.chunkBytes then
    let since := b.overTargetSince.getD now
    { b with
      overTargetSince := some since
      cacheState := if now-since > stuckAfter then .stuck else b.cacheState}
  else {b with overTargetSince := none}

def observeGpu (sample : Option GpuSample) (now : ℕ) :
    CachePolicyOutcome × WriteThroughCacheBackend P O :=
  let target := physicalTargetBytes b.physicalCapBytes sample
  let cachedBefore := b.cachedBytes
  let missing := sample.isNone
  let restricted := missing || decide (target<cachedBefore) || decide (target<b.chunkBytes)
  let b := {b with targetBytes := target}
  let b :=
    if restricted then
      { b with
        healthySamples := 0
        restrictedSamples := saturatingAdd 8 b.restrictedSamples 1
        cacheState := if missing then .unavailable else .restricted}
    else
      { b with
        restrictedSamples := 0
        healthySamples := saturatingAdd 8 b.healthySamples 1
        cacheState := .active}
  let reclaimed := b.reclaim restricted target
  let grown := reclaimed.2.grow restricted target now
  (⟨target,grown.1,reclaimed.1⟩,grown.2.watchExcess target now)

end WriteThroughCacheBackend
end RamShared.OriginCache

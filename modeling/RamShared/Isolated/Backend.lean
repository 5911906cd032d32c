import RamShared.Block.Backend
import RamShared.Lib.Run

/-! `AuthoritativeOriginBackend`: every byte is owned by the origin, and any fault of the cache or
of the origin revokes the cache. -/
namespace RamShared.Isolated
open Lib Block

inductive CacheRead
  | hit
  | miss
  | failed
  deriving DecidableEq, Repr

inductive CacheMutation
  | accepted
  | skipped
  | failed
  deriving DecidableEq, Repr

/-- `BestEffortCache`. A read returns its verdict and the destination as the call left it. -/
class BestEffortCache (C : Type) where
  read : C → ℕ → ℕ → CacheRead × List UInt8 × C
  update : C → ℕ → List UInt8 → CacheMutation × C
  promote : C → ℕ → List UInt8 → CacheMutation × C
  disable : C → CacheMutation × C
  state : C → CacheState
  cachedBytes : C → ℕ := fun _ => 0
  targetBytes : C → ℕ := fun _ => 0

/-- Fail-closed cache used until a separately supervised worker is wired. -/
structure DisabledCache where

instance : BestEffortCache DisabledCache where
  read c _ len := (.miss,List.replicate len 0,c)
  update c _ _ := (.skipped,c)
  promote c _ _ := (.skipped,c)
  disable c := (.accepted,c)
  state _ := .unavailable

structure AuthoritativeOriginBackend (O C : Type) where
  origin : O
  cache : C
  size : ℕ
  block : ℕ
  telemetry : CacheTelemetry
  originState : OriginState
  originProbeSuccesses : ℕ
  originDirty : Bool

namespace AuthoritativeOriginBackend
variable {O C : Type}

def new (origin : O) (cache : C) (size block : ℕ) :
    Except IoError (AuthoritativeOriginBackend O C) :=
  if size=0 ∨ block=0 ∨ ¬block ∣ size then
    .error ⟨"invalid authoritative origin geometry"⟩
  else
    .ok
      { origin := origin
        cache := cache
        size := size
        block := block
        telemetry := {}
        originState := .ready
        originProbeSuccesses := 0
        originDirty := false}

variable (b : AuthoritativeOriginBackend O C)

def checkRange (off len : ℕ) : Except IoError Unit :=
  match (checkedAdd 64 off len).filter fun stop => decide (stop≤b.size) with
  | some _ => .ok ()
  | none => .error ⟨"authoritative origin I/O is out of range"⟩

def requireReadyOrigin : Except IoError Unit :=
  if b.originState=.ready then .ok ()
  else .error ⟨"origin authority is unavailable pending three read+sync probes"⟩

variable {b}

lemma le_size_of_checkRange {off len : ℕ} (h : b.checkRange off len=.ok ()) : off+len≤b.size := by
  unfold checkRange at h
  split at h
  · rename_i stop hs
    obtain ⟨hadd,hle⟩ := Option.filter_eq_some_iff.mp hs
    obtain ⟨-,rfl⟩ := checkedAdd_eq_some.mp hadd
    simpa using hle
  · cases h

lemma ready_of_requireReadyOrigin (h : b.requireReadyOrigin=.ok ()) : b.originState=.ready := by
  unfold requireReadyOrigin at h
  split_ifs at h with hst
  exact hst

variable [BestEffortCache C] (b : AuthoritativeOriginBackend O C)

def cacheState : CacheState := BestEffortCache.state b.cache

def revokeCache : CacheMutation × AuthoritativeOriginBackend O C :=
  let telemetry :=
    if b.cacheState≠.off ∧ b.cacheState≠.unavailable then
      {b.telemetry with invalidations := bump b.telemetry.invalidations}
    else b.telemetry
  ((BestEffortCache.disable b.cache).1,
    {b with telemetry := telemetry, cache := (BestEffortCache.disable b.cache).2})

def releaseCache : Except IoError ℕ × AuthoritativeOriginBackend O C :=
  match b.revokeCache with
  | (.failed,b) => (.error ⟨"cache release acknowledgement was unavailable"⟩,b)
  | (_,b) =>
    (.ok 0,{b with telemetry := {b.telemetry with releases := bump b.telemetry.releases}})

def markOriginFailed : AuthoritativeOriginBackend O C :=
  ({b with originState := .failed, originProbeSuccesses := 0}).revokeCache.2

def updateCache (off : ℕ) (data : List UInt8) : AuthoritativeOriginBackend O C :=
  match BestEffortCache.update b.cache off data with
  | (.failed,cache) =>
    ({ b with
      cache := cache
      telemetry := { b.telemetry with
        cacheWriteFailures := bump b.telemetry.cacheWriteFailures}}).revokeCache.2
  | (_,cache) => {b with cache := cache}

def promote (off : ℕ) (data : List UInt8) : AuthoritativeOriginBackend O C :=
  match BestEffortCache.promote b.cache off data with
  | (.failed,cache) =>
    ({ b with
      cache := cache
      telemetry := { b.telemetry with
        promotionRefusals := bump b.telemetry.promotionRefusals}}).revokeCache.2
  | (_,cache) => {b with cache := cache}

variable [OriginStorage O] (b : AuthoritativeOriginBackend O C)

def writeOrigin (off : ℕ) (data : List UInt8) :
    Except IoError Unit × AuthoritativeOriginBackend O C :=
  match writeAllAt b.origin off data with
  | (.error e,origin) => (.error e,({b with origin := origin}).markOriginFailed)
  | (.ok (),origin) =>
    (.ok (),{ b with
      origin := origin
      originDirty := true
      telemetry := { b.telemetry with
        originWrittenBytes :=
          saturatingAdd 64 b.telemetry.originWrittenBytes data.length}})

def syncDirtyOrigin : Except IoError Unit × AuthoritativeOriginBackend O C :=
  if !b.originDirty then (.ok (),b)
  else match OriginStorage.syncData b.origin with
    | (.error e,origin) => (.error e,({b with origin := origin}).markOriginFailed)
    | (.ok (),origin) =>
      (.ok (),{ b with
        origin := origin
        originDirty := false
        telemetry := { b.telemetry with originSyncs := bump b.telemetry.originSyncs}})

def recordProbe : AuthoritativeOriginBackend O C :=
  let b := { b with
    originDirty := false
    telemetry := { b.telemetry with originSyncs := bump b.telemetry.originSyncs}}
  if b.originState=.failed ∨ b.originState=.degraded then
    let successes := saturatingAdd 8 b.originProbeSuccesses 1
    if successes ≥ 3 then {b with originState := .ready, originProbeSuccesses := 0}
    else {b with originState := .degraded, originProbeSuccesses := successes}
  else b

def probeOrigin : Except IoError OriginState × AuthoritativeOriginBackend O C :=
  match readExactAt b.origin 0 b.block with
  | (.error e,origin) => (.error e,({b with origin := origin}).markOriginFailed)
  | (.ok _,origin) =>
    match OriginStorage.syncData origin with
    | (.error e,origin) => (.error e,({b with origin := origin}).markOriginFailed)
    | (.ok (),origin) =>
      (.ok ({b with origin := origin}).recordProbe.originState,
        ({b with origin := origin}).recordProbe)

def readFromOrigin (off len : ℕ) : Except IoError (List UInt8) × AuthoritativeOriginBackend O C :=
  match readExactAt b.origin off len with
  | (.error e,origin) => (.error e,({b with origin := origin}).markOriginFailed)
  | (.ok buf,origin) =>
    (.ok buf,({ b with
      origin := origin
      telemetry := { b.telemetry with
        fallbackReads := bump b.telemetry.fallbackReads}}).promote off buf)

def readAt (off len : ℕ) : Except IoError (List UInt8) × AuthoritativeOriginBackend O C :=
  match b.checkRange off len with
  | .error e => (.error e,b)
  | .ok () =>
    match b.requireReadyOrigin with
    | .error e => (.error e,b)
    | .ok () =>
      if len=0 then (.ok [],b)
      else match BestEffortCache.read b.cache off len with
        | (.hit,buf,cache) =>
          (.ok buf,{ b with
            cache := cache
            telemetry := { b.telemetry with
              cacheReadBytes := saturatingAdd 64 b.telemetry.cacheReadBytes len}})
        | (.miss,_,cache) => ({b with cache := cache}).readFromOrigin off len
        | (.failed,_,cache) =>
          ({ b with
            cache := cache
            telemetry := { b.telemetry with
              cacheReadFailures :=
                bump b.telemetry.cacheReadFailures}}).revokeCache.2.readFromOrigin off len

def writeAt (off : ℕ) (data : List UInt8) : Except IoError Unit × AuthoritativeOriginBackend O C :=
  match b.checkRange off data.length with
  | .error e => (.error e,b)
  | .ok () =>
    match b.requireReadyOrigin with
    | .error e => (.error e,b)
    | .ok () =>
      if data=[] then (.ok (),b)
      else match b.writeOrigin off data with
        | (.error e,b) => (.error e,b)
        | (.ok (),b) =>
          (.ok (),({ b with
            telemetry := { b.telemetry with
              batchedWrites := bump b.telemetry.batchedWrites}}).updateCache off data)

def writeAtWithOptions (off : ℕ) (data : List UInt8)
    (options : WriteOptions) : Except IoError Unit × AuthoritativeOriginBackend O C :=
  if !options.fua then b.writeAt off data
  else match b.checkRange off data.length with
    | .error e => (.error e,b)
    | .ok () =>
      match b.requireReadyOrigin with
      | .error e => (.error e,b)
      | .ok () =>
        if data=[] then (.ok (),b)
        else match b.writeOrigin off data with
          | (.error e,b) => (.error e,b)
          | (.ok (),b) =>
            match b.syncDirtyOrigin with
            | (.error e,b) => (.error e,b)
            | (.ok (),b) => (.ok (),b.updateCache off data)

def flush : Except IoError Unit × AuthoritativeOriginBackend O C :=
  match b.requireReadyOrigin with
  | .error e => (.error e,b)
  | .ok () => b.syncDirtyOrigin

instance : BlockBackend (AuthoritativeOriginBackend O C) where
  sizeBytes := size
  blockSize := block
  readAt := readAt
  writeAt := writeAt
  flush := flush
  writeAtWithOptions := writeAtWithOptions

inductive Op
  | readAt (off len : ℕ)
  | writeAt (off : ℕ) (data : List UInt8)
  | writeAtWithOptions (off : ℕ) (data : List UInt8) (options : WriteOptions)
  | flush
  | releaseCache
  | probeOrigin

def step : Op → AuthoritativeOriginBackend O C
  | .readAt off len => (b.readAt off len).2
  | .writeAt off data => (b.writeAt off data).2
  | .writeAtWithOptions off data options => (b.writeAtWithOptions off data options).2
  | .flush => b.flush.2
  | .releaseCache => b.releaseCache.2
  | .probeOrigin => b.probeOrigin.2

end AuthoritativeOriginBackend

end RamShared.Isolated

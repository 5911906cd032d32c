import RamShared.Block.Vram
import RamShared.Block.Origin

/-! The sparse VRAM backend: chunks are committed on the first write, ranges without a chunk
read as zeros, and chunks are given back only all together. -/
namespace RamShared.Sparse
open Lib Block

/-- `CommitBudgetGate`; what it answers next may depend on what it was asked before. -/
class CommitBudgetGate (G : Type) where
  allowCommit : G → ℕ → ℕ → Except String Unit × G

/-- A gate that answers from a script and allows every commit once the script is used up. -/
structure GateScript where
  verdicts : List (Except String Unit)

instance : CommitBudgetGate GateScript where
  allowCommit g _ _ := (g.verdicts.headD (.ok ()),⟨g.verdicts.tail⟩)

structure SparseVramConfig (G : Type) where
  capacity : ℕ
  chunkBytes : ℕ
  blockSize : ℕ
  reserveFloorBytes : ℕ
  commitCapBytes : Option ℕ
  budgetGate : Option G

structure Chunk (M : Type) where
  mem : Option M := none
  written : Bool := false
  lastWrite : Option ℕ := none

structure SparseVramBackend (P G : Type) [VramProvider P] where
  provider : P
  capacity : ℕ
  chunkBytes : ℕ
  blockSize : ℕ
  reserveFloorBytes : ℕ
  commitCapBytes : ℕ
  budgetGate : Option G
  chunks : List (Chunk (VramProvider.Mem P))
  allocFails : ℕ := 0
  reclaimFrees : ℕ := 0
  floorRefuses : ℕ := 0
  budgetRefuses : ℕ := 0

/-- The commit cap from the environment, given the parsed value of its variable in MiB. -/
def commitCapBytesFromEnv : Option ℕ → ℕ
  | some mib => saturatingMul 64 (min (max mib 256) (64*1024)) (1024*1024)
  | none => (2^64-1)/4

namespace SparseVramBackend
variable {P G : Type} [VramProvider P]

def newWithConfig (provider : P) (config : SparseVramConfig G) (capMib : Option ℕ) :
    Except IoError (SparseVramBackend P G) :=
  let n := divCeil config.capacity config.chunkBytes
  if config.capacity=0 then .error ⟨"sparse: capacity 0"⟩
  else if config.chunkBytes=0 ∨ ¬config.blockSize ∣ config.chunkBytes then
    .error ⟨s!"sparse: chunk_bytes={config.chunkBytes} must be >0 and multiple of " ++
      s!"block_size={config.blockSize}"⟩
  else if 1000000<n then .error ⟨s!"sparse: too many chunks ({n})"⟩
  else
    .ok
      { provider := provider
        capacity := config.capacity
        chunkBytes := config.chunkBytes
        blockSize := config.blockSize
        reserveFloorBytes := config.reserveFloorBytes
        commitCapBytes :=
          max (min (config.commitCapBytes.getD (commitCapBytesFromEnv capMib)) config.capacity)
            config.chunkBytes
        budgetGate := config.budgetGate
        chunks := List.replicate n {}}

variable (b : SparseVramBackend P G)

def chunksLive : ℕ := b.chunks.countP fun c => c.mem.isSome

def committedBytes : ℕ := wrappingMul 64 b.chunksLive b.chunkBytes

/-- The loop of `free_all_live`: bytes freed, the counter and the emptied chunks. -/
def freeLoop {M : Type} (chunkBytes : ℕ) : List (Chunk M) → ℕ → ℕ → ℕ × ℕ × List (Chunk M)
  | [], freed, frees => (freed,frees,[])
  | c::cs, freed, frees =>
    if c.mem.isSome then
      let (freed,frees,cs) :=
        freeLoop chunkBytes cs (saturatingAdd 64 freed chunkBytes) (bump frees)
      (freed,frees,{}::cs)
    else
      let (freed,frees,cs) := freeLoop chunkBytes cs freed frees
      (freed,frees,c::cs)

def freeAllLive : ℕ × SparseVramBackend P G :=
  let (freed,frees,chunks) := freeLoop b.chunkBytes b.chunks 0 b.reclaimFrees
  (freed,{b with chunks := chunks, reclaimFrees := frees})

/-- Every live chunk has rested for `idle`, and there is one. -/
def idleOk (now idle : ℕ) : Bool :=
  (b.chunks.any fun c => c.mem.isSome) &&
    (b.chunks.filter fun c => c.mem.isSome).all fun c =>
      ((c.lastWrite.map fun t => decide (idle≤now-t)).getD true)

def tryReclaim (now nbdUsedKb : ℕ) (freeVramBytes : Option ℕ)
    (freeFloorBytes idle : ℕ) : ℕ × SparseVramBackend P G :=
  if 0<nbdUsedKb then (0,b)
  else
    let belowFloor := freeVramBytes.any fun f => f<freeFloorBytes
    if belowFloor || b.idleOk now idle then b.freeAllLive else (0,b)

def pageTableOob (b : SparseVramBackend P G) (idx : ℕ) : IoError :=
  ⟨s!"sparse page table oob idx={idx} len={b.chunks.length}"⟩

/-- The gate's verdict on one more chunk, if there is a gate. -/
def askGate [CommitBudgetGate G] (b : SparseVramBackend P G) :
    Except String Unit × SparseVramBackend P G :=
  match b.budgetGate with
  | none => (.ok (),b)
  | some gate =>
    let (verdict,gate) := CommitBudgetGate.allowCommit gate b.committedBytes b.chunkBytes
    (verdict,{b with budgetGate := some gate})

def checkFloor : Except IoError Unit × SparseVramBackend P G :=
  let (info,provider) := VramProvider.memInfo b.provider
  let b := {b with provider := provider}
  match info with
  | .error e => (.error ⟨s!"sparse mem_info: {e.text}"⟩,{b with allocFails := bump b.allocFails})
  | .ok (free,_) =>
    let need := saturatingAdd 64 b.reserveFloorBytes b.chunkBytes
    if free<need then
      (.error ⟨s!"sparse free-floor: free {free / 2^20} MiB < reserve+chunk {need / 2^20} MiB " ++
        "— refuse alloc (protect GPU)"⟩,
        {b with floorRefuses := bump b.floorRefuses})
    else (.ok (),b)

/-- Allocate and zero a region; a region that cannot be zeroed is dropped. -/
def allocZeroed (idx : ℕ) : Except IoError (VramProvider.Mem P) × SparseVramBackend P G :=
  let (region,provider) := VramProvider.alloc b.provider b.chunkBytes
  let b := {b with provider := provider}
  match region with
  | .error e =>
    (.error ⟨s!"sparse alloc chunk {idx}: {e.text}"⟩,{b with allocFails := bump b.allocFails})
  | .ok m =>
    let (result,m,provider) := VramProvider.zero b.provider m
    let b := {b with provider := provider}
    match result with
    | .error e => (.error ⟨e.text⟩,b)
    | .ok () => (.ok m,b)

def setChunk (idx : ℕ) (c : Chunk (VramProvider.Mem P)) : SparseVramBackend P G :=
  {b with chunks := b.chunks.set idx c}

/-- Commit an absent chunk: gate, commit cap, free floor, allocation, in this order. -/
def commitChunk [CommitBudgetGate G] (b : SparseVramBackend P G) (idx : ℕ)
    (chunk : Chunk (VramProvider.Mem P)) : Except IoError Unit × SparseVramBackend P G :=
  let nextCommit := saturatingAdd 64 b.committedBytes b.chunkBytes
  let (verdict,b) := b.askGate
  match verdict with
  | .error message =>
    (.error ⟨s!"sparse host budget constrained before allocation: {message}"⟩,
      {b with budgetRefuses := bump b.budgetRefuses})
  | .ok () =>
    if b.commitCapBytes<nextCommit then
      (.error ⟨s!"sparse commit_cap: committed would be {nextCommit / 2^20} MiB > " ++
        s!"cap {b.commitCapBytes / 2^20} MiB (capacity {b.capacity / 2^20} MiB); " ++
        "refusing the write because swap fallback is not guaranteed"⟩,
        {b with floorRefuses := bump b.floorRefuses})
    else
      let (result,b) := b.checkFloor
      match result with
      | .error e => (.error e,b)
      | .ok () =>
        let (region,b) := b.allocZeroed idx
        match region with
        | .error e => (.error e,b)
        | .ok m => (.ok (),b.setChunk idx {chunk with mem := some m})

def ensureLive [CommitBudgetGate G] (b : SparseVramBackend P G) (idx : ℕ) :
    Except IoError Unit × SparseVramBackend P G :=
  match b.chunks[idx]? with
  | none => (.error (b.pageTableOob idx),b)
  | some chunk => if chunk.mem.isSome then (.ok (),b) else b.commitChunk idx chunk

def chunkIndex (off : ℕ) : Except IoError ℕ :=
  if b.capacity≤off then .error ⟨s!"sparse oob off={off} capacity={b.capacity}"⟩
  else .ok (off/b.chunkBytes)

/-- The bytes of a range that fall into the chunk of `abs`. -/
def pieceLen (idx abs remaining : ℕ) : ℕ :=
  min remaining (b.chunkBytes-(abs-idx*b.chunkBytes))

def readChunk (abs remaining : ℕ) : Except IoError (List UInt8) × SparseVramBackend P G :=
  match b.chunkIndex abs with
  | .error e => (.error e,b)
  | .ok idx =>
    let n := b.pieceLen idx abs remaining
    match b.chunks[idx]? with
    | none => (.error (b.pageTableOob idx),b)
    | some chunk =>
      match chunk.mem with
      | none => (.ok (List.replicate n 0),b)
      | some m =>
        let (result,provider) := VramProvider.readAt b.provider m (abs-idx*b.chunkBytes) n
        let b := {b with provider := provider}
        match result with
        | .error e => (.error ⟨e.text⟩,b)
        | .ok bytes => (.ok bytes,b)

/-- Every round covers at least one byte, so the fuel is never used up. -/
def readLoop : ℕ → SparseVramBackend P G → ℕ → ℕ →
    Except IoError (List UInt8) × SparseVramBackend P G
  | 0, b, _, _ => (.ok [],b)
  | fuel+1, b, abs, remaining =>
    if remaining=0 then (.ok [],b)
    else
      let (result,b) := b.readChunk abs remaining
      match result with
      | .error e => (.error e,b)
      | .ok bytes =>
        let (rest,b) := readLoop fuel b (abs+bytes.length) (remaining-bytes.length)
        (rest.map (bytes ++ ·),b)

def readAt (off len : ℕ) : Except IoError (List UInt8) × SparseVramBackend P G :=
  if len=0 then (.ok [],b)
  else
    match (checkedAdd 64 off len).filter fun stop => stop≤b.capacity with
    | none => (.error ⟨s!"sparse read oob off={off} len={len} cap={b.capacity}"⟩,b)
    | some _ => readLoop len b off len

/-- One round of the write loop; on success the number of bytes written. -/
def writeChunk [CommitBudgetGate G] (b : SparseVramBackend P G) (now abs : ℕ)
    (data : List UInt8) : Except IoError ℕ × SparseVramBackend P G :=
  match b.chunkIndex abs with
  | .error e => (.error e,b)
  | .ok idx =>
    let (live,b) := b.ensureLive idx
    match live with
    | .error e => (.error e,b)
    | .ok () =>
      let n := b.pieceLen idx abs data.length
      match b.chunks[idx]? with
      | none => (.error (b.pageTableOob idx),b)
      | some chunk =>
        match chunk.mem with
        | none => (.error ⟨"sparse: mem missing after ensure"⟩,b)
        | some m =>
          let (result,m,provider) :=
            VramProvider.writeAt b.provider m (abs-idx*b.chunkBytes) (data.take n)
          let b := {b with provider := provider}
          match result with
          | .error e => (.error ⟨e.text⟩,b.setChunk idx {chunk with mem := some m})
          | .ok () => (.ok n,b.setChunk idx ⟨some m,true,some now⟩)

/-- The write loop, with its byte count at the exit. -/
def writeLoop [CommitBudgetGate G] (now : ℕ) :
    ℕ → SparseVramBackend P G → ℕ → List UInt8 → Except IoError Unit × ℕ × SparseVramBackend P G
  | 0, b, _, _ => (.ok (),0,b)
  | fuel+1, b, abs, data =>
    if data=[] then (.ok (),0,b)
    else
      let (result,b) := b.writeChunk now abs data
      match result with
      | .error e => (.error e,0,b)
      | .ok n =>
        let (result,done,b) := writeLoop now fuel b (abs+n) (data.drop n)
        (result,n+done,b)

/-- The result, the number of bytes that the loop had written when it was left, and the
backend. -/
def writeAt [CommitBudgetGate G] (b : SparseVramBackend P G) (now off : ℕ) (data : List UInt8) :
    Except IoError Unit × ℕ × SparseVramBackend P G :=
  if data=[] then (.ok (),0,b)
  else
    match (checkedAdd 64 off data.length).filter fun stop => stop≤b.capacity with
    | none => (.error ⟨s!"sparse write oob off={off} len={data.length} cap={b.capacity}"⟩,0,b)
    | some _ => writeLoop now data.length b off data

/-- The operations of the backend, with the clock reading that each of them takes. -/
inductive Op
  | readAt (off len : ℕ)
  | writeAt (now off : ℕ) (data : List UInt8)
  | tryReclaim (now nbdUsedKb : ℕ) (freeVramBytes : Option ℕ) (freeFloorBytes idle : ℕ)
  | freeAllLive

/-- What an operation returns; a write also reports how far it got. -/
inductive Reply
  | read (result : Except IoError (List UInt8))
  | written (result : Except IoError Unit) (done : ℕ)
  | freed (bytes : ℕ)

def perform [CommitBudgetGate G] (b : SparseVramBackend P G) : Op → Reply × SparseVramBackend P G
  | .readAt off len =>
    let (result,b) := b.readAt off len
    (.read result,b)
  | .writeAt now off data =>
    let (result,done,b) := b.writeAt now off data
    (.written result done,b)
  | .tryReclaim now nbdUsedKb freeVramBytes freeFloorBytes idle =>
    let (freed,b) := b.tryReclaim now nbdUsedKb freeVramBytes freeFloorBytes idle
    (.freed freed,b)
  | .freeAllLive =>
    let (freed,b) := b.freeAllLive
    (.freed freed,b)

end SparseVramBackend
end RamShared.Sparse

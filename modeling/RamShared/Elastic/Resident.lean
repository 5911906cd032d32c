import RamShared.Block.Vram
import RamShared.Isolated.Backend
import Mathlib.Data.List.Sort
import RamShared.Lib.Pieces

/-! The elastic VRAM cache: chunks that are allocated on first use, spilled under pressure, and
read or written under a deadline that trips a watchdog. -/
namespace RamShared.Elastic
open Lib Block Isolated
open VramProvider (Mem)

structure ChunkSlot (M : Type) where
  mem : Option M
  written : Bool
  lastAccessed : ℕ
  spilledToSsd : Bool

structure ElasticCacheConfig where
  chunkBytes : ℕ
  logicalCapacity : ℕ
  maxVramBytes : ℕ
  dmaTimeout : ℕ

/-- The fields of `ElasticVramCache`, the slots of its table, and the readings that the clock
will give, in nanoseconds. -/
structure ElasticVramCache (P : Type) [VramProvider P] where
  provider : P
  config : ElasticCacheConfig
  slots : List (ChunkSlot (Mem P))
  state : CacheState
  watchdogTripped : Bool
  clock : List ℕ

namespace ElasticVramCache
variable {P : Type} [VramProvider P]

/-- `ElasticExtentTable::new`: no slots when the chunk size is zero. -/
def newSlots (logicalCapacity chunkBytes now : ℕ) : List (ChunkSlot (Mem P)) :=
  List.replicate (saturatingAdd 64 logicalCapacity (chunkBytes-1)/chunkBytes)
    {mem := none, written := false, lastAccessed := now, spilledToSsd := false}

def new (provider : P) (config : ElasticCacheConfig) (clock : List ℕ) : ElasticVramCache P :=
  { provider := provider
    config := config
    slots := newSlots config.logicalCapacity config.chunkBytes (clock.headD 0)
    state := .active
    watchdogTripped := false
    clock := clock.tail}

variable (c : ElasticVramCache P)

def now : ℕ := c.clock.headD 0

def tick : ElasticVramCache P := {c with clock := c.clock.tail}

variable (index : ℕ)

def modifySlot (f : ChunkSlot (Mem P) → ChunkSlot (Mem P)) : ElasticVramCache P :=
  {c with slots := c.slots.modify index f}

def residentChunksCount : ℕ :=
  c.slots.countP fun s => s.mem.isSome && !s.spilledToSsd

def activeVramBytes : ℕ :=
  min (c.residentChunksCount*c.config.chunkBytes) (2^64-1)

def eligible : List (ℕ × ℕ) :=
  (c.slots.zipIdx.filterMap fun (slot,index) =>
    if slot.mem.isSome && !slot.spilledToSsd then some (index,slot.lastAccessed)
    else none).insertionSort fun x y => x.2≤y.2

def spill : ElasticVramCache P :=
  c.modifySlot index fun s => {s with mem := none, spilledToSsd := true}

def evictLoop (target : ℕ) : List (ℕ × ℕ) → ℕ → ℕ → ElasticVramCache P → ℕ × ElasticVramCache P
  | [], _, evicted, c => (evicted,c)
  | (index,_)::rest, freed, evicted, c =>
    if freed ≥ target then (evicted,c)
    else
      evictLoop target rest (saturatingAdd 64 freed c.config.chunkBytes)
        (saturatingAdd 64 evicted 1) (c.spill index)

def evictColdestChunks (targetBytesToFree : ℕ) : ℕ × ElasticVramCache P :=
  if c.config.chunkBytes=0 ∨ targetBytesToFree=0 then (0,c)
  else evictLoop targetBytesToFree c.eligible 0 0 c

def tripWatchdog : ElasticVramCache P :=
  {c with watchdogTripped := true}

def resetWatchdog : ElasticVramCache P :=
  {c with watchdogTripped := false}

/-- A transfer that failed or took too long: the watchdog trips and the chunk counts as spilled,
though its memory is kept. -/
def giveUp : ElasticVramCache P :=
  (c.modifySlot index fun s => {s with spilledToSsd := true}).tripWatchdog

/-- The transfer half of `read`, once the slot is known to be resident. -/
def readSlot (mem : Mem P) (off len : ℕ) : CacheRead × List UInt8 × ElasticVramCache P :=
  let start := c.now
  match VramProvider.readAt c.provider mem (off%c.config.chunkBytes) len with
  | (.ok bytes,provider) =>
    let c := ({c with provider := provider}).tick
    if c.now-start > c.config.dmaTimeout then (.miss,bytes,c.tick.giveUp index)
    else
      let c := c.tick
      (.hit,bytes,c.tick.modifySlot index fun s => {s with lastAccessed := c.now})
  | (.error _,provider) =>
    (.miss,List.replicate len 0,({c with provider := provider}).tick.giveUp index)

def read (off len : ℕ) : CacheRead × List UInt8 × ElasticVramCache P :=
  if c.state≠.active ∨ c.watchdogTripped=true then (.miss,List.replicate len 0,c)
  else if c.config.chunkBytes=0 ∨ off ≥ c.config.logicalCapacity then
    (.failed,List.replicate len 0,c)
  else
    let index := off/c.config.chunkBytes
    match c.slots[index]? with
    | none => (.failed,List.replicate len 0,c)
    | some slot =>
      match slot.spilledToSsd, slot.mem with
      | false, some mem => c.readSlot index mem off len
      | _, _ => (.miss,List.replicate len 0,c)

/-- The write half of `update`, once the slot has memory. -/
def writeSlot (mem : Mem P) (off : ℕ) (data : List UInt8) : CacheMutation × ElasticVramCache P :=
  let start := c.now
  match VramProvider.writeAt c.provider mem (off%c.config.chunkBytes) data with
  | (.ok (),mem,provider) =>
    let c := (({c with provider := provider}).tick).modifySlot index fun s =>
      {s with mem := some mem}
    if c.now-start > c.config.dmaTimeout then (.failed,c.tick.giveUp index)
    else
      let c := c.tick
      (.accepted,c.tick.modifySlot index fun s => {s with written := true, lastAccessed := c.now})
  | (.error _,mem,provider) =>
    (.failed,((({c with provider := provider}).tick).modifySlot index fun s =>
      {s with mem := some mem}).giveUp index)

/-- The on-demand allocation of `update`; the result of `zero` is ignored. -/
def allocateSlot : Option (Mem P) × ElasticVramCache P :=
  if saturatingAdd 64 c.activeVramBytes c.config.chunkBytes > c.config.maxVramBytes then
    (none,c.modifySlot index fun s => {s with spilledToSsd := true})
  else match VramProvider.alloc c.provider c.config.chunkBytes with
    | (.error _,provider) =>
      (none,({c with provider := provider}).modifySlot index fun s =>
        {s with spilledToSsd := true})
    | (.ok mem,provider) =>
      match VramProvider.zero provider mem with
      | (_,mem,provider) =>
        (some mem,({c with provider := provider}).modifySlot index fun s =>
          {s with mem := some mem})

def update (off : ℕ) (data : List UInt8) : CacheMutation × ElasticVramCache P :=
  if c.state≠.active ∨ c.watchdogTripped=true then (.skipped,c)
  else if c.config.chunkBytes=0 ∨ off ≥ c.config.logicalCapacity then (.failed,c)
  else
    let index := off/c.config.chunkBytes
    match c.slots[index]? with
    | none => (.failed,c)
    | some slot =>
      if slot.spilledToSsd then (.skipped,c)
      else match slot.mem with
        | some mem => c.writeSlot index mem off data
        | none =>
          match c.allocateSlot index with
          | (none,c) => (.skipped,c)
          | (some mem,c) => c.writeSlot index mem off data

def promote (off : ℕ) (data : List UInt8) : CacheMutation × ElasticVramCache P :=
  if c.state≠.active ∨ c.watchdogTripped=true then (.skipped,c) else c.update off data

def disable : CacheMutation × ElasticVramCache P :=
  (.accepted,{ c with
    state := .unavailable
    slots := c.slots.map fun s => { s with mem := none, spilledToSsd := true}})

instance : BestEffortCache (ElasticVramCache P) where
  read := read
  update := update
  promote := promote
  disable := disable
  state := state
  cachedBytes := activeVramBytes
  targetBytes c := c.config.maxVramBytes

end ElasticVramCache

/-! The bytes it would serve, as a partial copy of a device. -/

namespace ElasticVramCache
variable {P : Type} [VramProvider P]

/-- Slot memory is one chunk long, and a revoked cache has none. -/
structure WellFormed (c : ElasticVramCache P) : Prop where
  len_eq : ∀ (i : ℕ) (s : ChunkSlot (Mem P)) (m : Mem P),
    c.slots[i]?=some s → s.mem=some m → VramProvider.len m=c.config.chunkBytes
  revoked : c.state≠.active → ∀ (i : ℕ) (s : ChunkSlot (Mem P)),
    c.slots[i]?=some s → s.mem=none

variable {c : ElasticVramCache P}
variable {f : ChunkSlot (Mem P) → ChunkSlot (Mem P)}

lemma WellFormed.modifySlot (h : c.WellFormed) (index : ℕ) (hf : ∀ s m, (f s).mem=some m → s.mem=some m ∨
      VramProvider.len m=c.config.chunkBytes ∧ c.state=.active) : (c.modifySlot index f).WellFormed := by
  have hget : ∀ (i : ℕ) s, (c.modifySlot index f).slots[i]?=some s →
      ∃ s₀, c.slots[i]?=some s₀ ∧ (s=s₀ ∨ s = f s₀) := by
    intro i s hs
    simp only [ElasticVramCache.modifySlot,List.getElem?_modify] at hs
    rcases hx : c.slots[i]? with _ | s₀
    · simp [hx] at hs
    · refine ⟨s₀,rfl,?_⟩
      simp only [hx,Option.map_eq_map,Option.map_some,Option.some.injEq] at hs
      split_ifs at hs
      · exact .inr hs.symm
      · exact .inl hs.symm
  constructor
  · intro i s m hs hm
    obtain ⟨s₀,h₀,rfl | rfl⟩ := hget i s hs
    · exact h.len_eq i s m h₀ hm
    · rcases hf s₀ m hm with hm | hm
      · exact h.len_eq i s₀ m h₀ hm
      · exact hm.1
  · intro hst i s hs
    obtain ⟨s₀,h₀,rfl | rfl⟩ := hget i s hs
    · exact h.revoked hst i s h₀
    · rcases hm : (f s₀).mem with _ | m
      · rfl
      · rcases hf s₀ m hm with hm | hm
        · rw [h.revoked hst i s₀ h₀] at hm
          cases hm
        · exact absurd hm.2 hst

lemma WellFormed.modifySlot_of_mem (h : c.WellFormed) (index : ℕ)
    (hf : ∀ s m, (f s).mem=some m → s.mem=some m) : (c.modifySlot index f).WellFormed :=
  h.modifySlot index fun s m hm => .inl (hf s m hm)

lemma WellFormed.giveUp (h : c.WellFormed) (index : ℕ) : (c.giveUp index).WellFormed := by
  have hm := h.modifySlot_of_mem index (f := fun s => {s with spilledToSsd := true})
    fun s m hm => hm
  exact ⟨hm.len_eq,hm.revoked⟩

variable [LawfulVram P]

/-- The byte a resident slot holds at a position of its chunk. -/
def slotByte (s : ChunkSlot (Mem P)) (r : ℕ) : Option UInt8 :=
  if s.spilledToSsd then none else s.mem.map fun m => LawfulVram.contents m r

/-- The bytes of resident chunks, up to the end of the device. -/
def resident (size : ℕ) (c : ElasticVramCache P) : Copy UInt8 := fun a =>
  if a<size then
    c.slots[a/c.config.chunkBytes]?.bind fun s => slotByte s (a%c.config.chunkBytes)
  else none

lemma resident_of_revoked (h : c.WellFormed) (hs : c.state≠.active) (size a : ℕ) : c.resident size a=none := by
  unfold resident
  split_ifs
  · rcases hx : c.slots[a/c.config.chunkBytes]? with _ | s
    · rfl
    · simp [slotByte,h.revoked hs _ s hx]
  · rfl

lemma lt_of_resident {size a : ℕ} {v : UInt8} (h : c.resident size a=some v) : a<size := by
  by_contra hge
  simp [resident,hge] at h

lemma resident_modifySlot (c : ElasticVramCache P) (size index : ℕ)
    (f : ChunkSlot (Mem P) → ChunkSlot (Mem P)) (a : ℕ) : (c.modifySlot index f).resident size a =
      if a<size ∧ index = a/c.config.chunkBytes then
        c.slots[a/c.config.chunkBytes]?.bind fun s => slotByte (f s) (a%c.config.chunkBytes)
      else c.resident size a := by
  simp only [resident,modifySlot,List.getElem?_modify]
  by_cases ha : a<size
  · by_cases hi : index = a/c.config.chunkBytes
    · simp only [ha,hi,if_true,and_self]
      cases c.slots[a/c.config.chunkBytes]? <;> rfl
    · simp only [ha,hi,if_true,if_false,and_false]
      cases c.slots[a/c.config.chunkBytes]? <;> rfl
  · simp [ha]

lemma forgets_modifySlot (c : ElasticVramCache P) (size index : ℕ)
    (hf : ∀ s r v, slotByte (f s) r=some v → slotByte s r=some v) :
    Forgets (c.resident size) ((c.modifySlot index f).resident size) := by
  intro a v h
  rw [resident_modifySlot] at h
  split_ifs at h with hi
  · obtain ⟨s,hs,h⟩ := Option.bind_eq_some_iff.mp h
    simp only [resident,if_pos hi.1,hs,Option.bind_some]
    exact hf s _ v h
  · exact h

lemma forgets_giveUp (c : ElasticVramCache P) (size index : ℕ) :
    Forgets (c.resident size) ((c.giveUp index).resident size) :=
  forgets_modifySlot c size index fun s r v h => by simp [slotByte] at h

structure Holds (c : ElasticVramCache P) (index : ℕ) (mem : Mem P) : Prop where
  slot : ∃ s, c.slots[index]?=some s ∧ s.spilledToSsd=false ∧ s.mem=some mem
  chunk_pos : 0<c.config.chunkBytes

lemma Holds.resident_eq {index : ℕ} {mem : Mem P} (h : c.Holds index mem) {size a : ℕ}
    (ha : a<size) (hi : a/c.config.chunkBytes=index) :
    c.resident size a=some (LawfulVram.contents mem (a%c.config.chunkBytes)) := by
  obtain ⟨s,hs,hsp,hm⟩ := h.slot
  simp [resident,ha,hi,hs,slotByte,hsp,hm]

lemma readSlot_spec (h : c.WellFormed) {mem : Mem P} (size off len : ℕ)
    (hh : c.Holds (off/c.config.chunkBytes) mem) :
    (c.readSlot (off/c.config.chunkBytes) mem off len).2.2.WellFormed ∧
    Forgets (c.resident size) ((c.readSlot (off/c.config.chunkBytes) mem off len).2.2.resident size) ∧
    ((c.readSlot (off/c.config.chunkBytes) mem off len).1=.hit → off+len ≤ size →
      ∀ img : Image UInt8, Coherent img (c.resident size) →
        (c.readSlot (off/c.config.chunkBytes) mem off len).2.1 = img.load off len) := by
  have hlen : VramProvider.len mem=c.config.chunkBytes := by
    obtain ⟨s,hs,-,hm⟩ := hh.slot
    exact h.len_eq _ s mem hs hm
  have hr := LawfulVram.readAt_ok c.provider mem (off%c.config.chunkBytes) len
  unfold readSlot
  generalize VramProvider.readAt c.provider mem (off%c.config.chunkBytes) len = x at hr ⊢
  rcases x with ⟨e | bytes,provider⟩
  · refine ⟨WellFormed.giveUp ?_ _,forgets_giveUp _ size _,fun h' => by cases h'⟩
    exact ⟨h.len_eq,h.revoked⟩
  dsimp only
  split_ifs
  · refine ⟨WellFormed.giveUp ?_ _,forgets_giveUp _ size _,fun h' => by cases h'⟩
    exact ⟨h.len_eq,h.revoked⟩
  · refine ⟨WellFormed.modifySlot_of_mem ?_ _ fun s m hm => hm,?_,?_⟩
    · exact ⟨h.len_eq,h.revoked⟩
    · exact forgets_modifySlot _ size _ fun s r v hv => hv
    · intro _ hsize img hc
      obtain ⟨hb,rfl⟩ := hr bytes rfl
      refine Image.load_congr fun i hi => ?_
      have hfit : len≤firstCount c.config.chunkBytes off len := by
        unfold firstCount
        omega
      obtain ⟨hd,hm⟩ := div_of_mem_firstPiece hh.chunk_pos (Nat.le_add_right off i)
        (Nat.add_lt_add_left (hi.trans_le hfit) off)
      rw [Nat.add_sub_cancel_left] at hm
      rw [←hm]
      exact hc _ _ (hh.resident_eq (by omega) hd)

lemma read_spec (h : c.WellFormed) (size off len : ℕ) : (c.read off len).2.2.WellFormed ∧
    Forgets (c.resident size) ((c.read off len).2.2.resident size) ∧
    ((c.read off len).1=.hit → off+len ≤ size → ∀ img : Image UInt8, Coherent img (c.resident size) →
        (c.read off len).2.1 = img.load off len) := by
  unfold read
  split_ifs with hs hg
  · exact ⟨h,Forgets.refl _,fun h' => by cases h'⟩
  · exact ⟨h,Forgets.refl _,fun h' => by cases h'⟩
  dsimp only
  split
  · exact ⟨h,Forgets.refl _,fun h' => by cases h'⟩
  · rename_i s hslot
    split
    · rename_i mem hsp hm
      exact readSlot_spec h size off len ⟨⟨s,hslot,hsp,hm⟩,by omega⟩
    · exact ⟨h,Forgets.refl _,fun h' => by cases h'⟩

end ElasticVramCache

end RamShared.Elastic

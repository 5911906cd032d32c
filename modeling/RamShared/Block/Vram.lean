import RamShared.Lib.Image

/-! The VRAM provider boundary. A provider is whatever allocates regions and moves bytes;
its own state is threaded through every call, so that a call may succeed or fail for
reasons the caller never sees. -/
namespace RamShared.Block
open Lib

inductive VramError
  | provider (message : String)
  | outOfRange (off len size : ℕ)
  | outOfMemory
  | invalidAlignment
  | busy
  deriving DecidableEq, Repr

def VramError.text : VramError → String
  | .provider m => s!"vram provider: {m}"
  | .outOfRange off len size => s!"vram out-of-range: off={off} len={len} size={size}"
  | .outOfMemory => "vram out of memory"
  | .invalidAlignment => "vram invalid alignment"
  | .busy => "vram busy"

/-- `VramProvider` together with the `VramMemory` of its regions. -/
class VramProvider (P : Type) where
  Mem : Type
  len : Mem → ℕ
  alloc : P → ℕ → Except VramError Mem × P
  memInfo : P → Except VramError (ℕ × ℕ) × P
  zero : P → Mem → Except VramError Unit × Mem × P
  readAt : P → Mem → ℕ → ℕ → Except VramError (List UInt8) × P
  writeAt : P → Mem → ℕ → List UInt8 → Except VramError Unit × Mem × P

/-- What a success means. Nothing is said about a failed call: it may leave any bytes
anywhere in the region. -/
class LawfulVram (P : Type) [VramProvider P] where
  contents : VramProvider.Mem P → Image UInt8
  alloc_len : ∀ (p : P) n m, (VramProvider.alloc p n).1=.ok m → VramProvider.len m=n
  zero_len : ∀ (p : P) m, VramProvider.len (VramProvider.zero p m).2.1 = VramProvider.len m
  zero_ok : ∀ (p : P) m, (VramProvider.zero p m).1=.ok () →
    contents (VramProvider.zero p m).2.1 = fun _ => 0
  readAt_ok : ∀ (p : P) m off n bytes, (VramProvider.readAt p m off n).1=.ok bytes →
    off+n≤VramProvider.len m ∧ bytes = (contents m).load off n
  writeAt_len : ∀ (p : P) m off data,
    VramProvider.len (VramProvider.writeAt p m off data).2.1 = VramProvider.len m
  writeAt_ok : ∀ (p : P) m off data, (VramProvider.writeAt p m off data).1=.ok () →
    off+data.length≤VramProvider.len m ∧
      contents (VramProvider.writeAt p m off data).2.1 = (contents m).store off data

/-- A write, failed or not, stays inside the range it was given: the bounds are checked
before the copy and the copy is told no other addresses. -/
class ContainedVram (P : Type) [VramProvider P] [LawfulVram P] : Prop where
  writeAt_outside : ∀ (p : P) m off data a, a<off ∨ off+data.length≤a →
    LawfulVram.contents (VramProvider.writeAt p m off data).2.1 a = LawfulVram.contents m a

structure VramRegion where
  len : ℕ
  bytes : Image UInt8

/-- How a scripted device treats one call: the verdict, the bytes a fresh allocation or a
failed write leaves behind, and the answer to `mem_info`. -/
structure VramReply where
  ok : Bool := true
  junk : Image UInt8 := fun _ => 0
  free : ℕ := 2^64-1
  total : ℕ := 2^64-1

/-- A device that answers its calls from a script and succeeds once the script is used up. -/
structure VramScript where
  replies : List VramReply

namespace VramScript

def reply (p : VramScript) : VramReply := p.replies.headD {}
def rest (p : VramScript) : VramScript := ⟨p.replies.tail⟩

def writeRegion (r : VramReply) (m : VramRegion) (off : ℕ) (data : List UInt8) :
    Except VramError Unit × VramRegion :=
  if off+data.length ≤ m.len then
    if r.ok then (.ok (),{m with bytes := m.bytes.store off data})
    else (.error (.provider "copy"),
      {m with bytes := m.bytes.store off (r.junk.load off data.length)})
  else (.error (.outOfRange off data.length m.len),m)

instance : VramProvider VramScript where
  Mem := VramRegion
  len := VramRegion.len
  alloc p n := (if p.reply.ok then .ok ⟨n,p.reply.junk⟩ else .error .outOfMemory,p.rest)
  memInfo p := (if p.reply.ok then .ok (p.reply.free,p.reply.total) else .error .busy,p.rest)
  zero p m :=
    if p.reply.ok then (.ok (),{m with bytes := fun _ => 0},p.rest)
    else (.error (.provider "memset"),{m with bytes := p.reply.junk},p.rest)
  readAt p m off n :=
    (if off+n ≤ m.len then
      if p.reply.ok then .ok (m.bytes.load off n) else .error (.provider "copy")
    else .error (.outOfRange off n m.len),p.rest)
  writeAt p m off data :=
    ((writeRegion p.reply m off data).1,(writeRegion p.reply m off data).2,p.rest)

instance : LawfulVram VramScript where
  contents := VramRegion.bytes
  alloc_len := by
    intro p n m h
    simp only [VramProvider.alloc] at h
    split_ifs at h
    cases h
    rfl
  zero_len := by
    intro p m
    simp only [VramProvider.zero]
    split_ifs <;> rfl
  zero_ok := by
    intro p m h
    simp only [VramProvider.zero] at h ⊢
    split_ifs at h ⊢
    rfl
  readAt_ok := by
    intro p m off n bytes h
    simp only [VramProvider.readAt] at h
    split_ifs at h with hb
    cases h
    exact ⟨hb,rfl⟩
  writeAt_len := by
    intro p m off data
    simp only [VramProvider.writeAt,writeRegion]
    split_ifs <;> rfl
  writeAt_ok := by
    intro p m off data h
    simp only [VramProvider.writeAt,writeRegion] at h ⊢
    split_ifs at h ⊢ with hb
    exact ⟨hb,rfl⟩

instance : ContainedVram VramScript where
  writeAt_outside := by
    intro p m off data a ha
    simp only [LawfulVram.contents,VramProvider.writeAt,writeRegion]
    split_ifs
    · exact m.bytes.store_outside data ha
    · exact m.bytes.store_outside _ (by simpa using ha)
    · rfl

end VramScript
end RamShared.Block

import RamShared.Nbd.Request
import RamShared.Nbd.SliceView

/-! Kernel descriptors as block requests, and their execution over a backend in the buffer that
holds the data. -/
namespace RamShared.Ublk
open Lib Block Nbd

def ublkSectorSize : ℕ := 512

def ublkIoOpRead : UInt8 := 0
def ublkIoOpWrite : UInt8 := 1
def ublkIoOpFlush : UInt8 := 2
def ublkIoOpDiscard : UInt8 := 3

structure IoDesc where
  opFlags : UInt32
  nrSectorsOrZones : UInt32
  startSector : UInt64
  deriving DecidableEq, Repr

inductive IoRequestError
  | unsupportedOp (op : UInt8)
  | lengthOverflow
  | offsetOverflow
  deriving DecidableEq, Repr

namespace IoDesc

def operation (d : IoDesc) : UInt8 := (d.opFlags&&&0xff).toUInt8

def byteRange (d : IoDesc) : Except IoRequestError (UInt64 × UInt32) :=
  match checkedMul 64 d.startSector.toNat ublkSectorSize with
  | none => .error .offsetOverflow
  | some offset =>
    match checkedMul 64 d.nrSectorsOrZones.toNat ublkSectorSize with
    | none => .error .lengthOverflow
    | some len =>
      if len<2^32 then .ok (.ofNat offset,.ofNat len) else .error .lengthOverflow

/-- The flags of the descriptor are dropped, and so is the range of a flush. -/
def toBlockRequest (d : IoDesc) (tag : UInt16) : Except IoRequestError Request :=
  let op := d.operation
  let request (cmd : Command) (range : UInt64 × UInt32) : Request :=
    ⟨0,cmd,tag.toUInt64,range.1,range.2⟩
  if op=ublkIoOpRead then d.byteRange.map (request .read)
  else if op=ublkIoOpWrite then d.byteRange.map (request .write)
  else if op=ublkIoOpDiscard then d.byteRange.map (request .trim)
  else if op=ublkIoOpFlush then .ok (request .flush (0,0))
  else .error (.unsupportedOp op)

lemma toBlockRequest_ok {d : IoDesc} {tag : UInt16} {r : Request} (h : d.toBlockRequest tag=.ok r) :
    r.flags=0 ∧ (r.cmd=.read ∨ r.cmd=.write ∨ r.cmd=.trim ∨ r.cmd=.flush ∧ r.offset=0 ∧ r.len=0) := by
  unfold toBlockRequest at h
  cases hr : d.byteRange with
  | error e =>
    simp only [hr,Except.map] at h
    split_ifs at h
    obtain rfl := Except.ok.inj h
    simp
  | ok range =>
    simp only [hr,Except.map] at h
    split_ifs at h <;> obtain rfl := Except.ok.inj h <;> simp

end IoDesc

/-- `read_at` on the buffer of the caller, which it may fill in part when it fails. A backend's
`readAt` is the call on a fresh zeroed buffer. -/
class BufferBackend (B : Type) [BlockBackend B] where
  readInto : B → ℕ → List UInt8 → Except IoError Unit × List UInt8 × B
  length_readInto : ∀ b off buf, (readInto b off buf).2.1.length=buf.length
  readAt_eq : ∀ b off len, BlockBackend.readAt b off len =
    let (result,buf,b') := readInto b off (List.replicate len 0)
    (result.map fun () => buf,b')

/-- What the front ends rely on: a read does not depend on what the buffer held, and fills it
when it succeeds; a write without options is a plain write. -/
class LawfulBackend (B : Type) [BlockBackend B] [BufferBackend B] : Prop where
  readInto_result : ∀ (b : B) off buf, (BufferBackend.readInto b off buf).1 =
    (BlockBackend.readAt b off buf.length).1.map fun _ => ()
  readInto_state : ∀ (b : B) off buf, (BufferBackend.readInto b off buf).2.2 =
    (BlockBackend.readAt b off buf.length).2
  readInto_data : ∀ (b : B) off buf data, (BlockBackend.readAt b off buf.length).1=.ok data →
    (BufferBackend.readInto b off buf).2.1=data
  writeAtWithOptions_default : ∀ (b : B) off data,
    BlockBackend.writeAtWithOptions b off data {} = BlockBackend.writeAt b off data

/-- Moreover a read that fails leaves the buffer as it was. -/
class AtomicBackend (B : Type) [BlockBackend B] [BufferBackend B] : Prop
    extends LawfulBackend B where
  readInto_error : ∀ (b : B) off buf e, (BufferBackend.readInto b off buf).1=.error e →
    (BufferBackend.readInto b off buf).2.1=buf

/-- The volatile disk copies all of the range or nothing. -/
instance : BufferBackend RamBackend where
  readInto b off buf :=
    match BlockBackend.readAt b off buf.length with
    | (.ok data,b) => (.ok (),data,b)
    | (.error e,b) => (.error e,buf,b)
  length_readInto b off buf := by
    cases h : b.range off buf.length with
    | none => simp [BlockBackend.readAt,RamBackend.readAt,h]
    | some r =>
      obtain ⟨rfl,hle⟩ := RamBackend.range_eq_some h
      simp [BlockBackend.readAt,RamBackend.readAt,h]
      omega
  readAt_eq b off len := by
    cases h : b.range off len <;>
      simp [BlockBackend.readAt,RamBackend.readAt,h,Except.map]

instance : AtomicBackend RamBackend where
  readInto_result b off buf := by
    cases h : b.range off buf.length <;>
      simp [BufferBackend.readInto,BlockBackend.readAt,RamBackend.readAt,h,Except.map]
  readInto_state b off buf := by
    cases h : b.range off buf.length <;>
      simp [BufferBackend.readInto,BlockBackend.readAt,RamBackend.readAt,h]
  readInto_data b off buf data hd := by
    have h : BlockBackend.readAt b off buf.length =
        (.ok data,(BlockBackend.readAt b off buf.length).2) := Prod.ext hd rfl
    simp only [BufferBackend.readInto]
    rw [h]
  writeAtWithOptions_default b off data := by
    simp only [BlockBackend.writeAtWithOptions,writeThenFlush]
    cases h : b.range off data.length <;> simp [BlockBackend.writeAt,RamBackend.writeAt,h]
  readInto_error b off buf e := by
    cases h : b.range off buf.length <;>
      simp [BufferBackend.readInto,BlockBackend.readAt,RamBackend.readAt,h]

def eio : ℤ := -5
def einval : ℤ := -22
def erange : ℤ := -34

section
variable {B : Type} [BlockBackend B] [BufferBackend B]

/-- The result of a COMMIT: the bytes served, if an `i32` can hold their number. -/
def served (result : Except IoError Unit) (bytes : ℕ) : ℤ :=
  match result with
  | .ok () => if bytes<2^31 then bytes else eio
  | .error _ => eio

def transfer (req : Request) (backend : B) (buf : List UInt8) : ℤ × List UInt8 × B :=
  let len := req.len.toNat
  match req.cmd with
  | .trim => (0,buf,backend)
  | .read =>
    let (result,data,backend) := BufferBackend.readInto backend req.offset.toNat (buf.take len)
    (served result len,data++buf.drop len,backend)
  | .write =>
    let (result,backend) := BlockBackend.writeAt backend req.offset.toNat (buf.take len)
    (served result len,buf,backend)
  | .flush =>
    let (result,backend) := BlockBackend.flush backend
    (served result 0,buf,backend)
  | .disc | .unknown _ => (einval,buf,backend)

/-- The result of the COMMIT, the buffer and the backend after the request. -/
def serveRequest (req : Request) (backend : B) (buf : List UInt8) : ℤ × List UInt8 × B :=
  let len := req.len.toNat
  if buf.length<len then (einval,buf,backend)
  else
    let bs := BlockBackend.blockSize backend
    if 0<bs ∧ (¬bs ∣ req.offset.toNat ∨ ¬bs ∣ len) then (einval,buf,backend)
    else
      match checkedAdd 64 req.offset.toNat len with
      | none => (erange,buf,backend)
      | some stop =>
        if BlockBackend.sizeBytes backend<stop then (erange,buf,backend)
        else transfer req backend buf

end

variable {bytes : ℕ}

lemma served_nonneg {result : Except IoError Unit} (hb : bytes<2^31) :
    0 ≤ served result bytes ↔ errnoOf result=nbdOk := by
  cases result with
  | error e => simp [served,errnoOf,eio,nbdEio,nbdOk]
  | ok u => simp only [served,errnoOf,if_pos hb,Int.natCast_nonneg]

lemma served_eq {result : Except IoError Unit} (h : 0 ≤ served result bytes) : served result bytes=bytes := by
  cases result with
  | error e => simp [served,eio] at h
  | ok u =>
    simp only [served] at h ⊢
    split_ifs at h ⊢ with hb
    · rfl
    · simp [eio] at h

lemma served_of_long (h : ¬bytes<2^31) (result : Except IoError Unit) : served result bytes=eio := by
  cases result with
  | error e => rfl
  | ok u => exact if_neg h

lemma served_ok (h : bytes<2^31) : served (.ok ()) bytes=bytes := if_pos h

/-- The request lies within the device, and within the address space. -/
def InRange (size : ℕ) (r : Request) : Prop :=
  r.offset.toNat+r.len.toNat<2^64 ∧ r.offset.toNat+r.len.toNat ≤ size

def Aligned (bs : ℕ) (r : Request) : Prop := bs ∣ r.offset.toNat ∧ bs ∣ r.len.toNat

instance (size : ℕ) (r : Request) : Decidable (InRange size r) :=
  inferInstanceAs (Decidable (_ ∧ _))

instance (bs : ℕ) (r : Request) : Decidable (Aligned bs r) :=
  inferInstanceAs (Decidable (_ ∧ _))

section
variable {B : Type} [BlockBackend B] [BufferBackend B]

lemma serveRequest_guards (r : Request) (b : B) :
    (∀ buf, r.len.toNat≤buf.length → serveRequest r b buf = transfer r b buf) ∨
    ∃ e<0, ∀ buf, r.len.toNat≤buf.length → serveRequest r b buf = (e,buf,b) := by
  unfold serveRequest
  dsimp only
  by_cases hguard : 0<BlockBackend.blockSize b ∧ (¬BlockBackend.blockSize b ∣ r.offset.toNat ∨
      ¬BlockBackend.blockSize b ∣ r.len.toNat)
  · exact .inr ⟨einval,by decide,fun buf h => by rw [if_neg (by omega),if_pos hguard]⟩
  cases hadd : checkedAdd 64 r.offset.toNat r.len.toNat with
  | none => exact .inr ⟨erange,by decide,fun buf h => by rw [if_neg (by omega),if_neg hguard]⟩
  | some stop =>
    by_cases hsize : BlockBackend.sizeBytes b<stop
    · refine .inr ⟨erange,by decide,fun buf h => ?_⟩
      rw [if_neg (by omega),if_neg hguard]
      exact if_pos hsize
    · refine .inl fun buf h => ?_
      rw [if_neg (by omega),if_neg hguard]
      exact if_neg hsize

/-- The guards of `serveRequest`. -/
def Admits (r : Request) (b : B) (buf : List UInt8) : Prop :=
  r.len.toNat≤buf.length ∧
    (BlockBackend.blockSize b=0 ∨ Aligned (BlockBackend.blockSize b) r) ∧
    InRange (BlockBackend.sizeBytes b) r

lemma serveRequest_of_admits {r : Request} {b : B} {buf : List UInt8} (h : Admits r b buf) :
    serveRequest r b buf = transfer r b buf := by
  obtain ⟨hbuf,halign,hsum,hsize⟩ := h
  have hadd : checkedAdd 64 r.offset.toNat r.len.toNat=some (r.offset.toNat+r.len.toNat) :=
    checkedAdd_eq_some.mpr ⟨hsum,rfl⟩
  have hguard : ¬(0<BlockBackend.blockSize b ∧ (¬BlockBackend.blockSize b ∣ r.offset.toNat ∨
      ¬BlockBackend.blockSize b ∣ r.len.toNat)) := by
    rintro ⟨hpos,hno⟩
    obtain h0 | ⟨h₁,h₂⟩ := halign
    · omega
    · exact hno.elim (absurd h₁) (absurd h₂)
  simp only [serveRequest,hadd]
  rw [if_neg (by omega),if_neg hguard,if_neg (by omega)]

lemma serveRequest_of_not_admits {r : Request} {b : B} {buf : List UInt8}
    (h : ¬Admits r b buf) : ∃ e<0, serveRequest r b buf = (e,buf,b) := by
  unfold serveRequest
  dsimp only
  split_ifs with hbuf hguard
  · exact ⟨einval,by decide,rfl⟩
  · exact ⟨einval,by decide,rfl⟩
  · cases hadd : checkedAdd 64 r.offset.toNat r.len.toNat with
    | none => exact ⟨erange,by decide,rfl⟩
    | some stop =>
      obtain ⟨hsum,rfl⟩ := checkedAdd_eq_some.mp hadd
      by_cases hsize : BlockBackend.sizeBytes b < r.offset.toNat+r.len.toNat
      · exact ⟨erange,by decide,by simp [hsize]⟩
      · refine absurd ⟨by omega,?_,hsum,by omega⟩ h
        by_cases h0 : BlockBackend.blockSize b=0
        · exact .inl h0
        · simp only [not_and,not_or,not_not] at hguard
          exact .inr (hguard (by omega))

end

/-! Where the buffer of a tag begins. -/

def ublksrvIoBufOffset : ℕ := 0x80000000

def ublkIoBufBits : ℕ := 25
def ublkIoBufBitsMask : ℕ := 1<<<ublkIoBufBits-1

def ublkTagOff : ℕ := ublkIoBufBits
def ublkTagBits : ℕ := 16
def ublkTagBitsMask : ℕ := 1<<<ublkTagBits-1

def ublkQidOff : ℕ := ublkTagOff+ublkTagBits
def ublkQidBits : ℕ := 12
def ublkQidBitsMask : ℕ := 1<<<ublkQidBits-1
def ublkMaxNrQueues : ℕ := 1<<<ublkQidBits

def ublksrvIoBufTotalBits : ℕ := ublkQidOff+ublkQidBits
def ublksrvIoBufTotalSize : ℕ := 1<<<ublksrvIoBufTotalBits

structure IoBufferPosition where
  qid : ℕ
  tag : ℕ
  bufferOffset : ℕ
  deriving DecidableEq, Repr

def ioBufferPosition (qid tag bufferOffset : ℕ) : Option ℕ :=
  if ublkMaxNrQueues≤qid ∨ ublkTagBitsMask<tag ∨ ublkIoBufBitsMask<bufferOffset then none
  else checkedAdd 64 ublksrvIoBufOffset (qid<<<ublkQidOff|||tag<<<ublkTagOff|||bufferOffset)

def decodeIoBufferPosition (pos : ℕ) : Option IoBufferPosition :=
  if pos<ublksrvIoBufOffset then none
  else
    let raw := pos-ublksrvIoBufOffset
    if ublksrvIoBufTotalSize ≤ raw then none
    else some ⟨raw>>>ublkQidOff&&&ublkQidBitsMask,raw>>>ublkTagOff&&&ublkTagBitsMask,
      raw&&&ublkIoBufBitsMask⟩

lemma ioBufferPosition_eq_some {qid tag bufferOffset pos : ℕ} :
    ioBufferPosition qid tag bufferOffset=some pos ↔ qid<2^12 ∧ tag<2^16 ∧
      bufferOffset<2^25 ∧ pos = 2^31+(qid*2^41+tag*2^25+bufferOffset) := by
  by_cases h : qid<2^12 ∧ tag<2^16 ∧ bufferOffset<2^25
  · have hraw : qid<<<41|||tag<<<25|||bufferOffset = qid*2^41+tag*2^25+bufferOffset := by
      rw [Nat.or_assoc,←Nat.shiftLeft_add_eq_or_of_lt h.2.2,←Nat.shiftLeft_add_eq_or_of_lt]
      · simp only [Nat.shiftLeft_eq]
        omega
      · simp only [Nat.shiftLeft_eq]
        omega
    rw [ioBufferPosition,if_neg (by simp [ublkMaxNrQueues,ublkTagBitsMask,ublkIoBufBitsMask,
      ublkQidBits,ublkTagBits,ublkIoBufBits]; omega),checkedAdd_eq_some]
    simp only [ublksrvIoBufOffset,ublkQidOff,ublkTagOff,ublkTagBits,ublkIoBufBits,hraw]
    omega
  · rw [ioBufferPosition,if_pos (by simp [ublkMaxNrQueues,ublkTagBitsMask,ublkIoBufBitsMask,
      ublkQidBits,ublkTagBits,ublkIoBufBits]; omega)]
    simp only [reduceCtorEq,false_iff]
    exact fun h' => h ⟨h'.1,h'.2.1,h'.2.2.1⟩

lemma decodeIoBufferPosition_eq_some {qid tag bufferOffset pos : ℕ} :
    decodeIoBufferPosition pos=some ⟨qid,tag,bufferOffset⟩ ↔ qid<2^12 ∧ tag<2^16 ∧
      bufferOffset<2^25 ∧ pos = 2^31+(qid*2^41+tag*2^25+bufferOffset) := by
  have hoff : ublksrvIoBufOffset = 2^31 := rfl
  have hsize : ublksrvIoBufTotalSize = 2^53 := rfl
  have hqid : ublkQidBitsMask = 2^12-1 := rfl
  have htag : ublkTagBitsMask = 2^16-1 := rfl
  have hbuf : ublkIoBufBitsMask = 2^25-1 := rfl
  simp only [decodeIoBufferPosition,hoff,hsize,hqid,htag,hbuf,Nat.and_two_pow_sub_one_eq_mod,
    Nat.shiftRight_eq_div_pow]
  rw [show ublkQidOff = 41 from rfl,show ublkTagOff = 25 from rfl]
  split_ifs
  · simp only [false_iff]
    omega
  · simp only [false_iff]
    omega
  · simp only [Option.some.injEq,IoBufferPosition.mk.injEq]
    omega

/-- Encoding and decoding are inverse to each other, so no two positions are shared. -/
theorem ioBufferPosition_iff_decode (qid tag bufferOffset pos : ℕ) :
    (ioBufferPosition qid tag bufferOffset = some pos ↔
      decodeIoBufferPosition pos = some ⟨qid,tag,bufferOffset⟩) ∧
    ∀ qid' tag' bufferOffset', ioBufferPosition qid tag bufferOffset = some pos →
      ioBufferPosition qid' tag' bufferOffset' = some pos →
      (qid,tag,bufferOffset) = (qid',tag',bufferOffset') := by
  have hiff {q t o : ℕ} : ioBufferPosition q t o = some pos ↔
      decodeIoBufferPosition pos = some ⟨q,t,o⟩ :=
    ioBufferPosition_eq_some.trans decodeIoBufferPosition_eq_some.symm
  refine ⟨hiff,fun qid' tag' bufferOffset' h h' => ?_⟩
  have he := (hiff.mp h).symm.trans (hiff.mp h')
  simpa using he

end RamShared.Ublk

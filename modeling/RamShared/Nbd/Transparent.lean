import RamShared.Nbd.SliceView
import RamShared.Nbd.Request

/-! Serving a request through a window is serving it inside, at its place in the inner backend, with
one exception: the window does not say that the inner backend is read-only. -/
namespace RamShared.Nbd
open Lib Block

/-- The request with its place in the inner backend. -/
def Request.shifted (req : Request) (base : ℕ) : Request :=
  {req with offset := req.offset+UInt64.ofNat base}

def Request.Aligned (req : Request) (blockSize : ℕ) : Prop :=
  blockSize≠0 ∧ blockSize ∣ req.offset.toNat ∧ blockSize ∣ req.len.toNat

instance (req : Request) (blockSize : ℕ) : Decidable (req.Aligned blockSize) :=
  inferInstanceAs (Decidable (_ ∧ _ ∧ _))

lemma encodeSimpleReply_eacces (error : UInt32) (handle : UInt64) (h : error=nbdOk ∨ error=nbdEio) :
    encodeSimpleReply error handle ≠ encodeSimpleReply nbdEacces handle := by
  intro heq
  have htake := congrArg (List.take 8) heq
  have hlen (n : ℕ) : (toBeBytes 4 n).length=4 := rfl
  rcases h with rfl | rfl <;>
    simp [encodeSimpleReply,List.take_append,hlen] at htake <;> revert htake <;> decide

namespace SliceView
variable {B : Type} [BlockBackend B]

/-- A write that nothing but the read-only mode stops. -/
def Writes (blockSize : ℕ) (req : Request) (payload : List UInt8) : Prop :=
  req.cmd=.write ∧ req.flags &&& ~~~nbdCmdFlagFua=0 ∧ payload.length=req.len.toNat ∧
    req.Aligned blockSize

section
variable {inner : B} {base len : ℕ} {req : Request} (hfits : Fits inner base len)
  (hbase : BlockBackend.blockSize inner ∣ base) (hreq : req.offset.toNat+req.len.toNat≤len)
include hfits hreq

lemma offset_shifted : (req.shifted base).offset.toNat = base+req.offset.toNat := by
  obtain ⟨stop,hstop,-⟩ := hfits
  obtain ⟨hlt,rfl⟩ := checkedAdd_eq_some.mp hstop
  have hb : (UInt64.ofNat base).toNat=base := Nat.mod_eq_of_lt (by omega)
  simp only [Request.shifted,UInt64.toNat_add,hb]
  omega

lemma translate_inner {α : Type} (message : String) (call : ℕ → B → Except IoError α × B) :
    (⟨inner,base,len⟩ : SliceView B).translate message req.offset.toNat call =
      ((call (base+req.offset.toNat) inner).1,⟨(call (base+req.offset.toNat) inner).2,base,len⟩) := by
  obtain ⟨stop,hstop,-⟩ := hfits
  obtain ⟨hlt,rfl⟩ := checkedAdd_eq_some.mp hstop
  have hadd : checkedAdd 64 base req.offset.toNat=some (base+req.offset.toNat) :=
    checkedAdd_eq_some.mpr ⟨by omega,rfl⟩
  simp only [translate,hadd]

lemma validate_view : validate req (⟨inner,base,len⟩ : SliceView B) =
    if req.Aligned (BlockBackend.blockSize inner) then .ok () else .error nbdEinval := by
  obtain ⟨stop,hstop,-⟩ := hfits
  obtain ⟨hlt,rfl⟩ := checkedAdd_eq_some.mp hstop
  have hend : checkedAdd 64 req.offset.toNat req.len.toNat=some (req.offset.toNat+req.len.toNat) :=
    checkedAdd_eq_some.mpr ⟨by omega,rfl⟩
  have hsize : ¬BlockBackend.sizeBytes (⟨inner,base,len⟩ : SliceView B) <
    req.offset.toNat+req.len.toNat := not_lt.mpr hreq
  have hmode : BlockBackend.isReadOnly (⟨inner,base,len⟩ : SliceView B)=false := rfl
  have hblock : BlockBackend.blockSize (⟨inner,base,len⟩ : SliceView B) =
    BlockBackend.blockSize inner := rfl
  unfold validate Request.Aligned
  simp only [hend,hsize,hmode,hblock]
  split_ifs <;> simp_all

include hbase in
lemma validate_shifted : validate (req.shifted base) inner = if req.Aligned (BlockBackend.blockSize inner) then
      if req.cmd=.write ∧ BlockBackend.isReadOnly inner then .error nbdEacces else .ok ()
    else .error nbdEinval := by
  have hoff := offset_shifted hfits hreq
  obtain ⟨stop,hstop,hsize⟩ := hfits
  obtain ⟨hlt,rfl⟩ := checkedAdd_eq_some.mp hstop
  have hlen : (req.shifted base).len=req.len := rfl
  have hcmd : (req.shifted base).cmd=req.cmd := rfl
  have hend : checkedAdd 64 (base+req.offset.toNat) req.len.toNat =
    some (base+req.offset.toNat+req.len.toNat) := checkedAdd_eq_some.mpr ⟨by omega,rfl⟩
  have hsize : ¬BlockBackend.sizeBytes inner<base+req.offset.toNat+req.len.toNat := by omega
  have halign : BlockBackend.blockSize inner ∣ base+req.offset.toNat ↔
    BlockBackend.blockSize inner ∣ req.offset.toNat := (Nat.dvd_add_iff_right hbase).symm
  unfold validate Request.Aligned
  simp only [hoff,hlen,hcmd,hend,hsize,halign]
  split_ifs <;> simp_all

lemma validated_view (body : SliceView B → ServeOutcome × SliceView B) : validated req ⟨inner,base,len⟩ body =
      if req.Aligned (BlockBackend.blockSize inner) then body ⟨inner,base,len⟩
      else (plain req nbdEinval,⟨inner,base,len⟩) := by
  rw [validated,validate_view hfits hreq]
  split_ifs <;> rfl

include hbase in
lemma validated_shifted (body : B → ServeOutcome × B) : validated (req.shifted base) inner body =
      if req.Aligned (BlockBackend.blockSize inner) then
        if req.cmd=.write ∧ BlockBackend.isReadOnly inner then (plain req nbdEacces,inner) else body inner
      else (plain req nbdEinval,inner) := by
  rw [validated,validate_shifted hfits hbase hreq]
  split_ifs <;> rfl

end

/-- Serving through the window answers the same and leaves the same inner backend. -/
def Transparent (inner : B) (base len : ℕ) (req : Request) (payload : List UInt8) : Prop :=
  serve req payload (⟨inner,base,len⟩ : SliceView B) =
    ((serve (req.shifted base) payload inner).1,⟨(serve (req.shifted base) payload inner).2,base,len⟩)

lemma transparent_write {inner : B} {base len : ℕ} (hfits : Fits inner base len)
    (hbase : BlockBackend.blockSize inner ∣ base) {req : Request}
    (hreq : req.offset.toNat+req.len.toNat≤len) (payload : List UInt8) {options : WriteOptions}
    (hflags : validateCommandFlags req=.ok options) (hcmd : req.cmd=.write) :
    Transparent inner base len req payload ↔
      ¬(BlockBackend.isReadOnly inner=true ∧ payload.length=req.len.toNat ∧
        req.Aligned (BlockBackend.blockSize inner)) := by
  have hflags' : validateCommandFlags (req.shifted base)=.ok options := hflags
  have hcmd' : (req.shifted base).cmd=.write := hcmd
  have hlen' : (req.shifted base).len=req.len := rfl
  simp only [Transparent,serve,hflags,hflags',hcmd,hcmd',hlen',validated_view hfits hreq,
    validated_shifted hfits hbase hreq,offset_shifted hfits hreq]
  have hwrite : BlockBackend.writeAtWithOptions (⟨inner,base,len⟩ : SliceView B) req.offset.toNat payload
      options=_ := translate_inner hfits hreq "SliceView write offset overflow"
        fun abs b => BlockBackend.writeAtWithOptions b abs payload options
  split_ifs with hpayload halign hmode
  · exact iff_of_true rfl fun h => hpayload h.2.1
  · refine iff_of_false (fun heq => ?_) (not_not.mpr ⟨hmode.2,not_not.mp hpayload,halign⟩)
    rw [hwrite] at heq
    have hreply := congrArg (fun x => x.1.reply) heq
    refine encodeSimpleReply_eacces _ _ ?_ hreply
    generalize (BlockBackend.writeAtWithOptions inner (base+req.offset.toNat) payload options).1=r
    cases r with
    | error e => exact .inr rfl
    | ok u => exact .inl rfl
  · rw [hwrite]
    exact iff_of_true rfl fun h => hmode ⟨trivial,h.1⟩
  · exact iff_of_true rfl fun h => halign h.2.2

/-- A window is transparent to every request but one: a write that only the read-only mode of the inner
backend forbids. -/
theorem serve_transparent_iff (inner : B) (base len : ℕ) (hfits : Fits inner base len)
    (hbase : BlockBackend.blockSize inner ∣ base) (req : Request)
    (hreq : req.offset.toNat+req.len.toNat ≤ len) (payload : List UInt8) :
    Transparent inner base len req payload ↔
      ¬(BlockBackend.isReadOnly inner = true ∧ Writes (BlockBackend.blockSize inner) req payload) := by
  cases hflags : validateCommandFlags req with
  | error e =>
    have hflags' : validateCommandFlags (req.shifted base) = .error e := hflags
    refine iff_of_true ?_ fun ⟨_,hcmd,hfua,_⟩ => ?_
    · simp only [Transparent,serve,hflags,hflags']
      rfl
    · simp [validateCommandFlags,hcmd,hfua] at hflags
  | ok options =>
    have hflags' : validateCommandFlags (req.shifted base) = .ok options := hflags
    have hcmd' : (req.shifted base).cmd = req.cmd := rfl
    by_cases hwrite : req.cmd=.write
    · rw [transparent_write hfits hbase hreq payload hflags hwrite]
      have hfua : req.flags &&& ~~~nbdCmdFlagFua = 0 := by
        unfold validateCommandFlags at hflags
        rw [hwrite] at hflags
        dsimp only at hflags
        split_ifs at hflags with hfua
        exact hfua
      simp only [Writes,hwrite,hfua,true_and]
    · refine iff_of_true ?_ fun h => hwrite h.2.1
      simp only [Transparent,serve,hflags,hflags',hcmd',validated_view hfits hreq,
        validated_shifted hfits hbase hreq,offset_shifted hfits hreq,hwrite,false_and,if_false]
      cases hcmd : req.cmd with
      | read =>
        have hread : BlockBackend.readAt (⟨inner,base,len⟩ : SliceView B) req.offset.toNat
            req.len.toNat = _ := translate_inner hfits hreq "SliceView read offset overflow"
              fun abs b => BlockBackend.readAt b abs req.len.toNat
        dsimp only
        rw [hread]
        split_ifs <;> rfl
      | write => exact absurd hcmd hwrite
      | flush => rfl
      | trim =>
        dsimp only
        split_ifs <;> rfl
      | disc => rfl
      | unknown c => rfl

def firstBlock : Request := ⟨0,.write,7,0,512⟩

/-- The second block of a memory disk as a window. -/
theorem serve_transparent_iff_ramBackend :
    (serve firstBlock (List.replicate 512 1) (⟨.new 1024,512,512⟩ : SliceView RamBackend)).2.inner.data =
      List.replicate 512 0++List.replicate 512 1 ∧
    Transparent (.new 1024 : RamBackend) 512 512 firstBlock (List.replicate 512 1) := by
  refine ⟨by decide +kernel,?_⟩
  refine (serve_transparent_iff _ 512 512 ⟨1024,by decide,by decide +kernel⟩ (by decide) firstBlock (by decide)
    _).mpr ?_
  rintro ⟨h,-⟩
  cases h

structure SealedDisk where
  disk : RamBackend

instance : BlockBackend SealedDisk where
  sizeBytes b := BlockBackend.sizeBytes b.disk
  blockSize b := BlockBackend.blockSize b.disk
  isReadOnly _ := true
  readAt b off len := (BlockBackend.readAt b.disk off len).map id SealedDisk.mk
  writeAt b off data := (BlockBackend.writeAt b.disk off data).map id SealedDisk.mk
  flush b := (BlockBackend.flush b.disk).map id SealedDisk.mk

/-- The disk refuses the write, and the window carries it out. -/
theorem window_writes_readOnly :
    (serve (firstBlock.shifted 512) (List.replicate 512 1) (⟨.new 1024⟩ : SealedDisk)).1 =
      plain firstBlock nbdEacces ∧
    (serve (firstBlock.shifted 512) (List.replicate 512 1)
      (⟨.new 1024⟩ : SealedDisk)).2.disk.data = List.replicate 1024 0 ∧
    (serve firstBlock (List.replicate 512 1) (⟨⟨.new 1024⟩,512,512⟩ : SliceView SealedDisk)).1 =
      plain firstBlock nbdOk ∧
    (serve firstBlock (List.replicate 512 1)
      (⟨⟨.new 1024⟩,512,512⟩ : SliceView SealedDisk)).2.inner.disk.data =
      List.replicate 512 0++List.replicate 512 1 ∧
    ¬Transparent (⟨.new 1024⟩ : SealedDisk) 512 512 firstBlock (List.replicate 512 1) := by
  refine ⟨by decide +kernel,by decide +kernel,by decide +kernel,by decide +kernel,fun h => ?_⟩
  refine (transparent_write ⟨1024,by decide,by decide +kernel⟩ (by decide) (by decide) _ rfl rfl).mp h ?_
  exact ⟨rfl,List.length_replicate,by decide⟩

end SliceView
end RamShared.Nbd

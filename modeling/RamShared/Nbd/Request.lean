import RamShared.Lib.Bytes
import RamShared.Block.Backend

/-! The transmission phase of the NBD protocol: requests, simple replies, and the execution of a
request over a backend. -/
namespace RamShared.Nbd
open Lib

/-- Valid in the request flags for `write` only. -/
def nbdCmdFlagFua : UInt16 := 1

def nbdSimpleReplyMagic : UInt32 := 0x67446698

def nbdOk : UInt32 := 0
def nbdEio : UInt32 := 5
def nbdEacces : UInt32 := 13
def nbdEinval : UInt32 := 22
def nbdErange : UInt32 := 34

inductive Command
  | read
  | write
  | disc
  | flush
  | trim
  | unknown (code : UInt16)
  deriving DecidableEq, Repr

structure Request where
  flags : UInt16
  cmd : Command
  handle : UInt64
  offset : UInt64
  len : UInt32
  deriving DecidableEq, Repr

def encodeSimpleReply (error : UInt32) (handle : UInt64) : List UInt8 :=
  toBeBytes 4 nbdSimpleReplyMagic.toNat++toBeBytes 4 error.toNat++toBeBytes 8 handle.toNat

example : encodeSimpleReply 5 0x1122334455667788 =
    [0x67,0x44,0x66,0x98,0,0,0,5,0x11,0x22,0x33,0x44,0x55,0x66,0x77,0x88] := by decide

open Block

structure ServeOutcome where
  reply : List UInt8
  readData : List UInt8
  disconnect : Bool
  deriving DecidableEq, Repr

def errnoOf {α : Type} : Except IoError α → UInt32
  | .ok _ => nbdOk
  | .error _ => nbdEio

section
variable {B : Type} [BlockBackend B] (req : Request)

/-- Alignment and range, checked before the backend is touched. -/
def validate (backend : B) : Except UInt32 Unit :=
  let bs := BlockBackend.blockSize backend
  if bs=0 then .error nbdEinval
  else if ¬bs ∣ req.offset.toNat then .error nbdEinval
  else if ¬bs ∣ req.len.toNat then .error nbdEinval
  else
    match checkedAdd 64 req.offset.toNat req.len.toNat with
    | none => .error nbdErange
    | some stop =>
      if BlockBackend.sizeBytes backend<stop then .error nbdErange
      else if req.cmd=.write ∧ BlockBackend.isReadOnly backend then .error nbdEacces
      else .ok ()

def validateCommandFlags : Except UInt32 WriteOptions :=
  match req.cmd with
  | .write =>
    if req.flags &&& ~~~nbdCmdFlagFua=0 then .ok ⟨req.flags&&&nbdCmdFlagFua≠0⟩
    else .error nbdEinval
  | _ => if req.flags=0 then .ok {} else .error nbdEinval

def plain (error : UInt32) : ServeOutcome :=
  ⟨encodeSimpleReply error req.handle,[],false⟩

def readOutcome (result : Except IoError (List UInt8)) : ServeOutcome :=
  ⟨encodeSimpleReply (errnoOf result) req.handle,result.toOption.getD [],false⟩

/-- A request that does not pass validation is answered without touching the backend. -/
def validated (backend : B) (body : B → ServeOutcome × B) : ServeOutcome × B :=
  match validate req backend with
  | .error e => (plain req e,backend)
  | .ok () => body backend

def serve (payload : List UInt8) (backend : B) : ServeOutcome × B :=
  match validateCommandFlags req with
  | .error e => (plain req e,backend)
  | .ok options =>
    match req.cmd with
    | .read =>
      validated req backend fun backend =>
        let (result,backend) := BlockBackend.readAt backend req.offset.toNat req.len.toNat
        (readOutcome req result,backend)
    | .write =>
      if payload.length≠req.len.toNat then (plain req nbdEinval,backend)
      else
        validated req backend fun backend =>
          let (result,backend) :=
            BlockBackend.writeAtWithOptions backend req.offset.toNat payload options
          (plain req (errnoOf result),backend)
    | .flush =>
      let (result,backend) := BlockBackend.flush backend
      (plain req (errnoOf result),backend)
    | .trim => validated req backend fun backend => (plain req nbdOk,backend)
    | .disc => (⟨encodeSimpleReply nbdOk req.handle,[],true⟩,backend)
    | .unknown _ => (plain req nbdEinval,backend)

end

lemma le_size_of_validate {B : Type} [BlockBackend B] {req : Request} {backend : B}
    (h : validate req backend=.ok ()) : req.offset.toNat+req.len.toNat≤BlockBackend.sizeBytes backend := by
  unfold validate at h
  rcases hs : checkedAdd 64 req.offset.toNat req.len.toNat with _ | stop
  · simp only [hs] at h
    split_ifs at h
  · obtain ⟨-,rfl⟩ := checkedAdd_eq_some.mp hs
    simp only [hs] at h
    split_ifs at h
    omega

end RamShared.Nbd

import RamShared.Nbd.Negotiation
import RamShared.Nbd.Worker

/-! The reader of a connection: after the handshake it cuts the stream into requests, and each becomes
a job for the worker. -/
namespace RamShared.Nbd
open Lib Block

def nbdRequestMagic : UInt32 := 0x25609513
def requestLen : ℕ := 28

def Command.fromU16 (v : UInt16) : Command :=
  if v=0 then .read
  else if v=1 then .write
  else if v=2 then .disc
  else if v=3 then .flush
  else if v=4 then .trim
  else .unknown v

inductive ProtocolError
  | truncatedPayload (got need : ℕ)
  | invalidHeader (magic : UInt32)
  | checksumMismatch
  deriving DecidableEq, Repr

/-- The big-endian number in `n` bytes of the header. -/
def field (buf : List UInt8) (off n : ℕ) : ℕ := fromBeBytes ((buf.drop off).take n)

def parseRequest (buf : List UInt8) : Except ProtocolError Request :=
  if buf.length < requestLen then .error (.truncatedPayload buf.length requestLen)
  else
    let magic := UInt32.ofNat (field buf 0 4)
    if magic≠nbdRequestMagic then .error (.invalidHeader magic)
    else
      .ok
        { flags := .ofNat (field buf 4 2)
          cmd := .fromU16 (.ofNat (field buf 6 2))
          handle := .ofNat (field buf 8 8)
          offset := .ofNat (field buf 16 8)
          len := .ofNat (field buf 24 4)}

def ipcBound : ℕ := 16*1024*1024

/-- One turn of the reader: the next job and the rest of the stream, or the end of the loop. -/
def nextJob (exportIndex exportSize : ℕ) (r : List UInt8) : Option (Job × List UInt8) :=
  match readExact requestLen r with
  | (.error _,_) => none
  | (.ok hdr,r) =>
    match parseRequest hdr with
    | .error _ => none
    | .ok req =>
      if ipcBound < req.len.toNat then none
      else if req.cmd=.write ∧ exportSize < req.len.toNat then none
      else if req.cmd=.write then
        match readExact req.len.toNat r with
        | (.error _,_) => none
        | (.ok payload,r) => some (⟨exportIndex,req,payload⟩,r)
      else some (⟨exportIndex,req,[]⟩,r)

/-- The loop of the reader, at most `fuel` times. The worker takes message number `k` if `accepts k`;
the first one that it refuses ends the loop. -/
def readerLoop (accepts : ℕ → Bool) (exportIndex exportSize : ℕ) :
    ℕ → ℕ → List UInt8 → Option (List Job)
  | 0, _, _ => none
  | fuel+1, sent, r =>
    match nextJob exportIndex exportSize r with
    | none => some []
    | some (job,r) =>
      if accepts sent then
        (readerLoop accepts exportIndex exportSize fuel (sent+1) r).map (job :: ·)
      else some []

inductive ReaderMsg
  | job (job : Job)
  | closed
  deriving DecidableEq, Repr

def spawnReader (exports : List Export) (txFlags : UInt16) (accepts : ℕ → Bool) (fuel : ℕ)
    (client : List UInt8) : Option (List ReaderMsg) :=
  (serverHandshake exports txFlags fuel client).bind fun x =>
    match x.result with
    | .error _ => some [.closed]
    | .ok i =>
      -- the handshake answers with an index of the list
      exports[i]?.bind fun e =>
        (readerLoop accepts i e.size.toNat fuel 0 x.rest).map fun jobs => jobs.map .job++[.closed]

/-! The requests on the wire. -/

def Command.code : Command → UInt16
  | .read => 0
  | .write => 1
  | .disc => 2
  | .flush => 3
  | .trim => 4
  | .unknown v => v

/-- A command that has a number of its own is not spelled as unknown. -/
def Command.Canonical : Command → Prop
  | .unknown v => 4<v.toNat
  | _ => True

lemma Command.fromU16_eq_iff {v : UInt16} {c : Command} : Command.fromU16 v=c ↔ c.code=v ∧ c.Canonical := by
  have hne {k : UInt16} (n : ℕ) (hk : k.toNat=n) (h : v≠k) : v.toNat≠n := fun heq =>
    h (UInt16.toNat_inj.mp (heq.trans hk.symm))
  constructor
  · rintro rfl
    unfold fromU16
    split_ifs with h₀ h₁ h₂ h₃ h₄
    · exact ⟨h₀.symm,trivial⟩
    · exact ⟨h₁.symm,trivial⟩
    · exact ⟨h₂.symm,trivial⟩
    · exact ⟨h₃.symm,trivial⟩
    · exact ⟨h₄.symm,trivial⟩
    · have := hne 0 rfl h₀
      have := hne 1 rfl h₁
      have := hne 2 rfl h₂
      have := hne 3 rfl h₃
      have := hne 4 rfl h₄
      refine ⟨rfl,?_⟩
      change 4<v.toNat
      omega
  · rintro ⟨rfl,hc⟩
    cases c with
    | unknown v =>
      have hne (k : UInt16) (hk : k.toNat≤4) : v≠k := by
        rintro rfl
        exact absurd hc (not_lt.mpr hk)
      simp [fromU16,code,hne 0 (by decide),hne 1 (by decide),hne 2 (by decide),hne 3 (by decide),
        hne 4 (by decide)]
    | _ => rfl

def Request.bytes (req : Request) : List UInt8 :=
  toBeBytes 4 nbdRequestMagic.toNat++toBeBytes 2 req.flags.toNat++toBeBytes 2 req.cmd.code.toNat ++
    toBeBytes 8 req.handle.toNat++toBeBytes 8 req.offset.toNat++toBeBytes 4 req.len.toNat

lemma Request.length_bytes (req : Request) : req.bytes.length=requestLen := by
  simp [Request.bytes,requestLen]

variable {buf r : List UInt8} {n exportSize : ℕ}

lemma toBeBytes_field {off : ℕ} (h : off+n≤buf.length) :
    toBeBytes n (field buf off n)++buf.drop (off+n) = buf.drop off := by
  have hlen : ((buf.drop off).take n).length=n := by simp; omega
  have hbytes := toBeBytes_fromBeBytes ((buf.drop off).take n)
  rw [hlen] at hbytes
  rw [field,hbytes,←List.drop_drop,List.take_append_drop]

lemma field_lt {off : ℕ} (h : off+n≤buf.length) : field buf off n<256^n := by
  have hlen : ((buf.drop off).take n).length=n := by simp; omega
  have hlt := fromBeBytes_lt ((buf.drop off).take n)
  rwa [hlen] at hlt

lemma parseRequest_eq_ok_iff (hlen : buf.length=requestLen) {req : Request} :
    parseRequest buf=.ok req ↔ buf=req.bytes ∧ req.cmd.Canonical := by
  have hlong : ¬buf.length < requestLen := hlen.symm.not_gt
  unfold parseRequest
  rw [if_neg hlong]
  dsimp only
  rw [requestLen] at hlen
  constructor
  · intro h
    split_ifs at h with hmagic
    cases h
    have h₀ : nbdRequestMagic.toNat = field buf 0 4 := by
      rw [←not_not.mp hmagic]
      exact Nat.mod_eq_of_lt (field_lt (by omega))
    have h₂ {off : ℕ} (h : off+2≤buf.length) : (UInt16.ofNat (field buf off 2)).toNat = field buf off 2 :=
      Nat.mod_eq_of_lt (field_lt h)
    have h₄ {off : ℕ} (h : off+4≤buf.length) : (UInt32.ofNat (field buf off 4)).toNat = field buf off 4 :=
      Nat.mod_eq_of_lt (field_lt h)
    have h₈ {off : ℕ} (h : off+8≤buf.length) : (UInt64.ofNat (field buf off 8)).toNat = field buf off 8 :=
      Nat.mod_eq_of_lt (field_lt h)
    obtain ⟨hcode,hc⟩ := Command.fromU16_eq_iff.mp (rfl : Command.fromU16 (.ofNat (field buf 6 2))=_)
    refine ⟨?_,hc⟩
    simp only [Request.bytes,hcode,h₀,h₂ (by omega : 4+2≤_),h₂ (by omega : 6+2≤_),
      h₈ (by omega : 8+8≤_),h₈ (by omega : 16+8≤_),h₄ (by omega : 24+4≤_),List.append_assoc]
    have hend : buf.drop 28=[] := List.drop_eq_nil_of_le hlen.le
    calc buf = buf.drop 0 := rfl
      _=_ := by
        rw [←toBeBytes_field (by omega : 0+4≤_),←toBeBytes_field (by omega : 0+4+2≤_),
          ← toBeBytes_field (by omega : 0+4+2+2≤_),←toBeBytes_field (by omega : 0+4+2+2+8≤_),
          ← toBeBytes_field (by omega : 0+4+2+2+8+8≤_),←toBeBytes_field (by omega : 0+4+2+2+8+8+4≤_),
          hend,List.append_nil]
  · rintro ⟨rfl,hc⟩
    have hmagic : field req.bytes 0 4=nbdRequestMagic.toNat := by
      simp [field,Request.bytes]
      exact fromBeBytes_toBeBytes (by decide)
    have hflags : field req.bytes 4 2=req.flags.toNat := by
      simp [field,Request.bytes]
      exact fromBeBytes_toBeBytes (n := 2) req.flags.toNat_lt
    have hcmd : field req.bytes 6 2=req.cmd.code.toNat := by
      simp [field,Request.bytes,List.drop_append]
      exact fromBeBytes_toBeBytes (n := 2) req.cmd.code.toNat_lt
    have hhandle : field req.bytes 8 8=req.handle.toNat := by
      simp [field,Request.bytes,List.drop_append]
      exact fromBeBytes_toBeBytes (n := 8) req.handle.toNat_lt
    have hoffset : field req.bytes 16 8=req.offset.toNat := by
      simp [field,Request.bytes,List.drop_append]
      exact fromBeBytes_toBeBytes (n := 8) req.offset.toNat_lt
    have hlen : field req.bytes 24 4=req.len.toNat := by
      simp [field,Request.bytes,List.drop_append]
      exact fromBeBytes_toBeBytes (n := 4) req.len.toNat_lt
    simp only [hmagic,hflags,hcmd,hhandle,hoffset,hlen]
    simp [Command.fromU16_eq_iff.mpr ⟨rfl,hc⟩]

/-- A request with its payload. -/
structure Frame where
  req : Request
  payload : List UInt8
  deriving DecidableEq, Repr

def Frame.bytes (f : Frame) : List UInt8 := f.req.bytes++f.payload

def Frame.job (i : ℕ) (f : Frame) : Job := ⟨i,f.req,f.payload⟩

/-- A frame within the limits of an export: a write, and nothing else, comes with its data. -/
structure Frame.Within (exportSize : ℕ) (f : Frame) : Prop where
  canonical : f.req.cmd.Canonical
  bounded : f.req.len.toNat ≤ ipcBound
  fits : f.req.cmd=.write → f.req.len.toNat≤exportSize
  payload_length : f.payload.length = if f.req.cmd=.write then f.req.len.toNat else 0

lemma readExact_eq_ok_iff {bytes rest : List UInt8} :
    readExact n r = (.ok bytes,rest) ↔ r = bytes++rest ∧ bytes.length=n := by
  unfold readExact
  constructor
  · intro h
    split_ifs at h with hn
    · cases h
    · cases h
      exact ⟨(List.take_append_drop n r).symm,by simp; omega⟩
  · rintro ⟨rfl,rfl⟩
    simp

lemma nextJob_eq_some_iff {i : ℕ} {rest : List UInt8} {job : Job} : nextJob i exportSize r=some (job,rest) ↔
      ∃ f : Frame, f.Within exportSize ∧ r = f.bytes++rest ∧ job = f.job i := by
  constructor
  · intro h
    unfold nextJob at h
    split at h
    · cases h
    rename_i hdr r₁ hhdr
    obtain ⟨rfl,hlen⟩ := readExact_eq_ok_iff.mp hhdr
    split at h
    · cases h
    rename_i req hreq
    obtain ⟨rfl,hcanonical⟩ := (parseRequest_eq_ok_iff hlen).mp hreq
    split_ifs at h with hbound hfits hwrite
    · split at h
      · cases h
      rename_i payload r₂ hpayload
      obtain ⟨rfl,hplen⟩ := readExact_eq_ok_iff.mp hpayload
      cases h
      refine ⟨⟨req,payload⟩,⟨hcanonical,not_lt.mp hbound,fun h => ?_,by rw [if_pos hwrite,hplen]⟩,
        by simp [Frame.bytes],rfl⟩
      exact not_lt.mp fun hlt => hfits ⟨h,hlt⟩
    · cases h
      exact ⟨⟨req,[]⟩,⟨hcanonical,not_lt.mp hbound,fun h => absurd h hwrite,by rw [if_neg hwrite]; rfl⟩,
        by simp [Frame.bytes],rfl⟩
  · rintro ⟨⟨req,payload⟩,⟨hcanonical,hbound,hfits,hlen⟩,rfl,rfl⟩
    dsimp only at hcanonical hbound hfits hlen
    have hhdr : readExact requestLen (Frame.bytes ⟨req,payload⟩++rest) = (.ok req.bytes,payload++rest) :=
      readExact_eq_ok_iff.mpr ⟨by simp [Frame.bytes],req.length_bytes⟩
    have hparse := (parseRequest_eq_ok_iff req.length_bytes).mpr ⟨rfl,hcanonical⟩
    simp only [nextJob,hhdr,hparse,if_neg (not_lt.mpr hbound)]
    by_cases hwrite : req.cmd=.write
    · rw [if_pos hwrite] at hlen
      rw [if_neg fun h => absurd h.2 (not_lt.mpr (hfits hwrite)),if_pos hwrite,
        readExact_eq_ok_iff.mpr ⟨rfl,hlen⟩]
      rfl
    · rw [if_neg hwrite] at hlen
      rw [if_neg fun h => hwrite h.1,if_neg hwrite,List.length_eq_zero_iff.mp hlen]
      rfl

def Unframed (exportSize : ℕ) (r : List UInt8) : Prop :=
  ∀ (f : Frame) rest, f.Within exportSize → r ≠ f.bytes++rest

lemma nextJob_eq_none_iff {i : ℕ} : nextJob i exportSize r=none ↔ Unframed exportSize r := by
  constructor
  · intro h f rest hf hr
    have hsome := nextJob_eq_some_iff (i := i).mpr ⟨f,hf,hr,rfl⟩
    simp [h] at hsome
  · intro h
    rw [Option.eq_none_iff_forall_not_mem]
    rintro ⟨job,rest⟩ hsome
    obtain ⟨f,hf,hr,-⟩ := nextJob_eq_some_iff.mp hsome
    exact h f rest hf hr

/-- The stream is a sequence of frames and a rest that begins with none. -/
structure Framed (exportSize : ℕ) (r : List UInt8) (frames : List Frame) (tail : List UInt8) : Prop where
  stream : r = frames.flatMap Frame.bytes++tail
  within : ∀ f∈frames, f.Within exportSize
  ended : Unframed exportSize tail

lemma exists_framed (exportSize : ℕ) (r : List UInt8) : ∃ frames tail, Framed exportSize r frames tail := by
  induction hn : r.length using Nat.strong_induction_on generalizing r with
  | _ n ih =>
    cases hnext : nextJob 0 exportSize r with
    | none => exact ⟨[],r,⟨rfl,by simp,nextJob_eq_none_iff.mp hnext⟩⟩
    | some p =>
      obtain ⟨f,hf,hr,-⟩ := nextJob_eq_some_iff.mp (hnext : _=some (p.1,p.2))
      have hshort : p.2.length<n := by
        rw [←hn,hr]
        simp [Frame.bytes,Request.length_bytes,requestLen]
        omega
      obtain ⟨frames,tail,hrest,hall,htail⟩ := ih _ hshort p.2 rfl
      refine ⟨f::frames,tail,?_,by simpa [hf] using hall,htail⟩
      rw [hr,hrest,List.flatMap_cons,List.append_assoc]

lemma readerLoop_frames (accepts : ℕ → Bool) (i : ℕ) {tail : List UInt8} {frames : List Frame}
    (h : Framed exportSize r frames tail) {sent : ℕ} (hbefore : ∀ k<n, accepts (sent+k)=true)
    (hat : n<frames.length → accepts (sent+n)=false) {fuel : ℕ} (hfuel : frames.length<fuel) :
    readerLoop accepts i exportSize fuel sent r=some ((frames.take n).map (Frame.job i)) := by
  obtain ⟨rfl,hframes,htail⟩ := h
  induction frames generalizing n sent fuel with
  | nil =>
    obtain ⟨fuel,rfl⟩ := Nat.exists_eq_add_one.mpr (Nat.zero_lt_of_lt hfuel)
    simp [readerLoop,nextJob_eq_none_iff.mpr htail]
  | cons f frames ih =>
    obtain ⟨fuel,rfl⟩ := Nat.exists_eq_add_one.mpr (Nat.zero_lt_of_lt hfuel)
    rw [List.forall_mem_cons] at hframes
    have hnext : nextJob i exportSize ((f::frames).flatMap Frame.bytes++tail) =
        some (f.job i,frames.flatMap Frame.bytes++tail) :=
      nextJob_eq_some_iff.mpr ⟨f,hframes.1,by simp,rfl⟩
    rw [readerLoop,hnext]
    dsimp only
    cases n with
    | zero =>
      have hrefused : accepts sent=false := hat (Nat.zero_lt_succ _)
      simp [hrefused]
    | succ n =>
      have haccepted : accepts sent=true := hbefore 0 (Nat.zero_lt_succ n)
      have hrest : readerLoop accepts i exportSize fuel (sent+1) (frames.flatMap Frame.bytes++tail) =
          some ((frames.take n).map (Frame.job i)) := by
        refine ih (fun k hk => ?_) (fun hn => ?_) (by simpa using hfuel) hframes.2
        · rw [Nat.add_assoc,Nat.add_comm 1 k]
          exact hbefore (k+1) (by omega)
        · rw [Nat.add_assoc,Nat.add_comm 1 n]
          exact hat (by simpa using hn)
      simp [haccepted,hrest]

end RamShared.Nbd

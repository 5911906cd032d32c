import RamShared.Lib.Bytes
import RamShared.Lib.Word

/-! The server side of the fixed-newstyle handshake. The client is the finite stream of bytes
that it sends; the writer takes everything. -/
namespace RamShared.Nbd
open Lib

def nbdMagic : ℕ := 0x4e42444d41474943
def ihaveopt : ℕ := 0x49484156454f5054
def nbdFlagFixedNewstyle : UInt16 := 1
def nbdFlagNoZeroes : UInt16 := 2

def nbdOptExportName : UInt32 := 1
def nbdOptAbort : UInt32 := 2
def nbdOptInfo : UInt32 := 6
def nbdOptGo : UInt32 := 7

def nbdRepMagic : ℕ := 0x0003e889045565a9
def nbdRepAck : UInt32 := 1
def nbdRepInfo : UInt32 := 3
def nbdRepErrUnsup : UInt32 := 0x80000001
def nbdRepErrUnknown : UInt32 := 0x80000006
def nbdInfoExport : UInt16 := 0
def nbdFlagCNoZeroes : UInt32 := 2
def maxOptLen : ℕ := 4096

inductive HandshakeError
  | io
  | aborted
  | incompatibleVersion
  | unsupportedFeature
  | invalidFormat
  deriving DecidableEq, Repr

structure Export where
  name : String
  size : UInt64
  deriving DecidableEq, Repr

def readExact (n : ℕ) (r : List UInt8) : Except HandshakeError (List UInt8) × List UInt8 :=
  if r.length<n then (.error .io,[]) else (.ok (r.take n),r.drop n)

def readBe (n : ℕ) (r : List UInt8) : Except HandshakeError ℕ × List UInt8 :=
  match readExact n r with
  | (.error e,r) => (.error e,r)
  | (.ok bytes,r) => (.ok (fromBeBytes bytes),r)

def writeOptReply (opt rep : UInt32) (data : List UInt8) : List UInt8 :=
  toBeBytes 8 nbdRepMagic++toBeBytes 4 opt.toNat++toBeBytes 4 rep.toNat ++
    toBeBytes 4 data.length++data

def writeExportInfo (opt : UInt32) (size : UInt64) (txFlags : UInt16) : List UInt8 :=
  let info := toBeBytes 2 nbdInfoExport.toNat++toBeBytes 8 size.toNat++toBeBytes 2 txFlags.toNat
  writeOptReply opt nbdRepInfo info++writeOptReply opt nbdRepAck []

/-- The name in the payload of GO and INFO: its length, the name, and at least a count. -/
def goExportName (data : List UInt8) : Except HandshakeError (List UInt8) :=
  if data.length<4 then .error .invalidFormat
  else
    match checkedAdd 64 4 (fromBeBytes (data.take 4)) with
    | none => .error .invalidFormat
    | some nameEnd =>
      if data.length<nameEnd+2 then .error .invalidFormat
      else .ok ((data.take nameEnd).drop 4)

def nameUtf8 (name : List UInt8) : Except HandshakeError String :=
  match String.fromUTF8? ⟨name.toArray⟩ with
  | some s => .ok s
  | none => .error .invalidFormat

variable (exports : List Export)

def findExport (name : String) : Option ℕ :=
  if name = "" then if exports.isEmpty then none else some 0
  else exports.findIdx? fun e => e.name=name

structure ClientOption where
  opt : UInt32
  data : List UInt8
  deriving DecidableEq, Repr

def readOption (r : List UInt8) : Except HandshakeError ClientOption × List UInt8 :=
  match readBe 8 r with
  | (.error e,r) => (.error e,r)
  | (.ok magic,r) =>
    if magic≠ihaveopt then (.error .incompatibleVersion,r)
    else
      match readBe 4 r with
      | (.error e,r) => (.error e,r)
      | (.ok opt,r) =>
        match readBe 4 r with
        | (.error e,r) => (.error e,r)
        | (.ok len,r) =>
          if maxOptLen<len then (.error .unsupportedFeature,r)
          else
            match readExact len r with
            | (.error e,r) => (.error e,r)
            | (.ok data,r) => (.ok ⟨.ofNat opt,data⟩,r)

section
variable (exports : List Export) (txFlags : UInt16) (noZeroes : Bool)

/-- EXPORT_NAME has no error reply: an unknown name ends the connection. -/
def exportName (data : List UInt8) : List UInt8 × Except HandshakeError ℕ :=
  match nameUtf8 data with
  | .error e => ([],.error e)
  | .ok name =>
    match (findExport exports name).bind fun idx => exports[idx]?.map fun e => (idx,e) with
    | none => ([],.error .unsupportedFeature)
    | some (idx,e) =>
      (toBeBytes 8 e.size.toNat++toBeBytes 2 txFlags.toNat ++
        if noZeroes then [] else List.replicate 124 0,.ok idx)

/-- GO and INFO: GO ends the negotiation, INFO goes on with it. -/
def goOrInfo (o : ClientOption) : List UInt8 × Option (Except HandshakeError ℕ) :=
  match (goExportName o.data).bind nameUtf8 with
  | .error e => ([],some (.error e))
  | .ok name =>
    match (findExport exports name).bind fun idx => exports[idx]?.map fun e => (idx,e) with
    | none => (writeOptReply o.opt nbdRepErrUnknown [],none)
    | some (idx,e) =>
      (writeExportInfo o.opt e.size txFlags,if o.opt=nbdOptGo then some (.ok idx) else none)

/-- What is written for an option, and the result if the loop returns. -/
def handleOption (o : ClientOption) : List UInt8 × Option (Except HandshakeError ℕ) :=
  if o.opt≠nbdOptExportName ∧ o.opt≠nbdOptGo ∧ o.opt≠nbdOptInfo ∧ o.opt≠nbdOptAbort then
    (writeOptReply o.opt nbdRepErrUnsup [],none)
  else if o.opt=nbdOptAbort then
    (writeOptReply o.opt nbdRepAck [],some (.error .aborted))
  else if o.opt=nbdOptExportName then
    let (written,result) := exportName exports txFlags noZeroes o.data
    (written,some result)
  else goOrInfo exports txFlags o

/-- The result of the handshake, the rest of the stream and the bytes that were written. -/
structure HandshakeOutcome where
  result : Except HandshakeError ℕ
  rest : List UInt8
  written : List UInt8

/-- The option loop, at most `fuel` times. -/
def optionLoop : ℕ → List UInt8 → Option HandshakeOutcome
  | 0, _ => none
  | fuel+1, r =>
    match readOption r with
    | (.error e,r) => some ⟨.error e,r,[]⟩
    | (.ok o,r) =>
      match handleOption exports txFlags noZeroes o with
      | (written,some result) => some ⟨result,r,written⟩
      | (written,none) =>
        (optionLoop fuel r).map fun x => {x with written := written++x.written}

end

def greeting : List UInt8 :=
  toBeBytes 8 nbdMagic++toBeBytes 8 ihaveopt ++
    toBeBytes 2 (nbdFlagFixedNewstyle|||nbdFlagNoZeroes).toNat

def serverHandshake (txFlags : UInt16) (fuel : ℕ) (client : List UInt8) : Option HandshakeOutcome :=
  match readBe 4 client with
  | (.error e,r) => some ⟨.error e,r,greeting⟩
  | (.ok clientFlags,r) =>
    let noZeroes := decide (UInt32.ofNat clientFlags&&&nbdFlagCNoZeroes≠0)
    (optionLoop exports txFlags noZeroes fuel r).map fun x =>
      {x with written := greeting++x.written}

/-! The transcript of a handshake, for every stream of the client. -/

def ClientOption.bytes (o : ClientOption) : List UInt8 :=
  toBeBytes 8 ihaveopt++toBeBytes 4 o.opt.toNat++toBeBytes 4 o.data.length++o.data

/-- Where the option at the head of the stream ends, by its own length field. -/
def optionEnd (r : List UInt8) : ℕ := 16+fromBeBytes ((r.drop 12).take 4)

lemma optionEnd_append (magic opt : ℕ) {len : ℕ} (h : len<256^4) (rest : List UInt8) :
    optionEnd (toBeBytes 8 magic++toBeBytes 4 opt++toBeBytes 4 len++rest) = 16+len := by
  have hdrop : (toBeBytes 8 magic++toBeBytes 4 opt++toBeBytes 4 len++rest).drop 12 =
      toBeBytes 4 len++rest := by
    rw [List.append_assoc]
    exact List.drop_left' (by simp)
  rw [optionEnd,hdrop,List.take_left' (by simp),fromBeBytes_toBeBytes h]

lemma readBe_ok {n : ℕ} {r rest : List UInt8} {v : ℕ} (h : readBe n r = (.ok v,rest)) :
    r = toBeBytes n v++rest ∧ v<256^n := by
  unfold readBe readExact at h
  split_ifs at h with hlen
  · cases h
  · obtain ⟨hv,rfl⟩ := Prod.mk.inj h
    obtain rfl := Except.ok.inj hv
    have htake : (r.take n).length=n := by simp; omega
    have hb := toBeBytes_fromBeBytes (r.take n)
    have hlt := fromBeBytes_lt (r.take n)
    rw [htake] at hb hlt
    exact ⟨by rw [hb,List.take_append_drop],hlt⟩

lemma readBe_append {n v : ℕ} (hv : v<256^n) (rest : List UInt8) :
    readBe n (toBeBytes n v++rest) = (.ok v,rest) := by
  simp [readBe,readExact,fromBeBytes_toBeBytes hv]

lemma readBe_error {n : ℕ} {r rest : List UInt8} {e : HandshakeError}
    (h : readBe n r = (.error e,rest)) : r.length<n ∧ rest=[] := by
  unfold readBe readExact at h
  split_ifs at h with hlen
  · exact ⟨hlen,(Prod.mk.inj h).2.symm⟩
  · cases (Prod.mk.inj h).1

lemma readOption_cases (r : List UInt8) : (∃ o rest, readOption r = (.ok o,rest) ∧ r = o.bytes++rest ∧
      o.bytes.length≤optionEnd r) ∨ ∃ e taken rest, readOption r = (.error e,rest) ∧ r = taken++rest ∧
      taken.length≤optionEnd r := by
  have hend : 16≤optionEnd r := Nat.le_add_right 16 _
  unfold readOption
  rcases hm : readBe 8 r with ⟨e | magic,r₁⟩
  · obtain ⟨hlen,rfl⟩ := readBe_error hm
    exact .inr ⟨e,r,[],rfl,by simp,by omega⟩
  obtain ⟨hr,-⟩ := readBe_ok hm
  dsimp only
  by_cases hmagic : magic=ihaveopt
  swap
  · rw [if_pos hmagic]
    exact .inr ⟨_,toBeBytes 8 magic,r₁,rfl,hr,by simp; omega⟩
  rw [if_neg (not_not.mpr hmagic)]
  rcases ho : readBe 4 r₁ with ⟨e | opt,r₂⟩
  · obtain ⟨hlen,rfl⟩ := readBe_error ho
    refine .inr ⟨e,r,[],rfl,by simp,?_⟩
    rw [hr] at hend ⊢
    simp
    omega
  obtain ⟨hr₁,hopt⟩ := readBe_ok ho
  dsimp only
  rcases hl : readBe 4 r₂ with ⟨e | len,r₃⟩
  · obtain ⟨hlen,rfl⟩ := readBe_error hl
    refine .inr ⟨e,r,[],rfl,by simp,?_⟩
    rw [hr,hr₁] at hend ⊢
    simp
    omega
  obtain ⟨hr₂,hlen⟩ := readBe_ok hl
  have hall : r = toBeBytes 8 magic++toBeBytes 4 opt++toBeBytes 4 len++r₃ := by
    rw [hr,hr₁,hr₂]
    simp
  have hext : optionEnd r = 16+len := by rw [hall,optionEnd_append _ _ hlen]
  dsimp only
  by_cases hmax : maxOptLen<len
  · rw [if_pos hmax]
    exact .inr ⟨_,toBeBytes 8 magic++toBeBytes 4 opt++toBeBytes 4 len,r₃,rfl,hall,
      by simp; omega⟩
  rw [if_neg hmax]
  unfold readExact
  by_cases hshort : r₃.length<len
  · rw [if_pos hshort]
    refine .inr ⟨_,r,[],rfl,by simp,?_⟩
    rw [hext,hall]
    simp
    omega
  · rw [if_neg hshort]
    refine .inl ⟨⟨.ofNat opt,r₃.take len⟩,r₃.drop len,rfl,?_,by
      simp [ClientOption.bytes,hext]; omega⟩
    have htake : (r₃.take len).length=len := by simp; omega
    have hnat : (UInt32.ofNat opt).toNat=opt := by
      rw [UInt32.toNat_ofNat']
      exact Nat.mod_eq_of_lt hopt
    rw [ClientOption.bytes,htake,hnat,hall,hmagic]
    simp

/-- One reply as the client sees it. -/
structure OptReply where
  opt : UInt32
  rep : UInt32
  data : List UInt8
  deriving DecidableEq, Repr

def readReply (bytes : List UInt8) : Option (OptReply × List UInt8) :=
  match readBe 8 bytes with
  | (.ok magic,bytes) =>
    if magic≠nbdRepMagic then none
    else
      match readBe 4 bytes with
      | (.ok opt,bytes) =>
        match readBe 4 bytes with
        | (.ok rep,bytes) =>
          match readBe 4 bytes with
          | (.ok len,bytes) =>
            if bytes.length<len then none
            else some (⟨.ofNat opt,.ofNat rep,bytes.take len⟩,bytes.drop len)
          | _ => none
        | _ => none
      | _ => none
  | _ => none

/-- The client reads the replies to an option: information comes first, and an acknowledgement or
an error ends the sequence. -/
def readReplies (opt : UInt32) : ℕ → List UInt8 → Option (List OptReply × List UInt8)
  | 0, _ => none
  | fuel+1, bytes =>
    match readReply bytes with
    | none => none
    | some (r,rest) =>
      if r.opt≠opt then none
      else if r.rep=nbdRepInfo then (readReplies opt fuel rest).map fun x => (r::x.1,x.2)
      else some ([r],rest)

/-- The bytes are one sequence of replies to the option, whatever follows them. -/
def Answers (opt : UInt32) (bytes : List UInt8) : Prop :=
  ∃ replies, ∀ rest, ∀ fuel, 2≤fuel → readReplies opt fuel (bytes++rest)=some (replies,rest)

lemma readReply_writeOptReply (opt rep : UInt32) {data : List UInt8} (h : data.length<2^32)
    (rest : List UInt8) : readReply (writeOptReply opt rep data++rest)=some (⟨opt,rep,data⟩,rest) := by
  have hmagic : nbdRepMagic<256^8 := by decide
  have hword : ∀ x : UInt32, x.toNat<256^4 := fun x => x.toNat_lt
  have hlen : data.length<256^4 := h
  simp only [readReply,writeOptReply,List.append_assoc,readBe_append hmagic,
    readBe_append (hword _),readBe_append hlen]
  simp

lemma answers_of_final (opt : UInt32) {rep : UInt32} (h : rep≠nbdRepInfo) :
    Answers opt (writeOptReply opt rep []) := by
  refine ⟨[⟨opt,rep,[]⟩],fun rest fuel hfuel => ?_⟩
  obtain ⟨n,rfl⟩ : ∃ n, fuel = n+1 := ⟨fuel-1,by omega⟩
  simp [readReplies,readReply_writeOptReply,h]

lemma answers_writeExportInfo (opt : UInt32) (size : UInt64) (txFlags : UInt16) :
    Answers opt (writeExportInfo opt size txFlags) := by
  refine ⟨[⟨opt,nbdRepInfo,toBeBytes 2 nbdInfoExport.toNat++toBeBytes 8 size.toNat ++
    toBeBytes 2 txFlags.toNat⟩,⟨opt,nbdRepAck,[]⟩],fun rest fuel hfuel => ?_⟩
  obtain ⟨n,rfl⟩ : ∃ n, fuel = n+1+1 := ⟨fuel-2,by omega⟩
  have hack : nbdRepAck≠nbdRepInfo := by decide
  simp only [readReplies,writeExportInfo,List.append_assoc]
  rw [readReply_writeOptReply _ _ (by simp)]
  simp [readReply_writeOptReply,hack]

/-- The export that a name stands for, and its index. -/
def Resolves (name : String) (i : ℕ) (e : Export) : Prop :=
  exports[i]?=some e ∧ (name = "" ∧ i=0 ∨
    name ≠ "" ∧ e.name=name ∧ ∀ j < i, ∀ e', exports[j]?=some e' → e'.name≠name)

lemma findExport_resolves {exports : List Export} {name : String} {i : ℕ} {e : Export}
    (h : ((findExport exports name).bind fun idx => exports[idx]?.map fun e => (idx,e)) =
      some (i,e)) : Resolves exports name i e := by
  obtain ⟨idx,hidx,h⟩ := Option.bind_eq_some_iff.mp h
  obtain ⟨e',he,h⟩ := Option.map_eq_some_iff.mp h
  obtain ⟨rfl,rfl⟩ := Prod.mk.inj h
  refine ⟨he,?_⟩
  unfold findExport at hidx
  by_cases hname : name = ""
  · rw [if_pos hname] at hidx
    split_ifs at hidx
    exact .inl ⟨hname,(Option.some.inj hidx).symm⟩
  · rw [if_neg hname] at hidx
    obtain ⟨hlt,hat,hbefore⟩ := List.findIdx?_eq_some_iff_getElem.mp hidx
    refine .inr ⟨hname,?_,fun j hj e₂ hj₂ => ?_⟩
    · rw [List.getElem?_eq_getElem hlt,Option.some.injEq] at he
      rw [he] at hat
      exact of_decide_eq_true hat
    · have hb := hbefore j hj
      rw [List.getElem?_eq_getElem (hj.trans hlt),Option.some.injEq] at hj₂
      rw [hj₂] at hb
      simpa using hb

def Encodes (bytes : List UInt8) (name : String) : Prop := name.toByteArray = ⟨bytes.toArray⟩

lemma nameUtf8_encodes {bytes : List UInt8} {name : String} (h : nameUtf8 bytes=.ok name) :
    Encodes bytes name := by
  unfold nameUtf8 String.fromUTF8? at h
  split_ifs at h with hv
  obtain rfl := Except.ok.inj h
  rfl

lemma goExportName_ok {data name : List UInt8} (h : goExportName data=.ok name) :
    ∃ info, data = toBeBytes 4 name.length++name++info ∧ 2 ≤ info.length := by
  unfold goExportName at h
  by_cases hshort : data.length<4
  · simp [hshort] at h
  rw [if_neg hshort] at h
  have htake : (data.take 4).length=4 := by simp; omega
  have hb := toBeBytes_fromBeBytes (data.take 4)
  rw [htake] at hb
  generalize hlen : fromBeBytes (data.take 4) = len at h hb
  cases hadd : checkedAdd 64 4 len with
  | none => simp [hadd] at h
  | some nameEnd =>
    obtain ⟨-,rfl⟩ := checkedAdd_eq_some.mp hadd
    simp only [hadd] at h
    split_ifs at h with hend
    obtain rfl := Except.ok.inj h
    have hname : ((data.take (4+len)).drop 4).length=len := by simp; omega
    refine ⟨data.drop (4+len),?_,by simp; omega⟩
    rw [hname,hb]
    have hsplit : data.take 4++(data.take (4+len)).drop 4 = data.take (4+len) := by
      conv_rhs => rw [←List.take_append_drop 4 (data.take (4+len)),List.take_take]
      simp
    rw [hsplit,List.take_append_drop]

/-- How a negotiation ends, on the rest of the stream: with EXPORT_NAME or GO for a known name, or
with an error. -/
inductive Ends (exports : List Export) (txFlags : UInt16) (clientFlags : UInt32)
    (r : List UInt8) : Except HandshakeError ℕ → List UInt8 → List UInt8 → Prop
  | exportName (o : ClientOption) (rest : List UInt8) (name : String) (i : ℕ) (e : Export)
      (read : r = o.bytes++rest) (opt : o.opt=nbdOptExportName) (encodes : Encodes o.data name)
      (resolves : Resolves exports name i e) :
      Ends exports txFlags clientFlags r (.ok i) rest
        (toBeBytes 8 e.size.toNat++toBeBytes 2 txFlags.toNat ++
          if clientFlags&&&nbdFlagCNoZeroes≠0 then [] else List.replicate 124 0)
  | go (o : ClientOption) (rest bytes info : List UInt8) (name : String) (i : ℕ) (e : Export)
      (read : r = o.bytes++rest) (opt : o.opt=nbdOptGo)
      (data : o.data = toBeBytes 4 bytes.length++bytes++info) (count : 2 ≤ info.length)
      (encodes : Encodes bytes name) (resolves : Resolves exports name i e) :
      Ends exports txFlags clientFlags r (.ok i) rest (writeExportInfo nbdOptGo e.size txFlags)
  | error (e : HandshakeError) (taken rest final : List UInt8) (read : r = taken++rest)
      (within : taken.length≤optionEnd r)
      (written : final=[] ∨ e=.aborted ∧ final = writeOptReply nbdOptAbort nbdRepAck []) :
      Ends exports txFlags clientFlags r (.error e) rest final

section
variable (exports : List Export) (txFlags : UInt16)

section
variable (clientFlags : UInt32) {o : ClientOption} {r rest : List UInt8}

variable (hread : r = o.bytes++rest)
include hread

variable (hend : o.bytes.length≤optionEnd r)
include hend

lemma ends_failed (e : HandshakeError) : Ends exports txFlags clientFlags r (.error e) rest [] :=
  .error e o.bytes rest [] hread hend (.inl rfl)

lemma exportName_ends (hopt : o.opt=nbdOptExportName) : Ends exports txFlags clientFlags r
      (exportName exports txFlags (decide (clientFlags&&&nbdFlagCNoZeroes≠0)) o.data).2 rest
      (exportName exports txFlags (decide (clientFlags&&&nbdFlagCNoZeroes≠0)) o.data).1 := by
  unfold exportName
  cases hutf : nameUtf8 o.data with
  | error e => exact ends_failed exports txFlags clientFlags hread hend e
  | ok name =>
    dsimp only
    generalize hfind : ((findExport exports name).bind fun idx =>
      exports[idx]?.map fun e => (idx,e))=found
    cases found with
    | none => exact ends_failed exports txFlags clientFlags hread hend _
    | some p =>
      obtain ⟨i,e⟩ := p
      have hends : Ends exports txFlags clientFlags r (.ok i) rest _ :=
        .exportName o rest name i e hread hopt (nameUtf8_encodes hutf) (findExport_resolves hfind)
      simpa using hends

lemma goOrInfo_cases : (∃ written, goOrInfo exports txFlags o = (written,none) ∧ Answers o.opt written) ∨
    ∃ written result, goOrInfo exports txFlags o = (written,some result) ∧
      Ends exports txFlags clientFlags r result rest written := by
  have fail := ends_failed exports txFlags clientFlags hread hend
  unfold goOrInfo
  cases hgo : goExportName o.data with
  | error e => exact .inr ⟨_,_,rfl,fail e⟩
  | ok bytes =>
    obtain ⟨info,hdata,hcount⟩ := goExportName_ok hgo
    cases hutf : nameUtf8 bytes with
    | error e => exact .inr ⟨_,_,by simp [Except.bind,hutf],fail e⟩
    | ok name =>
      simp only [Except.bind,hutf]
      generalize hfind : ((findExport exports name).bind fun idx =>
        exports[idx]?.map fun e => (idx,e))=found
      cases found with
      | none => exact .inl ⟨_,rfl,answers_of_final _ (by decide)⟩
      | some p =>
        obtain ⟨i,e⟩ := p
        by_cases hopt : o.opt=nbdOptGo
        · right
          refine ⟨writeExportInfo o.opt e.size txFlags,.ok i,by simp only [if_pos hopt],?_⟩
          rw [hopt]
          exact .go o rest bytes info name i e hread hopt hdata hcount (nameUtf8_encodes hutf)
            (findExport_resolves hfind)
        · left
          exact ⟨writeExportInfo o.opt e.size txFlags,by simp only [if_neg hopt],
            answers_writeExportInfo _ _ _⟩

lemma handleOption_cases : let noZeroes := decide (clientFlags&&&nbdFlagCNoZeroes≠0)
    (∃ written, handleOption exports txFlags noZeroes o = (written,none) ∧
      Answers o.opt written) ∨
    ∃ written result, handleOption exports txFlags noZeroes o = (written,some result) ∧
      Ends exports txFlags clientFlags r result rest written := by
  intro noZeroes
  unfold handleOption
  by_cases hunsup : o.opt≠nbdOptExportName ∧ o.opt≠nbdOptGo ∧ o.opt≠nbdOptInfo ∧
      o.opt≠nbdOptAbort
  · rw [if_pos hunsup]
    exact .inl ⟨_,rfl,answers_of_final _ (by decide)⟩
  rw [if_neg hunsup]
  by_cases habort : o.opt=nbdOptAbort
  · rw [if_pos habort]
    refine .inr ⟨_,_,rfl,.error .aborted o.bytes rest _ hread hend (.inr ⟨rfl,?_⟩)⟩
    rw [habort]
  rw [if_neg habort]
  by_cases hname : o.opt=nbdOptExportName
  · rw [if_pos hname]
    exact .inr ⟨_,_,rfl,exportName_ends exports txFlags clientFlags hread hend hname⟩
  · rw [if_neg hname]
    exact goOrInfo_cases exports txFlags clientFlags hread hend

end

lemma optionLoop_transcript (clientFlags : UInt32) (n : ℕ) (r : List UInt8) (hn : r.length<16*n) :
    ∃ (x : HandshakeOutcome) (opts : List ClientOption) (answers : List (List UInt8)) (tail final : List UInt8),
      (∀ fuel, n≤fuel → optionLoop exports txFlags
        (decide (clientFlags&&&nbdFlagCNoZeroes≠0)) fuel r=some x) ∧
      r = opts.flatMap ClientOption.bytes++tail ∧
      List.Forall₂ (fun o bytes => Answers o.opt bytes) opts answers ∧
      Ends exports txFlags clientFlags tail x.result x.rest final ∧
      x.written = answers.flatten++final := by
  induction n generalizing r with
  | zero => omega
  | succ n ih =>
    obtain ⟨o,rest,hread,hr,hend⟩ | ⟨e,taken,rest,hread,hr,hend⟩ := readOption_cases r
    · obtain ⟨written,hopt,hans⟩ | ⟨written,result,hopt,hends⟩ :=
        handleOption_cases exports txFlags clientFlags hr hend
      · have hshort : rest.length<16*n := by
          have := congrArg List.length hr
          simp [ClientOption.bytes] at this
          omega
        obtain ⟨x,opts,answers,tail,final,hloop,hrest,hall,hends,hw⟩ := ih rest hshort
        refine ⟨{x with written := written++x.written},o::opts,written::answers,tail,final,
          fun fuel hfuel => ?_,?_,.cons hans hall,hends,?_⟩
        · obtain ⟨m,rfl⟩ : ∃ m, fuel = m+1 := ⟨fuel-1,by omega⟩
          simp only [optionLoop,hread,hopt,hloop m (by omega)]
          rfl
        · rw [hr,hrest]
          simp
        · simp [hw]
      · refine ⟨⟨result,rest,written⟩,[],[],r,written,fun fuel hfuel => ?_,rfl,.nil,hends,rfl⟩
        obtain ⟨m,rfl⟩ : ∃ m, fuel = m+1 := ⟨fuel-1,by omega⟩
        simp only [optionLoop,hread,hopt]
    · refine ⟨⟨.error e,rest,[]⟩,[],[],r,[],fun fuel hfuel => ?_,rfl,.nil,
        .error e taken rest [] hr hend (.inl rfl),rfl⟩
      obtain ⟨m,rfl⟩ : ∃ m, fuel = m+1 := ⟨fuel-1,by omega⟩
      simp only [optionLoop,hread]

end

/-- A whole handshake. The stream is the flags, options that got one sequence of replies each, and
the end of the negotiation. -/
inductive Transcript (exports : List Export) (txFlags : UInt16) (client : List UInt8) :
    HandshakeOutcome → Prop
  | noFlags (short : client.length<4) :
      Transcript exports txFlags client ⟨.error .io,[],greeting⟩
  | options (clientFlags : UInt32) (opts : List ClientOption) (answers : List (List UInt8))
      (tail final rest : List UInt8) (result : Except HandshakeError ℕ)
      (stream : client = toBeBytes 4 clientFlags.toNat++opts.flatMap ClientOption.bytes++tail)
      (answered : List.Forall₂ (fun o bytes => Answers o.opt bytes) opts answers)
      (ends : Ends exports txFlags clientFlags tail result rest final) :
      Transcript exports txFlags client ⟨result,rest,greeting++answers.flatten++final⟩

/-- The handshake ends on every stream, after at most one iteration for every 16 bytes, and its
transcript is complete. -/
theorem handshake_transcript (exports : List Export) (txFlags : UInt16) (client : List UInt8) :
    ∃ x, (∀ fuel, client.length/16 < fuel →
      serverHandshake exports txFlags fuel client = some x) ∧
      Transcript exports txFlags client x := by
  unfold serverHandshake
  rcases hf : readBe 4 client with ⟨e | flags,r⟩
  · have hshort := (readBe_error hf).1
    refine ⟨⟨.error .io,[],greeting⟩,fun fuel _ => ?_,.noFlags hshort⟩
    simp only [readBe,readExact,if_pos hshort] at hf
    obtain ⟨h₁,h₂⟩ := Prod.mk.inj hf
    rw [← h₂,Except.error.inj h₁]
  · obtain ⟨hclient,hlt⟩ := readBe_ok hf
    have hflags : (UInt32.ofNat flags).toNat = flags := by
      rw [UInt32.toNat_ofNat']
      exact Nat.mod_eq_of_lt hlt
    have hlen : r.length < 16*(client.length/16+1) := by
      have := congrArg List.length hclient
      simp at this
      omega
    obtain ⟨x,opts,answers,tail,final,hloop,hr,hall,hends,hw⟩ :=
      optionLoop_transcript exports txFlags (UInt32.ofNat flags) _ r hlen
    refine ⟨{ x with written := greeting++x.written },fun fuel hfuel => ?_,?_⟩
    · simp only [hloop fuel hfuel]
      rfl
    · rw [hw,← List.append_assoc]
      refine .options (UInt32.ofNat flags) opts answers tail final x.rest x.result ?_ hall hends
      rw [hclient,hflags,hr,List.append_assoc]

/-- A client that asks for an option that is not known and then for an export by its name. -/
example : (serverHandshake [⟨"s1",8192⟩] 1 4 (toBeBytes 4 2++(⟨3,[]⟩ : ClientOption).bytes ++
    (⟨1,[0x73,0x31]⟩ : ClientOption).bytes++[7])).map (fun x => (x.result.toOption,x.rest,x.written)) =
    some (some 0,[7],greeting++writeOptReply 3 nbdRepErrUnsup [] ++
      [0,0,0,0,0,0,0x20,0,0,1]) := by
  decide +kernel

end RamShared.Nbd

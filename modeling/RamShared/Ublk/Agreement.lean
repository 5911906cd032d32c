import RamShared.Ublk.Request

/-! The two front ends over one backend: the kernel's descriptors through `serveRequest`, and the
same requests through the NBD `serve`. -/
namespace RamShared.Ublk
open Lib Block Nbd

lemma encodeSimpleReply_eq_ok {e : UInt32} {handle : UInt64} :
    encodeSimpleReply e handle = encodeSimpleReply nbdOk handle ↔ e=nbdOk := by
  have hlt : ∀ x : UInt32, x.toNat<256^4 := fun x => x.toNat_lt
  rw [encodeSimpleReply,encodeSimpleReply,List.append_cancel_right_eq,List.append_cancel_left_eq,
    toBeBytes_inj (hlt e) (hlt nbdOk),UInt32.toNat_inj]

variable {r : Request}

section
variable {B : Type} [BlockBackend B]

def Valid (r : Request) (b : B) : Prop :=
  BlockBackend.blockSize b≠0 ∧ Aligned (BlockBackend.blockSize b) r ∧
    InRange (BlockBackend.sizeBytes b) r ∧ ¬(r.cmd=.write ∧ BlockBackend.isReadOnly b=true)

lemma validated_of_valid {b : B} (h : Valid r b) (body : B → ServeOutcome × B) :
    validated r b body = body b := by
  obtain ⟨h0,⟨hoff,hlen⟩,⟨hsum,hsize⟩,hro⟩ := h
  have hadd : checkedAdd 64 r.offset.toNat r.len.toNat=some (r.offset.toNat+r.len.toNat) :=
    checkedAdd_eq_some.mpr ⟨hsum,rfl⟩
  have hv : validate r b=.ok () := by
    simp only [validate,hadd]
    rw [if_neg h0,if_neg (not_not.mpr hoff),if_neg (not_not.mpr hlen),if_neg (by omega),
      if_neg hro]
  rw [validated,hv]

lemma validated_of_not_valid {b : B} (h : ¬Valid r b)
    (body : B → ServeOutcome × B) : ∃ e≠nbdOk, validated r b body = (plain r e,b) := by
  have hv : ∃ e≠nbdOk, validate r b=.error e := by
    unfold validate
    dsimp only
    by_cases h0 : BlockBackend.blockSize b=0
    · exact ⟨nbdEinval,by decide,if_pos h0⟩
    rw [if_neg h0]
    by_cases hoff : ¬BlockBackend.blockSize b ∣ r.offset.toNat
    · exact ⟨nbdEinval,by decide,if_pos hoff⟩
    rw [if_neg hoff]
    by_cases hlen : ¬BlockBackend.blockSize b ∣ r.len.toNat
    · exact ⟨nbdEinval,by decide,if_pos hlen⟩
    rw [if_neg hlen]
    cases hadd : checkedAdd 64 r.offset.toNat r.len.toNat with
    | none => exact ⟨nbdErange,by decide,rfl⟩
    | some stop =>
      obtain ⟨hsum,rfl⟩ := checkedAdd_eq_some.mp hadd
      by_cases hsize : BlockBackend.sizeBytes b < r.offset.toNat+r.len.toNat
      · exact ⟨nbdErange,by decide,if_pos hsize⟩
      by_cases hro : r.cmd=.write ∧ BlockBackend.isReadOnly b
      · exact ⟨nbdEacces,by decide,(if_neg hsize).trans (if_pos hro)⟩
      rw [not_not] at hoff hlen
      exact absurd ⟨h0,⟨hoff,hlen⟩,⟨hsum,by omega⟩,hro⟩ h
  obtain ⟨e,he,hv⟩ := hv
  exact ⟨e,he,by rw [validated,hv]⟩

/-- The data of a write, as the NBD front end gets it. -/
def payloadOf (r : Request) (buf : List UInt8) : List UInt8 :=
  if r.cmd=.write then buf.take r.len.toNat else []

lemma validateCommandFlags_zero (h : r.flags=0) : validateCommandFlags r=.ok {} := by
  unfold validateCommandFlags
  cases hc : r.cmd <;> simp [h,nbdCmdFlagFua]

lemma serve_of_not_valid {b : B} (buf : List UInt8) (hf : r.flags=0)
    (hcmd : r.cmd=.read ∨ r.cmd=.write ∨ r.cmd=.trim) (h : ¬Valid r b) :
    ∃ e≠nbdOk, serve r (payloadOf r buf) b = (plain r e,b) := by
  unfold serve
  rw [validateCommandFlags_zero hf]
  obtain hc | hc | hc := hcmd <;> simp only [hc]
  · exact validated_of_not_valid h _
  · split_ifs
    · exact ⟨nbdEinval,by decide,rfl⟩
    · exact validated_of_not_valid h _
  · exact validated_of_not_valid h _

end

section
variable {B : Type} [BlockBackend B] [BufferBackend B]

/-- What both front ends make of one request, in the buffer of the kernel and on the wire. -/
structure Agree (r : Request) (b : B) (buf : List UInt8) : Prop where
  status : 0≤(serveRequest r b buf).1 ↔
    (serve r (payloadOf r buf) b).1.reply = encodeSimpleReply nbdOk r.handle
  state : (serveRequest r b buf).2.2 = (serve r (payloadOf r buf) b).2
  data : r.cmd=.read → 0≤(serveRequest r b buf).1 →
    (serveRequest r b buf).2.1.take r.len.toNat = (serve r (payloadOf r buf) b).1.readData
  count : 0≤(serveRequest r b buf).1 → (serveRequest r b buf).1 =
    if r.cmd=.read ∨ r.cmd=.write then (r.len.toNat : ℤ) else 0

lemma agree_of_refused {b : B} {buf : List UInt8} (hu : ∃ e<0, serveRequest r b buf = (e,buf,b))
    (hn : ∃ e≠nbdOk, serve r (payloadOf r buf) b = (plain r e,b)) : Agree r b buf := by
  obtain ⟨e,he,hu⟩ := hu
  obtain ⟨e',he',hn⟩ := hn
  have hneg : ¬0≤(serveRequest r b buf).1 := by
    rw [hu]
    exact not_le.mpr he
  refine ⟨⟨fun h => absurd h hneg,fun h => ?_⟩,by rw [hu,hn],fun _ h => absurd h hneg,
    fun h => absurd h hneg⟩
  rw [hn] at h
  exact absurd (encodeSimpleReply_eq_ok.mp h) he'

lemma errnoOf_map {α β : Type} (f : α → β) (result : Except IoError α) :
    errnoOf (result.map f) = errnoOf result := by
  cases result <;> rfl

variable {r : Request} {b : B} {buf : List UInt8}

lemma agree_flush (hf : r.flags=0) (hc : r.cmd=.flush) (hoff : r.offset=0)
    (hlen : r.len=0) : Agree r b buf := by
  have hu : serveRequest r b buf = transfer r b buf :=
    serveRequest_of_admits ⟨by simp [hlen],.inr (by simp [Aligned,hoff,hlen]),
      by simp [InRange,hoff,hlen]⟩
  have hn : serve r (payloadOf r buf) b =
      (plain r (errnoOf (BlockBackend.flush b).1),(BlockBackend.flush b).2) := by
    simp only [serve,validateCommandFlags_zero hf,hc]
  have ht : transfer r b buf = (served (BlockBackend.flush b).1 0,buf,(BlockBackend.flush b).2) := by
    simp only [transfer,hc]
  rw [ht] at hu
  constructor
  · rw [hu,hn]
    exact (served_nonneg (by norm_num)).trans encodeSimpleReply_eq_ok.symm
  · rw [hu,hn]
  · simp [hc]
  · rw [hu]
    intro h
    simpa [hc] using served_eq h

lemma agree_trim (hf : r.flags=0) (hc : r.cmd=.trim) (hlen : r.len.toNat≤buf.length)
    (h : Valid r b) : Agree r b buf := by
  have hu : serveRequest r b buf = (0,buf,b) := by
    rw [serveRequest_of_admits ⟨hlen,.inr h.2.1,h.2.2.1⟩,transfer]
    simp only [hc]
  have hn : serve r (payloadOf r buf) b = (plain r nbdOk,b) := by
    simp only [serve,validateCommandFlags_zero hf,hc]
    exact validated_of_valid h _
  constructor
  · simp [hu,hn,plain]
  · rw [hu,hn]
  · simp [hc]
  · simp [hu,hc]

variable [LawfulBackend B]

lemma agree_read (hf : r.flags=0) (hc : r.cmd=.read) (hlen : r.len.toNat≤buf.length)
    (h : Valid r b) (hshort : r.len.toNat<2^31) : Agree r b buf := by
  have htake : (buf.take r.len.toNat).length=r.len.toNat := by simp [hlen]
  have hres := LawfulBackend.readInto_result b r.offset.toNat (buf.take r.len.toNat)
  have hst := LawfulBackend.readInto_state b r.offset.toNat (buf.take r.len.toNat)
  have hdata := LawfulBackend.readInto_data b r.offset.toNat (buf.take r.len.toNat)
  have hfill := BufferBackend.length_readInto b r.offset.toNat (buf.take r.len.toNat)
  rw [htake] at hres hst hdata hfill
  generalize hi : BufferBackend.readInto b r.offset.toNat (buf.take r.len.toNat)=i
    at hres hst hdata hfill
  generalize ha : BlockBackend.readAt b r.offset.toNat r.len.toNat = a at hres hst hdata
  have hu : serveRequest r b buf =
      (served i.1 r.len.toNat,i.2.1++buf.drop r.len.toNat,i.2.2) := by
    rw [serveRequest_of_admits ⟨hlen,.inr h.2.1,h.2.2.1⟩,transfer]
    simp only [hc,hi]
  have hn : serve r (payloadOf r buf) b = (readOutcome r a.1,a.2) := by
    simp only [serve,validateCommandFlags_zero hf,hc,validated_of_valid h,ha]
  constructor
  · rw [hu,hn]
    refine (served_nonneg hshort).trans ?_
    rw [hres,errnoOf_map]
    exact encodeSimpleReply_eq_ok.symm
  · rw [hu,hn]
    exact hst
  · intro _ hok
    rw [hu] at hok ⊢
    rw [hn]
    have hall : (i.2.1++buf.drop r.len.toNat).take r.len.toNat=i.2.1 := by
      rw [←hfill]
      exact List.take_left
    have herr := (served_nonneg hshort).mp hok
    rw [hall]
    cases har : a.1 with
    | error e => simp [hres,har,errnoOf,Except.map,nbdEio,nbdOk] at herr
    | ok data => simp [hdata data har,readOutcome,Except.toOption]
  · rw [hu]
    intro hok
    simpa [hc] using served_eq hok

lemma agree_write (hf : r.flags=0) (hc : r.cmd=.write) (hlen : r.len.toNat≤buf.length)
    (h : Valid r b) (hshort : r.len.toNat<2^31) : Agree r b buf := by
  have htake : (buf.take r.len.toNat).length=r.len.toNat := by simp [hlen]
  have hw := LawfulBackend.writeAtWithOptions_default b r.offset.toNat (buf.take r.len.toNat)
  generalize ha : BlockBackend.writeAt b r.offset.toNat (buf.take r.len.toNat) = a at hw
  have hu : serveRequest r b buf = (served a.1 r.len.toNat,buf,a.2) := by
    rw [serveRequest_of_admits ⟨hlen,.inr h.2.1,h.2.2.1⟩,transfer]
    simp only [hc,ha]
  have hn : serve r (payloadOf r buf) b = (plain r (errnoOf a.1),a.2) := by
    have hp : payloadOf r buf = buf.take r.len.toNat := if_pos hc
    simp only [serve,validateCommandFlags_zero hf,hc,hp,validated_of_valid h,hw,htake]
    simp
  constructor
  · rw [hu,hn]
    exact (served_nonneg hshort).trans encodeSimpleReply_eq_ok.symm
  · rw [hu,hn]
  · simp [hc]
  · rw [hu]
    intro hok
    simpa [hc] using served_eq hok

end

/-- The requests on a device of this geometry that both front ends treat alike: a flush, a request
beyond the device, and one that both refuse or both serve. -/
def Shared (size bs : ℕ) (ro : Bool) (r : Request) : Prop :=
  r.cmd=.flush ∨ ¬InRange size r ∨ bs≠0 ∧
    (¬Aligned bs r ∨ ¬(r.cmd=.write ∧ ro=true) ∧ (r.cmd=.trim ∨ r.len.toNat<2^31))

instance (size bs : ℕ) (ro : Bool) (r : Request) : Decidable (Shared size bs ro r) :=
  inferInstanceAs (Decidable (_ ∨ _))

lemma agree_of_shared {B : Type} [BlockBackend B] [BufferBackend B] [LawfulBackend B]
    {r : Request} {b : B} {buf : List UInt8} (hf : r.flags=0) (hcmd : r.cmd=.read ∨ r.cmd=.write ∨ r.cmd=.trim ∨
      r.cmd=.flush ∧ r.offset=0 ∧ r.len=0) (hlen : r.len.toNat≤buf.length)
    (h : Shared (BlockBackend.sizeBytes b) (BlockBackend.blockSize b) (BlockBackend.isReadOnly b) r) :
    Agree r b buf := by
  by_cases hflush : r.cmd=.flush
  · obtain ⟨-,hoff,hl⟩ : r.cmd=.flush ∧ r.offset=0 ∧ r.len=0 := by
      simpa [hflush] using hcmd
    exact agree_flush hf hflush hoff hl
  have hcmd : r.cmd=.read ∨ r.cmd=.write ∨ r.cmd=.trim := by
    simpa [hflush] using hcmd
  by_cases hv : Valid r b
  · obtain ⟨h0,ha,hr,hro⟩ := hv
    have hshort : r.cmd=.trim ∨ r.len.toNat<2^31 := by
      obtain h | h | ⟨-,h | h⟩ := h
      · exact absurd h hflush
      · exact absurd hr h
      · exact absurd ha h
      · exact h.2
    obtain hc | hc | hc := hcmd
    · exact agree_read hf hc hlen ⟨h0,ha,hr,hro⟩ (by simpa [hc] using hshort)
    · exact agree_write hf hc hlen ⟨h0,ha,hr,hro⟩ (by simpa [hc] using hshort)
    · exact agree_trim hf hc hlen ⟨h0,ha,hr,hro⟩
  · refine agree_of_refused (serveRequest_of_not_admits ?_) (serve_of_not_valid buf hf hcmd hv)
    rintro ⟨-,ha,hr⟩
    obtain h | h | ⟨h0,h | h⟩ := h
    · exact hflush h
    · exact h hr
    · exact ha.elim h0 h
    · exact hv ⟨h0,ha.resolve_left h0,hr,h.1⟩

/-- A device of any geometry that serves every call and counts them. -/
structure CallCounter where
  size : ℕ
  blockSize : ℕ
  readOnly : Bool
  calls : ℕ
  deriving DecidableEq, Repr

namespace CallCounter

def call (b : CallCounter) : CallCounter := {b with calls := b.calls+1}

instance : BlockBackend CallCounter where
  sizeBytes b := b.size
  blockSize b := b.blockSize
  isReadOnly b := b.readOnly
  readAt b _ len := (.ok (List.replicate len 0),b.call)
  writeAt b _ _ := (.ok (),b.call)
  flush b := (.ok (),b.call)

instance : BufferBackend CallCounter where
  readInto b _ buf := (.ok (),List.replicate buf.length 0,b.call)
  length_readInto _ _ _ := by simp
  readAt_eq _ _ _ := by simp [BlockBackend.readAt,Except.map]

instance : LawfulBackend CallCounter where
  readInto_result _ _ _ := rfl
  readInto_state _ _ _ := rfl
  readInto_data _ _ _ _ h := Except.ok.inj h
  writeAtWithOptions_default _ _ _ := rfl

lemma call_ne (b : CallCounter) : b.call≠b := by
  intro h
  have := congrArg calls h
  simp [call] at this

lemma not_agree {b : CallCounter} {r : Request} (buf : List UInt8) (hf : r.flags=0)
    (hcmd : r.cmd=.read ∨ r.cmd=.write ∨ r.cmd=.trim) (hlen : r.len.toNat≤buf.length)
    (h : ¬Shared b.size b.blockSize b.readOnly r) : ¬Agree r b buf := by
  intro hagree
  simp only [Shared,not_or,not_not,not_and] at h
  obtain ⟨-,hr,h⟩ := h
  have hadm : Admits r b buf := by
    refine ⟨hlen,?_,hr⟩
    by_cases h0 : b.blockSize=0
    · exact .inl h0
    · exact .inr (h h0).1
  have hu := serveRequest_of_admits hadm
  by_cases hv : Valid r b
  · -- Both serve the request, but the length does not fit the result of the COMMIT.
    obtain ⟨hc,hlong⟩ := (h hv.1).2 fun hw ht => hv.2.2.2 ⟨hw,ht⟩
    have hneg : ¬0≤(serveRequest r b buf).1 := by
      rw [hu]
      obtain hc | hc | hc' := hcmd
      · simp [transfer,hc,served_of_long hlong,eio]
      · simp [transfer,hc,served_of_long hlong,eio]
      · exact absurd hc' hc
    refine hneg (hagree.status.mpr ?_)
    obtain hc | hc | hc' := hcmd
    · simp [serve,validateCommandFlags_zero hf,hc,validated_of_valid hv,readOutcome,
        BlockBackend.readAt,errnoOf]
    · simp [serve,validateCommandFlags_zero hf,hc,validated_of_valid hv,payloadOf,hlen,plain,
        BlockBackend.writeAtWithOptions,writeThenFlush,errnoOf]
    · exact absurd hc' hc
  · obtain ⟨e,he,hn⟩ := serve_of_not_valid buf hf hcmd hv
    have hstate := hagree.state
    have hstatus := hagree.status
    rw [hu,hn] at hstate hstatus
    obtain hc | hc | hc := hcmd
    · simp only [transfer,hc] at hstate
      exact b.call_ne hstate
    · simp only [transfer,hc] at hstate
      exact b.call_ne hstate
    · refine he (encodeSimpleReply_eq_ok.mp (hstatus.mp ?_))
      simp [transfer,hc]

end CallCounter

/-- The front ends agree over every lawful device of a geometry exactly on the shared requests. -/
theorem front_ends_agree_iff {d : IoDesc} {tag : UInt16} {r : Request}
    (h : d.toBlockRequest tag = .ok r) (size bs : ℕ) (ro : Bool) :
    (∀ (B : Type) [BlockBackend B] [BufferBackend B] [LawfulBackend B] (b : B) (buf : List UInt8),
      BlockBackend.sizeBytes b = size → BlockBackend.blockSize b = bs →
      BlockBackend.isReadOnly b = ro → r.len.toNat≤buf.length → Agree r b buf) ↔
    Shared size bs ro r := by
  obtain ⟨hf,hcmd⟩ := IoDesc.toBlockRequest_ok h
  constructor
  · intro hall
    by_contra hs
    have hne : r.cmd≠.flush := fun hc => hs (.inl hc)
    refine CallCounter.not_agree (b := ⟨size,bs,ro,0⟩) (List.replicate r.len.toNat 0) hf
      (by simpa [hne] using hcmd) (by simp) hs ?_
    exact hall CallCounter _ _ rfl rfl rfl (by simp)
  · rintro hs B _ _ _ b buf rfl rfl rfl hlen
    exact agree_of_shared hf hcmd hlen hs

theorem front_ends_agree_on_ram :
    let r : Request := ⟨0,.write,7,512,1024⟩
    (⟨0x101,2,1⟩ : IoDesc).toBlockRequest 7 = .ok r ∧
      Agree r (RamBackend.new 4096) (List.replicate 2048 0xab) := by
  have hd : (⟨0x101,2,1⟩ : IoDesc).toBlockRequest 7 = .ok ⟨0,.write,7,512,1024⟩ := by decide
  refine ⟨hd,(front_ends_agree_iff hd 4096 512 false).mpr (by decide) RamBackend _ _ ?_ rfl rfl ?_⟩
  · exact List.length_replicate
  · rw [List.length_replicate]
    decide

/-- A write to a read-only device is refused by one front end and carried out by the other. A
device without a block size, and a request of 2 GiB, are served by one of them only. -/
theorem front_ends_disagree :
    (let r : Request := ⟨0,.write,7,0,512⟩
     let b : CallCounter := ⟨4096,512,true,0⟩
     let buf := List.replicate 512 0xab
     (⟨1,1,0⟩ : IoDesc).toBlockRequest 7 = .ok r ∧
     (serveRequest r b buf).1 = 512 ∧ (serveRequest r b buf).2.2.calls = 1 ∧
     (serve r (payloadOf r buf) b).1.reply = encodeSimpleReply nbdEacces 7 ∧
     (serve r (payloadOf r buf) b).2.calls = 0) ∧
    (let r : Request := ⟨0,.read,7,0,512⟩
     (⟨0,1,0⟩ : IoDesc).toBlockRequest 7 = .ok r ∧
     ¬Agree r (⟨4096,0,false,0⟩ : CallCounter) (List.replicate 512 0)) ∧
    (let r : Request := ⟨0,.read,7,0,0x80000000⟩
     (⟨0,0x400000,0⟩ : IoDesc).toBlockRequest 7 = .ok r ∧
     ¬Agree r (⟨2^32,512,false,0⟩ : CallCounter) (List.replicate (2^31) 0)) := by
  refine ⟨by decide +kernel,⟨by decide,?_⟩,by decide,?_⟩
  · exact CallCounter.not_agree _ rfl (.inl rfl) (by rw [List.length_replicate]; decide) (by decide)
  · exact CallCounter.not_agree _ rfl (.inl rfl) (by rw [List.length_replicate]; decide) (by decide)

end RamShared.Ublk

import RamShared.Nbd.Reader
import RamShared.Nbd.Writer

/-! A connection after its handshake: the requests of the stream, the shape of the replies, and what
is left of both after a disconnect request. -/
namespace RamShared.Nbd
open Lib Block

/-! Replies. -/

/-- The data that answers a request when the reply carries the given error. -/
def Request.dataLen (req : Request) (error : UInt32) : ℕ :=
  if req.cmd=.read ∧ error=nbdOk then req.len.toNat else 0

/-- The header echoes the handle, and the data is what the header announces. -/
def Shaped (req : Request) (out : ServeOutcome) : Prop :=
  ∃ error, out.reply = encodeSimpleReply error req.handle ∧ out.readData.length = req.dataLen error

variable {req : Request} {B : Type} {fuel : ℕ}

lemma shaped_plain {error : UInt32} (h : req.cmd≠.read ∨ error≠nbdOk) : Shaped req (plain req error) := by
  refine ⟨error,rfl,?_⟩
  rw [Request.dataLen,if_neg fun hc => h.elim (fun h => h hc.1) fun h => h hc.2]
  rfl

lemma validateCommandFlags_error {e : UInt32} (h : validateCommandFlags req=.error e) : e=nbdEinval := by
  unfold validateCommandFlags at h
  split at h <;> split_ifs at h <;> exact (Except.error.inj h).symm

lemma validate_error [BlockBackend B] {b : B} {e : UInt32} (h : validate req b=.error e) : e≠nbdOk := by
  unfold validate at h
  cases hstop : checkedAdd 64 req.offset.toNat req.len.toNat with
  | none =>
    simp only [hstop] at h
    split_ifs at h <;> cases h <;> decide
  | some stop =>
    simp only [hstop] at h
    split_ifs at h <;> cases h <;> decide

lemma serve_shaped [BlockBackend B] [FillsBuffer B] (req : Request) (payload : List UInt8) (b : B) :
    Shaped req (serve req payload b).1 := by
  unfold serve
  split
  · rename_i e he
    rw [validateCommandFlags_error he]
    exact shaped_plain (.inr (by decide))
  have hvalidated {body : B → ServeOutcome × B} (hbody : Shaped req (body b).1) :
      Shaped req (validated req b body).1 := by
    unfold validated
    split
    · rename_i e he
      exact shaped_plain (.inr (validate_error he))
    · exact hbody
  cases hcmd : req.cmd with
  | read =>
    refine hvalidated ?_
    dsimp only
    cases hread : (BlockBackend.readAt b req.offset.toNat req.len.toNat).1 with
    | error e => exact ⟨nbdEio,rfl,by simp [readOutcome,Request.dataLen,Except.toOption,nbdEio,nbdOk]⟩
    | ok data =>
      refine ⟨nbdOk,rfl,?_⟩
      rw [Request.dataLen,if_pos ⟨hcmd,rfl⟩]
      exact FillsBuffer.length_readAt b _ _ data hread
  | write =>
    dsimp only
    split_ifs
    · exact shaped_plain (.inr (by decide))
    · exact hvalidated (shaped_plain (.inl (by simp [hcmd])))
  | flush => exact shaped_plain (.inl (by simp [hcmd]))
  | trim => exact hvalidated (shaped_plain (.inl (by simp [hcmd])))
  | disc => exact ⟨nbdOk,rfl,by simp [Request.dataLen,hcmd]⟩
  | unknown c => exact shaped_plain (.inl (by simp [hcmd]))

/-! The client. -/

structure ClientReply where
  errno : ℕ
  handle : UInt64
  data : List UInt8
  deriving DecidableEq, Repr

/-- A client that knows by handle how much data a good reply carries reads the replies off the
stream. -/
def clientRead (expects : UInt64 → ℕ) : ℕ → List UInt8 → Option (List ClientReply)
  | 0, _ => none
  | fuel+1, r =>
    if r=[] then some []
    else
      match readExact 16 r with
      | (.error _,_) => none
      | (.ok hdr,r) =>
        if field hdr 0 4≠nbdSimpleReplyMagic.toNat then none
        else
          let errno := replyErrno hdr
          let handle := UInt64.ofNat (field hdr 8 8)
          match readExact (if errno=nbdOk.toNat then expects handle else 0) r with
          | (.error _,_) => none
          | (.ok data,r) => (clientRead expects fuel r).map (⟨errno,handle,data⟩ :: ·)

variable (out : ServeOutcome)

def ServeOutcome.bytes : List UInt8 := out.reply++out.readData

def ServeOutcome.seen (req : Request) : ClientReply :=
  ⟨replyErrno out.reply,req.handle,out.readData⟩

lemma field_encodeSimpleReply (error : UInt32) (handle : UInt64) :
    field (encodeSimpleReply error handle) 0 4=nbdSimpleReplyMagic.toNat ∧
    replyErrno (encodeSimpleReply error handle)=error.toNat ∧
    field (encodeSimpleReply error handle) 8 8=handle.toNat := by
  refine ⟨?_,?_,?_⟩
  · simp [field,encodeSimpleReply]
    exact fromBeBytes_toBeBytes (n := 4) (by decide)
  · simp [replyErrno,encodeSimpleReply]
    exact fromBeBytes_toBeBytes (n := 4) error.toNat_lt
  · simp [field,encodeSimpleReply,List.drop_append]
    exact fromBeBytes_toBeBytes (n := 8) handle.toNat_lt

lemma clientRead_shaped {expects : UInt64 → ℕ} {served : List (Request × ServeOutcome)}
    (hshaped : ∀ p∈served, Shaped p.1 p.2)
    (hexpects : ∀ p∈served, expects p.1.handle = p.1.dataLen nbdOk) (hfuel : served.length<fuel) :
    clientRead expects fuel (served.flatMap fun p => p.2.bytes) = some (served.map fun p => p.2.seen p.1) := by
  induction served generalizing fuel with
  | nil =>
    obtain ⟨fuel,rfl⟩ := Nat.exists_eq_add_one.mpr (Nat.zero_lt_of_lt hfuel)
    rfl
  | cons p served ih =>
    obtain ⟨fuel,rfl⟩ := Nat.exists_eq_add_one.mpr (Nat.zero_lt_of_lt hfuel)
    rw [List.forall_mem_cons] at hshaped hexpects
    obtain ⟨error,hreply,hdata⟩ := hshaped.1
    obtain ⟨hmagic,herrno,hhandle⟩ := field_encodeSimpleReply error p.1.handle
    have hlen : p.2.reply.length=16 := by simp [hreply,encodeSimpleReply]
    have hne : ((p::served).flatMap fun p => p.2.bytes)≠[] := by
      intro h
      have := congrArg List.length h
      simp [ServeOutcome.bytes,hlen] at this
    have hhdr : readExact 16 ((p::served).flatMap fun p => p.2.bytes) =
        (.ok p.2.reply,p.2.readData++served.flatMap fun p => p.2.bytes) :=
      readExact_eq_ok_iff.mpr ⟨by simp [ServeOutcome.bytes],hlen⟩
    have hcount : (if error.toNat=nbdOk.toNat then expects p.1.handle else 0) =
        p.2.readData.length := by
      rw [hdata,hexpects.1]
      by_cases herror : error=nbdOk
      · rw [herror,if_pos rfl]
      · rw [if_neg (mt UInt32.toNat_inj.mp herror),Request.dataLen,if_neg fun h => herror h.2]
    rw [clientRead,if_neg hne,hhdr]
    simp only [hreply,hmagic,herrno,hhandle,UInt64.ofNat_toNat,hcount,
      readExact_eq_ok_iff.mpr (⟨rfl,rfl⟩ : p.2.readData++_ = p.2.readData++_ ∧ _=_),
      ih hshaped.2 hexpects.2 (by simpa using hfuel)]
    simp [ServeOutcome.seen,hreply,herrno]

/-! The requests. -/

lemma handshake_ok {exports : List Export} {txFlags : UInt16} {client : List UInt8}
    (hfuel : client.length<fuel) {x : HandshakeOutcome}
    (hx : serverHandshake exports txFlags fuel client=some x) {i : ℕ} (hi : x.result=.ok i) :
    (∃ e, exports[i]?=some e) ∧ x.rest.length ≤ client.length := by
  unfold serverHandshake at hx
  split at hx
  · cases hx
    cases hi
  rename_i flags r hread
  obtain ⟨hclient,-⟩ := readBe_ok hread
  obtain ⟨y,hy,rfl⟩ := Option.map_eq_some_iff.mp hx
  have hle : r.length ≤ client.length := by simp [hclient]
  obtain ⟨z,opts,answers,tail,final,hloop,hr,-,hends,-⟩ :=
    optionLoop_transcript exports txFlags (UInt32.ofNat flags) fuel r (by omega)
  rw [hloop fuel le_rfl] at hy
  cases hy
  dsimp only at hi ⊢
  rw [hi] at hends
  have htail : tail.length ≤ r.length := by simp [hr]
  generalize hok : Except.ok i = result at hends
  cases hends with
  | exportName o rest name j e read opt encodes resolves =>
    cases hok
    have := congrArg List.length read
    simp at this
    exact ⟨⟨e,resolves.1⟩,by omega⟩
  | go o rest bytes info name j e read opt data count encodes resolves =>
    cases hok
    have := congrArg List.length read
    simp at this
    exact ⟨⟨e,resolves.1⟩,by omega⟩
  | error => cases hok

lemma spawnReader_frames {exports : List Export} {txFlags : UInt16} {client : List UInt8}
    (hfuel : client.length<fuel) {x : HandshakeOutcome}
    (hx : serverHandshake exports txFlags fuel client=some x) {i : ℕ} (hi : x.result=.ok i)
    {e : Export} (he : exports[i]?=some e) {frames : List Frame} {tail : List UInt8}
    (hframed : Framed e.size.toNat x.rest frames tail) {accepts : ℕ → Bool} {n : ℕ}
    (hbefore : ∀ k<n, accepts k=true) (hat : n<frames.length → accepts n=false) :
    spawnReader exports txFlags accepts fuel client =
      some (((frames.take n).map fun f => .job (f.job i))++[.closed]) := by
  have hlen : frames.length≤(frames.flatMap Frame.bytes).length := by
    have hone : ∀ n∈frames.map fun f => f.bytes.length, 1≤n := by
      rintro _ hn
      obtain ⟨f,-,rfl⟩ := List.mem_map.mp hn
      simp [Frame.bytes,Request.length_bytes,requestLen]
      omega
    simpa [List.length_flatMap] using List.length_le_sum_of_one_le _ hone
  have hshort : x.rest.length ≤ client.length := (handshake_ok hfuel hx hi).2
  rw [hframed.stream,List.length_append] at hshort
  have hloop : readerLoop accepts i e.size.toNat fuel 0 x.rest=some ((frames.take n).map (Frame.job i)) :=
    readerLoop_frames accepts i hframed (by simpa using hbefore) (by simpa using hat) (by omega)
  simp [spawnReader,hx,hi,he,hloop,Function.comp_def]

/-- The requests and the replies of a connection. The stream after the handshake is a sequence of
frames and a rest that begins with none; the reader sends the frames in order with the export of the
handshake, up to the first message that the worker refuses. The reply to each has its handle and the
data that its header announces, so a client that knows its requests by handle reads every reply as it
was meant, in whatever order they come. -/
theorem framing {B : Type} [BlockBackend B] [FillsBuffer B] (exports : List Export) (txFlags : UInt16)
    (fuel : ℕ) (client : List UInt8) (hfuel : client.length<fuel) (x : HandshakeOutcome)
    (hx : serverHandshake exports txFlags fuel client = some x) (i : ℕ) (hi : x.result = .ok i) :
    ∃ e frames tail, exports[i]? = some e ∧ Framed e.size.toNat x.rest frames tail ∧
      (∀ accepts n, (∀ k < n, accepts k = true) → (n<frames.length → accepts n = false) →
        spawnReader exports txFlags accepts fuel client =
          some (((frames.take n).map fun f => .job (f.job i))++[.closed])) ∧
      (∀ f ∈ frames, ∀ geom (b : B), Shaped f.req (serveExport geom b (f.job i)).1) ∧
      ∀ (served : List (Request × ServeOutcome)) (expects : UInt64 → ℕ),
        (∀ p ∈ served, ∃ f ∈ frames, p.1 = f.req ∧
          ∃ geom, ∃ b : B, p.2 = (serveExport geom b (f.job i)).1) →
        (∀ p ∈ served, expects p.1.handle = p.1.dataLen nbdOk) →
        clientRead expects (served.length+1) (served.flatMap fun p => p.2.bytes) =
          some (served.map fun p => p.2.seen p.1) := by
  obtain ⟨⟨e,he⟩,-⟩ := handshake_ok hfuel hx hi
  obtain ⟨frames,tail,hframed⟩ := exists_framed e.size.toNat x.rest
  have hshaped (f : Frame) (geom : List (ℕ × ℕ)) (b : B) :
      Shaped f.req (serveExport geom b (f.job i)).1 :=
    serve_shaped f.req f.payload (⟨b,_,_⟩ : SliceView B)
  refine ⟨e,frames,tail,he,hframed,fun accepts n hbefore hat => ?_,
    fun f _ geom b => hshaped f geom b,fun served expects hserved hexpects => ?_⟩
  · exact spawnReader_frames hfuel hx hi he hframed hbefore hat
  · refine clientRead_shaped (fun p hp => ?_) hexpects (Nat.lt_succ_self _)
    obtain ⟨f,-,hreq,geom,b,hout⟩ := hserved p hp
    rw [hreq,hout]
    exact hshaped f geom b

def restlessFrames : List Frame :=
  [⟨⟨0,.write,1,0,4⟩,[1,2,3,4]⟩,⟨⟨0,.disc,2,0,0⟩,[]⟩,⟨⟨0,.write,3,0,4⟩,[5,6,7,8]⟩]

/-- The stream of a client that negotiates the first export and sends these, and a stray byte. -/
def restlessClient : List UInt8 :=
  toBeBytes 4 2++(⟨1,[]⟩ : ClientOption).bytes++restlessFrames.flatMap Frame.bytes++[0]

lemma restlessClient_handshake : ∃ x, serverHandshake [⟨"s0",4⟩] 1 200 restlessClient=some x ∧
    x.result=.ok 0 := by
  have h : (serverHandshake [⟨"s0",4⟩] 1 200 restlessClient).map (fun x => x.result.toOption) =
      some (some 0) := by decide +kernel
  obtain ⟨x,hx,hresult⟩ := Option.map_eq_some_iff.mp h
  refine ⟨x,hx,?_⟩
  cases hr : x.result with
  | error e => simp [hr,Except.toOption] at hresult
  | ok i =>
    rw [hr] at hresult
    cases hresult
    rfl

theorem framing_restlessClient :
    restlessClient.length < 200 ∧ ∃ frames : List Frame,
      spawnReader [⟨"s0",4⟩] 1 (fun _ => true) 200 restlessClient =
        some ((frames.map fun f => .job (f.job 0))++[.closed]) := by
  have hlen : restlessClient.length<200 := by decide +kernel
  obtain ⟨x,hx,hi⟩ := restlessClient_handshake
  obtain ⟨e,frames,tail,-,-,hreader,-⟩ :=
    framing (B := RamBackend) [⟨"s0",4⟩] 1 200 restlessClient hlen x hx 0 hi
  refine ⟨hlen,frames,?_⟩
  simpa using hreader (fun _ => true) frames.length (by simp) (by simp)

/-! Disconnecting. -/

def ServeOutcome.toReply : Reply := ⟨out.reply,out.readData,out.disconnect⟩

lemma serve_disc [BlockBackend B] (hcmd : req.cmd=.disc) (hflags : req.flags=0)
    (payload : List UInt8) (b : B) : (serve req payload b).1.disconnect=true := by
  simp [serve,validateCommandFlags,hcmd,hflags]

/-- A disconnect request ends the replies, not the requests. After it the jobs are those of the frames
that the client still sends, none only if it sends none; and if it carried no flags, nothing that
answers them is written to the socket. -/
theorem requests_after_disc {B : Type} [BlockBackend B] (exports : List Export) (txFlags : UInt16)
    (fuel : ℕ) (client : List UInt8) (hfuel : client.length<fuel) (x : HandshakeOutcome)
    (hx : serverHandshake exports txFlags fuel client = some x) (i : ℕ) (hi : x.result = .ok i) :
    ∃ e frames tail, exports[i]? = some e ∧ Framed e.size.toNat x.rest frames tail ∧
      spawnReader exports txFlags (fun _ => true) fuel client =
        some ((frames.map fun f => .job (f.job i))++[.closed]) ∧
      ∀ before d after, frames = before++d::after → d.req.cmd=.disc →
        (after = [] ↔ Unframed e.size.toNat (after.flatMap Frame.bytes++tail)) ∧
        (d.req.flags=0 → ∀ (answers : List Answer) (outs : List ServeOutcome),
          List.Forall₂ (fun f out => ∃ geom, ∃ b : B, out = (serveExport geom b (f.job i)).1) frames outs →
          writerCalls answers (outs.map ServeOutcome.toReply) =
            writerCalls answers ((outs.take (before.length+1)).map ServeOutcome.toReply)) := by
  obtain ⟨⟨e,he⟩,-⟩ := handshake_ok hfuel hx hi
  obtain ⟨frames,tail,hframed⟩ := exists_framed e.size.toNat x.rest
  refine ⟨e,frames,tail,he,hframed,?_,fun before d after hsplit hcmd => ⟨⟨?_,?_⟩,?_⟩⟩
  · have hall : spawnReader exports txFlags (fun _ => true) fuel client =
        some (((frames.take frames.length).map fun f => .job (f.job i))++[.closed]) :=
      spawnReader_frames hfuel hx hi he hframed (by simp) (by simp)
    rwa [List.take_length] at hall
  · rintro rfl
    exact hframed.ended
  · intro hrest
    cases after with
    | nil => rfl
    | cons f after =>
      have hf : f.Within e.size.toNat := hframed.within f (by simp [hsplit])
      exact absurd (by simp) (hrest f (after.flatMap Frame.bytes++tail) hf)
  · intro hflags answers outs hserved
    obtain ⟨hlen,hout⟩ := List.forall₂_iff_get.mp hserved
    have hat : before.length<outs.length := by
      rw [← hlen,hsplit]
      simp
    have hd : frames.get ⟨before.length,hlen ▸ hat⟩ = d := by simp [hsplit]
    obtain ⟨geom,b,hb⟩ := hout before.length (hlen ▸ hat) hat
    have hdisc : (outs[before.length]).toReply.disconnect = true := by
      rw [List.get_eq_getElem,hd] at hb
      rw [hb]
      exact serve_disc hcmd hflags _ _
    have hcut : outs = outs.take before.length++outs[before.length]::outs.drop (before.length+1) := by
      simp
    conv_lhs => rw [hcut]
    rw [List.take_succ_eq_append_getElem hat]
    simp only [List.map_append,List.map_cons,List.map_nil]
    exact writerCalls_disconnect answers _ hdisc _

/-- The second write comes after the disconnect request, becomes a job, and overwrites the block. -/
theorem write_after_disc :
    spawnReader [⟨"s0",4⟩] 1 (fun _ => true) 200 restlessClient =
      some [.job ⟨0,⟨0,.write,1,0,4⟩,[1,2,3,4]⟩,.job ⟨0,⟨0,.disc,2,0,0⟩,[]⟩,
        .job ⟨0,⟨0,.write,3,0,4⟩,[5,6,7,8]⟩,.closed] ∧
    (serveExport [(0,4)] (⟨[1,2,3,4],4⟩ : RamBackend) ⟨0,⟨0,.disc,2,0,0⟩,[]⟩).2.data = [1,2,3,4] ∧
    (serveExport [(0,4)] (⟨[1,2,3,4],4⟩ : RamBackend) ⟨0,⟨0,.write,3,0,4⟩,[5,6,7,8]⟩).2.data =
      [5,6,7,8] :=
  ⟨by decide +kernel,by decide +kernel,by decide +kernel⟩

theorem requests_after_disc_restlessClient :
    restlessClient.length < 200 ∧ ∃ (frames : List Frame) (tail : List UInt8),
      spawnReader [⟨"s0",4⟩] 1 (fun _ => true) 200 restlessClient =
        some ((frames.map fun f => .job (f.job 0))++[.closed]) ∧
      ∀ before d after, frames = before++d::after → d.req.cmd=.disc →
        (after = [] ↔ Unframed 4 (after.flatMap Frame.bytes++tail)) := by
  have hlen : restlessClient.length<200 := by decide +kernel
  obtain ⟨x,hx,hi⟩ := restlessClient_handshake
  obtain ⟨e,frames,tail,he,-,hreader,hafter⟩ :=
    requests_after_disc (B := RamBackend) [⟨"s0",4⟩] 1 200 restlessClient hlen x hx 0 hi
  cases he
  exact ⟨hlen,frames,tail,hreader,fun before d after hsplit hcmd => (hafter before d after hsplit hcmd).1⟩

end RamShared.Nbd

import RamShared.Ublk.Ring

/-! The two threads against the single one: for every tag, the commits of a run are an initial
segment of the commits that `runServerLoop` makes when it handles the same fetches in the order of
their dispatch. -/
namespace RamShared.Ublk
open Lib Block Nbd

/-- The request of the fetch fits the buffer of its tag, where the worker does not look at that
buffer, and a read fits the result of its COMMIT. -/
def Fits (f : Fetch) : Prop :=
  match f.desc.toBlockRequest f.tag with
  | .error _ => True
  | .ok req => (req.cmd=.read ∨ req.cmd=.trim → req.len.toNat≤f.buffer.length) ∧
      (req.cmd=.read → req.len.toNat<2^31)

instance (f : Fetch) : Decidable (Fits f) :=
  match hr : f.desc.toBlockRequest f.tag with
  | .error _ => .isTrue (by simp [Fits,hr])
  | .ok req =>
    decidable_of_iff ((req.cmd=.read ∨ req.cmd=.trim → req.len.toNat≤f.buffer.length) ∧
      (req.cmd=.read → req.len.toNat<2^31)) (by simp [Fits,hr])

def workOf (f : Fetch) : Option IoWork :=
  match f.desc.toBlockRequest f.tag with
  | .error _ => none
  | .ok req =>
    if req.cmd=.write ∧ f.buffer.length < req.len.toNat then none
    else some ⟨f.tag,req,if req.cmd=.write then f.buffer.take req.len.toNat
      else resize [] req.len.toNat⟩

variable {w : IoWork} {f : Fetch}

lemma tag_of_workOf (h : workOf f=some w) : w.tag=f.tag := by
  unfold workOf at h
  split at h
  · cases h
  · split_ifs at h <;> exact (congrArg IoWork.tag (Option.some.inj h)).symm

namespace Ring
section
variable {B : Type}

lemma dispatchRequest_refused (s : Ring B) (ok : Bool) (todo : List UblkCompletion) (h : workOf f=none) :
    ∃ pool, s.dispatchRequest ok f todo = {s with bufPool := pool}.refuse ok f todo := by
  unfold workOf at h
  unfold dispatchRequest
  cases hr : f.desc.toBlockRequest f.tag with
  | error e => exact ⟨s.bufPool,rfl⟩
  | ok req =>
    simp only [hr] at h
    split_ifs at h with hlong
    exact ⟨_,if_pos hlong⟩

lemma dispatchRequest_sent (s : Ring B) (ok : Bool)
    (todo : List UblkCompletion) (h : workOf f=some w) : s.dispatchRequest ok f todo =
      if s.workerAlive=false then ({s with phase := .stopped},[.fetched f])
      else if s.work.length < ringChanCap then (s.send w todo,[.fetched f])
      else (s,[]) := by
  unfold workOf at h
  unfold dispatchRequest
  cases hr : f.desc.toBlockRequest f.tag with
  | error e => simp [hr] at h
  | ok req =>
    simp only [hr] at h
    split_ifs at h with hlong <;> obtain rfl := Option.some.inj h
    all_goals
      dsimp only
      rw [if_neg hlong]
      simp_all

end
end Ring

section
variable {B : Type} [BlockBackend B] [BufferBackend B]
variable {f : Fetch}

lemma serveTag_of_refused (h : workOf f=none) (b : B) : serveTag b f = (einval,f.buffer,b) := by
  unfold workOf at h
  unfold serveTag
  cases hr : f.desc.toBlockRequest f.tag with
  | error e => rfl
  | ok req =>
    simp only [hr] at h
    split_ifs at h with hlong
    simp [serveRequest,hlong.2]

lemma readInto_zeroed [AtomicBackend B] (b : B) (off : ℕ) (buf : List UInt8) :
    let i := BufferBackend.readInto b off buf
    let j := BufferBackend.readInto b off (List.replicate buf.length 0)
    i.1=j.1 ∧ i.2.2=j.2.2 ∧ (i.1=.ok () ∧ i.2.1=j.2.1 ∨ ∃ e, i.1=.error e ∧ i.2.1=buf) := by
  have hlen : (List.replicate buf.length (0 : UInt8)).length=buf.length := by simp
  have hi := LawfulBackend.readInto_result b off buf
  have hj := LawfulBackend.readInto_result b off (List.replicate buf.length 0)
  have hst := LawfulBackend.readInto_state b off (List.replicate buf.length 0)
  have hdata := LawfulBackend.readInto_data b off (List.replicate buf.length 0)
  rw [hlen] at hj hst hdata
  refine ⟨hi.trans hj.symm,(LawfulBackend.readInto_state b off buf).trans hst.symm,?_⟩
  cases ha : (BlockBackend.readAt b off buf.length).1 with
  | error e =>
    rw [ha] at hi
    exact .inr ⟨e,hi,AtomicBackend.readInto_error b off buf e hi⟩
  | ok data =>
    rw [ha] at hi
    exact .inl ⟨hi,(LawfulBackend.readInto_data b off buf data ha).trans (hdata data ha).symm⟩

lemma transfer_read [AtomicBackend B] {req : Request} {tagBuf : List UInt8} (hc : req.cmd=.read)
    (hle : req.len.toNat≤tagBuf.length) (hshort : req.len.toNat<2^31) (tag : UInt16) (b : B) :
    let o := transfer req b (List.replicate req.len.toNat 0)
    transfer req b tagBuf = (o.1,Ring.copyBack ⟨tag,o.1,o.2.1,true⟩ tagBuf,o.2.2) ∧
      (0≤o.1 → o.1=o.2.1.length ∧ o.2.1.length≤tagBuf.length) := by
  have htake : (tagBuf.take req.len.toNat).length=req.len.toNat := by simp [hle]
  have hz := readInto_zeroed b req.offset.toNat (tagBuf.take req.len.toNat)
  have hfill := BufferBackend.length_readInto b req.offset.toNat
    (List.replicate req.len.toNat (0 : UInt8))
  rw [htake] at hz
  simp only [transfer,hc,List.take_replicate,min_self,List.drop_replicate,Nat.sub_self,
    List.replicate_zero,List.append_nil]
  generalize BufferBackend.readInto b req.offset.toNat (tagBuf.take req.len.toNat) = i at hz ⊢
  generalize BufferBackend.readInto b req.offset.toNat (List.replicate req.len.toNat 0)=j
    at hz hfill ⊢
  obtain ⟨hres,hst,⟨hok,hdata⟩ | ⟨e,herr,hbuf⟩⟩ := hz
  · have hs : served i.1 req.len.toNat=req.len.toNat := by rw [hok,served_ok hshort]
    rw [←hres,←hst,←hdata,hs]
    rw [←hdata] at hfill
    simp [Ring.copyBack,hfill,hle]
  · have hs : served i.1 req.len.toNat=eio := by rw [herr]; rfl
    rw [←hres,←hst,hs,hbuf]
    simp [Ring.copyBack,eio]

lemma serveTag_of_work [AtomicBackend B] (hw : workOf f=some w) (hfit : Fits f) (b : B) :
    let reply := (Ring.serveWork b w).1
    serveTag b f = (reply.result,Ring.copyBack reply f.buffer,(Ring.serveWork b w).2) ∧
      (reply.isRead=true → 0 ≤ reply.result →
        reply.result=reply.buf.length ∧ reply.buf.length≤f.buffer.length) := by
  unfold workOf at hw
  unfold Fits at hfit
  cases hr : f.desc.toBlockRequest f.tag with
  | error e => simp [hr] at hw
  | ok req =>
    obtain ⟨-,hcmd⟩ := IoDesc.toBlockRequest_ok hr
    have htag (b : B) : serveTag b f = serveRequest req b f.buffer := by simp only [serveTag,hr]
    simp only [hr] at hw hfit
    split_ifs at hw with hlong hwrite
    · obtain rfl := Option.some.inj hw
      have hle : req.len.toNat≤f.buffer.length := by simpa [hwrite] using hlong
      have hlen : (f.buffer.take req.len.toNat).length=req.len.toNat := by simp [hle]
      obtain h | ⟨e,he,h⟩ := serveRequest_guards req b
      · simp [htag,Ring.serveWork,h _ hle,h _ hlen.ge,transfer,hwrite,Ring.copyBack,
          List.take_take]
      · simp [htag,Ring.serveWork,h _ hle,h _ hlen.ge,hwrite,Ring.copyBack]
    · obtain rfl := Option.some.inj hw
      have hzero : resize [] req.len.toNat = List.replicate req.len.toNat 0 := by simp [resize]
      have hlen : (List.replicate req.len.toNat (0 : UInt8)).length=req.len.toNat := by simp
      have hle : req.len.toNat≤f.buffer.length := by
        obtain hc | hc | hc | ⟨-,-,hc⟩ := hcmd
        · exact hfit.1 (.inl hc)
        · exact absurd hc hwrite
        · exact hfit.1 (.inr hc)
        · simp [hc]
      rw [hzero,htag]
      obtain h | ⟨e,he,h⟩ := serveRequest_guards req b
      · simp only [Ring.serveWork,h _ hle,h _ hlen.ge]
        obtain hc | hc | hc | ⟨hc,-,-⟩ := hcmd
        · have hread := transfer_read hc hle (hfit.2 hc) f.tag b
          simpa [hc] using hread
        · exact absurd hc hwrite
        · simp [transfer,hc,Ring.copyBack]
        · simp [transfer,hc,Ring.copyBack]
      · simp [Ring.serveWork,h _ hle,h _ hlen.ge,Ring.copyBack,he.not_ge]

lemma runServerLoop_cons (h : 0≤f.result) (b : B) (fs : List Fetch) : runServerLoop b (f::fs) =
      (⟨f.tag,(serveTag b f).1,(serveTag b f).2.1⟩::(runServerLoop (serveTag b f).2.2 fs).1,
        (runServerLoop (serveTag b f).2.2 fs).2) := by
  have ha : f.result≠ublkIoResAbort := by
    intro hf
    rw [hf] at h
    exact absurd h (by decide)
  rw [runServerLoop,if_neg ha,if_neg (not_lt.mpr h)]

lemma runServerLoop_append {fs : List Fetch} (h : ∀ f∈fs, 0≤f.result) (b : B) (gs : List Fetch) :
    runServerLoop b (fs++gs) = ((runServerLoop b fs).1++(runServerLoop (runServerLoop b fs).2 gs).1,
        (runServerLoop (runServerLoop b fs).2 gs).2) := by
  induction fs generalizing b with
  | nil => rfl
  | cons f fs ih =>
    have hf := h f List.mem_cons_self
    have hfs : ∀ g∈fs, 0≤g.result := fun g hg => h g (List.mem_cons_of_mem f hg)
    simp [runServerLoop_cons hf,ih hfs]

lemma runServerLoop_concat {fs : List Fetch} (h : ∀ f∈fs, 0≤f.result) (hf : 0≤f.result) (b : B) :
    runServerLoop b (fs++[f]) = ((runServerLoop b fs).1 ++
      [⟨f.tag,(serveTag (runServerLoop b fs).2 f).1,(serveTag (runServerLoop b fs).2 f).2.1⟩],
      (serveTag (runServerLoop b fs).2 f).2.2) := by
  rw [runServerLoop_append h,runServerLoop_cons hf]
  rfl

end

/-! What a run shows of one tag. -/

namespace Event

def tag : Event → UInt16
  | fetched f => f.tag
  | refused tag => tag
  | served tag _ _ => tag
  | committed c => c.tag

def fetch : Event → Option Fetch
  | fetched f => some f
  | _ => none

def commit : Event → Option Commit
  | committed c => some c
  | _ => none

end Event

def fetches (es : List Event) : List Fetch := es.filterMap Event.fetch

def commits (es : List Event) : List Commit := es.filterMap Event.commit

def commitsOf (tag : UInt16) (cs : List Commit) : List Commit := cs.filter fun c => c.tag=tag

@[simp] lemma fetches_nil : fetches []=[] := rfl

@[simp] lemma commits_nil : commits []=[] := rfl

@[simp] lemma fetches_cons (e : Event) (es : List Event) : fetches (e::es) = e.fetch.toList++fetches es := by
  cases e <;> rfl

@[simp] lemma commits_cons (e : Event) (es : List Event) : commits (e::es) = e.commit.toList++commits es := by
  cases e <;> rfl

@[simp] lemma fetches_append (es es' : List Event) :
    fetches (es++es') = fetches es++fetches es' := List.filterMap_append

@[simp] lemma commits_append (es es' : List Event) :
    commits (es++es') = commits es++commits es' := List.filterMap_append

@[simp] lemma commitsOf_append (tag : UInt16) (cs cs' : List Commit) :
    commitsOf tag (cs++cs') = commitsOf tag cs++commitsOf tag cs' := List.filter_append ..

variable {tag : UInt16}

lemma commitsOf_eq_nil {cs : List Commit} (h : tag∉cs.map Commit.tag) : commitsOf tag cs=[] := by
  rw [commitsOf,List.filter_eq_nil_iff]
  intro c hc heq
  exact h (List.mem_map.mpr ⟨c,hc,of_decide_eq_true heq⟩)

/-- A tag between one fetch and the next. -/
inductive TagState
  | idle
  | fetched
  | refused
  | served (result : ℤ) (data : Option (List UInt8))
  | ended
  | broken
  deriving DecidableEq, Repr

/-- The committed buffer starts with the data of the read, and the result is their number. -/
def Holds (c : Commit) : Option (List UInt8) → Prop
  | none => True
  | some data => c.result<0 ∨ c.result=data.length ∧ c.buffer.take data.length=data

instance (c : Commit) : ∀ data, Decidable (Holds c data)
  | none => inferInstanceAs (Decidable True)
  | some _ => inferInstanceAs (Decidable (_ ∨ _))

/-- A fetch is followed by the service of its work, or by its refusal, and then by its commit. The
commit gives the result of that service and, for a read, its data. -/
def TagState.next : TagState → Event → TagState
  | .idle, .fetched f => if f.result<0 then .ended else .fetched
  | .fetched, .refused _ => .refused
  | .fetched, .served _ result data => .served result data
  | .refused, .committed _ => .idle
  | .served result data, .committed c =>
    if c.result=result ∧ Holds c data then .idle else .broken
  | _, _ => .broken

def tagState (tag : UInt16) (es : List Event) : TagState :=
  (es.filter fun e => e.tag=tag).foldl TagState.next .idle

lemma tagState_concat (tag : UInt16) (es : List Event) (e : Event) : tagState tag (es++[e]) =
      if e.tag=tag then (tagState tag es).next e else tagState tag es := by
  by_cases h : e.tag = tag <;> simp [tagState,h]

lemma tagState_concat_of_ne {e : Event} (h : tag≠e.tag) (es : List Event) :
    tagState tag (es++[e]) = tagState tag es := by
  rw [tagState_concat,if_neg h.symm]

variable {rest : List WorkerReply}

namespace Ring
section
variable {B : Type} (s : Ring B)

def pending : List IoWork := s.hand.toList++s.work

def todo : List UblkCompletion :=
  match s.phase with
  | .batch cs => cs
  | _ => []

lemma owner_cases (ok : Bool) : s.owner ok = (s,[]) ∨ s.owner ok = ({s with phase := .stopped},[]) ∨
    s.owner ok = ({s with phase := .loop},[]) ∨
    (∃ reply rest, s.replies = reply::rest ∧ s.owner ok = s.commitReply ok reply rest) ∨
    (s.todo=[] ∧
      s.owner ok = ({s with completions := [], phase := .batch s.completions},[])) ∨
    ∃ c todo, s.phase=.batch (c::todo) ∧ s.owner ok = s.handleCompletion ok c todo := by
  unfold owner
  split
  · rename_i hphase
    by_cases hflight : 0<s.inFlight
    · rw [if_pos hflight]
      split
      · rename_i reply rest hrep
        exact .inr (.inr (.inr (.inl ⟨reply,rest,hrep,rfl⟩)))
      · split_ifs
        · exact .inl rfl
        · exact .inr (.inl rfl)
    · rw [if_neg hflight]
      split_ifs
      · exact .inr (.inl rfl)
      · split
        · exact .inl rfl
        · exact .inr (.inr (.inr (.inr (.inl ⟨by simp [todo,hphase],rfl⟩))))
  · split
    · rename_i reply rest hrep
      exact .inr (.inr (.inr (.inl ⟨reply,rest,hrep,rfl⟩)))
    · exact .inr (.inr (.inl rfl))
  · exact .inr (.inr (.inl rfl))
  · rename_i c todo hphase
    exact .inr (.inr (.inr (.inr (.inr ⟨c,todo,hphase,rfl⟩))))
  · exact .inl rfl

/-- The places at which a tag stands: its fetch is armed, completed, or on its way through the
channels. -/
def load (tag : UInt16) : ℕ :=
  (s.armed tag).toNat+(s.completions.map UblkCompletion.tag).count tag +
    (s.todo.map UblkCompletion.tag).count tag+(s.pending.map IoWork.tag).count tag +
    (s.replies.map WorkerReply.tag).count tag

lemma complete_eq (tag : UInt16) (result : ℤ) (desc : IoDesc) (data : List UInt8) :
    s.complete tag result desc data=s ∨ s.armed tag=true ∧ s.complete tag result desc data =
      { s with
        armed := Function.update s.armed tag false
        descs := Function.update s.descs tag desc
        buffers := Function.update s.buffers tag data
        completions := s.completions++[⟨tag,result⟩]} := by
  unfold complete
  split_ifs with h
  · exact .inr ⟨h.1,rfl⟩
  · exact .inl rfl

lemma load_complete (tag : UInt16) (result : ℤ) (desc : IoDesc) (data : List UInt8)
    (t : UInt16) : (s.complete tag result desc data).load t ≤ s.load t := by
  obtain hs | ⟨harm,hs⟩ := s.complete_eq tag result desc data
  · rw [hs]
  rw [hs]
  simp only [load,pending,todo,List.map_append,List.count_append,List.map_cons,List.map_nil,
    List.count_singleton,Function.update_apply]
  by_cases ht : t=tag
  · subst ht
    simp [harm]
  · simp [ht,Ne.symm ht]

variable {s : Ring B}
variable {reply : WorkerReply} {w : IoWork}

lemma load_commitReply (hreplies : s.replies = reply::rest) (t : UInt16) :
    (s.commitReply true reply rest).1.load t ≤ s.load t := by
  simp only [load,hreplies,List.map_cons,List.count_cons,beq_iff_eq]
  change (Function.update s.armed reply.tag true t).toNat +
    (s.completions.map UblkCompletion.tag).count t+0+(s.pending.map IoWork.tag).count t +
    (rest.map WorkerReply.tag).count t≤_
  by_cases ht : t=reply.tag
  · subst ht
    simp
    omega
  · rw [Function.update_of_ne ht]
    omega

lemma load_refuse {c : UblkCompletion} {todo : List UblkCompletion} (htodo : s.todo = c::todo) (htag : f.tag=c.tag) (t : UInt16) :
    (s.refuse true f todo).1.load t ≤ s.load t := by
  simp only [load,htodo,List.map_cons,List.count_cons,beq_iff_eq,←htag]
  change (Function.update s.armed f.tag true t).toNat +
    (s.completions.map UblkCompletion.tag).count t+(todo.map UblkCompletion.tag).count t +
    (s.pending.map IoWork.tag).count t+(s.replies.map WorkerReply.tag).count t≤_
  by_cases ht : t=f.tag
  · subst ht
    simp
    omega
  · rw [Function.update_of_ne ht]
    omega

@[simp] lemma pending_send (s : Ring B) (w : IoWork) (todo : List UblkCompletion) :
    (s.send w todo).pending = s.pending++[w] := by
  simp [pending,send]

lemma load_send {c : UblkCompletion} {todo : List UblkCompletion} (htodo : s.todo = c::todo)
    (htag : w.tag=c.tag) (t : UInt16) : (s.send w todo).load t ≤ s.load t := by
  simp only [load,htodo,pending_send,List.map_append,List.count_append,List.map_cons,
    List.map_nil,List.count_cons,List.count_nil,←htag]
  change (s.armed t).toNat+(s.completions.map UblkCompletion.tag).count t +
    (todo.map UblkCompletion.tag).count t+_+(s.replies.map WorkerReply.tag).count t≤_
  omega

lemma load_batch (htodo : s.todo=[]) (t : UInt16) :
    {s with completions := [], phase := .batch s.completions}.load t ≤ s.load t := by
  simp only [load,htodo,List.map_nil,List.count_nil]
  change (s.armed t).toNat+0+(s.completions.map UblkCompletion.tag).count t +
    (s.pending.map IoWork.tag).count t+(s.replies.map WorkerReply.tag).count t≤_
  omega

lemma load_loop (s : Ring B) (t : UInt16) : {s with phase := .loop}.load t ≤ s.load t := by
  unfold load
  change (s.armed t).toNat+(s.completions.map UblkCompletion.tag).count t+0 +
    (s.pending.map IoWork.tag).count t+(s.replies.map WorkerReply.tag).count t≤_
  omega

lemma load_serve (hhand : s.hand=some w) (htag : reply.tag=w.tag) (b : B) (t : UInt16) :
    {s with hand := none, backend := b, replies := s.replies++[reply]}.load t ≤ s.load t := by
  have hpending : s.pending = w::s.work := by simp [pending,hhand]
  simp only [load,hpending,List.map_append,List.count_append,List.map_cons,List.map_nil,
    List.count_cons,List.count_nil,htag]
  change (s.armed t).toNat+(s.completions.map UblkCompletion.tag).count t +
    (s.todo.map UblkCompletion.tag).count t+(s.work.map IoWork.tag).count t+_≤_
  omega

lemma reply_alone (hreplies : s.replies = reply::rest) (hone : s.load reply.tag≤1) :
    reply.tag∉s.pending.map IoWork.tag ∧ reply.tag∉rest.map WorkerReply.tag := by
  simp only [load,hreplies,List.map_cons,List.count_cons_self] at hone
  rw [←List.count_eq_zero,←List.count_eq_zero]
  omega

lemma work_alone {ws : List IoWork} (hpending : s.pending = w::ws) (hone : s.load w.tag≤1) :
    w.tag∉ws.map IoWork.tag ∧ w.tag∉s.replies.map WorkerReply.tag := by
  simp only [load,hpending,List.map_cons,List.count_cons_self] at hone
  rw [←List.count_eq_zero,←List.count_eq_zero]
  omega

/-- What committing the reply makes of the tag is what the single thread commits. -/
def Matches (buffers : UInt16 → List UInt8) (reply : WorkerReply) (c : Commit) : Prop :=
  c = ⟨reply.tag,reply.result,copyBack reply (buffers reply.tag)⟩ ∧
    (reply.isRead=true → 0 ≤ reply.result →
      reply.result=reply.buf.length ∧ reply.buf.length≤(buffers reply.tag).length)

end

section
variable {B : Type} [BlockBackend B] [BufferBackend B]

/-- A running server that has shown `es`: the fetches `ps` of the pending work and the commits `cs`
that the replies stand for are what the single thread is ahead. -/
structure Live (b₀ : B) (s : Ring B) (es : List Event) (ps : List Fetch) (cs : List Commit) :
    Prop where
  pending : List.Forall₂ (fun w f => workOf f=some w) s.pending ps
  replies : List.Forall₂ (Matches s.buffers) s.replies cs
  fits : ∀ f∈ps, Fits f ∧ 0≤f.result ∧ s.buffers f.tag=f.buffer
  ahead : ∀ tag, commitsOf tag (runServerLoop b₀ (fetches es)).1 =
    commitsOf tag (commits es)++commitsOf tag cs++commitsOf tag (runServerLoop s.backend ps).1
  backend : (runServerLoop b₀ (fetches es)).2 = (runServerLoop s.backend ps).2
  nonneg : ∀ f∈fetches es, 0≤f.result
  once : ∀ tag, s.load tag≤1
  stateFetched : ∀ w∈s.pending, tagState w.tag es=.fetched
  stateServed : ∀ r∈s.replies, tagState r.tag es=.served r.result (readData r)
  stateIdle : ∀ tag, tag∉s.pending.map IoWork.tag → tag∉s.replies.map WorkerReply.tag →
    tagState tag es=.idle

/-- A server whose owner has left its loop. -/
structure Stopped (b₀ : B) (s : Ring B) (es : List Event) : Prop where
  phase : s.phase=.stopped
  behind : ∀ tag, commitsOf tag (commits es) <+: commitsOf tag (runServerLoop b₀ (fetches es)).1
  sound : ∀ tag, tagState tag es≠.broken
  stateFetched : s.workerAlive=true → ∀ w∈s.pending, tagState w.tag es=.fetched

def Sound (b₀ : B) (s : Ring B) (es : List Event) : Prop :=
  (∃ ps cs, Live b₀ s es ps cs) ∨ Stopped b₀ s es

variable {b₀ : B} {s : Ring B} {es : List Event} {ps : List Fetch} {cs : List Commit}

section
variable (h : Live b₀ s es ps cs)
include h

lemma Live.sound (tag : UInt16) : tagState tag es≠.broken := by
  by_cases hp : tag∈s.pending.map IoWork.tag
  · obtain ⟨w,hw,rfl⟩ := List.mem_map.mp hp
    simp [h.stateFetched w hw]
  · by_cases hrep : tag∈s.replies.map WorkerReply.tag
    · obtain ⟨r,hr,rfl⟩ := List.mem_map.mp hrep
      simp [h.stateServed r hr]
    · simp [h.stateIdle tag hp hrep]

lemma Live.behind (tag : UInt16) :
    commitsOf tag (commits es) <+: commitsOf tag (runServerLoop b₀ (fetches es)).1 := by
  rw [h.ahead,List.append_assoc]
  exact List.prefix_append _ _

lemma Live.stop {s' : Ring B} (hphase : s'.phase=.stopped)
    (hpending : s'.pending=s.pending) : Stopped b₀ s' es :=
  ⟨hphase,h.behind,h.sound,fun _ w hw => h.stateFetched w (hpending ▸ hw)⟩

end

lemma live_init (queueDepth : UInt16) (bufSize : ℕ) (b₀ : B) :
    Live b₀ (init queueDepth bufSize b₀) [] [] [] where
  pending := .nil
  replies := .nil
  fits := by simp
  ahead := by simp [commits,fetches,runServerLoop,commitsOf]
  backend := rfl
  nonneg := by simp [fetches]
  once tag := by
    simp only [load,init,todo,Ring.pending,Option.toList_none,List.append_nil,List.map_nil,
      List.count_nil,Nat.add_zero]
    exact Bool.toNat_le _
  stateFetched := by simp [Ring.pending,init]
  stateServed := by simp [init]
  stateIdle := by simp [tagState]

lemma Live.not_in_channels (h : Live b₀ s es ps cs) (tag : UInt16)
    (hload : s.armed tag=true ∨ tag∈s.completions.map UblkCompletion.tag ∨ tag∈s.todo.map UblkCompletion.tag) :
    tag∉s.pending.map IoWork.tag ∧ tag∉s.replies.map WorkerReply.tag := by
  have hone := h.once tag
  unfold load at hone
  rw [←List.count_eq_zero,←List.count_eq_zero]
  obtain ha | hc | hc := hload
  · rw [ha,Bool.toNat_true] at hone
    omega
  · have := List.count_pos_iff.mpr hc
    omega
  · have := List.count_pos_iff.mpr hc
    omega

lemma matches_congr {buffers buffers' : UInt16 → List UInt8} {rs : List WorkerReply}
    (h : List.Forall₂ (Matches buffers) rs cs)
    (hsame : ∀ r∈rs, buffers' r.tag = buffers r.tag) : List.Forall₂ (Matches buffers') rs cs := by
  induction h with
  | nil => exact .nil
  | @cons r c rs cs hm _ ih =>
    refine .cons ?_ (ih fun r' hr' => hsame r' (List.mem_cons_of_mem r hr'))
    unfold Matches
    rw [hsame r List.mem_cons_self]
    exact hm

lemma matches_tags {buffers : UInt16 → List UInt8} {rs : List WorkerReply}
    (h : List.Forall₂ (Matches buffers) rs cs) : cs.map Commit.tag = rs.map WorkerReply.tag := by
  induction h with
  | nil => rfl
  | cons hm _ ih => simp [hm.1,ih]

lemma workOf_tags {ws : List IoWork} (h : List.Forall₂ (fun w f => workOf f=some w) ws ps) :
    ps.map Fetch.tag = ws.map IoWork.tag := by
  induction h with
  | nil => rfl
  | cons hw _ ih => simp [tag_of_workOf hw,ih]

lemma runServerLoop_tags (h : ∀ f∈ps, 0≤f.result) (b : B) :
    (runServerLoop b ps).1.map Commit.tag = ps.map Fetch.tag := by
  induction ps generalizing b with
  | nil => rfl
  | cons f ps ih =>
    rw [runServerLoop_cons (h f List.mem_cons_self)]
    simp [ih fun g hg => h g (List.mem_cons_of_mem f hg)]

lemma Live.none_ahead (h : Live b₀ s es ps cs)
    (hp : tag∉s.pending.map IoWork.tag) (hr : tag∉s.replies.map WorkerReply.tag) :
    commitsOf tag cs=[] ∧ commitsOf tag (runServerLoop s.backend ps).1=[] := by
  constructor
  · apply commitsOf_eq_nil
    rwa [matches_tags h.replies]
  · apply commitsOf_eq_nil
    rwa [runServerLoop_tags fun f hf => (h.fits f hf).2.1,workOf_tags h.pending]

lemma Live.buffers_congr (h : Live b₀ s es ps cs) {data : List UInt8} (hp : tag∉s.pending.map IoWork.tag) :
    ∀ f∈ps, Fits f ∧ 0≤f.result ∧ Function.update s.buffers tag data f.tag=f.buffer := by
  intro f hf
  obtain ⟨hfit,hres,hbuf⟩ := h.fits f hf
  refine ⟨hfit,hres,?_⟩
  have hne : f.tag≠tag := by
    rintro rfl
    rw [←workOf_tags h.pending] at hp
    exact hp (List.mem_map_of_mem hf)
  rw [Function.update_of_ne hne,hbuf]

lemma ne_of_not_mem {α : Type} {g : α → UInt16} {xs : List α}
    (h : tag∉xs.map g) {x : α} (hx : x∈xs) : tag ≠ g x := by
  rintro rfl
  exact h (List.mem_map_of_mem hx)

lemma live_complete (h : Live b₀ s es ps cs) (tag : UInt16) (result : ℤ) (desc : IoDesc)
    (data : List UInt8) : Live b₀ (s.complete tag result desc data) es ps cs := by
  have honce : ∀ t, (s.complete tag result desc data).load t≤1 := fun t =>
    (s.load_complete tag result desc data t).trans (h.once t)
  obtain hs | ⟨harm,hs⟩ := s.complete_eq tag result desc data
  · rwa [hs]
  obtain ⟨hp,hr⟩ := h.not_in_channels tag (.inl harm)
  rw [hs] at honce ⊢
  refine ⟨h.pending,matches_congr h.replies fun r hrep => ?_,h.buffers_congr hp,h.ahead,h.backend,
    h.nonneg,honce,h.stateFetched,h.stateServed,h.stateIdle⟩
  exact Function.update_of_ne (ne_of_not_mem hr hrep).symm _ _

variable {reply : WorkerReply}

lemma holds_copyBack {tagBuf : List UInt8} (h : reply.isRead=true → 0 ≤ reply.result →
      reply.result=reply.buf.length ∧ reply.buf.length≤tagBuf.length) :
    Holds ⟨reply.tag,reply.result,copyBack reply tagBuf⟩ (readData reply) := by
  unfold readData
  by_cases hread : reply.isRead=true
  · rw [if_pos hread]
    by_cases hres : 0 ≤ reply.result
    · obtain ⟨hlen,hle⟩ := h hread hres
      refine .inr ⟨hlen,?_⟩
      simp [copyBack,hread,hlen,hle]
    · exact .inl (not_le.mp hres)
  · rw [if_neg hread]
    trivial

lemma live_commit (h : Live b₀ s es ps cs) (hreplies : s.replies = reply::rest) :
    ∃ cs', Live b₀ (s.commitReply true reply rest).1
      (es++[.committed ⟨reply.tag,reply.result,copyBack reply (s.buffers reply.tag)⟩]) ps cs' := by
  obtain ⟨hp,hr⟩ := reply_alone hreplies (h.once reply.tag)
  have hrep := h.replies
  have hserved := h.stateServed
  have hidle := h.stateIdle
  rw [hreplies] at hrep hserved hidle
  obtain ⟨c,cs',hm,hrest,rfl⟩ := List.forall₂_cons_left_iff.mp hrep
  refine ⟨cs',h.pending,matches_congr hrest fun r hmem => ?_,h.buffers_congr hp,fun t => ?_,?_,?_,
    fun t => (load_commitReply hreplies t).trans (h.once t),fun w hw => ?_,fun r hmem => ?_,
    fun t htp htr => ?_⟩
  · exact Function.update_of_ne (ne_of_not_mem hr hmem).symm _ _
  · have hahead := h.ahead t
    rw [hm.1,←List.singleton_append,commitsOf_append] at hahead
    change commitsOf t _ = _++commitsOf t cs'++commitsOf t (runServerLoop s.backend ps).1
    simpa [Event.fetch,Event.commit] using hahead
  · change _ = (runServerLoop s.backend ps).2
    simpa [Event.fetch] using h.backend
  · simpa [Event.fetch] using h.nonneg
  · rw [tagState_concat_of_ne (ne_of_not_mem hp hw).symm]
    exact h.stateFetched w hw
  · rw [tagState_concat_of_ne (ne_of_not_mem hr hmem).symm]
    exact hserved r (List.mem_cons_of_mem reply hmem)
  · by_cases heq : t=reply.tag
    · subst heq
      rw [tagState_concat]
      simp [Event.tag,hserved reply List.mem_cons_self,TagState.next,holds_copyBack hm.2]
    · change t∉rest.map WorkerReply.tag at htr
      rw [tagState_concat_of_ne heq]
      exact hidle t htp (by simpa [heq] using htr)

variable {ok : Bool} {f : Fetch} {c : UblkCompletion}

section
variable (h : Live b₀ s es ps cs)
include h

lemma live_commitReply (hreplies : s.replies = reply::rest) :
    Sound b₀ (s.commitReply ok reply rest).1 (es++(s.commitReply ok reply rest).2) := by
  cases ok with
  | false =>
    right
    rw [show (s.commitReply false reply rest).2 = [] from rfl,List.append_nil]
    exact h.stop rfl rfl
  | true =>
    have hout : (s.commitReply true reply rest).2 =
        [.committed ⟨reply.tag,reply.result,copyBack reply (s.buffers reply.tag)⟩] := by
      simp [commitReply,commitAndFetch]
    obtain ⟨cs',h'⟩ := live_commit h hreplies
    rw [hout]
    exact .inl ⟨ps,cs',h'⟩

lemma stop_fetched {s' : Ring B} {out : List Event}
    (hp : f.tag∉s.pending.map IoWork.tag) (hr : f.tag∉s.replies.map WorkerReply.tag)
    (hphase : s'.phase=.stopped) (hpending : s'.pending=s.pending)
    (hout : out = [.fetched f] ∨ 0≤f.result ∧ out = [.fetched f,.refused f.tag]) : Stopped b₀ s' (es++out) := by
  have hidle := h.stateIdle f.tag hp hr
  have hf : fetches out = [f] ∧ commits out=[] := by
    obtain rfl | ⟨-,rfl⟩ := hout <;> exact ⟨rfl,rfl⟩
  have hother : ∀ t, t≠f.tag → tagState t (es++out) = tagState t es := by
    intro t ht
    obtain rfl | ⟨-,rfl⟩ := hout
    · exact tagState_concat_of_ne ht es
    · rw [List.append_cons,tagState_concat_of_ne ht,tagState_concat_of_ne ht]
  refine ⟨hphase,fun t => ?_,fun t => ?_,fun _ w hw => ?_⟩
  · rw [commits_append,hf.2,List.append_nil,fetches_append,hf.1,
      runServerLoop_append h.nonneg,commitsOf_append]
    exact (h.behind t).trans (List.prefix_append _ _)
  · by_cases heq : t=f.tag
    · subst heq
      obtain rfl | ⟨hres,rfl⟩ := hout
      · rw [tagState_concat]
        simp only [Event.tag,hidle,TagState.next,if_true]
        split_ifs <;> simp
      · rw [List.append_cons,tagState_concat,tagState_concat]
        simp [Event.tag,hidle,TagState.next,hres.not_gt]
    · rw [hother t heq]
      exact h.sound t
  · rw [hpending] at hw
    rw [hother _ (ne_of_not_mem hp hw).symm]
    exact h.stateFetched w hw

variable {todo : List UblkCompletion}

lemma live_refused (htodo : s.todo = c::todo) (htag : f.tag=c.tag) (hp : f.tag∉s.pending.map IoWork.tag)
    (hr : f.tag∉s.replies.map WorkerReply.tag) (hres : 0≤f.result) (hnone : workOf f=none) :
    Live b₀ (s.refuse true f todo).1
      (es++[.fetched f,.refused f.tag,.committed ⟨f.tag,einval,f.buffer⟩]) ps cs := by
  obtain ⟨hcs,hps⟩ := h.none_ahead hp hr
  have hstate : ∀ t, tagState t
      (es++[.fetched f,.refused f.tag,.committed ⟨f.tag,einval,f.buffer⟩]) = tagState t es := by
    intro t
    rw [List.append_cons,List.append_cons,tagState_concat,tagState_concat,tagState_concat]
    by_cases ht : f.tag=t
    · subst ht
      simp [Event.tag,h.stateIdle f.tag hp hr,TagState.next,hres.not_gt]
    · simp [Event.tag,ht]
  have hfetch : fetches (es++[.fetched f,.refused f.tag,.committed ⟨f.tag,einval,f.buffer⟩]) =
      fetches es++[f] := by
    simp [Event.fetch]
  have hloop := runServerLoop_concat h.nonneg hres b₀
  rw [serveTag_of_refused hnone] at hloop
  refine ⟨h.pending,h.replies,h.fits,fun t => ?_,?_,fun g hg => ?_,
    fun t => (load_refuse htodo htag t).trans (h.once t),fun w hw => ?_,fun r hrep => ?_,
    fun t htp htr => ?_⟩
  · change commitsOf t _ = _++commitsOf t cs++commitsOf t (runServerLoop s.backend ps).1
    rw [hfetch,hloop,commitsOf_append,h.ahead t]
    by_cases ht : f.tag=t
    · subst ht
      simp [hcs,hps,Event.commit]
    · have hc : commitsOf t [⟨f.tag,einval,f.buffer⟩]=[] := by simp [commitsOf,ht]
      simp [Event.commit,hc]
  · change _ = (runServerLoop s.backend ps).2
    rw [hfetch,hloop,h.backend]
  · rw [hfetch] at hg
    obtain hg | hg := List.mem_append.mp hg
    · exact h.nonneg g hg
    · rwa [List.mem_singleton.mp hg]
  · rw [hstate]
    exact h.stateFetched w hw
  · rw [hstate]
    exact h.stateServed r hrep
  · rw [hstate]
    exact h.stateIdle t htp htr

lemma live_refuse (hphase : s.phase=.batch (c::todo)) (htag : f.tag=c.tag) (hbuf : s.buffers f.tag=f.buffer)
    (hres : 0≤f.result) (hnone : workOf f=none) :
    Sound b₀ (s.refuse ok f todo).1 (es++(s.refuse ok f todo).2) := by
  have htodo : s.todo = c::todo := by simp [Ring.todo,hphase]
  obtain ⟨hp,hr⟩ := h.not_in_channels f.tag (.inr (.inr (by simp [htodo,htag])))
  cases ok with
  | false => exact .inr (stop_fetched h hp hr rfl rfl (.inr ⟨hres,rfl⟩))
  | true =>
    have hout : (s.refuse true f todo).2 =
        [.fetched f,.refused f.tag,.committed ⟨f.tag,einval,f.buffer⟩] := by
      simp [refuse,commitAndFetch,hbuf]
    rw [hout]
    exact .inl ⟨ps,cs,live_refused h htodo htag hp hr hres hnone⟩

lemma live_send (hphase : s.phase=.batch (c::todo)) (htag : f.tag=c.tag) (hbuf : s.buffers f.tag=f.buffer)
    (hres : 0≤f.result) (hw : workOf f=some w) (hfit : Fits f) :
    Live b₀ (s.send w todo) (es++[.fetched f]) (ps++[f]) cs := by
  have htodo : s.todo = c::todo := by simp [Ring.todo,hphase]
  have hwtag := tag_of_workOf hw
  obtain ⟨hp,hr⟩ := h.not_in_channels f.tag (.inr (.inr (by simp [htodo,htag])))
  have hfetch : fetches (es++[.fetched f]) = fetches es++[f] := by simp [Event.fetch]
  have hloop₀ := runServerLoop_concat h.nonneg hres b₀
  have hloop := runServerLoop_concat (fun g hg => (h.fits g hg).2.1) hres s.backend
  refine ⟨?_,h.replies,fun g hg => ?_,fun t => ?_,?_,fun g hg => ?_,
    fun t => (load_send htodo (hwtag.trans htag) t).trans (h.once t),fun v hv => ?_,
    fun r hrep => ?_,fun t htp htr => ?_⟩
  · rw [pending_send]
    exact List.rel_append h.pending (.cons hw .nil)
  · obtain hg | hg := List.mem_append.mp hg
    · exact h.fits g hg
    · rw [List.mem_singleton.mp hg]
      exact ⟨hfit,hres,hbuf⟩
  · change commitsOf t _ = _++commitsOf t cs++commitsOf t (runServerLoop s.backend (ps++[f])).1
    rw [hfetch,hloop₀,hloop,h.backend,commitsOf_append,commitsOf_append,h.ahead t]
    simp [Event.commit]
  · change _ = (runServerLoop s.backend (ps++[f])).2
    rw [hfetch,hloop₀,hloop,h.backend]
  · rw [hfetch] at hg
    obtain hg | hg := List.mem_append.mp hg
    · exact h.nonneg g hg
    · rwa [List.mem_singleton.mp hg]
  · rw [pending_send] at hv
    obtain hv | hv := List.mem_append.mp hv
    · rw [tagState_concat_of_ne (ne_of_not_mem hp hv).symm]
      exact h.stateFetched v hv
    · rw [List.mem_singleton.mp hv,hwtag,tagState_concat]
      simp [Event.tag,h.stateIdle f.tag hp hr,TagState.next,hres.not_gt]
  · rw [tagState_concat_of_ne (ne_of_not_mem hr hrep).symm]
    exact h.stateServed r hrep
  · simp only [pending_send,List.map_append,List.map_cons,List.map_nil,List.mem_append,
      List.mem_singleton,not_or,hwtag] at htp
    rw [tagState_concat_of_ne htp.2]
    exact h.stateIdle t htp.1 htr

lemma live_batch (htodo : s.todo=[]) :
    Live b₀ {s with completions := [], phase := .batch s.completions} es ps cs :=
  ⟨h.pending,h.replies,h.fits,h.ahead,h.backend,h.nonneg,
    fun t => (load_batch htodo t).trans (h.once t),h.stateFetched,h.stateServed,h.stateIdle⟩

lemma live_loop : Live b₀ {s with phase := .loop} es ps cs :=
  ⟨h.pending,h.replies,h.fits,h.ahead,h.backend,h.nonneg,fun t => (s.load_loop t).trans (h.once t),
    h.stateFetched,h.stateServed,h.stateIdle⟩

lemma live_handleCompletion (hphase : s.phase=.batch (c::todo))
    (hfits : ∀ f∈fetches (s.handleCompletion ok c todo).2, Fits f) :
    Sound b₀ (s.handleCompletion ok c todo).1 (es++(s.handleCompletion ok c todo).2) := by
  have htodo : s.todo = c::todo := by simp [Ring.todo,hphase]
  obtain ⟨hp,hr⟩ := h.not_in_channels c.tag (.inr (.inr (by simp [htodo])))
  unfold handleCompletion at hfits ⊢
  by_cases habort : c.result=ublkIoResAbort
  · rw [if_pos habort]
    exact .inr (stop_fetched h hp hr rfl rfl (.inl rfl))
  by_cases hneg : c.result<0
  · rw [if_neg habort,if_pos hneg]
    exact .inr (stop_fetched h hp hr rfl rfl (.inl rfl))
  rw [if_neg habort,if_neg hneg] at hfits ⊢
  have hres : 0 ≤ c.result := not_lt.mp hneg
  generalize hf : (⟨c.tag,c.result,s.descs c.tag,s.buffers c.tag⟩ : Fetch) = f at hfits ⊢
  have htag : f.tag=c.tag := by rw [←hf]
  have hbuf : s.buffers f.tag=f.buffer := by rw [←hf]
  have hfres : 0≤f.result := by rwa [←hf]
  cases hw : workOf f with
  | none =>
    obtain ⟨pool,hd⟩ := s.dispatchRequest_refused ok todo hw
    rw [hd]
    exact live_refuse (s := {s with bufPool := pool})
      ⟨h.pending,h.replies,h.fits,h.ahead,h.backend,h.nonneg,h.once,h.stateFetched,h.stateServed,
        h.stateIdle⟩ hphase htag hbuf hfres hw
  | some w =>
    rw [s.dispatchRequest_sent ok todo hw] at hfits ⊢
    by_cases hdead : s.workerAlive=false
    · rw [if_pos hdead]
      exact .inr (stop_fetched h (htag ▸ hp) (htag ▸ hr) rfl rfl (.inl rfl))
    rw [if_neg hdead] at hfits ⊢
    by_cases hroom : s.work.length < ringChanCap
    · rw [if_pos hroom] at hfits ⊢
      have hfit : Fits f := hfits f (by simp [Event.fetch])
      exact .inl ⟨_,_,live_send h hphase htag hbuf hfres hw hfit⟩
    · rw [if_neg hroom]
      exact .inl ⟨ps,cs,by simpa using h⟩

lemma live_owner (hfits : ∀ f∈fetches (s.owner ok).2, Fits f) :
    Sound b₀ (s.owner ok).1 (es++(s.owner ok).2) := by
  obtain ho | ho | ho | ⟨reply,rest,hrep,ho⟩ | ⟨htodo,ho⟩ | ⟨c,todo,hphase,ho⟩ := s.owner_cases ok <;>
    rw [ho] at hfits ⊢
  · exact .inl ⟨ps,cs,by simpa using h⟩
  · rw [List.append_nil]
    exact .inr (h.stop rfl rfl)
  · rw [List.append_nil]
    exact .inl ⟨ps,cs,live_loop h⟩
  · exact live_commitReply h hrep
  · rw [List.append_nil]
    exact .inl ⟨ps,cs,live_batch h htodo⟩
  · exact live_handleCompletion h hphase hfits

end

lemma live_serve [AtomicBackend B] (h : Live b₀ s es ps cs) (hhand : s.hand=some w) :
    ∃ ps' cs', Live b₀ { s with
        hand := none
        backend := (serveWork s.backend w).2
        replies := s.replies++[(serveWork s.backend w).1]}
      (es++[.served (serveWork s.backend w).1.tag (serveWork s.backend w).1.result
        (readData (serveWork s.backend w).1)]) ps' cs' := by
  have hpending : s.pending = w::s.work := by simp [Ring.pending,hhand]
  have hpend := h.pending
  have hfetched := h.stateFetched
  have hidle := h.stateIdle
  rw [hpending] at hpend hfetched hidle
  obtain ⟨f,ps',hwf,hrest,rfl⟩ := List.forall₂_cons_left_iff.mp hpend
  obtain ⟨hfit,hres,hbuf⟩ := h.fits f List.mem_cons_self
  obtain ⟨hserve,hdata⟩ := serveTag_of_work hwf hfit s.backend
  have hwtag := tag_of_workOf hwf
  have hrtag : (serveWork s.backend w).1.tag=w.tag := rfl
  generalize (serveWork s.backend w).1 = reply at hserve hdata hrtag ⊢
  generalize (serveWork s.backend w).2 = b' at hserve ⊢
  obtain ⟨hp,hr⟩ := work_alone hpending (h.once w.tag)
  rw [←hrtag] at hp hr
  have hself : tagState reply.tag (es++[.served reply.tag reply.result (readData reply)]) =
      .served reply.result (readData reply) := by
    have hw := hfetched w List.mem_cons_self
    rw [←hrtag] at hw
    rw [tagState_concat]
    simp [Event.tag,hw,TagState.next]
  have hloop : runServerLoop s.backend (f::ps') =
      (⟨f.tag,reply.result,copyBack reply f.buffer⟩::(runServerLoop b' ps').1,
        (runServerLoop b' ps').2) := by
    rw [runServerLoop_cons hres,hserve]
  refine ⟨ps',cs++[⟨f.tag,reply.result,copyBack reply f.buffer⟩],?_,?_,fun g hg => ?_,fun t => ?_,
    ?_,?_,fun t => (load_serve hhand hrtag b' t).trans (h.once t),fun v hv => ?_,fun r hrep => ?_,
    fun t htp htr => ?_⟩
  · simpa [Ring.pending] using hrest
  · refine List.rel_append h.replies (.cons ⟨?_,?_⟩ .nil)
    · rw [hrtag,hwtag,hbuf]
    · rw [hrtag,hwtag,hbuf]
      exact hdata
  · exact h.fits g (List.mem_cons_of_mem f hg)
  · have := h.ahead t
    rw [hloop,←List.singleton_append,commitsOf_append] at this
    simpa [Event.fetch,Event.commit] using this
  · have := h.backend
    rw [hloop] at this
    simpa [Event.fetch] using this
  · simpa [Event.fetch] using h.nonneg
  · change v∈s.work at hv
    rw [tagState_concat_of_ne (ne_of_not_mem hp hv).symm]
    exact hfetched v (List.mem_cons_of_mem w hv)
  · obtain hrep | hrep := List.mem_append.mp hrep
    · rw [tagState_concat_of_ne (ne_of_not_mem hr hrep).symm]
      exact h.stateServed r hrep
    · rw [List.mem_singleton.mp hrep,hself]
  · change t∉s.work.map IoWork.tag at htp
    change t∉(s.replies++[reply]).map WorkerReply.tag at htr
    simp only [List.map_append,List.map_cons,List.map_nil,List.mem_append,List.mem_singleton,
      not_or] at htr
    rw [tagState_concat_of_ne htr.2]
    exact hidle t (by simp [←hrtag,htr.2,htp]) htr.1

lemma live_worker [AtomicBackend B] (h : Live b₀ s es ps cs) : Sound b₀ s.worker.1 (es++s.worker.2) := by
  have same : Sound b₀ s (es++[]) := .inl ⟨ps,cs,by simpa using h⟩
  unfold worker
  by_cases hdead : s.workerAlive=false
  · rw [if_pos hdead]
    exact same
  rw [if_neg hdead]
  cases hhand : s.hand with
  | none =>
    cases hwork : s.work with
    | nil => exact same
    | cons w ws =>
      have hpending : s.pending = w::ws := by simp [Ring.pending,hhand,hwork]
      obtain ⟨h₁,h₂,h₃,h₄,h₅,h₆,h₇,h₈,h₉,h₁₀⟩ := h
      unfold load at h₇
      rw [hpending] at h₁ h₇ h₈ h₁₀
      refine .inl ⟨ps,cs,?_⟩
      rw [List.append_nil]
      exact ⟨h₁,h₂,h₃,h₄,h₅,h₆,h₇,h₈,h₉,h₁₀⟩
  | some w =>
    by_cases hstop : s.phase=.stopped
    · simp only [if_pos hstop]
      refine .inr ⟨hstop,fun t => ?_,fun t => ?_,fun hw => by cases hw⟩
      · simpa [Event.fetch,Event.commit] using h.behind t
      · have hw := h.stateFetched w (by simp [Ring.pending,hhand])
        rw [tagState_concat]
        split_ifs with ht
        · change w.tag = t at ht
          rw [←ht,hw]
          simp [TagState.next]
        · exact h.sound t
    · simp only [if_neg hstop]
      exact .inl (live_serve h hhand)

lemma stopped_worker (h : Stopped b₀ s es) : Stopped b₀ s.worker.1 (es++s.worker.2) := by
  unfold worker
  by_cases hdead : s.workerAlive=false
  · rw [if_pos hdead,List.append_nil]
    exact h
  rw [if_neg hdead]
  have hfetched := h.stateFetched (by simpa using hdead)
  cases hhand : s.hand with
  | none =>
    cases hwork : s.work with
    | nil => simpa using h
    | cons w ws =>
      have hpending : s.pending = w::ws := by simp [Ring.pending,hhand,hwork]
      rw [hpending] at hfetched
      rw [List.append_nil]
      exact ⟨h.phase,h.behind,h.sound,fun _ => hfetched⟩
  | some w =>
    simp only [h.phase,if_true]
    refine ⟨rfl,fun t => ?_,fun t => ?_,fun hw => by cases hw⟩
    · simpa [Event.fetch,Event.commit] using h.behind t
    · rw [tagState_concat]
      split_ifs with ht
      · change w.tag = t at ht
        rw [←ht,hfetched w (by simp [Ring.pending,hhand])]
        simp [TagState.next]
      · exact h.sound t

lemma sound_act [AtomicBackend B] (h : Sound b₀ s es) (a : Action)
    (hfits : ∀ f∈fetches (s.act a).2, Fits f) : Sound b₀ (s.act a).1 (es++(s.act a).2) := by
  obtain ⟨ps,cs,h⟩ | h := h
  · cases a with
    | complete tag result desc data =>
      refine .inl ⟨ps,cs,?_⟩
      rw [act,List.append_nil]
      exact live_complete h tag result desc data
    | owner ok => exact live_owner h hfits
    | worker => exact live_worker h
    | workerDies =>
      refine .inl ⟨ps,cs,?_⟩
      rw [act,List.append_nil]
      exact ⟨h.pending,h.replies,h.fits,h.ahead,h.backend,h.nonneg,h.once,h.stateFetched,
        h.stateServed,h.stateIdle⟩
  · right
    cases a with
    | complete tag result desc data =>
      rw [act,List.append_nil]
      obtain hs | ⟨-,hs⟩ := s.complete_eq tag result desc data <;> rw [hs]
      · exact h
      · exact ⟨h.phase,h.behind,h.sound,h.stateFetched⟩
    | owner ok =>
      rw [act,owner,h.phase]
      simpa using h
    | worker => exact stopped_worker h
    | workerDies =>
      rw [act,List.append_nil]
      exact ⟨h.phase,h.behind,h.sound,fun hw => by cases hw⟩

lemma sound_run [AtomicBackend B] (h : Sound b₀ s es) (as : List Action)
    (hfits : ∀ f∈fetches (s.trace as), Fits f) : Sound b₀ (run step s as) (es++s.trace as) := by
  induction as generalizing s es with
  | nil => simpa [trace,outputs] using h
  | cons a as ih =>
    have ht : s.trace (a::as) = (s.act a).2++(s.step a).trace as := rfl
    rw [ht,fetches_append] at hfits
    have hstep := sound_act h a fun f hf => hfits f (List.mem_append_left _ hf)
    rw [run_cons,ht,←List.append_assoc]
    exact ih hstep fun f hf => hfits f (List.mem_append_right _ hf)

end
end Ring

/-- Where every request fits the buffer of its tag, the server with two threads commits each fetch
at most once and after its work was served, with the data of a read in the buffer; and each tag
sees the results and the buffers of the single thread. -/
theorem two_threads_refine_one {B : Type} [BlockBackend B] [BufferBackend B] [AtomicBackend B]
    (queueDepth : UInt16) (bufSize : ℕ) (b₀ : B) (as : List Action)
    (h : ∀ f ∈ fetches ((Ring.init queueDepth bufSize b₀).trace as), Fits f) (tag : UInt16) :
    let es := (Ring.init queueDepth bufSize b₀).trace as
    tagState tag es ≠ .broken ∧
      commitsOf tag (commits es) <+: commitsOf tag (runServerLoop b₀ (fetches es)).1 := by
  have hs := Ring.sound_run (.inl ⟨[],[],Ring.live_init queueDepth bufSize b₀⟩) as h
  rw [List.nil_append] at hs
  obtain ⟨ps,cs,hs⟩ | hs := hs
  · exact ⟨hs.sound tag,hs.behind tag⟩
  · exact ⟨hs.sound tag,hs.behind tag⟩

/-- A write and a read of the same sector, on two tags and in one batch, and a descriptor without
a request. -/
def writeThenRead : List Action :=
  [.complete 1 0 ⟨1,1,0⟩ (List.replicate 512 0xab),.complete 0 0 ⟨0,1,0⟩ (List.replicate 512 0),
    .complete 2 0 ⟨9,1,0⟩ (List.replicate 512 0),.owner true,.owner true,.owner true,.worker,
    .owner true,.worker,.owner true,.owner true,.worker,.owner true,.worker,.owner true,
    .owner true]

theorem two_threads_refine_one_writeThenRead :
    let es := (Ring.init 4 512 (RamBackend.new 1024)).trace writeThenRead
    (commits es).map (fun c => (c.tag,c.result)) = [(2,-22),(1,512),(0,512)] ∧
    ∀ tag, tagState tag es ≠ .broken ∧
      commitsOf tag (commits es) <+:
        commitsOf tag (runServerLoop (RamBackend.new 1024) (fetches es)).1 :=
  ⟨by decide +kernel,
    two_threads_refine_one 4 512 (RamBackend.new 1024) writeThenRead (by decide +kernel)⟩

/-- A request of two sectors, with a buffer of one sector for each tag. -/
def twoSectors (op : UInt32) : List Action :=
  [.complete 0 0 ⟨op,2,0⟩ (List.replicate 512 0),.owner true,.owner true,.owner true,.worker,
    .worker,.owner true]

/-- The read is committed as 1024 bytes, of which the buffer holds half, and the discard as done;
the single thread refuses both. -/
theorem two_threads_overrun :
    (let es := (Ring.init 4 512 (RamBackend.new 1024)).trace (twoSectors 0)
     (commits es).map (fun c => (c.tag,c.result,c.buffer.length)) = [(0,1024,512)] ∧
     tagState 0 es = .broken ∧
     (runServerLoop (RamBackend.new 1024) (fetches es)).1.map (fun c => (c.tag,c.result)) =
       [(0,-22)]) ∧
    (let es := (Ring.init 4 512 (RamBackend.new 1024)).trace (twoSectors 3)
     (commits es).map (fun c => (c.tag,c.result)) = [(0,0)] ∧
     (runServerLoop (RamBackend.new 1024) (fetches es)).1.map (fun c => (c.tag,c.result)) =
       [(0,-22)]) := by
  decide +kernel

end RamShared.Ublk

import RamShared.Ublk.Request
import RamShared.Lib.Run

/-! The ublk queue server with two threads: the owner of the ring, the worker that owns the
backend, and the two channels between them. The kernel completes the fetches that are armed, in
any order and at any time, and every interleaving of the three is a list of actions. -/
namespace RamShared.Ublk
open Lib Block Nbd

def ublkIoResAbort : ℤ := -19
def ringChanCap : ℕ := 64

structure UblkCompletion where
  tag : UInt16
  result : ℤ
  deriving DecidableEq, Repr

structure IoWork where
  tag : UInt16
  req : Request
  payload : List UInt8
  deriving DecidableEq, Repr

structure WorkerReply where
  tag : UInt16
  result : ℤ
  buf : List UInt8
  isRead : Bool
  deriving DecidableEq, Repr

/-- A completion as the server handles it, with the descriptor and the buffer of its tag. -/
structure Fetch where
  tag : UInt16
  result : ℤ
  desc : IoDesc
  buffer : List UInt8
  deriving DecidableEq, Repr

/-- COMMIT_AND_FETCH: the result, and what the buffer of the tag holds. -/
structure Commit where
  tag : UInt16
  result : ℤ
  buffer : List UInt8
  deriving DecidableEq, Repr

/-- Where the owner of the ring stands in its loop. -/
inductive Phase
  | loop
  | drain
  | batch (todo : List UblkCompletion)
  | stopped
  deriving DecidableEq, Repr

structure Ring (B : Type) where
  armed : UInt16 → Bool
  completions : List UblkCompletion
  descs : UInt16 → IoDesc
  buffers : UInt16 → List UInt8
  phase : Phase
  inFlight : ℕ
  bufPool : List (List UInt8)
  work : List IoWork
  replies : List WorkerReply
  hand : Option IoWork
  workerAlive : Bool
  backend : B

/-- What a run shows: completions handled, requests refused without any work, work served (with
the data of a read), and commits. -/
inductive Event
  | fetched (f : Fetch)
  | refused (tag : UInt16)
  | served (tag : UInt16) (result : ℤ) (data : Option (List UInt8))
  | committed (c : Commit)
  deriving DecidableEq, Repr

/-- `complete`: the kernel posts a completion, after writing descriptor and buffer of the tag.
`owner`: the owner of the ring takes a step in which its ring calls succeed or fail. `worker`: the
worker takes a step. `workerDies`: its thread ends. -/
inductive Action
  | complete (tag : UInt16) (result : ℤ) (desc : IoDesc) (data : List UInt8)
  | owner (ok : Bool)
  | worker
  | workerDies
  deriving DecidableEq, Repr

def resize (buf : List UInt8) (len : ℕ) : List UInt8 :=
  buf.take len++List.replicate (len-buf.length) 0

namespace Ring
section
variable {B : Type}

def init (queueDepth : UInt16) (bufSize : ℕ) (backend : B) : Ring B where
  armed tag := decide (tag<queueDepth)
  completions := []
  descs _ := ⟨0,0,0⟩
  buffers _ := List.replicate bufSize 0
  phase := .loop
  inFlight := 0
  bufPool := List.replicate queueDepth.toNat (List.replicate bufSize 0)
  work := []
  replies := []
  hand := none
  workerAlive := true
  backend := backend

variable (s : Ring B)

/-- A fetch that is armed is completed once, and the kernel writes within the buffer of its tag. -/
def complete (tag : UInt16) (result : ℤ) (desc : IoDesc) (data : List UInt8) : Ring B :=
  if s.armed tag=true ∧ data.length = (s.buffers tag).length then
    { s with
      armed := Function.update s.armed tag false
      descs := Function.update s.descs tag desc
      buffers := Function.update s.buffers tag data
      completions := s.completions++[⟨tag,result⟩]}
  else s

variable (ok : Bool)

/-- `commit_and_fetch`, and where the owner goes on; a failed call ends its loop. -/
def commitAndFetch (tag : UInt16) (result : ℤ) (next : Phase) : Ring B × List Event :=
  if ok then
    ({s with armed := Function.update s.armed tag true, phase := next},
      [.committed ⟨tag,result,s.buffers tag⟩])
  else ({s with phase := .stopped},[])

/-- The buffer of the tag once the data of a read are copied to it. -/
def copyBack (reply : WorkerReply) (tagBuf : List UInt8) : List UInt8 :=
  if reply.isRead=true ∧ 0 ≤ reply.result then
    let n := min (min reply.result.toNat reply.buf.length) tagBuf.length
    reply.buf.take n++tagBuf.drop n
  else tagBuf

def commitReply (reply : WorkerReply) (rest : List WorkerReply) : Ring B × List Event :=
  let s := {s with replies := rest, inFlight := s.inFlight-1}
  let s := { s with
    buffers := Function.update s.buffers reply.tag (copyBack reply (s.buffers reply.tag))}
  let (s,events) := s.commitAndFetch ok reply.tag reply.result .drain
  ({s with bufPool := if ok then []::s.bufPool else s.bufPool},events)

def refuse (f : Fetch) (todo : List UblkCompletion) : Ring B × List Event :=
  let (s,events) := s.commitAndFetch ok f.tag einval (.batch todo)
  (s,.fetched f::.refused f.tag::events)

/-- Hands the work over with the buffer that was taken from the pool. -/
def send (work : IoWork) (todo : List UblkCompletion) : Ring B :=
  { s with
    bufPool := s.bufPool.tail
    work := s.work++[work]
    inFlight := s.inFlight+1
    phase := .batch todo}

def dispatchRequest (f : Fetch) (todo : List UblkCompletion) : Ring B × List Event :=
  match f.desc.toBlockRequest f.tag with
  | .error _ => s.refuse ok f todo
  | .ok req =>
    let len := req.len.toNat
    -- The buffer that is taken from the pool is cleared first.
    let buf := resize [] len
    let tagBuf := f.buffer
    if req.cmd=.write ∧ tagBuf.length<len then
      {s with bufPool := buf::s.bufPool.tail}.refuse ok f todo
    else
      let payload := if req.cmd=.write then tagBuf.take len else buf
      if s.workerAlive=false then ({s with phase := .stopped},[.fetched f])
      else if s.work.length < ringChanCap then
        (s.send ⟨f.tag,req,payload⟩ todo,[.fetched f])
      else (s,[])

def handleCompletion (c : UblkCompletion) (todo : List UblkCompletion) : Ring B × List Event :=
  let f : Fetch := ⟨c.tag,c.result,s.descs c.tag,s.buffers c.tag⟩
  if c.result=ublkIoResAbort then ({s with phase := .stopped},[.fetched f])
  else if c.result<0 then ({s with phase := .stopped},[.fetched f])
  else s.dispatchRequest ok f todo

/-- A step of `run_ring_owner`. Waiting for a reply or a completion that is not there, or for
room in the channel, is a step that changes nothing. -/
def owner : Ring B × List Event :=
  match s.phase with
  | .loop =>
    if 0<s.inFlight then
      match s.replies with
      | reply::rest => s.commitReply ok reply rest
      | [] => if s.workerAlive then (s,[]) else ({s with phase := .stopped},[])
    else if ok=false then ({s with phase := .stopped},[])
    else
      match s.completions with
      | [] => (s,[])
      | cs => ({s with completions := [], phase := .batch cs},[])
  | .drain =>
    match s.replies with
    | reply::rest => s.commitReply ok reply rest
    | [] => ({s with phase := .loop},[])
  | .batch [] => ({s with phase := .loop},[])
  | .batch (c::todo) => s.handleCompletion ok c todo
  | .stopped => (s,[])

end

section
variable {B : Type} [BlockBackend B] [BufferBackend B]

def serveWork (backend : B) (work : IoWork) : WorkerReply × B :=
  let (result,buf,backend) := serveRequest work.req backend work.payload
  (⟨work.tag,result,buf,decide (work.req.cmd=.read)⟩,backend)

/-- What the data of a reply are, if it answers a read. -/
def readData (reply : WorkerReply) : Option (List UInt8) :=
  if reply.isRead then some reply.buf else none

variable (s : Ring B)

/-- The worker receives work, or serves what it holds and replies; it ends when nobody takes the
reply. -/
def worker : Ring B × List Event :=
  if s.workerAlive=false then (s,[])
  else
    match s.hand with
    | none =>
      match s.work with
      | [] => (s,[])
      | w::ws => ({s with hand := some w, work := ws},[])
    | some w =>
      let (reply,backend) := serveWork s.backend w
      let s := {s with hand := none, backend := backend}
      let event := Event.served reply.tag reply.result (readData reply)
      if s.phase=.stopped then ({s with workerAlive := false},[event])
      else ({s with replies := s.replies++[reply]},[event])

def act : Action → Ring B × List Event
  | .complete tag result desc data => (s.complete tag result desc data,[])
  | .owner ok => s.owner ok
  | .worker => s.worker
  | .workerDies => ({s with workerAlive := false},[])

def step (a : Action) : Ring B := (s.act a).1

def trace (as : List Action) : List Event :=
  outputs step (fun s a => (s.act a).2) s as

end
end Ring

section
variable {B : Type} [BlockBackend B] [BufferBackend B]

def serveTag (backend : B) (f : Fetch) : ℤ × List UInt8 × B :=
  match f.desc.toBlockRequest f.tag with
  | .ok req => serveRequest req backend f.buffer
  | .error _ => (einval,f.buffer,backend)

/-- `run_server_loop` on the completions it drains: the commits that it makes, and the backend
when it stops. -/
def runServerLoop (backend : B) : List Fetch → List Commit × B
  | [] => ([],backend)
  | f::fs =>
    if f.result=ublkIoResAbort then ([],backend)
    else if f.result<0 then ([],backend)
    else
      let (result,buffer,backend) := serveTag backend f
      let (commits,backend) := runServerLoop backend fs
      (⟨f.tag,result,buffer⟩::commits,backend)

end

end RamShared.Ublk

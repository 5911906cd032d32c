import RamShared.Broker.Hygiene
import RamShared.Nbd.SliceView

/-! The core together with its honest agents and with the worker that does the zeroing. Orders
travel to the worker first in, first out; each is carried out chunk by chunk and answered once,
and the answers arrive in any order. -/
namespace RamShared.Broker
open Lib Block Nbd

/-- A `ZeroExport` job. The slice is the one that the reader of its `done` channel reports. -/
structure ZeroExport where
  slice : SliceId
  base : ℕ
  len : ℕ
  deriving DecidableEq, Repr

/-- A `zero_window` in progress: everything before `off` is written. -/
structure ZeroRun extends ZeroExport where
  off : ℕ
  deriving DecidableEq, Repr

/-- `swapOffs` are the `SwapOff`s that agents have received and not yet answered with success,
`replies` the answers of the worker on their way to the core. -/
structure System (F D B : Type) where
  core : BrokerCore F D
  swapOffs : List (ℕ × SliceId)
  jobs : List ZeroExport
  running : Option ZeroRun
  replies : List (SliceId × Bool)
  backend : B

/-- A step of the system. The link decides which outbound actions of the core get through: the
channel to a session and the one to the worker may be full. -/
inductive SystemStep (F : Type)
  | core (i : Input F) (link : ℕ → Bool)
  | start
  | work

section
variable {F D : Type}

def passed (link : ℕ → Bool) (out : List (Outbound F D)) : List (Outbound F D) :=
  (out.zipIdx.filter fun x => link x.2).map Prod.fst

/-- The `SwapOff`s among some outbound actions, with the sessions that get them. -/
def sentSwapOffs (out : List (Outbound F D)) : List (ℕ × SliceId) :=
  out.filterMap fun
    | .toSession sid (.swapOff s) => some (sid,s)
    | _ => none

def sentJobs (out : List (Outbound F D)) : List ZeroExport :=
  out.filterMap fun
    | .zeroSlice s base len => some ⟨s,base,len⟩
    | _ => none

end

namespace System
variable {F D B : Type} [FloatOps F] [FloatOps D] [DebugMsg F] [BlockBackend B]

def new (m : SliceMap) (cfg : BrokerCoreConfig F D) (backend : B) : System F D B :=
  ⟨.new m cfg,[],[],none,[],backend⟩

variable (σ : System F D B)

def consume : CoreEvent F → System F D B
  | .msg sid (.swapOffDone s true _) => {σ with swapOffs := σ.swapOffs.erase (sid,s)}
  | .zeroDone s ok => {σ with replies := σ.replies.erase (s,ok)}
  | _ => σ

def onCore (i : Input F) (link : ℕ → Bool) : System F D B :=
  let (core,out) := σ.core.handle i
  let σ := σ.consume i.event
  { σ with
    core := core
    swapOffs := σ.swapOffs++sentSwapOffs (passed link out)
    jobs := σ.jobs++sentJobs (passed link out)}

def onStart : System F D B :=
  match σ.jobs with
  | [] => σ
  | job::jobs => {σ with jobs := jobs, running := some {job with off := 0}}

def onWork : System F D B :=
  match σ.running with
  | none => σ
  | some r =>
    if r.off < r.len then
      let (result,backend) := writeZeros r.base r.len r.off σ.backend
      let σ := {σ with backend := backend}
      match result with
      | .error _ => {σ with running := none, replies := σ.replies++[(r.slice,false)]}
      | .ok next => {σ with running := some {r with off := next}}
    else {σ with running := none, replies := σ.replies++[(r.slice,true)]}

def step : SystemStep F → System F D B
  | .core i link => σ.onCore i link
  | .start => σ.onStart
  | .work => σ.onWork

/-- There is no demotion. A `SwapOffDone` with success answers a `SwapOff` that was received, a
`ZeroDone` is an answer of the worker, and the worker does one thing at a time. -/
def Enabled : SystemStep F → Prop
  | .core i _ =>
    match i.event with
    | .demote _ => False
    | .msg sid (.swapOffDone s true _) => (sid,s)∈σ.swapOffs
    | .zeroDone s ok => (s,ok)∈σ.replies
    | _ => True
  | .start => σ.running=none ∧ σ.jobs≠[]
  | .work => σ.running.isSome=true

def held : List SliceId := σ.swapOffs.map Prod.snd

/-- The slices with an order in the queue, in progress, or answered and not yet confirmed. -/
def ordered : List SliceId :=
  σ.jobs.map ZeroExport.slice++σ.running.toList.map (fun r => r.slice) ++
    σ.replies.map Prod.fst

/-- A tick repeats no order that is still outstanding. -/
def Unhurried : SystemStep F → Prop
  | .core i _ =>
    match i.event with
    | .tick => ∀ s∈σ.ordered, ¬σ.core.Retries s
    | _ => True
  | _ => True

omit [FloatOps F] [FloatOps D] [DebugMsg F] [BlockBackend B] in
instance decidableEnabled (a : SystemStep F) : Decidable (σ.Enabled a) := by
  rcases a with ⟨⟨e,_,_,_⟩,_⟩ | _ | _
  · rcases e with ⟨sid,m⟩ | _ | ⟨s,ok⟩ | _ | _
    · rcases m with _ | _ | _ | ⟨s,_ | _,_⟩ | _ | _ | _ | _ | _ | _ | _ | _ | _ | _ | _ | _
      case swapOffDone.true => exact inferInstanceAs (Decidable ((sid,s)∈σ.swapOffs))
      all_goals exact inferInstanceAs (Decidable True)
    · exact inferInstanceAs (Decidable True)
    · exact inferInstanceAs (Decidable ((s,ok)∈σ.replies))
    · exact inferInstanceAs (Decidable False)
    · exact inferInstanceAs (Decidable True)
  · exact inferInstanceAs (Decidable (σ.running=none ∧ σ.jobs≠[]))
  · exact inferInstanceAs (Decidable (σ.running.isSome=true))

omit [FloatOps F] [FloatOps D] [DebugMsg F] [BlockBackend B] in
instance decidableUnhurried (a : SystemStep F) : Decidable (σ.Unhurried a) := by
  rcases a with ⟨⟨e,_,_,_⟩,_⟩ | _ | _
  · cases e
    case tick => exact inferInstanceAs (Decidable (∀ s∈σ.ordered, ¬σ.core.Retries s))
    all_goals exact inferInstanceAs (Decidable True)
  all_goals exact inferInstanceAs (Decidable True)

end System
end RamShared.Broker

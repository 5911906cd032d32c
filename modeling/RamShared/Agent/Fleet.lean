import RamShared.Agent.Session
import RamShared.Broker.Handover
import RamShared.Broker.ZeroSafety

/-! The core of the broker together with its agents. Messages travel in both directions, first in,
first out on the way to an agent, and any of them may get lost. -/
namespace RamShared.Agent
open Broker Lib

/-- An agent with its configuration and the session it last opened. -/
structure Host where
  cfg : AgentConfig
  sid : ℕ
  agent : AgentState

/-- `down` are the messages on their way to the sessions, `up` the results on their way to the core,
`orders` the zeroings that are not answered, and `replies` the answers of the worker. -/
structure Fleet (F D : Type) where
  core : BrokerCore F D
  hosts : List Host
  down : List (ℕ × Msg F)
  up : List (ℕ × ExecResult)
  orders : List SliceId
  replies : List (SliceId × Bool)

inductive FleetStep (F : Type)
  | core (i : Input F) (link : ℕ → Bool)
  | zeroed (ok : Bool)
  | connect (n sid : ℕ)
  | receive (n : ℕ)
  | report (n : ℕ) (written : Bool)
  | stop (n : ℕ)
  | exec (n : ℕ) (outcome : Outcome)
  | clean (n : ℕ) (outcome : Outcome)
  | reorder (n : ℕ) (order : List (SliceId × String))
  | loseDown (k : ℕ)
  | loseUp (k : ℕ)

section
variable {F D : Type}

def SwapCommand.formats : SwapCommand → Bool
  | .mkswap _ | .swapon _ _ => true
  | _ => false

def resultOf : Msg F → Option ExecResult
  | .swapOnDone slice ok detail => some ⟨true,slice,ok,detail⟩
  | .swapOffDone slice ok detail => some ⟨false,slice,ok,detail⟩
  | _ => none

def sentMessages (out : List (Outbound F D)) : List (ℕ × Msg F) :=
  out.filterMap fun
    | .toSession sid m => some (sid,m)
    | _ => none

end

namespace Fleet
variable {F D : Type}

def new (m : SliceMap) (cfg : BrokerCoreConfig F D) (cfgs : List AgentConfig) : Fleet F D :=
  ⟨.new m cfg,cfgs.map fun cfg => ⟨cfg,0,.new⟩,[],[],[],[]⟩

variable (φ : Fleet F D)

def consume : CoreEvent F → Fleet F D
  | .msg sid m => (resultOf m).elim φ fun r => {φ with up := φ.up.erase (sid,r)}
  | .zeroDone s ok => {φ with replies := φ.replies.erase (s,ok)}
  | _ => φ

/-- A step of one agent; what it reports is on its way to the core. -/
def onAgent (n : ℕ) (x : AgentStep F) : Fleet F D :=
  match φ.hosts[n]? with
  | none => φ
  | some h =>
    { φ with
      hosts := φ.hosts.set n {h with agent := h.agent.step h.cfg x}
      up := φ.up++((h.agent.reported x).filterMap resultOf).map fun r => (h.sid,r)}

def onConnect (n sid : ℕ) : Fleet F D :=
  match φ.hosts[n]? with
  | none => φ
  | some h =>
    { φ with
      hosts := φ.hosts.set n { h with sid := sid, agent := h.agent.step h.cfg (.connect : AgentStep F)}}

def onReceive (n : ℕ) : Fleet F D :=
  match φ.hosts[n]? with
  | none => φ
  | some h =>
    match φ.down.find? fun x => x.1 = h.sid with
    | none => φ
    | some (_,m) =>
      onAgent {φ with down := φ.down.eraseP fun x => x.1=h.sid} n (.message m)

def onZeroed (ok : Bool) : Fleet F D :=
  match φ.orders with
  | [] => φ
  | s::orders => {φ with orders := orders, replies := φ.replies++[(s,ok)]}

section
variable [FloatOps F] [FloatOps D] [DebugMsg F]

/-- The core handles an event, and what it says is dispatched as far as the link lets it through. -/
def onCore (φ : Fleet F D) (i : Input F) (link : ℕ → Bool) : Fleet F D :=
  let (core,out) := φ.core.handle i
  let φ := φ.consume i.event
  { φ with
    core := core
    down := φ.down++sentMessages (passed link out)
    orders := φ.orders++zeroOrders (passed link out)}

def step (φ : Fleet F D) : FleetStep F → Fleet F D
  | .core i link => φ.onCore i link
  | .zeroed ok => φ.onZeroed ok
  | .connect n sid => φ.onConnect n sid
  | .receive n => φ.onReceive n
  | .report n written => φ.onAgent n (.report written)
  | .stop n => φ.onAgent n .stop
  | .exec n outcome => φ.onAgent n (.exec outcome)
  | .clean n outcome => φ.onAgent n (.clean outcome)
  | .reorder n order => φ.onAgent n (.reorder order)
  | .loseDown k => {φ with down := φ.down.eraseIdx k}
  | .loseUp k => {φ with up := φ.up.eraseIdx k}

end

/-- The system command that the executor, or the cleanup, of an agent runs next. -/
def executing (h : Host) : Option SwapCommand := h.agent.executor.bind fun x => x.2.head?

def cleaning (h : Host) : Option SwapCommand := h.agent.cleanup.head?.bind fun x => x.2.head?

/-- A `swapoff` succeeds only on a device that is in use as swap. -/
def Possible (h : Host) (outcome : Outcome) : Option SwapCommand → Prop
  | some (.swapoff dev) => outcome=.ok () → dev∈h.agent.devices.swapped
  | _ => True

instance decidablePossible (h : Host) (outcome : Outcome) :
    ∀ c, Decidable (Possible h outcome c)
  | some (.swapoff dev) =>
    inferInstanceAs (Decidable (outcome=.ok () → dev∈h.agent.devices.swapped))
  | some (.nbdClient _ _ _) | some (.mkswap _) | some (.swapon _ _) | some (.nbdDisconnect _) | none =>
    inferInstanceAs (Decidable True)

/-- The results that reach the core were reported by an agent, a `ZeroDone` is an answer of the
worker, and the commands of the agents behave as they do. Everything else is free. -/
def Enabled : FleetStep F → Prop
  | .core i _ =>
    match i.event with
    | .msg sid m => ∀ r∈resultOf m, (sid,r)∈φ.up
    | .zeroDone s ok => (s,ok)∈φ.replies
    | _ => True
  | .exec n outcome => ∀ h∈φ.hosts[n]?, Possible h outcome (executing h)
  | .clean n outcome => ∀ h∈φ.hosts[n]?, Possible h outcome (cleaning h)
  | _ => True

/-- Once `nbd-client` has connected a device, neither `mkswap` nor `swapon` fails on it. -/
def Tidy : FleetStep F → Prop
  | .exec n outcome => ∀ h∈φ.hosts[n]?, ∀ c∈executing h, c.formats=true → outcome=.ok ()
  | _ => True

/-- A tick repeats no order that is still outstanding. -/
def Unhurried : FleetStep F → Prop
  | .core i _ =>
    match i.event with
    | .tick => ∀ s∈φ.orders++φ.replies.map Prod.fst, ¬φ.core.Retries s
    | _ => True
  | _ => True

instance decidableEnabled : ∀ a, Decidable (φ.Enabled a)
  | .core ⟨.msg sid m,_,_,_⟩ _ => inferInstanceAs (Decidable (∀ r∈resultOf m, (sid,r)∈φ.up))
  | .core ⟨.zeroDone s ok,_,_,_⟩ _ => inferInstanceAs (Decidable ((s,ok)∈φ.replies))
  | .exec n outcome =>
    inferInstanceAs (Decidable (∀ h∈φ.hosts[n]?, Possible h outcome (executing h)))
  | .clean n outcome =>
    inferInstanceAs (Decidable (∀ h∈φ.hosts[n]?, Possible h outcome (cleaning h)))
  | .core ⟨.disconnected _,_,_,_⟩ _ | .core ⟨.demote _,_,_,_⟩ _ | .core ⟨.tick,_,_,_⟩ _ | .zeroed _
  | .connect _ _ | .receive _ | .report _ _ | .stop _ | .reorder _ _ | .loseDown _ | .loseUp _ =>
    inferInstanceAs (Decidable True)

instance decidableTidy : ∀ a, Decidable (φ.Tidy a)
  | .exec n outcome => inferInstanceAs (Decidable (∀ h∈φ.hosts[n]?, ∀ c∈executing h,
      c.formats=true → outcome=.ok ()))
  | .core _ _ | .zeroed _ | .connect _ _ | .receive _ | .report _ _ | .stop _ | .clean _ _ | .reorder _ _
  | .loseDown _ | .loseUp _ => inferInstanceAs (Decidable True)

instance decidableUnhurried : ∀ a, Decidable (φ.Unhurried a)
  | .core ⟨.tick,_,_,_⟩ _ =>
    inferInstanceAs (Decidable (∀ s∈φ.orders++φ.replies.map Prod.fst, ¬φ.core.Retries s))
  | .core ⟨.msg _ _,_,_,_⟩ _ | .core ⟨.disconnected _,_,_,_⟩ _ | .core ⟨.zeroDone _ _,_,_,_⟩ _
  | .core ⟨.demote _,_,_,_⟩ _ | .zeroed _ | .connect _ _ | .receive _ | .report _ _ | .stop _ | .exec _ _
  | .clean _ _ | .reorder _ _ | .loseDown _ | .loseUp _ => inferInstanceAs (Decidable True)

end Fleet
end RamShared.Agent

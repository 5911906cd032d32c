import RamShared.Broker.Protocol

/-! The commands with which an agent mounts and unmounts a slice, and what they leave on the host. -/
namespace RamShared.Agent
open Broker

inductive SwapCommand
  | nbdClient (endpoint : NbdEndpoint) (exportName dev : String)
  | mkswap (dev : String)
  | swapon (dev : String) (prio : Option ℤ)
  | swapoff (dev : String)
  | nbdDisconnect (dev : String)
  deriving DecidableEq, Repr

def nbdArgs (endpoint : NbdEndpoint) (exportName dev : String) : List String :=
  match endpoint with
  | .unix path => ["-N",exportName,"-unix",path,dev,"-timeout","30"]
  | .tcp host port => ["-N",exportName,host,toString port,dev,"-timeout","30"]

def swaponArgs (dev : String) (prio : Option ℤ) : List String :=
  (prio.elim [] fun p => ["-p",toString p])++[dev]

def SwapCommand.argv : SwapCommand → String × List String
  | .nbdClient endpoint exportName dev => ("nbd-client",nbdArgs endpoint exportName dev)
  | .mkswap dev => ("mkswap",[dev])
  | .swapon dev prio => ("swapon",swaponArgs dev prio)
  | .swapoff dev => ("swapoff",[dev])
  | .nbdDisconnect dev => ("nbd-client",["-d",dev])

structure IoError where
  rawOsError : Option ℕ
  text : String
  deriving DecidableEq, Repr

inductive SwapError
  | diskFull
  | permissionDenied
  | invalidSize
  | other (text : String)
  deriving DecidableEq, Repr

namespace SwapError

def fromIoErr (e : IoError) (fallback : String) : SwapError :=
  match e.rawOsError with
  | some 28 => .diskFull
  | some 13 => .permissionDenied
  | some 34 => .invalidSize
  | _ => .other fallback

def display : SwapError → String
  | .diskFull => "disk full (ENOSPC)"
  | .permissionDenied => "permission denied (EACCES)"
  | .invalidSize => "invalid size (ERANGE)"
  | .other text => text

end SwapError

abbrev Outcome := Except IoError Unit

/-- The error that a failed command ends its sequence with; a failed disconnect ends nothing. -/
def SwapCommand.failure (c : SwapCommand) (e : IoError) : Option SwapError :=
  match c with
  | .nbdDisconnect _ => none
  | _ => some (.fromIoErr e s!"{c.argv.1}: {e.text}")

/-- `attach_swap_with`: the commands in their order, up to the first that fails. -/
def attachSwap (endpoint : NbdEndpoint) (exportName dev : String) (prio : Option ℤ) : List SwapCommand :=
  [.nbdClient endpoint exportName dev,.mkswap dev,.swapon dev prio]

def detachSwap (dev : String) : List SwapCommand := [.swapoff dev,.nbdDisconnect dev]

/-- The NBD devices of the host with the exports they are connected to, and the devices in use as
swap. -/
structure Devices where
  connected : List (String × String)
  swapped : List String
  deriving DecidableEq, Repr

/-- What a command does to the devices. Whatever it answers, a disconnect disconnects. -/
def SwapCommand.apply (c : SwapCommand) (outcome : Outcome) (d : Devices) : Devices :=
  match c, outcome with
  | .nbdClient _ exportName dev, .ok _ => {d with connected := (dev,exportName)::d.connected}
  | .swapon dev _, .ok _ => {d with swapped := dev::d.swapped}
  | .swapoff dev, .ok _ => {d with swapped := d.swapped.filter (· ≠ dev)}
  | .nbdDisconnect dev, _ => {d with connected := d.connected.filter (·.1≠dev)}
  | _, _ => d

/-- The next command of a sequence has ended: the sequence goes on, or it has failed. -/
def advance (program : List SwapCommand) (outcome : Outcome) : Except SwapError (List SwapCommand) :=
  match program with
  | [] => .ok []
  | c::rest =>
    match outcome with
    | .ok _ => .ok rest
    | .error e =>
      match c.failure e with
      | none => .ok rest
      | some error => .error error

/-! The session and the executor share the channels of commands and results, which outlive a
session. -/

structure AgentConfig where
  nbdBase : String
  swapPrio : Option ℤ

def AgentConfig.dev (cfg : AgentConfig) (slice : SliceId) : String := s!"{cfg.nbdBase}{slice}"

inductive ExecCmd
  | on (slice : SliceId) (exportName : String) (endpoint : NbdEndpoint) (dev : String)
      (prio : Option ℤ)
  | off (slice : SliceId) (dev : String)
  deriving DecidableEq, Repr

namespace ExecCmd

def slice : ExecCmd → SliceId
  | .on slice _ _ _ _ => slice
  | .off slice _ => slice

def isOn : ExecCmd → Bool
  | .on .. => true
  | .off .. => false

def dev : ExecCmd → String
  | .on _ _ _ dev _ => dev
  | .off _ dev => dev

def program : ExecCmd → List SwapCommand
  | .on _ exportName endpoint dev prio => attachSwap endpoint exportName dev prio
  | .off _ dev => detachSwap dev

end ExecCmd

structure ExecResult where
  isOn : Bool
  slice : SliceId
  ok : Bool
  detail : String
  deriving DecidableEq, Repr

def ExecCmd.result (cmd : ExecCmd) : Option SwapError → ExecResult
  | none => ⟨cmd.isOn,cmd.slice,true,cmd.dev⟩
  | some e => ⟨cmd.isOn,cmd.slice,false,e.display⟩

def ExecResult.done {F : Type} (r : ExecResult) : Msg F :=
  if r.isOn then .swapOnDone r.slice r.ok r.detail else .swapOffDone r.slice r.ok r.detail

inductive Phase
  | down
  | running
  | cleaning
  deriving DecidableEq, Repr

/-- `executor` is the command in execution with the system commands it still has to run, `cleanup`
the same for the slices that an ending session releases. -/
structure AgentState where
  phase : Phase
  active : List (SliceId × String)
  commands : List ExecCmd
  executor : Option (ExecCmd × List SwapCommand)
  results : List ExecResult
  cleanup : List (SliceId × List SwapCommand)
  devices : Devices
  deriving DecidableEq, Repr

inductive AgentStep (F : Type)
  | connect
  | message (m : Msg F)
  | report (written : Bool)
  | stop
  | exec (outcome : Outcome)
  | clean (outcome : Outcome)
  | reorder (order : List (SliceId × String))

def forget (slice : SliceId) (active : List (SliceId × String)) : List (SliceId × String) :=
  active.filter fun e => e.1≠slice

namespace AgentState
variable {F : Type}

def new : AgentState := ⟨.down,[],[],none,[],[],⟨[],[]⟩⟩

def handleMsg (cfg : AgentConfig) (m : Msg F) (a : AgentState) : Bool × AgentState :=
  match m with
  | .swapOn slice exportName endpoint swapPrio =>
    let dev := cfg.dev slice
    (true,
      { a with
        active := (slice,dev)::forget slice a.active
        commands := a.commands++[.on slice exportName endpoint dev (swapPrio.or cfg.swapPrio)]})
  | .swapOff slice =>
    let dev := (a.active.lookup slice).getD (cfg.dev slice)
    (true,
      { a with
        active := forget slice a.active
        commands := a.commands++[.off slice dev]})
  | .demoteAll =>
    (true,
      { a with
        active := []
        commands := a.commands++a.active.map fun e => .off e.1 e.2})
  | .error _ => (false,a)
  | _ => (true,a)

variable (a : AgentState)

/-- The end of the loop of a session: the entries of the map are to be detached. -/
def endLoop : AgentState :=
  { a with
    phase := .cleaning
    active := []
    cleanup := a.active.map fun e => (e.1,detachSwap e.2)}

/-- The first result is taken from the channel; a failed mount and any detach leave the map. -/
def drainResult : AgentState :=
  match a.results with
  | [] => a
  | r::results =>
    { a with
      results := results
      active := if r.isOn && r.ok then a.active else forget r.slice a.active}

/-- The executor takes a command, runs the next system command of its sequence, or answers. -/
def exec (outcome : Outcome) : AgentState :=
  match a.executor with
  | none =>
    match a.commands with
    | [] => a
    | cmd::commands => {a with commands := commands, executor := some (cmd,cmd.program)}
  | some (cmd,[]) => {a with executor := none, results := a.results++[cmd.result none]}
  | some (cmd,c::rest) =>
    let a := {a with devices := c.apply outcome a.devices}
    match advance (c::rest) outcome with
    | .ok rest => {a with executor := some (cmd,rest)}
    | .error e => {a with executor := none, results := a.results++[cmd.result (some e)]}

/-- The ending session runs the next system command for the first slice that is left. -/
def clean (outcome : Outcome) : AgentState :=
  match a.cleanup with
  | [] => {a with phase := .down}
  | (_,[])::cleanup => {a with cleanup := cleanup}
  | (slice,c::rest)::cleanup =>
    let a := {a with devices := c.apply outcome a.devices}
    match advance (c::rest) outcome with
    | .ok rest => {a with cleanup := (slice,rest)::cleanup}
    | .error _ => {a with cleanup := cleanup}

/-- Each step belongs to a phase of the session; the executor runs in all of them. The map has no
order of its own, so it may be listed in another one at any time. -/
def step (cfg : AgentConfig) (a : AgentState) : AgentStep F → AgentState
  | .connect => if a.phase=.down then {a with phase := .running, active := []} else a
  | .message m =>
    if a.phase=.running then
      let (goOn,a) := a.handleMsg cfg m
      if goOn then a else a.endLoop
    else a
  | .report written =>
    if a.phase=.running then
      if written then a.drainResult else a.drainResult.endLoop
    else a
  | .stop => if a.phase=.running then a.endLoop else a
  | .exec outcome => a.exec outcome
  | .clean outcome => if a.phase=.cleaning then a.clean outcome else a
  | .reorder order => if order.Perm a.active then {a with active := order} else a

def reported : AgentStep F → List (Msg F)
  | .report true => if a.phase=.running then (a.results.head?.map ExecResult.done).toList else []
  | _ => []

end AgentState

end RamShared.Agent

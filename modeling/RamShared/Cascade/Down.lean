import RamShared.Cascade.Binding

/-! `ramshared down`: the plan of the teardown, step by step against a system that is read anew before
every effect. Each read, check and command is a call, and may be answered in any way. -/
namespace RamShared.Cascade
open Lib Broker
open Prog (perform)

inductive RuntimeFile
  | socket
  | zramDev
  | swapDev
  | lifecycleBinding
  | pid
  | capacityStatus
  | cacheStatus
  | supervisorStatus
  | cacheTargetRequest
  | reclaimRequest
  | forensicsMarker (path : String)
  deriving DecidableEq, Repr

structure Sighting where
  devT : String
  sysfsPath : String
  sysfsDevT : String
  kernelOwnerInstanceId : Option String

structure OpenDevice where
  isBlockDevice : Bool
  devT : String
  effectPath : String

inductive Call
  | readSwaps
  | fileExists (file : RuntimeFile)
  | readLifecycleBinding
  | detectLiveManagedDevices
  | currentBootId
  | daemonInstanceIdFromPid (pid : ℕ)
  | daemonInvocationId (pid : ℕ)
  | cacheStatusHasCurrentDaemonIdentity (pid : ℕ)
  | socketIdentity
  | readSealedOriginConfig
  | readNbdPathRecord
  | readBoundDeviceRecord
  | observe (path : String) (kind : ManagedDeviceKind)
  | openDevice (path : String)
  | statEffectPath (path : String)
  | statPinned (path : String)
  | run (command : String) (args : List String)
  | readPidFile
  | readComm (pid : ℕ)
  | pidfdOpen (pid : ℕ)
  | pidfdSendSignal (pid : ℕ)
  | now
  | processIsGoneOrZombie (pid : ℕ)
  | sleep (ms : ℕ)
  | removeRuntimeFile (file : RuntimeFile)

abbrev Call.Reply : Call → Type
  | .readSwaps => Except CascadeError (List SwapEntry)
  | .readLifecycleBinding => Except CascadeError LifecycleBinding
  | .detectLiveManagedDevices => Except CascadeError (List BoundDeviceIdentity)
  | .currentBootId | .daemonInvocationId _ | .readNbdPathRecord | .statEffectPath _ | .statPinned _ |
    .run _ _ => Except CascadeError String
  | .fileExists _ | .cacheStatusHasCurrentDaemonIdentity _ | .processIsGoneOrZombie _ => Bool
  | .daemonInstanceIdFromPid _ | .readComm _ => Option String
  | .readPidFile => Option ℕ
  | .socketIdentity => Except CascadeError BoundSocketIdentity
  | .readSealedOriginConfig => Except CascadeError BoundOriginIdentity
  | .readBoundDeviceRecord => Except CascadeError BoundDeviceIdentity
  | .observe _ _ => Except CascadeError Sighting
  | .openDevice _ => Except CascadeError OpenDevice
  | .pidfdOpen _ | .pidfdSendSignal _ => Except CascadeError Unit
  | .now => ℕ
  | .sleep _ | .removeRuntimeFile _ => Unit

abbrev Program := Prog Call Call.Reply CascadeError

abbrev Trace := Prog.Trace Call Call.Reply

def demand {α : Type} (x : Except CascadeError α) : Program α := Prog.ofExcept x

def refuseIf (c : Bool) (reason : String) : Program Unit :=
  if c then .fail (.precondition reason) else .ok ()

def readSwaps : Program (List SwapEntry) := do demand (← perform Call.readSwaps)

def detectLiveManagedDevices : Program (List BoundDeviceIdentity) := do
  demand (← perform Call.detectLiveManagedDevices)

variable (binding : LifecycleBinding) (device : BoundDeviceIdentity)

section Identity

def observeBoundDevice (path : String) (expectedKind : ManagedDeviceKind) : Program BoundDeviceIdentity := do
  let path := canonicalizeSwapPath path
  refuseIf (deviceKindForPath path≠some expectedKind)
    s!"managed device kind and path disagree: {path}"
  let seen ← demand (← perform (Call.observe path expectedKind))
  refuseIf (seen.sysfsDevT≠seen.devT) "managed device node and sysfs dev_t disagree"
  return ⟨expectedKind,path,seen.devT,seen.sysfsPath,seen.sysfsDevT,seen.kernelOwnerInstanceId⟩

def revalidateBoundDevice : Program Unit := do
  let observed ← observeBoundDevice device.path device.kind
  refuseIf (observed≠device)
    ("managed device identity changed before mutation: " ++ device.path)

def bindDeviceForEffect : Program String := do
  revalidateBoundDevice device
  let file ← demand (← perform (Call.openDevice device.path))
  refuseIf (!file.isBlockDevice || file.devT≠device.devT)
    "opened managed-device fd does not match the sealed dev_t"
  revalidateBoundDevice device
  let opened ← demand (← perform (Call.statEffectPath file.effectPath))
  refuseIf (opened≠device.devT)
    "managed-device proc-fd path does not preserve the sealed dev_t"
  return file.effectPath

def revalidateNamedIdentity (effectPath : String) : Program Unit := do
  let observed ← observeBoundDevice device.path device.kind
  refuseIf (observed≠device)
    ("managed device identity changed across an external effect: " ++ device.path)
  let pinned ← demand (← perform (Call.statPinned effectPath))
  refuseIf (pinned≠device.devT) "pinned managed-device dev_t changed across an external effect"

def readLifecycleBinding : Program LifecycleBinding := do
  let binding ← demand (← perform Call.readLifecycleBinding)
  demand (validateLifecycleBinding binding)
  return binding

def readNbdPathRecord : Program String := do
  let value ← demand (← perform Call.readNbdPathRecord)
  refuseIf (canonicalizeSwapPath value ≠ value || deviceKindForPath value≠some .nbd)
    "NBD path record is not an exact managed device"
  return value

def readBoundDeviceRecord : Program BoundDeviceIdentity := do
  let device ← demand (← perform Call.readBoundDeviceRecord)
  refuseIf (deviceKindForPath device.path≠some device.kind || device.devT ≠ device.sysfsDevT ||
    !canonicalDeviceNumber device.devT) "managed device record identity is invalid"
  return device

def revalidateDaemonAndSocket : Program Unit := do
  refuseIf ((← demand (← perform Call.currentBootId))≠binding.bootId)
    "kernel boot identity differs from the lifecycle binding"
  refuseIf ((← perform (Call.daemonInstanceIdFromPid binding.daemonPid))≠some binding.daemonInstanceId)
    "daemon start identity differs from the lifecycle binding"
  refuseIf ((← demand (← perform (Call.daemonInvocationId binding.daemonPid)))≠binding.daemonInvocationId)
    "daemon InvocationID differs from the lifecycle binding"
  refuseIf (!(← perform (Call.cacheStatusHasCurrentDaemonIdentity binding.daemonPid)))
    "daemon cache status differs from the lifecycle binding"
  refuseIf ((← demand (← perform Call.socketIdentity))≠binding.exportSocket)
    "daemon export socket differs from the lifecycle binding"
  refuseIf (binding.origin ≠ (← demand (← perform Call.readSealedOriginConfig)))
    "lifecycle binding no longer matches the sealed origin manifest"

end Identity

section Authorization

def authorizeSwapRecord : Program Unit := do
  if ← perform (Call.fileExists .swapDev) then
    let recorded ← readNbdPathRecord
    match binding.devices.find? fun device => device.kind=.nbd with
    | none => .fail (.precondition "validated lifecycle binding omitted its exact NBD device")
    | some expected =>
      refuseIf (recorded≠expected.path)
        "NBD runtime record differs from the exact lifecycle binding; no device was mutated"
  else .ok ()

def authorizeZramRecord : Program Unit := do
  if ← perform (Call.fileExists .zramDev) then
    let recorded ← readBoundDeviceRecord
    match binding.devices.find? fun device => device.kind=.zram with
    | none => .fail (.precondition "unbound zram runtime record detected; no device was mutated")
    | some expected =>
      refuseIf (recorded≠expected)
        "zram runtime record differs from the exact lifecycle binding; no device was mutated"
  else .ok ()

def refuseForeignSwaps (swaps : List SwapEntry) : Except CascadeError Unit :=
  match (swaps.filter SwapEntry.isManagedOrOrphanVramTier).find? fun entry =>
    (binding.boundByPath entry.canonicalPath).isNone with
  | some entry => .error (.precondition
      ("foreign or ambiguous managed swap detected at " ++ entry.canonicalPath ++
        "; no device was mutated"))
  | none => .ok ()

def matchLiveDevices (binding : LifecycleBinding) :
    List String → List BoundDeviceIdentity → Except CascadeError Unit
  | _, [] => .ok ()
  | seenLive, observed::rest =>
    match binding.boundByPath observed.path with
    | none => .error (.precondition ("foreign live " ++ observed.kind.debug ++ " device detected at " ++
        observed.path ++ "; no device was mutated"))
    | some expected =>
      if observed ≠ expected || observed.path∈seenLive then
        .error (.precondition ("managed device identity is ambiguous at " ++ observed.path ++
          "; no device was mutated"))
      else matchLiveDevices binding (observed.path::seenLive) rest

def authorizeBoundEnvironment (swaps : List SwapEntry)
    (liveDevices expectedLiveDevices : List BoundDeviceIdentity) : Program Unit := do
  demand (validateLifecycleBinding binding)
  revalidateDaemonAndSocket binding
  authorizeSwapRecord binding
  authorizeZramRecord binding
  demand (refuseForeignSwaps binding swaps)
  demand (matchLiveDevices binding [] liveDevices)
  demand (proveExactLiveDeviceSet binding liveDevices expectedLiveDevices)

/-- `authorize_bound_environment` after an effect: its errors say that the effect is unproven. -/
def authorizeCompletion (what : String) (binding : LifecycleBinding) (device : BoundDeviceIdentity)
    (expectedAfter : List BoundDeviceIdentity) : Program Unit := do
  let swaps ← readSwaps
  let live ← detectLiveManagedDevices
  match ← (authorizeBoundEnvironment binding swaps live expectedAfter).attempt with
  | .ok () => .ok ()
  | .error error => .fail (.unsafeContainment (what ++ " completion is unproven for " ++ device.path ++
      "; lifecycle evidence retained (" ++ error.toString ++ ")"))

def proveExactSwapAbsent : Program Unit := do
  let entries ← readSwaps
  if entries.any fun entry => entry.canonicalPath=device.path then
    .fail (.unsafeContainment (device.path ++
      " remains active in a fresh strict /proc/swaps snapshot; backend preserved"))
  else .ok ()

end Authorization

section Daemon

def daemonPidMatches (pid : ℕ) (comm : String) : Bool :=
  0<pid && Text.trim isWhitespace comm.toList = "ramsharedd".toList

def verifiedDaemonPid : Program (Option ℕ) := do
  match ← perform Call.readPidFile with
  | none => return none
  | some pid =>
    match ← perform (Call.readComm pid) with
    | none => return none
    | some comm => return if daemonPidMatches pid comm then some pid else none

def openVerifiedDaemonPidfd (pid : ℕ) (expectedInstanceId : String) : Program Unit := do
  refuseIf ((← perform (Call.daemonInstanceIdFromPid pid))≠some expectedInstanceId)
    "daemon instance changed before pidfd acquisition; refusing ambiguous signal"
  refuseIf (!(← perform (Call.cacheStatusHasCurrentDaemonIdentity pid)))
    "daemon cache status changed before pidfd acquisition; refusing ambiguous signal"
  refuseIf (2^31≤pid) "daemon PID is outside the kernel pidfd range"
  refuseIf (pid=0) "daemon PID cannot be bound to a pidfd"
  demand (← perform (Call.pidfdOpen pid))
  refuseIf ((← perform (Call.daemonInstanceIdFromPid pid))≠some expectedInstanceId)
    "daemon instance changed while acquiring pidfd; refusing ambiguous signal"
  refuseIf (!(← perform (Call.cacheStatusHasCurrentDaemonIdentity pid)))
    "daemon instance changed while acquiring pidfd; refusing ambiguous signal"

def signalVerifiedDaemon (pid : ℕ) (expectedInstanceId : String) : Program Unit := do
  openVerifiedDaemonPidfd pid expectedInstanceId
  demand (← perform (Call.pidfdSendSignal pid))

/-- Every sleep takes its 100 ms at least, so the deadline has passed when no round is left. -/
def awaitExit (pid deadline : ℕ) : ℕ → Program Unit
  | 0 => .ok ()
  | rounds+1 => do
    if ← perform (Call.processIsGoneOrZombie pid) then .ok ()
    else if (← perform Call.now)<deadline then
      perform (Call.sleep 100)
      awaitExit pid deadline rounds
    else .ok ()

def stopDaemonGracefullyAt (timeoutMs : ℕ) : Program Unit := do
  if ← perform (Call.fileExists .pid) then
    match ← verifiedDaemonPid with
    | none => .fail (.precondition ("daemon stop refused: PID record does not identify the exact " ++
        "ramsharedd process; runtime evidence retained"))
    | some pid =>
      refuseIf (!(← perform (Call.cacheStatusHasCurrentDaemonIdentity pid)))
        ("daemon stop refused: cache status does not identify the exact current ramsharedd process; " ++
          "runtime evidence retained")
      refuseIf (!daemonKillAllowed (← readSwaps))
        "daemon stop refused: nbd/ublk remains in /proc/swaps; runtime evidence retained"
      match ← perform (Call.daemonInstanceIdFromPid pid) with
      | none => .fail (.precondition
          "daemon stop refused: PID identity changed before TERM; runtime evidence retained")
      | some expectedInstanceId =>
        signalVerifiedDaemon pid expectedInstanceId
        let start ← perform Call.now
        awaitExit pid (start+timeoutMs) (timeoutMs/100+1)
        refuseIf (!(← perform (Call.processIsGoneOrZombie pid)))
          (s!"daemon {pid} did not exit within {timeoutMs} ms; no broad signal was sent and runtime " ++
            "evidence was retained")
        perform (Call.removeRuntimeFile .pid)
  else .ok ()

end Daemon

section Executor
variable (binding : LifecycleBinding) (device : BoundDeviceIdentity)

def mentions (message text : String) : Bool := text.toList <:+: message.toList

def swapoff : Program Unit := do
  let swaps ← readSwaps
  authorizeBoundEnvironment binding swaps (← detectLiveManagedDevices) binding.devices
  let pinned ← bindDeviceForEffect device
  match ← perform (Call.run "swapoff" ["--",pinned]) with
  | .ok _ =>
    proveExactSwapAbsent device
    revalidateNamedIdentity device pinned
  | .error error =>
    let message := error.toString
    let uncertain : CascadeError := .unsafeContainment ("swapoff for " ++ device.path ++
      " is uncertain or still active (" ++ message ++ "); backend preserved")
    if mentions message "No such file" || mentions message "Invalid argument" then
      match ← (proveExactSwapAbsent device).attempt with
      | .ok () => .ok ()
      | .error _ => .fail uncertain
    else .fail uncertain

/-- Before a device is taken away: it is bound, live as expected, and no longer swapped to. -/
def releaseDevice (expectedBefore : List BoundDeviceIdentity) : Program Unit := do
  let swaps ← readSwaps
  authorizeBoundEnvironment binding swaps (← detectLiveManagedDevices) expectedBefore
  proveExactSwapAbsent device
  let pinned ← bindDeviceForEffect device
  revalidateNamedIdentity device pinned

def resetZram : Program Unit := do
  releaseDevice binding device binding.devices
  let _ ← demand (← perform (Call.run "zramctl" ["-r",device.path]))
  authorizeCompletion "zram reset" binding device
    (binding.devices.filter fun expected => expected.kind≠.zram)

def disconnectNbd : Program Unit := do
  releaseDevice binding device (binding.ofKind .nbd)
  let _ ← demand (← perform (Call.run "nbd-client" ["-d",device.path]))
  authorizeCompletion "NBD disconnect" binding device []

def stopDaemon : Program Unit := do
  let swaps ← readSwaps
  authorizeBoundEnvironment binding swaps (← detectLiveManagedDevices) []
  stopDaemonGracefullyAt 10000

def executeAction : NbdLifecycleAction → Program Unit
  | .swapoff device => swapoff binding device
  | .resetZram device => resetZram binding device
  | .disconnectNbd device => disconnectNbd binding device
  | .stopDaemon => stopDaemon binding

def executeNbdLifecyclePlan (plan : List NbdLifecycleAction) : Program Unit :=
  Prog.forEach (executeAction binding) plan

end Executor

def anyExists : List RuntimeFile → Program Bool
  | [] => .ok false
  | file::files => do if ← perform (Call.fileExists file) then .ok true else anyExists files

def removeRuntimeFiles (files : List RuntimeFile) : Program Unit :=
  Prog.forEach (fun file => perform (Call.removeRuntimeFile file)) files

/-- The records that `down` removes after its plan; that of the binding comes last. -/
def runtimeRecords : List RuntimeFile :=
  [.socket,.zramDev,.swapDev,.capacityStatus,.cacheStatus,.supervisorStatus,.cacheTargetRequest,
    .reclaimRequest,.pid,.lifecycleBinding]

/-- `down_with_runtime` up to its first effect: the plan, if there is a sealed lifecycle at all. -/
def planDown : Program (Option (LifecycleBinding × List NbdLifecycleAction)) := do
  let currentEntries ← readSwaps
  let hasRuntimeEvidence ← anyExists [.pid,.swapDev,.zramDev,.socket]
  let hasManagedSwap := currentEntries.any SwapEntry.isManagedOrOrphanVramTier
  if ← perform (Call.fileExists .lifecycleBinding) then
    let binding ← readLifecycleBinding
    let liveDevices ← detectLiveManagedDevices
    authorizeBoundEnvironment binding currentEntries liveDevices binding.devices
    let plan ← demand (planNbdLifecycle binding currentEntries liveDevices)
    return some (binding,plan)
  else if !hasRuntimeEvidence && !hasManagedSwap then return none
  else .fail (.precondition ("runtime or managed-device evidence exists without an exact lifecycle " ++
    "binding; all devices are preserved"))

def downWithRuntime (markers : List String) : Program Unit := do
  match ← planDown with
  | none => .ok ()
  | some (binding,plan) =>
    executeNbdLifecyclePlan binding plan
    removeRuntimeFiles (runtimeRecords++markers.map .forensicsMarker)

end RamShared.Cascade

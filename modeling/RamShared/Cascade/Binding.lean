import RamShared.Admission.Evidence
import RamShared.Cascade.Swaps

/-! The sealed record of a running cascade: the daemon, the origin and the devices that belong to it. -/
namespace RamShared.Cascade
open Lib
open Admission (isHexDigit)

inductive ManagedDeviceKind
  | nbd
  | ublk
  | zram
  deriving DecidableEq, Repr, Ord

def ManagedDeviceKind.debug : ManagedDeviceKind → String
  | .nbd => "Nbd"
  | .ublk => "Ublk"
  | .zram => "Zram"

structure BoundDeviceIdentity where
  kind : ManagedDeviceKind
  path : String
  devT : String
  sysfsPath : String
  sysfsDevT : String
  kernelOwnerInstanceId : Option String
  deriving DecidableEq, Repr, Ord

structure BoundSocketIdentity where
  path : String
  filesystemDev : ℕ
  inode : ℕ
  deriving DecidableEq, Repr

structure BoundOriginIdentity where
  partuuid : String
  ptuuid : String
  partitionDevT : String
  parentDevT : String
  expectedSwapUuid : String
  hostManifestSha256 : String
  configurationSha256 : String
  deriving DecidableEq, Repr

structure LifecycleBinding where
  schemaVersion : ℕ
  bootId : String
  daemonInvocationId : String
  daemonPid : ℕ
  daemonStartTicks : ℕ
  daemonInstanceId : String
  exportSocket : BoundSocketIdentity
  origin : BoundOriginIdentity
  devices : List BoundDeviceIdentity
  deriving DecidableEq, Repr

def lifecycleBindingSchema : ℕ := 1

variable (value : String)

def canonicalOriginUuid : Bool :=
  value.length = 36 && value.toList.zipIdx.all fun (c,i) =>
    if i = 8 || i = 13 || i = 18 || i=23 then c = '-' else isHexDigit c

def canonicalBootId : Bool := canonicalOriginUuid value

def canonicalInvocationId : Bool := value.length = 32 && value.toList.all isHexDigit

def canonicalSha256 : Bool := value.length = 64 && value.toList.all isHexDigit

/-- A decimal number below `2^64`, without a sign. -/
def isPlainU64 (cs : List Char) : Bool :=
  !cs.isEmpty && cs.all Char.isDigit && cs.foldl (fun n c => n*10+(c.toNat-48)) 0<2^64

def canonicalDeviceNumber : Bool :=
  match value.toList.dropWhile (· ≠ ':') with
  | [] => false
  | _::minor => isPlainU64 (value.toList.takeWhile (· ≠ ':')) && isPlainU64 minor

def deviceKindForPath (path : String) : Option ManagedDeviceKind :=
  if isNbdDevicePath path.toList then some .nbd
  else if isUblkDevicePath path.toList then some .ublk
  else if isZramDevicePath path.toList then some .zram
  else none

variable (binding : LifecycleBinding)

namespace LifecycleBinding

def ofKind (kind : ManagedDeviceKind) : List BoundDeviceIdentity :=
  binding.devices.filter fun device => device.kind=kind

/-- The device of a path, the last one if several were to claim it. -/
def boundByPath (path : String) : Option BoundDeviceIdentity :=
  binding.devices.reverse.find? fun device => device.path=path

end LifecycleBinding

def validateLifecycleBinding : Except CascadeError Unit := do
  if binding.schemaVersion≠lifecycleBindingSchema
      || !canonicalBootId binding.bootId
      || !canonicalInvocationId binding.daemonInvocationId
      || binding.daemonPid=0
      || binding.daemonStartTicks=0
      || binding.daemonInstanceId ≠ s!"{binding.daemonPid}-{binding.daemonStartTicks}"
      || binding.exportSocket.path.isEmpty
      || binding.exportSocket.inode=0
      || !canonicalOriginUuid binding.origin.partuuid
      || !canonicalOriginUuid binding.origin.ptuuid
      || !canonicalOriginUuid binding.origin.expectedSwapUuid
      || !canonicalDeviceNumber binding.origin.partitionDevT
      || !canonicalDeviceNumber binding.origin.parentDevT
      || !canonicalSha256 binding.origin.hostManifestSha256
      || !canonicalSha256 binding.origin.configurationSha256 then
    throw (.precondition "lifecycle binding has an invalid schema or identity")
  if (binding.ofKind .nbd).length≠1
      || (binding.ofKind .ublk).length≠0
      || 1<(binding.ofKind .zram).length
      || (binding.devices.map (·.path)).dedup.length≠binding.devices.length
      || binding.devices.any fun device =>
        deviceKindForPath device.path≠some device.kind
          || device.devT≠device.sysfsDevT
          || !canonicalDeviceNumber device.devT
          || device.sysfsPath.isEmpty then
    throw (.precondition "lifecycle binding device cardinality or identity is invalid")

def sortDevices (devices : List BoundDeviceIdentity) : List BoundDeviceIdentity :=
  devices.mergeSort fun a b => (compare a b).isLE

def hasRepeat : List BoundDeviceIdentity → Bool
  | a::b::rest => a = b || hasRepeat (b::rest)
  | _ => false

def joinPaths (devices : List BoundDeviceIdentity) : String := ",".intercalate (devices.map (·.path))

def proveExactLiveDeviceSet
    (liveDevices expectedLiveDevices : List BoundDeviceIdentity) : Except CascadeError Unit := do
  let expected := sortDevices expectedLiveDevices
  if hasRepeat expected || expected.any fun device => device∉binding.devices then
    throw (.precondition
      "expected live-device set is not an exact subset of the lifecycle binding")
  let observed := sortDevices liveDevices
  if observed≠expected then
    let expectedPaths := joinPaths expected
    let observedPaths := joinPaths observed
    throw (.precondition (s!"live managed-device cardinality differs from the exact lifecycle stage (expected=[{expectedPaths}], " ++
      s!"observed=[{observedPaths}]); no device was mutated"))

inductive NbdLifecycleAction
  | swapoff (device : BoundDeviceIdentity)
  | resetZram (device : BoundDeviceIdentity)
  | disconnectNbd (device : BoundDeviceIdentity)
  | stopDaemon
  deriving DecidableEq, Repr

def planNbdLifecycle (swaps : List SwapEntry)
    (liveDevices : List BoundDeviceIdentity) : Except CascadeError (List NbdLifecycleAction) := do
  validateLifecycleBinding binding
  proveExactLiveDeviceSet binding liveDevices binding.devices
  let swapPaths := swaps.map (·.canonicalPath)
  let active := binding.devices.filter fun device => device.path∈swapPaths
  return active.map .swapoff++(binding.ofKind .zram).map .resetZram ++
    (binding.ofKind .nbd).map .disconnectNbd++[.stopDaemon]

section Validated
variable {binding : LifecycleBinding}

lemma validateLifecycleBinding_ok (h : validateLifecycleBinding binding=.ok ()) :
    (binding.ofKind .nbd).length=1 := by
  obtain ⟨-,h⟩ := ite_throw_ok.mp h
  split_ifs at h with hdevices
  simp only [Bool.or_eq_true,not_or,decide_eq_true_eq,not_not] at hdevices
  exact hdevices.1.1.1.1

lemma proveExactLiveDeviceSet_nil {liveDevices : List BoundDeviceIdentity}
    (h : proveExactLiveDeviceSet binding liveDevices []=.ok ()) : liveDevices=[] := by
  obtain ⟨-,h⟩ := ite_throw_ok.mp h
  dsimp only at h
  split_ifs at h with hobserved
  have hlength := congrArg List.length (not_not.mp hobserved)
  simpa [sortDevices] using hlength

lemma planNbdLifecycle_ok {swaps : List SwapEntry} {liveDevices : List BoundDeviceIdentity}
    {plan : List NbdLifecycleAction} (h : planNbdLifecycle binding swaps liveDevices=.ok plan) :
    ∃ (active resets : List BoundDeviceIdentity) (device : BoundDeviceIdentity), plan = active.map .swapoff++resets.map .resetZram ++
      [.disconnectNbd device,.stopDaemon] := by
  obtain ⟨⟨⟩,hvalid,h⟩ := bind_ok.mp h
  obtain ⟨-,-,h⟩ := bind_ok.mp h
  obtain ⟨device,hdevice⟩ := List.length_eq_one_iff.mp (validateLifecycleBinding_ok hvalid)
  obtain rfl := Except.ok.inj h
  refine ⟨binding.devices.filter fun device => device.path∈swaps.map (·.canonicalPath),
    binding.ofKind .zram,device,?_⟩
  rw [hdevice,List.append_assoc]
  rfl

end Validated

attribute [irreducible] deviceKindForPath canonicalDeviceNumber validateLifecycleBinding
  proveExactLiveDeviceSet planNbdLifecycle

end RamShared.Cascade

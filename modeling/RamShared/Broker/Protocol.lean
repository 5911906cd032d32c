import RamShared.Broker.Slices
import Mathlib.Algebra.Order.Field.Rat

/-! The messages between the broker and its agents, and the telemetry. -/
namespace RamShared.Broker

/-- The floating-point operations of the broker. Comparisons with a NaN are false both ways. -/
class FloatOps (F : Type) where
  zero : F
  one : F
  ofNat : ℕ → F
  sub : F → F → F
  mul : F → F → F
  div : F → F → F
  lt : F → F → Bool

instance : FloatOps ℚ where
  zero := 0
  one := 1
  ofNat n := n
  sub a b := a-b
  mul a b := a*b
  div a b := a/b
  lt a b := decide (a<b)

structure PsiSample (F : Type) where
  avg10 : F
  avg60 : F
  stallUs : ℕ
  deriving Repr

def PsiSample.zero {F : Type} [FloatOps F] : PsiSample F := ⟨FloatOps.zero,FloatOps.zero,0⟩

inductive TransportKind
  | nbdUnix
  | nbdTcp
  | winDrive
  | dccAgent
  deriving DecidableEq, Repr

inductive NbdEndpoint
  | unix (path : String)
  | tcp (host : String) (port : ℕ)
  deriving DecidableEq, Repr

structure SwapEntry where
  dev : String
  prio : ℤ
  sizeKb : ℕ
  usedKb : ℕ
  deriving DecidableEq, Repr

structure TenantMem where
  swapCurrent : Option ℕ
  diskstatsIo : ℕ
  deriving DecidableEq, Repr

structure TenantStatus (F : Type) where
  id : TenantId
  name : String
  psi : PsiSample F
  slices : List SliceId
  present : Bool
  bytesServed : ℕ
  deriving Repr

structure SliceIo where
  id : SliceId
  bytesServed : ℕ
  ioCount : ℕ
  deriving DecidableEq, Repr

def protoVersion : ℕ := 1

inductive Msg (F : Type)
  | register (proto : ℕ) (tenant : String) (transport : TransportKind)
  | psi (sample : PsiSample F) (swaps : List SwapEntry) (mem : Option TenantMem)
  | swapOnDone (slice : SliceId) (ok : Bool) (detail : String)
  | swapOffDone (slice : SliceId) (ok : Bool) (detail : String)
  | leaseRequest (bytes : ℕ)
  | leaseRelease (lease : ℕ)
  | status
  | registered (tenantId : TenantId)
  | ack
  | swapOn (slice : SliceId) (exportName : String) (endpoint : NbdEndpoint) (swapPrio : Option ℤ)
  | swapOff (slice : SliceId)
  | demoteAll
  | leaseGranted (lease bytes : ℕ)
  | leaseDenied (reason : String)
  | statusReply (tenants : List (TenantStatus F)) (slices : List Slice) (sliceIo : List SliceIo)
      (lastRebalanceSecs : Option ℕ)
  | error (reason : String)
  deriving Repr

class DebugMsg (F : Type) where
  debug : Msg F → String

instance : DebugMsg ℚ := ⟨reprStr⟩

/-- The characters that `str::trim` removes. -/
def isWhitespace (c : Char) : Bool :=
  (9 ≤ c.toNat && c.toNat≤13) || c.toNat = 0x20 || c.toNat = 0x85 || c.toNat = 0xA0 ||
    c.toNat = 0x1680 || (0x2000 ≤ c.toNat && c.toNat≤0x200A) || c.toNat = 0x2028 ||
    c.toNat = 0x2029 || c.toNat = 0x202F || c.toNat = 0x205F || c.toNat = 0x3000

def trim (cs : List Char) : List Char :=
  (((cs.dropWhile isWhitespace).reverse).dropWhile isWhitespace).reverse

def afterStart : List Char → List Char → Option (List Char)
  | [], cs => some cs
  | _::_, [] => none
  | p::ps, c::cs => if p=c then afterStart ps cs else none

def parseU16 (cs : List Char) : Option ℕ :=
  let n := cs.foldl (fun n c => n*10+(c.toNat-48)) 0
  if n<2^16 then some n else none

/-- The slice that an exact NBD device name stands for. -/
def devToSlice (dev : String) : Option SliceId :=
  let dev := trim dev.toList
  let base :=
    match afterStart ['/','d','e','v','/'] dev with
    | some base => some base
    | none =>
      match afterStart ['/'] dev with
      | some base => some base
      | none => if '/'∈dev then none else some dev
  (base.bind (afterStart ['n','b','d'])).bind fun slice =>
    if slice.isEmpty || !(slice.all Char.isDigit) then none else parseU16 slice

example : devToSlice "/dev/nbd12" = some 12 := by decide

structure SliceIoCounters where
  bytesServed : ℕ := 0
  ioCount : ℕ := 0
  deriving DecidableEq, Repr

/-- What the broker reads from the shared counters and the VRAM gauge. -/
structure Sensors where
  sliceIo : List SliceIoCounters
  free : ℕ
  total : ℕ

inductive ReconcileFlag
  | none
  | partialData
  | eviction
  | stuckSlice
  | unaccounted
  deriving DecidableEq, Repr

structure ReconcileInput where
  allocActiveBytes : ℕ
  occupiedSwapBytes : ℕ
  stuckDraining : Bool
  demotesDelta : ℕ
  anySourceMissing : Bool

structure TelemetryCore (D : Type) where
  tenant : Option String
  slice : Option SliceId
  swapUsed : ℕ
  allocActive : ℕ
  pageIoS : Option ℕ
  vramAllocDaemon : ℕ
  vramTotalUsed : Option ℕ
  vramOutros : Option ℕ
  canarioDemotes : ℕ
  demoteReason : Option String
  reconcileDelta : D
  flag : ReconcileFlag

def vramOutros (totalUsed allocDaemon : ℕ) : ℕ := totalUsed-allocDaemon

def reconcile {D : Type} [FloatOps D] (inp : ReconcileInput) (tolFrac : D) : D × ReconcileFlag :=
  let delta :=
    if inp.allocActiveBytes=0 then
      if inp.occupiedSwapBytes=0 then FloatOps.zero else FloatOps.one
    else
      FloatOps.div
        (FloatOps.sub (FloatOps.ofNat inp.occupiedSwapBytes) (FloatOps.ofNat inp.allocActiveBytes))
        (FloatOps.ofNat inp.allocActiveBytes)
  if inp.anySourceMissing then (delta,.partialData)
  else if 0 < inp.demotesDelta then (delta,.eviction)
  else if inp.stuckDraining then (delta,.stuckSlice)
  else if FloatOps.lt tolFrac delta then (delta,.unaccounted)
  else (delta,.none)

end RamShared.Broker

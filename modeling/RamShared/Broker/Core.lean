import RamShared.Broker.Arbiter
import Std.Data.TreeMap

/-! The pure core of the broker: sessions, slices, movements with hygiene, leases and
telemetry. Events come in, outbound actions go out. -/
namespace RamShared.Broker
open Lib

structure EndpointCfg where
  nbdUnix : Option String
  nbdTcp : Option (String × ℕ)

inductive CoreEvent (F : Type)
  | msg (sid : ℕ) (m : Msg F)
  | disconnected (sid : ℕ)
  | zeroDone (slice : SliceId) (ok : Bool)
  | demote (reason : String)
  | tick

inductive LogLine (F D : Type)
  | tenantAbsent (tenant : TenantId)
  | swapOnOk (slice : SliceId)
  | swapOnFailed (slice : SliceId) (detail : String)
  | swapOffFailed (slice : SliceId) (detail : String)
  | tenantRegistered (name : String) (id : TenantId) (transport : TransportKind)
  | reconciled (slice : SliceId) (id : TenantId)
  | leasePending (holder : TenantId) (bytes : ℕ)
  | leaseReleaseIgnored (lease : ℕ) (holder : TenantId)
  | leaseReleased (lease : ℕ)
  | tenantDisconnected (id : TenantId)
  | leaseRetained (lease : ℕ)
  | zeroFailed (slice : SliceId)
  | demoteAll (reason : String)
  | transportUnavailable (tenant : TenantId)
  | leaseExpired (lease : ℕ)
  | arbiterError (error : ArbiterError)
  | assigned (slice : SliceId) (toTenant : TenantId)
  | moved (slice : SliceId) (fromTenant : TenantId) (fromPsi : F) (toTenant : TenantId)
      (toPsi : F)
  | revoked (slice : SliceId) (fromTenant : TenantId)
  | leaseTtlInvalid
  | grantUnavailable
  | grantDiverged
  | grantRolledBack
  | leaseGranted (lease : ℕ) (holder : TenantId) (slices : List SliceId)
  | zeroStuck (slice : SliceId)
  | reconcile (flag : ReconcileFlag) (delta : D) (reason : Option String)

inductive Outbound (F D : Type)
  | toSession (sid : ℕ) (m : Msg F)
  | closeSession (sid : ℕ)
  | zeroSlice (slice : SliceId) (base len : ℕ)
  | log (line : LogLine F D)
  | telemetry (sample : TelemetryCore D)

structure TenantState (F : Type) where
  name : String
  transport : TransportKind
  present : Bool
  sid : Option ℕ
  psi : PsiSample F
  reconciled : Bool
  mem : Option TenantMem
  occupiedBytes : ℕ

structure BrokerCoreConfig (F D : Type) where
  arbiterCfg : ArbiterConfig F
  endpoints : EndpointCfg
  swapPrio : Option ℤ
  leaseTtl : ℕ
  tolFrac : D
  reconStreak : ℕ

structure BrokerCore (F D : Type) where
  sliceMap : SliceMap
  arbiter : Arbiter F
  endpoints : EndpointCfg
  swapPrio : Option ℤ
  leaseTtl : ℕ
  tenants : Std.TreeMap TenantId (TenantState F)
  sessions : Std.TreeMap ℕ TenantId
  nameToId : Std.TreeMap String TenantId
  nextTenant : TenantId
  pendingDest : Std.TreeMap SliceId TenantId
  leaseBook : LeaseBook
  lastRebalance : Option ℕ
  demotesTotal : ℕ
  lastDemoteReason : Option String
  demotesAtLastSample : ℕ
  reconFlag : ReconcileFlag
  reconCount : ℕ
  tolFrac : D
  reconStreak : ℕ
  pendingZero : Std.TreeMap SliceId ℕ

structure KeyOrder where
  arrange : List SliceId → List SliceId
  perm : ∀ keys, (arrange keys).Perm keys

structure Input (F : Type) where
  event : CoreEvent F
  now : ℕ
  sensors : Sensors
  order : KeyOrder

def zeroRetryGrace : ℕ := 1
def zeroRetryError : ℕ := 5
def canaryBytes : ℕ := 4096

namespace BrokerCore
variable {F D : Type}

def new (sliceMap : SliceMap) (cfg : BrokerCoreConfig F D) : BrokerCore F D :=
  { sliceMap := sliceMap
    arbiter := .new cfg.arbiterCfg
    endpoints := cfg.endpoints
    swapPrio := cfg.swapPrio
    leaseTtl := cfg.leaseTtl
    tenants := ∅
    sessions := ∅
    nameToId := ∅
    nextTenant := 1
    pendingDest := ∅
    leaseBook := .new sliceMap.totalBytes
    lastRebalance := none
    demotesTotal := 0
    lastDemoteReason := none
    demotesAtLastSample := 0
    reconFlag := .none
    reconCount := 0
    tolFrac := cfg.tolFrac
    reconStreak := cfg.reconStreak
    pendingZero := ∅}

variable (c : BrokerCore F D)

def endpointFor : TransportKind → Option NbdEndpoint
  | .nbdUnix => c.endpoints.nbdUnix.map .unix
  | .nbdTcp => c.endpoints.nbdTcp.map fun x => .tcp x.1 x.2
  | .winDrive | .dccAgent => none

def toTenant (tenant : TenantId) (m : Msg F) : List (Outbound F D) :=
  match c.tenants[tenant]?.bind TenantState.sid with
  | some sid => [.toSession sid m]
  | none => [.log (.tenantAbsent tenant)]

def slicesOf (tenant : TenantId) : List SliceId :=
  (c.sliceMap.slices.filter fun s => s.tenant=some tenant).map Slice.id

def reject (sid : ℕ) (reason : String) : List (Outbound F D) :=
  [.toSession sid (.error reason),.closeSession sid]

/-- The new map if the transition was legal, the old one otherwise. -/
def attempt (m : SliceMap) : Except SliceError SliceMap → SliceMap
  | .ok m' => m'
  | .error _ => m

variable (slice : SliceId)

/-- The mount failed: the slice goes back without being zeroed. -/
def onSwapOnFailed (detail : String) : BrokerCore F D × List (Outbound F D) :=
  let sliceMap :=
    match c.sliceMap.drain slice with
    | .error _ => c.sliceMap
    | .ok m => attempt m (m.release slice)
  ({c with sliceMap := sliceMap, pendingDest := c.pendingDest.erase slice},
    [.log (.swapOnFailed slice detail)])

/-- The tenant is done with the slice: order its zeroing. -/
def onSwapOffOk : BrokerCore F D × List (Outbound F D) :=
  match c.sliceMap.get slice with
  | none => (c,[])
  | some s =>
    ({c with pendingZero := c.pendingZero.insertIfNew slice 0},
      [.zeroSlice slice s.offset s.len])

def statusReply (sensors : Sensors) : Msg F :=
  let tenants := c.tenants.toList.map fun (id,t) =>
    { id := id
      name := t.name
      psi := t.psi
      slices := c.slicesOf id
      present := t.present
      bytesServed := (((c.slicesOf id).filterMap fun s => sensors.sliceIo[s]?).map
        SliceIoCounters.bytesServed).foldl (saturatingAdd 64) 0}
  let sliceIo := c.sliceMap.slices.filterMap fun s =>
    sensors.sliceIo[s.id]?.map fun x => ⟨s.id,x.bytesServed,x.ioCount⟩
  .statusReply tenants c.sliceMap.slices sliceIo none

section
variable [FloatOps F]

def onRegister (c : BrokerCore F D) (sid proto : ℕ) (name : String) (transport : TransportKind) :
    BrokerCore F D × List (Outbound F D) :=
  if proto≠protoVersion then (c,reject sid s!"proto {proto} != {protoVersion}")
  else
    let id := c.nameToId[name]?.getD c.nextTenant
    let c := { c with
      nameToId := c.nameToId.insertIfNew name c.nextTenant
      nextTenant := if id=c.nextTenant then wrappingAdd 32 c.nextTenant 1 else c.nextTenant}
    if c.tenants[id]?.any fun t => t.present && t.sid.isSome && t.sid≠some sid then
      (c,reject sid "tenant_duplicado")
    else
      let psi := (c.tenants[id]?.map TenantState.psi).getD PsiSample.zero
      ({ c with
          tenants := c.tenants.insert id ⟨name,transport,true,some sid,psi,false,none,0⟩
          sessions := c.sessions.insert sid id},
        [.log (.tenantRegistered name id transport),.toSession sid (.registered id)])

/-- Take over the free slices that the agent has already mounted. -/
def adopt (id : TenantId) : List SwapEntry → SliceMap → SliceMap × List (Outbound F D)
  | [], m => (m,[])
  | e::es, m =>
    match devToSlice e.dev with
    | none => adopt id es m
    | some slice =>
      if (m.get slice).any fun s => s.state=.free then
        match m.assign slice id with
        | .error _ => adopt id es m
        | .ok m =>
          let (m,out) := adopt id es m
          (m,.log (.reconciled slice id)::out)
      else adopt id es m

def occupiedOf (m : SliceMap) (id : TenantId) (swaps : List SwapEntry) : ℕ :=
  ((swaps.filterMap fun e => (devToSlice e.dev).map fun s => (s,e.usedKb)).filter fun x =>
      (m.get x.1).any fun s => s.state=.active && s.tenant=some id).foldl
    (fun total x => saturatingAdd 64 total (saturatingMul 64 x.2 1024)) 0

/-- Store the sample; the first one of a session also reconciles the slices. -/
def recordPsi (c : BrokerCore F D) (id : TenantId) (sample : PsiSample F)
    (swaps : List SwapEntry) (mem : Option TenantMem) : BrokerCore F D × List (Outbound F D) :=
  match c.tenants[id]? with
  | none => (c,[])
  | some t =>
    let (m,out) := if t.reconciled then (c.sliceMap,[]) else adopt id swaps c.sliceMap
    ({ c with
        sliceMap := m
        tenants := c.tenants.insert id { t with psi := sample, mem := mem, reconciled := true}},
      out)

def onPsi (c : BrokerCore F D) (sid : ℕ) (sample : PsiSample F) (swaps : List SwapEntry)
    (mem : Option TenantMem) (now : ℕ) : BrokerCore F D × List (Outbound F D) :=
  match c.sessions[sid]? with
  | none => (c,reject sid "psi antes de register")
  | some id =>
    let (c,out) := c.recordPsi id sample swaps mem
    let occupied := occupiedOf c.sliceMap id swaps
    ({ c with
        tenants := c.tenants.modify id fun t => {t with occupiedBytes := occupied}
        leaseBook := (c.leaseBook.renewActive id now c.leaseTtl).2},
      out++[.toSession sid .ack])

def onLeaseRequest (c : BrokerCore F D) (sid bytes : ℕ) :
    BrokerCore F D × List (Outbound F D) :=
  match c.sessions[sid]? with
  | none => (c,reject sid "lease antes de register")
  | some holder =>
    let (decision,book) := c.leaseBook.beginRequest holder bytes
    let c := {c with leaseBook := book}
    match decision with
    | .pending _ => (c,[.log (.leasePending holder bytes)])
    | .denied .zeroBytes => (c,[.toSession sid (.leaseDenied "bytes_zero")])
    | .denied .overCapacity => (c,[.toSession sid (.leaseDenied "acima_da_capacidade")])
    | .denied _ => (c,[.toSession sid (.leaseDenied "lease_em_andamento")])

end

def unleaseAll (m : SliceMap) : SliceMap :=
  (Arbiter.idsIn m.slices .leased).foldl (fun m id => attempt m (m.unlease id)) m

def releaseSlices (lease : ℕ) : BrokerCore F D × List (Outbound F D) :=
  ({c with sliceMap := unleaseAll c.sliceMap},[.log (.leaseReleased lease)])

def onLeaseRelease (sid lease : ℕ) : BrokerCore F D × List (Outbound F D) :=
  match c.sessions[sid]? with
  | none => (c,reject sid "lease release antes de register")
  | some holder =>
    let (result,book) := c.leaseBook.release holder lease
    let c := {c with leaseBook := book}
    match result with
    | .ok true => c.releaseSlices lease
    | .ok false | .error .wrongLease => (c,[.log (.leaseReleaseIgnored lease holder)])
    | .error .wrongHolder => (c,reject sid "holder de lease incorreto")
    | .error _ => (c,[])

def onMsg [FloatOps F] [DebugMsg F] (c : BrokerCore F D) (sid : ℕ) (m : Msg F) (now : ℕ)
    (sensors : Sensors) : BrokerCore F D × List (Outbound F D) :=
  match m with
  | .register proto tenant transport => c.onRegister sid proto tenant transport
  | .psi sample swaps mem => c.onPsi sid sample swaps mem now
  | .swapOnDone slice true _ => (c,[.log (.swapOnOk slice)])
  | .swapOnDone slice false detail => c.onSwapOnFailed slice detail
  | .swapOffDone slice true _ => c.onSwapOffOk slice
  | .swapOffDone slice false detail => (c,[.log (.swapOffFailed slice detail)])
  | .status => (c,[.toSession sid (c.statusReply sensors)])
  | .leaseRequest bytes => c.onLeaseRequest sid bytes
  | .leaseRelease lease => c.onLeaseRelease sid lease
  | other => (c,reject sid s!"mensagem inesperada do agente: {DebugMsg.debug other}")

def onDisconnect (sid : ℕ) : BrokerCore F D × List (Outbound F D) :=
  match c.sessions[sid]? with
  | none => (c,[])
  | some id =>
    let (gone,book) := c.leaseBook.disconnect id
    ({ c with
        sessions := c.sessions.erase sid
        tenants := c.tenants.modify id fun t => {t with present := false, sid := none}
        leaseBook := book},
      .log (.tenantDisconnected id)::
        (gone.retainedActive.elim [] fun lease => [.log (.leaseRetained lease.id)]))

def emitSwapon (tenant : TenantId) : List (Outbound F D) :=
  match c.tenants[tenant]? with
  | none => []
  | some t =>
    match c.endpointFor t.transport with
    | none => [.log (.transportUnavailable tenant)]
    | some endpoint =>
      c.toTenant tenant (.swapOn slice s!"s{slice}" endpoint c.swapPrio)

/-- A confirmed zeroing: release the slice and, at the end of a move, hand it over. -/
def onZeroOk : BrokerCore F D × List (Outbound F D) :=
  let c := {c with pendingZero := c.pendingZero.erase slice}
  match c.sliceMap.release slice with
  | .error _ => (c,[])
  | .ok m =>
    let c := {c with sliceMap := m}
    match c.pendingDest[slice]? with
    | none => (c,[])
    | some dest =>
      let c := {c with pendingDest := c.pendingDest.erase slice}
      match c.sliceMap.assign slice dest with
      | .error _ => (c,[])
      | .ok m =>
        let c := {c with sliceMap := m}
        (c,c.emitSwapon slice dest)

def onZeroDone (ok : Bool) : BrokerCore F D × List (Outbound F D) :=
  if ok then c.onZeroOk slice
  else
    (c,.log (.zeroFailed slice)::
      ((c.sliceMap.get slice).elim [] fun s => [.zeroSlice slice s.offset s.len]))

def onDemote (reason : String) : BrokerCore F D × List (Outbound F D) :=
  let c := { c with
    demotesTotal := saturatingAdd 64 c.demotesTotal 1
    lastDemoteReason := some reason}
  let present := (c.tenants.toList.filter fun x => x.2.present).map Prod.fst
  (c,.log (.demoteAll reason)::present.flatMap fun id => c.toTenant id .demoteAll)

def leaseOnly (t : TransportKind) : Bool := t=.winDrive || t=.dccAgent

def presentViews : List (TenantView F) :=
  (c.tenants.toList.filter fun x => x.2.present && !leaseOnly x.2.transport).map fun x =>
    ⟨x.1,x.2.psi,(c.slicesOf x.1).length%2^16⟩

def visibleSlices : List Slice :=
  c.sliceMap.slices.filter fun s =>
    s.tenant.all fun t => c.tenants[t]?.any TenantState.present

def grantedBytes (m : SliceMap) (slices : List SliceId) : Option ℕ :=
  slices.foldlM (fun total id =>
    ((m.get id).filter fun s => s.state=.free).bind fun s => checkedAdd 64 total s.len) 0

/-- Lease the slices one by one; with the ones leased when a transition is refused. -/
def leaseAll : List SliceId → SliceMap → Bool × List SliceId × SliceMap
  | [], m => (true,[],m)
  | id::ids, m =>
    match m.lease id with
    | .error _ => (false,[],m)
    | .ok m =>
      let (done,leased,m) := leaseAll ids m
      (done,id::leased,m)

def onGrantLease (holder : TenantId) (slices : List SliceId) (now : ℕ) :
    BrokerCore F D × List (Outbound F D) :=
  if c.leaseTtl=0 ∨ instantAdd now c.leaseTtl=none then
    let c := {c with leaseBook := (c.leaseBook.cancelPending holder).2}
    (c,.log .leaseTtlInvalid::c.toTenant holder (.leaseDenied "lease_ttl_invalid"))
  else
    match grantedBytes c.sliceMap slices with
    | none => (c,[.log .grantUnavailable])
    | some granted =>
      let (result,book) := c.leaseBook.grantPending granted now c.leaseTtl
      let c := {c with leaseBook := book}
      match result with
      | .error _ => (c,[.log .grantDiverged])
      | .ok lease =>
        let (done,leased,m) := leaseAll slices c.sliceMap
        if done then
          let c := {c with sliceMap := m}
          (c,.log (.leaseGranted lease.id holder slices)::
            c.toTenant holder (.leaseGranted lease.id granted))
        else
          ({ c with
              sliceMap := leased.foldl (fun m id => attempt m (m.unlease id)) m
              leaseBook := (c.leaseBook.release holder lease.id).2},
            [.log .grantRolledBack])

section
variable [FloatOps F]

def psiOf (present : List (TenantView F)) (id : TenantId) : F :=
  ((present.find? fun t => t.id=id).map fun t => t.psi.avg10).getD FloatOps.zero

/-- A rebalancing move or its revert: drain the slice and note its destination. -/
def onMove (c : BrokerCore F D) (present : List (TenantView F)) (slice : SliceId)
    (fromTenant toTenant : TenantId) (now : ℕ) : BrokerCore F D × List (Outbound F D) :=
  match c.sliceMap.drain slice with
  | .error _ => (c,[])
  | .ok m =>
    let c := { c with
      sliceMap := m
      pendingDest := c.pendingDest.insert slice toTenant
      lastRebalance := some now}
    (c,.log (.moved slice fromTenant (psiOf present fromTenant) toTenant (psiOf present toTenant))::
      c.toTenant fromTenant (.swapOff slice))

def applyAction (c : BrokerCore F D) (present : List (TenantView F)) (now : ℕ) :
    Action → BrokerCore F D × List (Outbound F D)
  | .assignFree slice toTenant =>
    match c.sliceMap.assign slice toTenant with
    | .error _ => (c,[])
    | .ok m =>
      let c := {c with sliceMap := m}
      (c,.log (.assigned slice toTenant)::c.emitSwapon slice toTenant)
  | .moveSlice slice fromTenant toTenant => c.onMove present slice fromTenant toTenant now
  | .revertMove slice fromTenant toTenant => c.onMove present slice fromTenant toTenant now
  | .revokeForLease slice fromTenant =>
    match c.sliceMap.drain slice with
    | .error _ => (c,[])
    | .ok m =>
      let c := {c with sliceMap := m}
      (c,.log (.revoked slice fromTenant)::c.toTenant fromTenant (.swapOff slice))
  | .grantLease holder slices => c.onGrantLease holder slices now

def applyActions (present : List (TenantView F)) (now : ℕ) :
    List Action → BrokerCore F D → BrokerCore F D × List (Outbound F D)
  | [], c => (c,[])
  | a::as, c =>
    let (c,out) := c.applyAction present now a
    let (c,rest) := applyActions present now as c
    (c,out++rest)

def tickArbiter (c : BrokerCore F D) (now : ℕ) : BrokerCore F D × List (Outbound F D) :=
  let present := c.presentViews
  let pendingLease := c.leaseBook.pending.map fun p => (p.holder,p.requestedBytes)
  let (result,arbiter) := c.arbiter.tick now present c.visibleSlices pendingLease
  let c := {c with arbiter := arbiter}
  match result with
  | .error e => (c,[.log (.arbiterError e)])
  | .ok actions => applyActions present now actions c

end

/-- One stuck slice: count the tick, complain at the limit, order the zeroing again. -/
def retryZero : BrokerCore F D × List (Outbound F D) :=
  match c.pendingZero[slice]? with
  | none => (c,[])
  | some n =>
    let count := wrappingAdd 32 n 1
    let c := {c with pendingZero := c.pendingZero.insert slice count}
    let stuck := if count=zeroRetryError then [.log (.zeroStuck slice)] else []
    let order :=
      if zeroRetryGrace<count then
        (c.sliceMap.get slice).elim [] fun s => [.zeroSlice slice s.offset s.len]
      else []
    (c,stuck++order)

def retryAll : List SliceId → BrokerCore F D → BrokerCore F D × List (Outbound F D)
  | [], c => (c,[])
  | slice::rest, c =>
    let (c,out) := c.retryZero slice
    let (c,outs) := retryAll rest c
    (c,out++outs)

def retryStuckZeroing (order : KeyOrder) : BrokerCore F D × List (Outbound F D) :=
  retryAll (order.arrange c.pendingZero.keys) c

def emitTelemetry [FloatOps D] (c : BrokerCore F D) (sensors : Sensors) :
    BrokerCore F D × List (Outbound F D) :=
  let allocActive := ((c.sliceMap.slices.filter fun s =>
    s.state=.active || s.state=.draining).map Slice.len).foldl (saturatingAdd 64) 0
  let tenants := c.tenants.toList.map Prod.snd
  let occupied := (tenants.map TenantState.occupiedBytes).foldl (saturatingAdd 64) 0
  let mems := tenants.filterMap TenantState.mem
  let pageIo :=
    if mems.isEmpty then none
    else some ((mems.map TenantMem.diskstatsIo).foldl (saturatingAdd 64) 0)
  let hasVram := 0<sensors.total
  let vramAllocDaemon := saturatingAdd 64 allocActive canaryBytes
  let vramTotalUsed := if hasVram then some (sensors.total-sensors.free) else none
  let vramOthers := vramTotalUsed.map fun u => vramOutros u vramAllocDaemon
  let demotesDelta := c.demotesTotal-c.demotesAtLastSample
  let stuckDraining := c.pendingZero.toList.any fun x => zeroRetryError≤x.2
  let anyPresent := tenants.any TenantState.present
  let (delta,candidate) := reconcile
    ⟨allocActive,occupied,stuckDraining,demotesDelta,!hasVram || !anyPresent⟩ c.tolFrac
  let reconCount :=
    if candidate=c.reconFlag then saturatingAdd 32 c.reconCount 1 else 1
  let confirmed :=
    match candidate with
    | .eviction => .eviction
    | .none => .none
    | sustained => if c.reconStreak ≤ reconCount then sustained else .none
  ({ c with
      demotesAtLastSample := c.demotesTotal
      reconFlag := candidate
      reconCount := reconCount},
    (if confirmed=.none then []
      else [.log (.reconcile confirmed delta c.lastDemoteReason)]) ++
    [.telemetry
      { tenant := none
        slice := none
        swapUsed := occupied
        allocActive := allocActive
        pageIoS := pageIo
        vramAllocDaemon := vramAllocDaemon
        vramTotalUsed := vramTotalUsed
        vramOutros := vramOthers
        canarioDemotes := c.demotesTotal
        demoteReason := c.lastDemoteReason
        reconcileDelta := delta
        flag := confirmed}])

def expireLease (now : ℕ) : BrokerCore F D × List (Outbound F D) :=
  let (expired,book) := c.leaseBook.expire now
  let c := {c with leaseBook := book}
  match expired with
  | none => (c,[])
  | some lease =>
    let (c,out) := c.releaseSlices lease.id
    (c,.log (.leaseExpired lease.id)::out)

variable [FloatOps F] [FloatOps D] [DebugMsg F]

def onTick (c : BrokerCore F D) (now : ℕ) (sensors : Sensors) (order : KeyOrder) :
    BrokerCore F D × List (Outbound F D) :=
  let (c,out₁) := c.expireLease now
  let (c,out₂) := c.tickArbiter now
  let (c,out₃) := c.retryStuckZeroing order
  let (c,out₄) := c.emitTelemetry sensors
  (c,out₁++out₂++out₃++out₄)

def handle (c : BrokerCore F D) (i : Input F) : BrokerCore F D × List (Outbound F D) :=
  match i.event with
  | .msg sid m => c.onMsg sid m i.now i.sensors
  | .disconnected sid => c.onDisconnect sid
  | .zeroDone slice ok => c.onZeroDone slice ok
  | .demote reason => c.onDemote reason
  | .tick => c.onTick i.now i.sensors i.order

def step (c : BrokerCore F D) (i : Input F) : BrokerCore F D := (c.handle i).1

end BrokerCore
end RamShared.Broker

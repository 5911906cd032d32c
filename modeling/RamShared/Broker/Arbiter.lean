import RamShared.Broker.Protocol
import Mathlib.Data.List.Sort

/-! The arbiter: a pure policy that proposes movements of slices. -/
namespace RamShared.Broker
open Lib

structure ArbiterConfig (F : Type) where
  deltaPsi : F
  streak : ℕ
  cooldown : ℕ
  psiFloor : F
  cfWindow : ℕ
  cfFactor : F
  cfCooldown : ℕ

def ArbiterConfig.default {F : Type} [FloatOps F] : ArbiterConfig F where
  deltaPsi := FloatOps.ofNat 10
  streak := 5
  cooldown := 60*10^9
  psiFloor := FloatOps.ofNat 5
  cfWindow := 60*10^9
  cfFactor := FloatOps.ofNat 2
  cfCooldown := 300*10^9

inductive ArbiterError
  | leaseConflict
  | leaseExpired
  | notOwner
  deriving DecidableEq, Repr

structure TenantView (F : Type) where
  id : TenantId
  psi : PsiSample F
  slices : ℕ

inductive Action
  | assignFree (slice : SliceId) (toTenant : TenantId)
  | moveSlice (slice : SliceId) (fromTenant toTenant : TenantId)
  | revertMove (slice : SliceId) (fromTenant toTenant : TenantId)
  | revokeForLease (slice : SliceId) (fromTenant : TenantId)
  | grantLease (holder : TenantId) (slices : List SliceId)
  deriving DecidableEq, Repr

structure MoveRecord (F : Type) where
  slice : SliceId
  fromTenant : TenantId
  toTenant : TenantId
  movedAt : ℕ
  fromPsiAtMove : F

structure Arbiter (F : Type) where
  cfg : ArbiterConfig F
  streak : ℕ
  lastMove : Option (MoveRecord F)
  cooldownUntil : Option ℕ
  rrCursor : ℕ

section
variable {F : Type}

def ownerPsi (tenants : List (TenantView F)) (id : TenantId) : Option F :=
  (tenants.find? fun t => t.id=id).map fun t => t.psi.avg10

def firstActiveOf (slices : List Slice) (owner : TenantId) : Option SliceId :=
  (slices.find? fun s => s.state=.active && s.tenant=some owner).map Slice.id

variable [FloatOps F]

def byPsi (a b : F) : Ordering :=
  if FloatOps.lt a b then .lt else if FloatOps.lt b a then .gt else .eq

def maxBy {α : Type} (cmp : α → α → Ordering) : List α → Option α
  | [] => none
  | x::xs => some (xs.foldl (fun x y => if cmp x y=.gt then x else y) x)

def minBy {α : Type} (cmp : α → α → Ordering) : List α → Option α
  | [] => none
  | x::xs => some (xs.foldl (fun x y => if cmp x y=.gt then y else x) x)

variable (tenants : List (TenantView F)) (a : Arbiter F) (slices : List Slice) (now : ℕ)

namespace Arbiter

def new (cfg : ArbiterConfig F) : Arbiter F := ⟨cfg,0,none,none,0⟩

def cooldownActive : Bool := a.cooldownUntil.any fun u => now<u

/-- The most pressured receiver, the least pressured donor with a slice, the differential. -/
def pressurePair : Option (TenantView F × TenantView F × F) :=
  (maxBy (fun a b => byPsi a.psi.avg10 b.psi.avg10) tenants).bind fun receiver =>
    (minBy (fun a b => byPsi a.psi.avg10 b.psi.avg10)
      (tenants.filter fun t => 1≤t.slices && t.id≠receiver.id)).map fun donor =>
        (receiver,donor,FloatOps.sub receiver.psi.avg10 donor.psi.avg10)

def idsIn (state : SliceState) : List SliceId :=
  (slices.filter fun s => s.state=state).map Slice.id

def revocable : List (SliceId × TenantId × F) :=
  ((slices.filter fun s => s.state=.active).filterMap fun s =>
      s.tenant.map fun t => (s.id,t,(ownerPsi tenants t).getD FloatOps.zero)).insertionSort
    fun a b => (byPsi a.2.2 b.2.2).then (compare a.1 b.1)≠.gt

/-- A pending lease has priority over everything else. -/
def leaseActions (sliceLen : ℕ) (holder : TenantId) (bytes : ℕ) : Except ArbiterError (List Action) :=
  if sliceLen=0 ∨ bytes=0 then .ok []
  else
    let need := divCeil bytes sliceLen
    let leased := idsIn slices .leased
    if leased.any fun id =>
        ((slices.find? fun s => s.id=id).bind Slice.tenant)≠some holder then
      .error .leaseConflict
    else
      let free := idsIn slices .free
      let available := leased.length+free.length
      if available<need then
        .ok (((revocable tenants slices).take (need-available)).map fun x =>
          .revokeForLease x.1 x.2.1)
      else .ok [.grantLease holder ((leased++free).take need)]

/-- Step 2: give a slice back if its former owner suffers. The flag says that it did. -/
def counterfactual (tenants : List (TenantView F)) : List Action × Bool × Arbiter F :=
  match a.lastMove with
  | none => ([],false,a)
  | some r =>
    if a.cfg.cfWindow<now-r.movedAt then ([],false,{a with lastMove := none})
    else
      match ownerPsi tenants r.fromTenant with
      | none => ([],false,a)
      | some fromNow =>
        if FloatOps.lt (FloatOps.mul a.cfg.cfFactor r.fromPsiAtMove) fromNow &&
            FloatOps.lt a.cfg.psiFloor fromNow then
          ([.revertMove r.slice r.toTenant r.fromTenant],true,
            {a with lastMove := none, cooldownUntil := some (now+a.cfg.cfCooldown), streak := 0})
        else ([],false,a)

def countStreak (pair : Option (TenantView F × TenantView F × F)) : Arbiter F :=
  if pair.any fun p => FloatOps.lt a.cfg.deltaPsi p.2.2 then
    {a with streak := wrappingAdd 32 a.streak 1}
  else {a with streak := 0}

/-- Steps 3 and 4: move a slice from the donor to the receiver. -/
def differential (slices : List Slice)
    (pair : Option (TenantView F × TenantView F × F)) (moved : Bool) : List Action × Arbiter F :=
  let hasFree := slices.any fun s => s.state=.free
  if !moved && a.cfg.streak≤a.streak && !a.cooldownActive now && !hasFree then
    match pair with
    | none => ([],a)
    | some (receiver,donor,_) =>
      if FloatOps.lt a.cfg.psiFloor donor.psi.avg10 && donor.slices≤1 then ([],a)
      else
        match firstActiveOf slices donor.id with
        | none => ([],a)
        | some slice =>
          ([.moveSlice slice donor.id receiver.id],
            { a with
              lastMove := some ⟨slice,donor.id,receiver.id,now,donor.psi.avg10⟩
              cooldownUntil := some (now+a.cfg.cooldown)
              streak := 0})
  else ([],a)

def roundRobin (tenants : List (TenantView F)) : List Slice → ℕ → List Action × ℕ
  | [], cursor => ([],cursor)
  | s::rest, cursor =>
    if s.state=.free then
      match tenants[cursor%tenants.length]? with
      | none => ([],cursor)
      | some t =>
        let (actions,cursor) := roundRobin tenants rest (wrappingAdd 64 cursor 1)
        (.assignFree s.id t.id::actions,cursor)
    else roundRobin tenants rest cursor

def tick (tenants : List (TenantView F)) (slices : List Slice)
    (pendingLease : Option (TenantId × ℕ)) : Except ArbiterError (List Action) × Arbiter F :=
  let sliceLen := (slices.head?.map Slice.len).getD 0
  match pendingLease with
  | some (holder,bytes) => (leaseActions tenants slices sliceLen holder bytes,a)
  | none =>
    let (reverts,moved,a) := a.counterfactual now tenants
    let pair := pressurePair tenants
    let a := a.countStreak pair
    let (moves,a) := a.differential now slices pair moved
    if tenants.isEmpty then (.ok (reverts++moves),a)
    else
      let (assigns,cursor) := roundRobin tenants slices a.rrCursor
      (.ok (reverts++moves++assigns),{a with rrCursor := cursor})

end Arbiter
end
end RamShared.Broker

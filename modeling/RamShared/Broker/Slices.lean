import RamShared.Lib.Word

/-! The partition of the device into slices with the state machine of each, and the book of logical
leases: at most one request or one lease at a time. -/
namespace RamShared.Broker
open Lib

abbrev TenantId := ℕ
abbrev SliceId := ℕ

inductive SliceState
  | free
  | active
  | draining
  | leased
  deriving DecidableEq, Repr

structure Slice where
  id : SliceId
  offset : ℕ
  len : ℕ
  tenant : Option TenantId
  state : SliceState
  deriving DecidableEq, Repr

def maxSlices : ℕ := 256

inductive SliceError
  | unknownSlice
  | badState (state : SliceState)
  | tooManySlices (requested max : ℕ)
  | capacityExceeded (required available : ℕ)
  | alreadyAllocated
  deriving DecidableEq, Repr

/-- `SliceMap`. Slice number `i` carries the id `i`: `new` numbers them, and no operation
changes an id. -/
structure SliceMap where
  slices : List Slice
  ids : slices.map Slice.id = List.range slices.length

variable (m : SliceMap) (id : SliceId)

namespace SliceMap

def new (k sliceBytes backingBytes : ℕ) : Except SliceError SliceMap :=
  if maxSlices<k then .error (.tooManySlices k maxSlices)
  else
    match checkedMul 64 k sliceBytes with
    | none => .error (.capacityExceeded (2^64-1) backingBytes)
    | some required =>
      if backingBytes < required then .error (.capacityExceeded required backingBytes)
      else
        .ok
          { slices := (List.range k).map fun i =>
              ⟨i,wrappingMul 64 i sliceBytes,sliceBytes,none,.free⟩
            ids := by rw [List.map_map,List.length_map,List.length_range]; exact List.map_id _}

def totalBytes : ℕ := (m.slices.map Slice.len).sum%2^64

def get : Option Slice := m.slices.find? fun s => s.id=id

def put (state : SliceState) (tenant : Option TenantId) : SliceMap where
  slices := m.slices.map fun s =>
    if s.id=id then {s with state := state, tenant := tenant} else s
  ids := by
    rw [List.map_map,List.length_map,←m.ids]
    refine List.map_congr_left fun s _ => ?_
    simp only [Function.comp_apply]
    split_ifs <;> rfl

/-- Move a slice from `source` to `target`; `refuse` is the error if it is in another state. -/
def transition (source target : SliceState)
    (refuse : SliceState → SliceError) (owner : Option TenantId → Option TenantId) :
    Except SliceError SliceMap :=
  match m.get id with
  | none => .error .unknownSlice
  | some s =>
    if s.state≠source then .error (refuse s.state) else .ok (m.put id target (owner s.tenant))

def assign (tenant : TenantId) : Except SliceError SliceMap :=
  m.transition id .free .active (fun _ => .alreadyAllocated) fun _ => some tenant

def drain : Except SliceError SliceMap :=
  m.transition id .active .draining .badState fun t => t

def release : Except SliceError SliceMap :=
  m.transition id .draining .free .badState fun _ => none

def lease : Except SliceError SliceMap :=
  m.transition id .free .leased (fun _ => .alreadyAllocated) fun t => t

def unlease : Except SliceError SliceMap :=
  m.transition id .leased .free .badState fun t => t

variable {m : SliceMap} {id : SliceId} {s : Slice}

lemma id_of_get (h : m.get id=some s) : s.id=id := by
  simpa using List.find?_some h

lemma mem_of_get (h : m.get id=some s) : s∈m.slices := List.mem_of_find?_eq_some h

lemma id_of_getElem? {i : ℕ} (h : m.slices[i]?=some s) : s.id=i := by
  have hi := congrArg (fun l : List ℕ => l[i]?) m.ids
  simp only [List.getElem?_map,h,Option.map_some] at hi
  obtain ⟨_,hi⟩ := List.getElem?_eq_some_iff.mp hi.symm
  rw [List.getElem_range] at hi
  exact hi.symm

lemma get_eq_getElem? (m : SliceMap) (id : SliceId) : m.get id = m.slices[id]? := by
  rcases hg : m.get id with _ | s
  · symm
    rw [List.getElem?_eq_none_iff]
    by_contra hlt
    have hs : m.slices[id]?=some (m.slices[id]) := List.getElem?_eq_getElem (by omega)
    have hn := List.find?_eq_none.mp hg _ (List.mem_of_getElem? hs)
    exact hn (by simpa using id_of_getElem? hs)
  · obtain ⟨i,hi⟩ := List.mem_iff_getElem?.mp (mem_of_get hg)
    rw [←id_of_getElem? hi,id_of_get hg] at hi
    exact hi.symm

lemma get_put (m : SliceMap) (id j : SliceId) (state : SliceState) (tenant : Option TenantId) :
    (m.put id state tenant).get j =
      if j=id then (m.get id).map fun s => {s with state := state, tenant := tenant}
      else m.get j := by
  unfold get put
  rw [List.find?_map]
  have hp : ((fun s : Slice => decide (s.id=j)) ∘ fun s : Slice =>
      if s.id=id then {s with state := state, tenant := tenant} else s) =
        fun s => decide (s.id=j) := by
    funext s
    simp only [Function.comp_apply]
    split_ifs <;> rfl
  rw [hp]
  by_cases hj : j=id
  · subst hj
    rw [if_pos rfl]
    refine Option.map_congr fun s hs => if_pos ?_
    simpa using List.find?_some hs
  · rw [if_neg hj]
    refine (Option.map_congr fun s hs => if_neg ?_).trans Option.map_id'
    have hid : s.id=j := by simpa using List.find?_some hs
    rwa [hid]

lemma transition_eq_ok {m' : SliceMap} {source target : SliceState}
    {refuse : SliceState → SliceError} {owner : Option TenantId → Option TenantId}
    (h : m.transition id source target refuse owner=.ok m') :
    ∃ s, m.get id=some s ∧ s.state=source ∧ m' = m.put id target (owner s.tenant) := by
  unfold transition at h
  split at h
  · cases h
  · rename_i s hs
    split_ifs at h with hst
    cases h
    exact ⟨s,hs,not_not.mp hst,rfl⟩

lemma getElem?_new {k sliceBytes backingBytes : ℕ} (h : new k sliceBytes backingBytes=.ok m)
    {i : ℕ} (hs : m.slices[i]?=some s) :
    s.offset = i*sliceBytes ∧ s.len=sliceBytes ∧ i*sliceBytes+sliceBytes≤backingBytes ∧
      i*sliceBytes+sliceBytes<2^64 := by
  unfold new at h
  split_ifs at h
  split at h
  · cases h
  · rename_i required hr
    obtain ⟨hlt,rfl⟩ := checkedMul_eq_some.mp hr
    split_ifs at h with hle
    cases h
    rw [List.getElem?_map] at hs
    obtain ⟨x,hx,rfl⟩ := Option.map_eq_some_iff.mp hs
    obtain ⟨hi,rfl⟩ := List.getElem?_eq_some_iff.mp hx
    rw [List.length_range] at hi
    have hle' : (i+1)*sliceBytes≤k*sliceBytes := Nat.mul_le_mul_right _ hi
    rw [Nat.add_mul,Nat.one_mul] at hle'
    simp only [List.getElem_range,wrappingMul]
    refine ⟨Nat.mod_eq_of_lt (by omega),trivial,by omega,by omega⟩

end SliceMap

/-- `Instant::checked_add`, with instants and durations in nanoseconds: the seconds must fit a
signed 64-bit number. -/
def instantAdd (now ttl : ℕ) : Option ℕ :=
  if now+ttl<2^63*10^9 then some (now+ttl) else none

structure PendingLease where
  holder : TenantId
  requestedBytes : ℕ
  deriving DecidableEq, Repr

structure LogicalLease where
  id : ℕ
  holder : TenantId
  bytes : ℕ
  deriving DecidableEq, Repr

inductive LeaseDeny
  | zeroBytes
  | overCapacity
  | alreadyHeld
  | wrongHolder
  | wrongLease
  | insufficientGrant
  | leaseIdExhausted
  | invalidTtl
  | deadlineOverflow
  deriving DecidableEq, Repr

inductive LeaseDecision
  | pending (lease : PendingLease)
  | denied (reason : LeaseDeny)
  deriving DecidableEq, Repr

structure LeaseDisconnect where
  cancelledPending : Bool
  retainedActive : Option LogicalLease
  deriving DecidableEq, Repr

structure ActiveLease where
  lease : LogicalLease
  deadline : ℕ
  deriving DecidableEq, Repr

structure LeaseBook where
  capacityBytes : ℕ
  nextId : ℕ
  pending : Option PendingLease
  active : Option ActiveLease
  deriving DecidableEq, Repr

variable (b : LeaseBook) (holder : TenantId)

namespace LeaseBook

def new (capacityBytes : ℕ) : LeaseBook := ⟨capacityBytes,1,none,none⟩

def beginRequest (bytes : ℕ) : LeaseDecision × LeaseBook :=
  if bytes=0 then (.denied .zeroBytes,b)
  else if b.capacityBytes<bytes then (.denied .overCapacity,b)
  else if b.pending.isSome ∨ b.active.isSome then (.denied .alreadyHeld,b)
  else (.pending ⟨holder,bytes⟩,{b with pending := some ⟨holder,bytes⟩})

def grantPending (grantedBytes now ttl : ℕ) : Except LeaseDeny LogicalLease × LeaseBook :=
  if ttl=0 then (.error .invalidTtl,b)
  else
    match instantAdd now ttl with
    | none => (.error .deadlineOverflow,b)
    | some deadline =>
      match b.pending with
      | none => (.error .wrongLease,b)
      | some pending =>
        if grantedBytes<pending.requestedBytes ∨ b.capacityBytes<grantedBytes then
          (.error .insufficientGrant,b)
        else
          match checkedAdd 32 b.nextId 1 with
          | none => (.error .leaseIdExhausted,b)
          | some followingId =>
            let lease := ⟨b.nextId,pending.holder,grantedBytes⟩
            (.ok lease,{b with nextId := followingId, pending := none, active := some ⟨lease,deadline⟩})

def renewActive (now ttl : ℕ) : Bool × LeaseBook :=
  if ttl=0 then (false,b)
  else
    match instantAdd now ttl with
    | none => (false,b)
    | some deadline =>
      match b.active with
      | none => (false,b)
      | some active =>
        if active.lease.holder≠holder then (false,b)
        else (true,{b with active := some {active with deadline := deadline}})

def expire (now : ℕ) : Option LogicalLease × LeaseBook :=
  match b.active with
  | none => (none,b)
  | some active =>
    if active.deadline≤now then (some active.lease,{b with active := none}) else (none,b)

def cancelPending : Bool × LeaseBook :=
  match b.pending with
  | none => (false,b)
  | some p => if p.holder=holder then (true,{b with pending := none}) else (false,b)

def release (lease : ℕ) : Except LeaseDeny Bool × LeaseBook :=
  match b.active with
  | none => (.ok false,b)
  | some active =>
    if active.lease.holder≠holder then (.error .wrongHolder,b)
    else if active.lease.id≠lease then (.error .wrongLease,b)
    else (.ok true,{b with active := none})

def disconnect : LeaseDisconnect × LeaseBook :=
  let (cancelled,b) := b.cancelPending holder
  (⟨cancelled,(b.active.filter fun a => a.lease.holder=holder).map ActiveLease.lease⟩,b)

end LeaseBook

end RamShared.Broker

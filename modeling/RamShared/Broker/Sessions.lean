import RamShared.Broker.Assignment

/-! The session table and the records of the tenants. A tenant keeps its number over all its
sessions, and a session should stand for one tenant: nothing stops a connection from registering
twice. -/
namespace RamShared.Broker
open Lib

variable {t : TenantId}

section
variable {F D : Type}

/-- The session and the name of a registration in the right protocol version. -/
def CoreEvent.registers : CoreEvent F → Option (ℕ × String)
  | .msg sid (.register proto name _) => if proto=protoVersion then some (sid,name) else none
  | _ => none

def TenantState.entry (x : TenantState F) : String × Bool × Option ℕ := (x.name,x.present,x.sid)

variable (c : BrokerCore F D)

namespace BrokerCore

def entries (t : TenantId) : Option (String × Bool × Option ℕ) :=
  c.tenants[t]?.map TenantState.entry

def idOf (name : String) : TenantId := c.nameToId[name]?.getD c.nextTenant

lemma entries_of_get {c : BrokerCore F D} {x : TenantState F}
    (h : c.tenants[t]?=some x) : c.entries t=some x.entry := by
  simp [entries,h]

lemma exists_of_entries {c : BrokerCore F D} {n : String} {p : Bool}
    {k : Option ℕ} (h : c.entries t=some (n,p,k)) :
    ∃ x, c.tenants[t]?=some x ∧ x.name=n ∧ x.present=p ∧ x.sid=k := by
  obtain ⟨x,hx,he⟩ := Option.map_eq_some_iff.mp h
  cases he
  exact ⟨x,hx,rfl,rfl,rfl⟩

inductive Enrols (c c' : BrokerCore F D) : CoreEvent F → Prop
  | same {e : CoreEvent F} (hr : e.registers=none) (ht : ∀ t, c'.entries t = c.entries t)
      (hs : c'.sessions=c.sessions) (hn : c'.nameToId=c.nameToId)
      (hx : c'.nextTenant=c.nextTenant)
      (hd : ∀ sid, e=.disconnected sid → c.sessions[sid]?=none) : Enrols c c' e
  | refused {e : CoreEvent F} {sid k : ℕ} {name n : String} (hr : e.registers=some (sid,name))
      (hlive : c.entries (c.idOf name)=some (n,true,some k)) (hk : k≠sid)
      (ht : ∀ t, c'.entries t = c.entries t) (hs : c'.sessions=c.sessions)
      (hn : c'.nameToId = c.nameToId.insertIfNew name c.nextTenant)
      (hx : c'.nextTenant = if c.idOf name=c.nextTenant then wrappingAdd 32 c.nextTenant 1
        else c.nextTenant) : Enrols c c' e
  | joined {e : CoreEvent F} {sid : ℕ} {name : String} (hr : e.registers=some (sid,name))
      (hfree : ∀ n k, c.entries (c.idOf name)=some (n,true,some k) → k=sid)
      (ht : ∀ t, c'.entries t =
        if t = c.idOf name then some (name,true,some sid) else c.entries t)
      (hs : c'.sessions = c.sessions.insert sid (c.idOf name))
      (hn : c'.nameToId = c.nameToId.insertIfNew name c.nextTenant)
      (hx : c'.nextTenant = if c.idOf name=c.nextTenant then wrappingAdd 32 c.nextTenant 1
        else c.nextTenant) : Enrols c c' e
  | left {sid : ℕ} {id : TenantId} (hid : c.sessions[sid]?=some id)
      (ht : ∀ t, c'.entries t =
        if t=id then (c.entries t).map fun x => (x.1,false,none) else c.entries t)
      (hs : c'.sessions = c.sessions.erase sid) (hn : c'.nameToId=c.nameToId)
      (hx : c'.nextTenant=c.nextTenant) : Enrols c c' (.disconnected sid)

lemma recordPsi_entries (id : TenantId) (sample : PsiSample F)
    (swaps : List SwapEntry) (mem : Option TenantMem) (t : TenantId) :
    (c.recordPsi id sample swaps mem).1.entries t = c.entries t := by
  cases hx : c.tenants[id]? with
  | none => simp only [recordPsi,hx]
  | some x =>
    simp only [recordPsi,hx,entries,Std.TreeMap.getElem?_insert,Nat.compare_eq_eq]
    by_cases h : id=t
    · subst h
      simp [hx,TenantState.entry]
    · simp [h]

lemma onDisconnect_enrols (sid : ℕ) : Enrols c (c.onDisconnect sid).1 (.disconnected sid) := by
  cases hid : c.sessions[sid]? with
  | none =>
    have hc : (c.onDisconnect sid).1=c := by simp only [onDisconnect,hid]
    rw [hc]
    refine .same rfl (fun t => rfl) rfl rfl rfl fun k h => ?_
    cases h
    exact hid
  | some id =>
    refine .left hid (fun t => ?_) ?_ ?_ ?_ <;> simp only [onDisconnect,hid]
    simp only [entries,Std.TreeMap.getElem?_modify,Nat.compare_eq_eq]
    by_cases h : id=t
    · subst h
      simp only [if_true,Option.map_map]
      rfl
    · rw [if_neg h,if_neg (Ne.symm h)]

section
variable [FloatOps F]
variable (c : BrokerCore F D)

lemma onRegister_joined {sid : ℕ} {name : String} (transport : TransportKind)
    (hfree : ∀ n k, c.entries (c.idOf name)=some (n,true,some k) → k=sid) :
    let r := c.onRegister sid protoVersion name transport
    (∀ t, r.1.entries t = if t = c.idOf name then some (name,true,some sid) else c.entries t) ∧
    r.1.sessions = c.sessions.insert sid (c.idOf name) ∧
    r.1.nameToId = c.nameToId.insertIfNew name c.nextTenant ∧
    (r.1.nextTenant = if c.idOf name=c.nextTenant then wrappingAdd 32 c.nextTenant 1
      else c.nextTenant) ∧
    .toSession sid (.registered (c.idOf name))∈r.2 := by
  have hdup : ¬(c.tenants[c.idOf name]?.any
      fun t => t.present && t.sid.isSome && t.sid≠some sid)=true := by
    cases hx : c.tenants[c.idOf name]? with
    | none => simp
    | some x =>
      intro h
      simp only [Option.any_some,Bool.and_eq_true,decide_eq_true_eq] at h
      obtain ⟨⟨hp,hk⟩,hne⟩ := h
      obtain ⟨k,hk⟩ := Option.isSome_iff_exists.mp hk
      refine hne (hk.trans (congrArg some (hfree x.name k ?_)))
      simp [entries,hx,TenantState.entry,hp,hk]
  have hid : c.nameToId[name]?.getD c.nextTenant = c.idOf name := rfl
  unfold onRegister
  dsimp only
  rw [if_neg (not_not.mpr rfl),hid,if_neg hdup]
  refine ⟨fun t => ?_,rfl,rfl,rfl,by simp⟩
  simp only [entries,Std.TreeMap.getElem?_insert,Nat.compare_eq_eq]
  by_cases h : t = c.idOf name
  · simp [h,TenantState.entry]
  · simp [h,Ne.symm h]

lemma onRegister_refused {sid k : ℕ} {name n : String} (transport : TransportKind)
    (hlive : c.entries (c.idOf name)=some (n,true,some k)) (hk : k≠sid) :
    let c' := (c.onRegister sid protoVersion name transport).1
    c'.tenants=c.tenants ∧ c'.sessions=c.sessions ∧
    c'.nameToId = c.nameToId.insertIfNew name c.nextTenant ∧
    c'.nextTenant = if c.idOf name=c.nextTenant then wrappingAdd 32 c.nextTenant 1
      else c.nextTenant := by
  obtain ⟨x,hx,-,hp,hs⟩ := exists_of_entries hlive
  have hdup : (c.tenants[c.idOf name]?.any
      fun t => t.present && t.sid.isSome && t.sid≠some sid)=true := by
    simp [hx,hp,hs,hk]
  have hid : c.nameToId[name]?.getD c.nextTenant = c.idOf name := rfl
  unfold onRegister
  dsimp only
  rw [if_neg (not_not.mpr rfl),hid,if_pos hdup]
  exact ⟨rfl,rfl,rfl,rfl⟩

lemma onRegister_enrols (sid proto : ℕ) (name : String) (transport : TransportKind) :
    Enrols c (c.onRegister sid proto name transport).1 (.msg sid (.register proto name transport)) := by
  by_cases hp : proto=protoVersion
  · subst hp
    have hr : (CoreEvent.msg (F := F) sid (.register protoVersion name transport)).registers =
        some (sid,name) := by simp [CoreEvent.registers]
    by_cases hfree : ∀ n k, c.entries (c.idOf name)=some (n,true,some k) → k=sid
    · obtain ⟨ht,hs,hn,hx,-⟩ := c.onRegister_joined transport hfree
      exact .joined hr hfree ht hs hn hx
    · push Not at hfree
      obtain ⟨n,k,hlive,hk⟩ := hfree
      obtain ⟨ht,hs,hn,hx⟩ := c.onRegister_refused transport hlive hk
      exact .refused hr hlive hk (fun t => by rw [entries,ht,entries]) hs hn hx
  · have hc : (c.onRegister sid proto name transport).1=c := by simp [onRegister,hp]
    rw [hc]
    exact .same (if_neg hp) (fun t => rfl) rfl rfl rfl (fun k h => by cases h)

lemma onPsi_enrols (sid : ℕ) (sample : PsiSample F) (swaps : List SwapEntry)
    (mem : Option TenantMem) (now : ℕ) :
    Enrols c (c.onPsi sid sample swaps mem now).1 (.msg sid (.psi sample swaps mem)) := by
  refine .same rfl (fun t => ?_) (c.onPsi_sessions sid sample swaps mem now) ?_ ?_
    (fun k h => by cases h)
  · cases hid : c.sessions[sid]? with
    | none => simp only [onPsi,hid]
    | some id =>
      have hrec := c.recordPsi_entries id sample swaps mem t
      simp only [onPsi,hid,entries,Std.TreeMap.getElem?_modify] at hrec ⊢
      rw [←hrec]
      split_ifs with h
      · obtain rfl := Nat.compare_eq_eq.mp h
        simp only [Option.map_map]
        rfl
      · rfl
  all_goals
    simp only [onPsi,recordPsi]
    split
    · rfl
    · split <;> rfl

end

section
variable [FloatOps F] [FloatOps D] [DebugMsg F]
variable (c : BrokerCore F D)

lemma step_enrols (i : Input F) : Enrols c (c.step i) i.event := by
  rcases i with ⟨e,now,sensors,order⟩
  have hsame (hr : e.registers=none) (hd : ∀ sid, e≠.disconnected sid)
      (ht : (c.step ⟨e,now,sensors,order⟩).tenants=c.tenants ∧
        (c.step ⟨e,now,sensors,order⟩).sessions=c.sessions ∧
        (c.step ⟨e,now,sensors,order⟩).nameToId=c.nameToId ∧
        (c.step ⟨e,now,sensors,order⟩).nextTenant=c.nextTenant) :
      Enrols c (c.step ⟨e,now,sensors,order⟩) e :=
    .same hr (fun t => by rw [entries,ht.1,entries]) ht.2.1 ht.2.2.1 ht.2.2.2
      fun sid h => absurd h (hd sid)
  have hrest (ht : e≠.tick) (hs : e.ofSession=false) (hr : e.registers=none)
      (hd : ∀ sid, e≠.disconnected sid) : Enrols c (c.step ⟨e,now,sensors,order⟩) e :=
    hsame hr hd ((c.step_spec ⟨e,now,sensors,order⟩ ht).2.2 hs)
  cases e with
  | msg sid m =>
    cases m
    case register proto name transport => exact c.onRegister_enrols sid proto name transport
    case psi sample swaps mem => exact c.onPsi_enrols sid sample swaps mem now
    all_goals exact hrest (by simp) rfl rfl (by simp)
  | disconnected sid => exact c.onDisconnect_enrols sid
  | tick =>
    exact hsame rfl (by simp) (c.step_tick_tenants now sensors order)
  | _ => exact hrest (by simp) rfl rfl (by simp)

end

/-- A session is used for one name only, and the counter of the tenants does not overflow. -/
def OneName (i : Input F) : Prop :=
  ∀ r∈i.event.registers, (∀ t∈c.sessions[r.1]?, c.nameToId[r.2]?=some t) ∧
    (c.nameToId[r.2]?=none → c.nextTenant+1<2^32)

instance (i : Input F) : Decidable (c.OneName i) :=
  inferInstanceAs (Decidable (∀ r∈i.event.registers, _ ∧ _))

structure Enrolled (c : BrokerCore F D) : Prop where
  session {sid : ℕ} {t : TenantId} (h : c.sessions[sid]?=some t) :
    ∃ n, c.entries t=some (n,true,some sid)
  record {t : TenantId} {n : String} {p : Bool} {sid : ℕ} (h : c.entries t=some (n,p,some sid)) :
    p=true ∧ c.sessions[sid]?=some t
  named {t : TenantId} {n : String} {p : Bool} {k : Option ℕ} (h : c.entries t=some (n,p,k)) :
    c.nameToId[n]?=some t
  below {n : String} {t : TenantId} (h : c.nameToId[n]?=some t) : t<c.nextTenant
  distinct {n n' : String} {t : TenantId} (h : c.nameToId[n]?=some t)
    (h' : c.nameToId[n']?=some t) : n=n'

lemma enrolled_new (m : SliceMap) (cfg : BrokerCoreConfig F D) : (new m cfg).Enrolled := by
  constructor <;> simp [new,entries]

namespace Enrolled
variable {c c' : BrokerCore F D}

lemma of_eq (hc : c.Enrolled) (ht : ∀ t, c'.entries t = c.entries t)
    (hs : c'.sessions=c.sessions) (hn : c'.nameToId=c.nameToId)
    (hx : c'.nextTenant=c.nextTenant) : c'.Enrolled := by
  constructor <;> simp only [ht,hs,hn,hx]
  · exact hc.session
  · exact hc.record
  · exact hc.named
  · exact hc.below
  · exact hc.distinct

variable {name : String} {sid : ℕ}

variable (hc : c.Enrolled)
include hc

lemma idOf_eq {n : String} (h : c.nameToId[n]?=some (c.idOf name)) : n=name := by
  cases hk : c.nameToId[name]? with
  | some id => exact hc.distinct h (by simp [idOf,hk])
  | none =>
    have hlt := hc.below h
    simp [idOf,hk] at hlt

lemma names (hnew : c.nameToId[name]?=none → c.nextTenant+1<2^32)
    (hn : c'.nameToId = c.nameToId.insertIfNew name c.nextTenant)
    (hx : c'.nextTenant = if c.idOf name=c.nextTenant then wrappingAdd 32 c.nextTenant 1
      else c.nextTenant) : (∀ n t, c'.nameToId[n]?=some t ↔ c.nameToId[n]?=some t ∨ n=name ∧ t = c.idOf name) ∧
    c.nextTenant ≤ c'.nextTenant ∧ c.idOf name<c'.nextTenant := by
  cases hk : c.nameToId[name]? with
  | some id =>
    have hid : c.idOf name=id := by simp [idOf,hk]
    have hlt := hc.below hk
    have hmem : name∈c.nameToId := by
      rw [Std.TreeMap.mem_iff_isSome_getElem?,hk]
      rfl
    rw [hid,if_neg hlt.ne] at hx
    refine ⟨fun n t => ?_,hx.ge,by rwa [hid,hx]⟩
    rw [hn,Std.TreeMap.getElem?_insertIfNew,if_neg (by simp [hmem]),hid]
    constructor
    · exact .inl
    · rintro (h | ⟨rfl,rfl⟩)
      · exact h
      · exact hk
  | none =>
    have hid : c.idOf name=c.nextTenant := by simp [idOf,hk]
    have hmem : name∉c.nameToId := by
      rw [Std.TreeMap.mem_iff_isSome_getElem?,hk]
      simp
    rw [if_pos hid,wrappingAdd,Nat.mod_eq_of_lt (hnew hk)] at hx
    refine ⟨fun n t => ?_,by simp [hx],by simp [hid,hx]⟩
    rw [hn,Std.TreeMap.getElem?_insertIfNew,hid]
    by_cases hnn : name=n
    · subst hnn
      simp [hmem,eq_comm]
    · simp [hnn,Ne.symm hnn]

lemma register (hnew : c.nameToId[name]?=none → c.nextTenant+1<2^32)
    (hn : c'.nameToId = c.nameToId.insertIfNew name c.nextTenant)
    (hx : c'.nextTenant = if c.idOf name=c.nextTenant then wrappingAdd 32 c.nextTenant 1 else c.nextTenant)
    (hsession : ∀ {sid t}, c'.sessions[sid]?=some t → ∃ n, c'.entries t=some (n,true,some sid))
    (hrecord : ∀ {t n p sid}, c'.entries t=some (n,p,some sid) →
      p=true ∧ c'.sessions[sid]?=some t) (hnamed : ∀ {t n p k}, c'.entries t=some (n,p,k) →
      c.nameToId[n]?=some t ∨ n=name ∧ t = c.idOf name) : c'.Enrolled := by
  obtain ⟨hiff,hle,hlt⟩ := hc.names hnew hn hx
  refine ⟨hsession,hrecord,fun h => (hiff _ _).mpr (hnamed h),fun h => ?_,fun h h' => ?_⟩
  · rcases (hiff _ _).mp h with h | ⟨-,rfl⟩
    · exact (hc.below h).trans_le hle
    · exact hlt
  · rcases (hiff _ _).mp h with h | ⟨rfl,rfl⟩ <;> rcases (hiff _ _).mp h' with h' | ⟨hn',ht'⟩
    · exact hc.distinct h h'
    · subst hn' ht'
      exact hc.idOf_eq h
    · exact (hc.idOf_eq h').symm
    · exact hn'.symm

lemma joined (hone : ∀ t, c.sessions[sid]?=some t → c.nameToId[name]?=some t)
    (hnew : c.nameToId[name]?=none → c.nextTenant+1<2^32)
    (hfree : ∀ n k, c.entries (c.idOf name)=some (n,true,some k) → k=sid)
    (ht : ∀ t, c'.entries t = if t = c.idOf name then some (name,true,some sid) else c.entries t)
    (hs : c'.sessions = c.sessions.insert sid (c.idOf name))
    (hn : c'.nameToId = c.nameToId.insertIfNew name c.nextTenant)
    (hx : c'.nextTenant = if c.idOf name=c.nextTenant then wrappingAdd 32 c.nextTenant 1
      else c.nextTenant) : c'.Enrolled := by
  have hget (k : ℕ) : c'.sessions[k]? =
      if k=sid then some (c.idOf name) else c.sessions[k]? := by
    rw [hs,Std.TreeMap.getElem?_insert]
    simp only [Nat.compare_eq_eq,eq_comm (a := sid)]
  refine hc.register hnew hn hx (fun {k t} h => ?_) (fun {t n p k} h => ?_) (fun {t n p k} h => ?_)
  · rw [hget] at h
    rw [ht]
    split_ifs at h with hk
    · cases h
      exact ⟨name,by rw [if_pos rfl,hk]⟩
    · obtain ⟨n,hn⟩ := hc.session h
      have hne : t ≠ c.idOf name := fun he => hk (hfree n k (he ▸ hn))
      exact ⟨n,by rw [if_neg hne,hn]⟩
  · rw [ht] at h
    rw [hget]
    split_ifs at h with htid
    · cases h
      exact ⟨rfl,by rw [if_pos rfl,htid]⟩
    · obtain ⟨hp,hk⟩ := hc.record h
      have hne : k≠sid := by
        rintro rfl
        exact htid (by simp [idOf,hone t hk])
      exact ⟨hp,by rw [if_neg hne,hk]⟩
  · rw [ht] at h
    split_ifs at h with htid
    · cases h
      exact .inr ⟨rfl,htid⟩
    · exact .inl (hc.named h)

lemma left {id : TenantId} (hid : c.sessions[sid]?=some id) (ht : ∀ t, c'.entries t =
      if t=id then (c.entries t).map fun x => (x.1,false,none) else c.entries t)
    (hs : c'.sessions = c.sessions.erase sid) (hn : c'.nameToId=c.nameToId)
    (hx : c'.nextTenant=c.nextTenant) : c'.Enrolled := by
  have hget (k : ℕ) : c'.sessions[k]? = if k=sid then none else c.sessions[k]? := by
    rw [hs,Std.TreeMap.getElem?_erase]
    simp only [Nat.compare_eq_eq,eq_comm (a := sid)]
  constructor
  · intro k t h
    rw [hget] at h
    split_ifs at h with hk
    obtain ⟨n,hn⟩ := hc.session h
    have hne : t≠id := by
      rintro rfl
      obtain ⟨n',hn'⟩ := hc.session hid
      rw [hn] at hn'
      cases hn'
      exact hk rfl
    exact ⟨n,by rw [ht,if_neg hne,hn]⟩
  · intro t n p k h
    rw [ht] at h
    split_ifs at h with htid
    · obtain ⟨x,-,hx⟩ := Option.map_eq_some_iff.mp h
      cases hx
    · obtain ⟨hp,hk⟩ := hc.record h
      have hne : k≠sid := by
        rintro rfl
        rw [hid] at hk
        exact htid (Option.some.inj hk).symm
      exact ⟨hp,by rw [hget,if_neg hne,hk]⟩
  · intro t n p k h
    rw [hn]
    rw [ht] at h
    split_ifs at h with htid
    · obtain ⟨⟨n',p',k'⟩,hx,he⟩ := Option.map_eq_some_iff.mp h
      cases he
      exact hc.named hx
    · exact hc.named h
  · rw [hn,hx]
    exact hc.below
  · rw [hn]
    exact hc.distinct

lemma of_enrols {e : CoreEvent F} (h : Enrols c c' e)
    (hone : ∀ r∈e.registers, (∀ t∈c.sessions[r.1]?, c.nameToId[r.2]?=some t) ∧
      (c.nameToId[r.2]?=none → c.nextTenant+1<2^32)) : c'.Enrolled := by
  cases h with
  | same hr ht hs hn hx hd => exact hc.of_eq ht hs hn hx
  | refused hr hlive hk ht hs hn hx =>
    refine hc.register (hone _ hr).2 hn hx ?_ ?_ ?_ <;> simp only [ht,hs]
    · exact hc.session
    · exact hc.record
    · exact fun h => .inl (hc.named h)
  | joined hr hfree ht hs hn hx =>
    exact hc.joined (hone _ hr).1 (hone _ hr).2 hfree ht hs hn hx
  | left hid ht hs hn hx => exact hc.left hid ht hs hn hx

lemma session_of_record {x : TenantState F}
    (hx : c.tenants[t]?=some x) (hs : x.sid=some sid) : c.sessions[sid]?=some t := by
  refine (hc.record (n := x.name) (p := x.present) ?_).2
  rw [entries_of_get hx,TenantState.entry,hs]

end Enrolled

section
variable [FloatOps F] [FloatOps D] [DebugMsg F]

/-- The session table is consistent: it says of every session which present tenant it is, no two
tenants share a session and no two names a number; a session that ends leaves no trace in the
records, and a tenant without a session can register again. -/
structure Consistent (c : BrokerCore F D) : Prop where
  online_iff (t : TenantId) (sid : ℕ) :
    (∃ x, c.tenants[t]?=some x ∧ x.present=true ∧ x.sid=some sid) ↔
      c.sessions[sid]?=some t
  one_tenant (t t' : TenantId) (x x' : TenantState F) (sid : ℕ) (h : c.tenants[t]?=some x)
    (h' : c.tenants[t']?=some x') (hs : x.sid=some sid) (hs' : x'.sid=some sid) : t=t'
  one_name (n n' : String) (t : TenantId) (h : c.nameToId[n]?=some t)
    (h' : c.nameToId[n']?=some t) : n=n'
  disconnected (i : Input F) (sid : ℕ) (hi : i.event=.disconnected sid) (t : TenantId)
    (x : TenantState F) (hx : (c.step i).tenants[t]?=some x) :
    x.sid≠some sid ∧ (c.sessions[sid]?=some t → x.sid=none)
  rejoin (t : TenantId) (x : TenantState F) (hx : c.tenants[t]?=some x) (hs : x.sid=none)
    (i : Input F) (sid : ℕ) (transport : TransportKind)
    (hi : i.event=.msg sid (.register protoVersion x.name transport)) :
    .toSession sid (.registered t)∈(c.handle i).2 ∧ (c.step i).sessions[sid]?=some t

namespace Enrolled
variable {c : BrokerCore F D}

variable (hc : c.Enrolled)
include hc

lemma after_disconnect {i : Input F} {sid : ℕ} (hi : i.event=.disconnected sid) {x : TenantState F} (hx : (c.step i).tenants[t]?=some x) :
    x.sid≠some sid ∧ (c.sessions[sid]?=some t → x.sid=none) := by
  have he := entries_of_get hx
  have henr := c.step_enrols i
  rw [hi] at henr
  cases henr with
  | same hr ht hs hn hx hd =>
    have hnone := hd sid rfl
    rw [ht] at he
    refine ⟨fun h => ?_,fun h => by rw [hnone] at h; cases h⟩
    rw [TenantState.entry,h] at he
    rw [(hc.record he).2] at hnone
    cases hnone
  | left hid ht hs hn hx =>
    rw [ht] at he
    split_ifs at he with htid
    · obtain ⟨y,-,hy⟩ := Option.map_eq_some_iff.mp he
      have hnone : x.sid=none := (congrArg (fun z => z.2.2) hy).symm
      rw [hnone]
      exact ⟨by simp,fun _ => rfl⟩
    · refine ⟨fun h => ?_,fun h => ?_⟩
      · rw [TenantState.entry,h] at he
        rw [(hc.record he).2] at hid
        exact htid (Option.some.inj hid)
      · rw [hid] at h
        exact absurd (Option.some.inj h).symm htid
  | refused hr => cases hr
  | joined hr => cases hr

lemma can_rejoin {x : TenantState F} (hx : c.tenants[t]?=some x)
    (hs : x.sid=none) {i : Input F} {sid : ℕ} {transport : TransportKind}
    (hi : i.event=.msg sid (.register protoVersion x.name transport)) :
    .toSession sid (.registered t)∈(c.handle i).2 ∧ (c.step i).sessions[sid]?=some t := by
  have he := entries_of_get hx
  have hid : c.idOf x.name=t := by
    simp [idOf,hc.named he]
  have hfree (n : String) (k : ℕ) (h : c.entries (c.idOf x.name)=some (n,true,some k)) :
      k=sid := by
    rw [hid,he,TenantState.entry,hs] at h
    simp at h
  obtain ⟨-,hses,-,-,hout⟩ := c.onRegister_joined transport hfree
  have hh : c.handle i = c.onRegister sid protoVersion x.name transport := by
    simp only [handle,hi,onMsg]
  rw [step,hh]
  rw [hid] at hses hout
  exact ⟨hout,by rw [hses,Std.TreeMap.getElem?_insert_self]⟩

lemma consistent : c.Consistent where
  online_iff t sid := by
    constructor
    · rintro ⟨x,hx,-,hs⟩
      exact hc.session_of_record hx hs
    · intro h
      obtain ⟨n,hn⟩ := hc.session h
      obtain ⟨x,hx,-,hp,hs⟩ := exists_of_entries hn
      exact ⟨x,hx,hp,hs⟩
  one_tenant t t' x x' sid h h' hs hs' := by
    have ht := (hc.session_of_record h hs).symm.trans (hc.session_of_record h' hs')
    exact Option.some.inj ht
  one_name _ _ _ := hc.distinct
  disconnected _ _ hi _ _ := hc.after_disconnect hi
  rejoin _ _ hx hs _ _ _ := hc.can_rejoin hx hs

end Enrolled

/-- In every run in which a session registers for one name only, the session table is consistent
in every state. -/
theorem sessions_consistent (m : SliceMap) (cfg : BrokerCoreConfig F D) {is : List (Input F)}
    (h : AllSteps step OneName (new m cfg) is) : (run step (new m cfg) is).Consistent :=
  (AllSteps.invariant step (fun c i hc hi => hc.of_enrols (c.step_enrols i) hi)
    (enrolled_new m cfg) h).consistent

end

/-- Two tenants come; the first one loses its session and comes back over another, and a third
session is refused. -/
def reconnectRun : List (Input ℚ) :=
  ([.msg 0 (.register protoVersion "a" .nbdUnix),.msg 1 (.register protoVersion "b" .nbdUnix),
    .msg 2 (.register protoVersion "b" .nbdUnix),samplePsi 0 5,.disconnected 0,.tick,
    .msg 3 (.register protoVersion "a" .nbdUnix),.disconnected 2] : List (CoreEvent ℚ)).map
    sampleInput

theorem sessions_consistent_reconnectRun :
    AllSteps step OneName (new oneSlice sampleConfig) reconnectRun ∧
    (run step (new oneSlice sampleConfig) reconnectRun).sessions.toList = [(1,2),(3,1)] ∧
    (run step (new oneSlice sampleConfig) reconnectRun).Consistent := by
  have h : AllSteps step OneName (new oneSlice sampleConfig) reconnectRun := by decide +kernel
  exact ⟨h,by decide +kernel,sessions_consistent oneSlice sampleConfig h⟩

/-- One connection registers under two names: the first tenant stays present over a session that
is the second one's, also after that session has ended, and can never register again. -/
theorem registered_twice :
    let c := run step (new oneSlice sampleConfig)
      ([.msg 0 (.register protoVersion "a" .nbdUnix),
        .msg 0 (.register protoVersion "b" .nbdUnix)].map sampleInput)
    let c' := c.step (sampleInput (.disconnected 0))
    c.sessions.toList = [(0,2)] ∧ (c.entries 1 = some ("a",true,some 0)) ∧
    c.entries 2 = some ("b",true,some 0) ∧ ¬c.Consistent ∧
    c'.entries 1 = some ("a",true,some 0) ∧ c'.sessions.toList = [] ∧
    (c'.step (sampleInput (.msg 1 (.register protoVersion "a" .nbdUnix)))).sessions.toList = [] := by
  intro c c'
  have h₁ : c.entries 1 = some ("a",true,some 0) := by decide +kernel
  have h₂ : c.entries 2 = some ("b",true,some 0) := by decide +kernel
  refine ⟨by decide +kernel,h₁,h₂,fun h => ?_,by decide +kernel,by decide +kernel,
    by decide +kernel⟩
  obtain ⟨x,hx,-,-,hs⟩ := exists_of_entries h₁
  obtain ⟨x',hx',-,-,hs'⟩ := exists_of_entries h₂
  cases h.one_tenant 1 2 x x' 0 hx hx' hs hs'

end BrokerCore
end
end RamShared.Broker

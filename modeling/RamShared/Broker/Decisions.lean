import RamShared.Broker.Arbiter

/-! What a tick of the arbiter may propose. Without a pending lease: a revert or a move, then
free slices for the present tenants. With one: revocations, or the grant. -/
namespace RamShared.Broker
open Lib

lemma minBy_mem {α : Type} {cmp : α → α → Ordering} {l : List α} {x : α} (h : minBy cmp l=some x) : x∈l := by
  have hfold (xs : List α) (a : α) :
      xs.foldl (fun x y => if cmp x y=.gt then y else x) a∈a::xs := by
    induction xs generalizing a with
    | nil => simp
    | cons y ys ih =>
      rw [List.foldl_cons]
      split_ifs
      · exact List.mem_cons_of_mem a (ih y)
      · rcases List.mem_cons.mp (ih a) with h | h
        · rw [h]
          exact List.mem_cons_self
        · exact List.mem_cons_of_mem a (List.mem_cons_of_mem y h)
  cases l with
  | nil => simp [minBy] at h
  | cons a as =>
    simp only [minBy,Option.some.injEq] at h
    rw [←h]
    exact hfold as a

def Action.swaps : Action → Bool
  | .grantLease _ _ => false
  | _ => true

def Action.moves : Action → Bool
  | .moveSlice _ _ _ | .revertMove _ _ _ => true
  | _ => false

variable {slices : List Slice}

namespace Arbiter

lemma mem_idsIn {state : SliceState} {s : SliceId} :
    s∈idsIn slices state ↔ ∃ x∈slices, x.state=state ∧ x.id=s := by
  simp [idsIn,and_assoc]

variable {F : Type}

lemma firstActiveOf_mem {owner : TenantId} {s : SliceId} (h : firstActiveOf slices owner=some s) :
    ∃ x∈slices, x.id=s ∧ x.state=.active ∧ x.tenant=some owner := by
  obtain ⟨x,hx,hs⟩ := Option.map_eq_some_iff.mp h
  have hp := List.find?_some hx
  simp only [Bool.and_eq_true,decide_eq_true_eq] at hp
  exact ⟨x,List.mem_of_find?_eq_some hx,hs,hp⟩

variable [FloatOps F] {tenants : List (TenantView F)}

lemma mem_revocable {x : SliceId × TenantId × F} (h : x∈revocable tenants slices) :
    ∃ y∈slices, y.id=x.1 ∧ y.state=.active ∧ y.tenant=some x.2.1 := by
  simp only [revocable,List.mem_insertionSort,List.mem_filterMap,List.mem_filter,
    decide_eq_true_eq,Option.map_eq_some_iff] at h
  obtain ⟨y,⟨hy,ha⟩,t,ht,rfl⟩ := h
  exact ⟨y,hy,rfl,ha,ht⟩

variable (a : Arbiter F) (now : ℕ)

/-- The move to take back: it is recent, and its former owner suffers. -/
def due (tenants : List (TenantView F)) : Option (MoveRecord F) :=
  a.lastMove.filter fun r =>
    now-r.movedAt≤a.cfg.cfWindow && (ownerPsi tenants r.fromTenant).any fun psi =>
      FloatOps.lt (FloatOps.mul a.cfg.cfFactor r.fromPsiAtMove) psi &&
        FloatOps.lt a.cfg.psiFloor psi

lemma counterfactual_spec (tenants : List (TenantView F)) : (a.counterfactual now tenants).1 =
      (a.due now tenants).toList.map (fun r => .revertMove r.slice r.toTenant r.fromTenant) ∧
    (a.counterfactual now tenants).2.1 = (a.due now tenants).isSome ∧
    (a.counterfactual now tenants).2.2.cfg=a.cfg := by
  unfold counterfactual due
  cases a.lastMove with
  | none => simp
  | some r =>
    rw [Option.filter_some]
    dsimp only
    generalize ownerPsi tenants r.fromTenant=owner
    by_cases hw : a.cfg.cfWindow<now-r.movedAt
    · simp [hw,Nat.not_le.mpr hw]
    cases owner with
    | none => simp [hw]
    | some psi =>
      simp only [hw,Nat.not_lt.mp hw,if_false,decide_true,Bool.true_and,Option.any_some]
      split_ifs <;> simp

@[simp] lemma countStreak_cfg (pair : Option (TenantView F × TenantView F × F)) :
    (a.countStreak pair).cfg=a.cfg := by
  unfold countStreak
  split_ifs <;> rfl

omit [FloatOps F] in
lemma roundRobin_mem {cursor : ℕ} {x : Action} (h : x∈(roundRobin tenants slices cursor).1) :
    ∃ s∈slices, s.state=.free ∧ ∃ t∈tenants, x=.assignFree s.id t.id := by
  induction slices generalizing cursor with
  | nil => simp [roundRobin] at h
  | cons s rest ih =>
    rw [roundRobin] at h
    split_ifs at h with hs
    · cases ht : tenants[cursor%tenants.length]? with
      | none => simp [ht] at h
      | some t =>
        simp only [ht,List.mem_cons] at h
        rcases h with rfl | h
        · exact ⟨s,by simp,hs,t,List.mem_of_getElem? ht,rfl⟩
        · obtain ⟨y,hy,hr⟩ := ih h
          exact ⟨y,by simp [hy],hr⟩
    · obtain ⟨y,hy,hr⟩ := ih h
      exact ⟨y,by simp [hy],hr⟩

def Handout (tenants : List (TenantView F)) (slices : List Slice) (actions : List Action) : Prop :=
  ∀ x∈actions, ∃ s∈slices, s.state=.free ∧ ∃ t∈tenants, x=.assignFree s.id t.id

/-- The actions of a tick without a pending lease. A move excludes a revert, needs that no slice
is free, and spares a donor under pressure that has a single slice. -/
inductive Plan (a : Arbiter F) (now : ℕ) (tenants : List (TenantView F)) (slices : List Slice) :
    List Action → Prop
  | revert {r : MoveRecord F} {rest : List Action} (h : a.due now tenants=some r)
      (hrest : Handout tenants slices rest) :
      Plan a now tenants slices (.revertMove r.slice r.toTenant r.fromTenant::rest)
  | move {receiver donor : TenantView F} {s : SliceId} (h : a.due now tenants=none)
      (hfree : ∀ x∈slices, x.state≠.free) (hdonor : donor∈tenants)
      (hs : firstActiveOf slices donor.id=some s)
      (hzero : FloatOps.lt a.cfg.psiFloor donor.psi.avg10=true → 1<donor.slices) :
      Plan a now tenants slices [.moveSlice s donor.id receiver.id]
  | share {rest : List Action} (h : a.due now tenants=none)
      (hrest : Handout tenants slices rest) : Plan a now tenants slices rest

section
omit [FloatOps F]
variable {tenants : List (TenantView F)} {slices : List Slice} {actions : List Action}

lemma Handout.swaps (h : Handout tenants slices actions) : ∀ x∈actions, x.swaps=true := by
  intro x hx
  obtain ⟨_,-,-,_,-,rfl⟩ := h x hx
  rfl

lemma Handout.moves (h : Handout tenants slices actions) : ∀ x∈actions, x.moves=false := by
  intro x hx
  obtain ⟨_,-,-,_,-,rfl⟩ := h x hx
  rfl

end

lemma Plan.swaps {a : Arbiter F} {now : ℕ} {tenants : List (TenantView F)} {slices : List Slice}
    {actions : List Action} (h : a.Plan now tenants slices actions) : ∀ x∈actions, x.swaps=true := by
  cases h with
  | revert h hrest => exact List.forall_mem_cons.mpr ⟨rfl,hrest.swaps⟩
  | move => simp [Action.swaps]
  | share h hrest => exact hrest.swaps

lemma differential_spec (tenants : List (TenantView F)) (slices : List Slice) (moved : Bool) :
    (a.differential now slices (pressurePair tenants) moved).1=[] ∨ moved=false ∧ (∀ x∈slices, x.state≠.free) ∧
        ∃ (receiver donor : TenantView F) (s : SliceId), donor∈tenants ∧
          firstActiveOf slices donor.id=some s ∧
          (FloatOps.lt a.cfg.psiFloor donor.psi.avg10=true → 1<donor.slices) ∧
          (a.differential now slices (pressurePair tenants) moved).1 = [.moveSlice s donor.id receiver.id] := by
  unfold differential
  dsimp only
  split_ifs with hg
  · cases hp : pressurePair tenants with
    | none => simp
    | some p =>
      obtain ⟨receiver,donor,d⟩ := p
      dsimp only
      split_ifs with hz
      · simp
      cases hs : firstActiveOf slices donor.id with
      | none => simp
      | some s =>
        simp only [Bool.and_eq_true,Bool.not_eq_true',List.any_eq_false] at hg
        refine .inr ⟨hg.1.1.1,fun x hx => by simpa using hg.2 x hx,receiver,donor,s,?_,hs,?_,rfl⟩
        · simp only [pressurePair,Option.bind_eq_some_iff,Option.map_eq_some_iff] at hp
          obtain ⟨_,-,_,hd,he⟩ := hp
          cases he
          exact (List.mem_filter.mp (minBy_mem hd)).1
        · intro hf
          by_contra hle
          exact hz (by simp [hf,Nat.not_lt.mp hle])
  · exact .inl rfl

lemma tick_none (tenants : List (TenantView F)) (slices : List Slice) :
    ∃ actions, (a.tick now tenants slices none).1=.ok actions ∧
      Plan a now tenants slices actions := by
  obtain ⟨hr,hm,hcfg⟩ := a.counterfactual_spec now tenants
  unfold tick
  dsimp only
  generalize a.counterfactual now tenants = x at hr hm hcfg
  obtain ⟨reverts,moved,a'⟩ := x
  dsimp only at hr hm hcfg ⊢
  subst hr hm
  have hd := (a'.countStreak (pressurePair tenants)).differential_spec now tenants slices
    (a.due now tenants).isSome
  rw [countStreak_cfg,hcfg] at hd
  generalize (a'.countStreak (pressurePair tenants)).differential now slices
    (pressurePair tenants) (a.due now tenants).isSome = y at hd
  obtain ⟨moves,a''⟩ := y
  dsimp only at hd ⊢
  have hrest (rest : List Action) (hrest : Handout tenants slices rest)
      (hfree : moves≠[] → rest=[]) :
      Plan a now tenants slices ((a.due now tenants).toList.map
        (fun r => .revertMove r.slice r.toTenant r.fromTenant)++moves++rest) := by
    cases hdue : a.due now tenants with
    | none =>
      rcases hd with rfl | ⟨-,hf,receiver,donor,s,hdonor,hs,hz,rfl⟩
      · exact .share hdue hrest
      · rw [hfree (by simp)]
        exact .move hdue hf hdonor hs hz
    | some r =>
      rcases hd with rfl | ⟨hn,-⟩
      · exact .revert hdue hrest
      · simp [hdue] at hn
  split_ifs
  · refine ⟨_,rfl,?_⟩
    simpa using hrest [] (by simp [Handout]) (fun _ => rfl)
  · refine ⟨_,rfl,hrest _ (fun x hx => roundRobin_mem hx) fun hm => ?_⟩
    rcases hd with rfl | ⟨-,hf,-⟩
    · exact absurd rfl hm
    · refine List.eq_nil_iff_forall_not_mem.mpr fun x hx => ?_
      obtain ⟨s,hs,hst,-⟩ := roundRobin_mem hx
      exact hf s hs hst

lemma leaseActions_mem {sliceLen bytes : ℕ} {holder : TenantId} {actions : List Action}
    (h : leaseActions tenants slices sliceLen holder bytes=.ok actions) {x : Action}
    (hx : x∈actions) : (∃ ids, x=.grantLease holder ids) ∨
      ∃ y∈revocable tenants slices, x=.revokeForLease y.1 y.2.1 := by
  simp only [leaseActions] at h
  split_ifs at h
  · cases h
    simp at hx
  · cases h
    obtain ⟨y,hy,rfl⟩ := List.mem_map.mp hx
    exact .inr ⟨y,List.mem_of_mem_take hy,rfl⟩
  · cases h
    exact .inl ⟨_,List.mem_singleton.mp hx⟩

/-- Where no slice is leased, a pending lease is granted if there are free slices enough, and
has the missing ones revoked otherwise. -/
lemma leaseActions_eq {sliceLen bytes : ℕ}
    {holder : TenantId} (hl : idsIn slices .leased=[]) (hs : sliceLen≠0) (hb : bytes≠0) :
    leaseActions tenants slices sliceLen holder bytes =
      .ok (if (idsIn slices .free).length<divCeil bytes sliceLen then ((revocable tenants slices).take
          (divCeil bytes sliceLen-(idsIn slices .free).length)).map fun x => .revokeForLease x.1 x.2.1
      else [.grantLease holder ((idsIn slices .free).take (divCeil bytes sliceLen))]) := by
  simp only [leaseActions,hs,hb,or_self,if_false,hl,List.any_nil,Bool.false_eq_true,
    List.length_nil,Nat.zero_add,List.nil_append]
  split_ifs <;> rfl

lemma counterfactual_lastMove {a : Arbiter F} {now : ℕ} {tenants : List (TenantView F)}
    {r : MoveRecord F} (h : (a.counterfactual now tenants).2.2.lastMove=some r) :
    a.lastMove=some r ∧ a.due now tenants=none := by
  unfold counterfactual at h
  unfold due
  cases hl : a.lastMove with
  | none => simp [hl] at h
  | some q =>
    rw [Option.filter_some]
    simp only [hl] at h
    by_cases hw : a.cfg.cfWindow<now-q.movedAt
    · simp [hw] at h
    generalize ownerPsi tenants q.fromTenant = owner at h ⊢
    cases owner with
    | none => simpa [hw,hl] using h
    | some psi =>
      simp only [hw,if_false] at h
      split_ifs at h with hs
      rw [hl] at h
      exact ⟨h,by simp [hs]⟩

@[simp] lemma countStreak_lastMove (pair : Option (TenantView F × TenantView F × F)) :
    (a.countStreak pair).lastMove=a.lastMove := by
  unfold countStreak
  split_ifs <;> rfl

lemma differential_lastMove {a : Arbiter F} {now : ℕ} {slices : List Slice}
    {pair : Option (TenantView F × TenantView F × F)} {moved : Bool} {r : MoveRecord F}
    (h : (a.differential now slices pair moved).2.lastMove=some r) :
    a.lastMove=some r ∧ (a.differential now slices pair moved).1=[] ∨ (a.differential now slices pair moved).1 =
        [.moveSlice r.slice r.fromTenant r.toTenant] := by
  unfold differential at h ⊢
  dsimp only at h ⊢
  split_ifs at h ⊢
  · cases pair with
    | none => exact .inl ⟨h,rfl⟩
    | some p =>
      dsimp only at h ⊢
      split_ifs at h ⊢
      · exact .inl ⟨h,rfl⟩
      cases hs : firstActiveOf slices p.2.1.id with
      | none =>
        simp only [hs] at h
        exact .inl ⟨h,rfl⟩
      | some s =>
        simp only [hs,Option.some.injEq] at h
        rw [←h]
        exact .inr rfl
  · exact .inl ⟨h,rfl⟩

lemma tick_lastMove {a : Arbiter F} {now : ℕ} {tenants : List (TenantView F)}
    {slices : List Slice} {lease : Option (TenantId × ℕ)} {r : MoveRecord F}
    (h : (a.tick now tenants slices lease).2.lastMove=some r) : (a.lastMove=some r ∧
      ∀ x∈(a.tick now tenants slices lease).1.toOption.getD [], x.moves=false) ∨
    .moveSlice r.slice r.fromTenant r.toTenant ∈ (a.tick now tenants slices lease).1.toOption.getD [] := by
  cases lease with
  | some p =>
    refine .inl ⟨h,fun x hx => ?_⟩
    simp only [tick] at hx
    cases hl : leaseActions tenants slices ((slices.head?.map Slice.len).getD 0) p.1 p.2 with
    | error e => simp [hl,Except.toOption] at hx
    | ok actions =>
      rw [hl] at hx
      rcases leaseActions_mem hl hx with ⟨_,rfl⟩ | ⟨_,-,rfl⟩ <;> rfl
  | none =>
    have hc (r : MoveRecord F) := @counterfactual_lastMove F _ a now tenants r
    obtain ⟨hr,-,-⟩ := a.counterfactual_spec now tenants
    unfold tick at h ⊢
    dsimp only at h ⊢
    generalize a.counterfactual now tenants = x at hc hr h ⊢
    obtain ⟨reverts,moved,a'⟩ := x
    dsimp only at hc hr h ⊢
    have hd := @differential_lastMove F _ (a'.countStreak (pressurePair tenants)) now slices
      (pressurePair tenants) moved r
    generalize (a'.countStreak (pressurePair tenants)).differential now slices
      (pressurePair tenants) moved = y at hd h ⊢
    obtain ⟨moves,a''⟩ := y
    dsimp only at hd h ⊢
    have hlast : a''.lastMove=some r := by
      split_ifs at h <;> exact h
    rcases hd hlast with ⟨ha,rfl⟩ | rfl
    · obtain ⟨hl,hdue⟩ := hc r (by simpa using ha)
      rw [hdue] at hr
      subst hr
      refine .inl ⟨hl,fun x hx => ?_⟩
      split_ifs at hx
      · simp [Except.toOption] at hx
      · simp only [Except.toOption,Option.toList_none,List.map_nil,List.append_nil,
          List.nil_append,Option.getD_some] at hx
        obtain ⟨_,-,-,_,-,rfl⟩ := roundRobin_mem hx
        rfl
    · right
      split_ifs <;> simp [Except.toOption]

end Arbiter
end RamShared.Broker

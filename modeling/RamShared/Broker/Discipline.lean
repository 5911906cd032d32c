import RamShared.Broker.Decisions
import RamShared.Lib.Run
import RamShared.Lib.Streak

/-! Runs of the arbiter. What it remembers (the streak, the cooldown, the last move) is replaced by the
history of its ticks. -/
namespace RamShared.Broker
open Lib

structure TickInput (F : Type) where
  now : ℕ
  tenants : List (TenantView F)
  slices : List Slice
  pendingLease : Option (TenantId × ℕ)

namespace Arbiter
variable {F : Type} [FloatOps F] (a : Arbiter F) (i : TickInput F)

def emits : List Action :=
  (a.tick i.now i.tenants i.slices i.pendingLease).1.toOption.getD []

def next : Arbiter F :=
  (a.tick i.now i.tenants i.slices i.pendingLease).2

/-- The differential between receiver and donor is above the threshold. -/
def high (cfg : ArbiterConfig F) (tenants : List (TenantView F)) : Bool :=
  (pressurePair tenants).any fun p => FloatOps.lt cfg.deltaPsi p.2.2

/-- The free slices handed out by a tick, and the cursor after it. -/
def handout : List Action × ℕ :=
  if i.tenants.isEmpty then ([],a.rrCursor) else roundRobin i.tenants i.slices a.rrCursor

lemma counterfactual_cases (now : ℕ) (tenants : List (TenantView F)) :
    (∃ r, a.lastMove=some r ∧ now-r.movedAt≤a.cfg.cfWindow ∧ a.counterfactual now tenants =
      ([.revertMove r.slice r.toTenant r.fromTenant],true,{ a with
        lastMove := none, cooldownUntil := some (now+a.cfg.cfCooldown), streak := 0})) ∨
    ∃ last, (last=a.lastMove ∨ last=none) ∧
      a.counterfactual now tenants = ([],false,{a with lastMove := last}) := by
  obtain ⟨cfg,count,lastMove,cooldownUntil,cursor⟩ := a
  unfold counterfactual
  cases lastMove with
  | none => exact .inr ⟨none,.inl rfl,rfl⟩
  | some r =>
    dsimp only
    split_ifs with hwindow
    · exact .inr ⟨none,.inr rfl,rfl⟩
    cases ownerPsi tenants r.fromTenant with
    | none => exact .inr ⟨some r,.inl rfl,rfl⟩
    | some psi =>
      dsimp only
      split_ifs
      · exact .inl ⟨r,rfl,not_lt.mp hwindow,rfl⟩
      · exact .inr ⟨some r,.inl rfl,rfl⟩

lemma countStreak_eq (tenants : List (TenantView F)) : a.countStreak (pressurePair tenants) =
      {a with streak := if high a.cfg tenants then wrappingAdd 32 a.streak 1 else 0} := by
  unfold countStreak high
  split_ifs <;> rfl

lemma differential_cases (now : ℕ) (slices : List Slice)
    (pair : Option (TenantView F × TenantView F × F)) (moved : Bool) :
    a.differential now slices pair moved = ([],a) ∨
    moved=false ∧ a.cfg.streak≤a.streak ∧ a.cooldownActive now=false ∧
      ∃ s x y psi, a.differential now slices pair moved = ([.moveSlice s x y],{ a with
        lastMove := some ⟨s,x,y,now,psi⟩, cooldownUntil := some (now+a.cfg.cooldown), streak := 0}) := by
  unfold differential
  dsimp only
  split_ifs with hgate
  · simp only [Bool.and_eq_true,Bool.not_eq_true',decide_eq_true_eq] at hgate
    obtain ⟨⟨⟨hmoved,hstreak⟩,hcool⟩,-⟩ := hgate
    cases pair with
    | none => exact .inl rfl
    | some p =>
      dsimp only
      split_ifs
      · exact .inl rfl
      cases firstActiveOf slices p.2.1.id with
      | none => exact .inl rfl
      | some s => exact .inr ⟨hmoved,hstreak,hcool,s,p.2.1.id,p.1.id,_,rfl⟩
  · exact .inl rfl

inductive Ticked (a : Arbiter F) (i : TickInput F) : List Action → Arbiter F → Prop
  | leased {actions} (hlease : i.pendingLease.isNone=false)
      (hactions : ∀ x∈actions, x.moves=false) : Ticked a i actions a
  | reverted {r} (hlease : i.pendingLease=none) (hlast : a.lastMove=some r)
      (hwindow : i.now-r.movedAt≤a.cfg.cfWindow) :
      Ticked a i (.revertMove r.slice r.toTenant r.fromTenant::(a.handout i).1) { a with
        lastMove := none
        cooldownUntil := some (i.now+a.cfg.cfCooldown)
        streak := if high a.cfg i.tenants then 1 else 0
        rrCursor := (a.handout i).2}
  | moved {s x y psi} (hlease : i.pendingLease=none)
      (hstreak : a.cfg.streak ≤ if high a.cfg i.tenants then wrappingAdd 32 a.streak 1 else 0)
      (hcool : a.cooldownActive i.now=false) :
      Ticked a i (.moveSlice s x y::(a.handout i).1) { a with
        lastMove := some ⟨s,x,y,i.now,psi⟩
        cooldownUntil := some (i.now+a.cfg.cooldown)
        streak := 0
        rrCursor := (a.handout i).2}
  | stayed {last} (hlease : i.pendingLease=none) (hlast : last=a.lastMove ∨ last=none) :
      Ticked a i (a.handout i).1 { a with
        lastMove := last
        streak := if high a.cfg i.tenants then wrappingAdd 32 a.streak 1 else 0
        rrCursor := (a.handout i).2}

lemma tick_handout {a : Arbiter F} {i : TickInput F} {reverts moves : List Action} {moved : Bool}
    {a₁ a₂ : Arbiter F} (hlease : i.pendingLease=none)
    (hrevert : a.counterfactual i.now i.tenants = (reverts,moved,a₁))
    (hmove : (a₁.countStreak (pressurePair i.tenants)).differential i.now i.slices
      (pressurePair i.tenants) moved = (moves,a₂)) (hcursor : a₂.rrCursor=a.rrCursor) :
    a.emits i = reverts++moves++(a.handout i).1 ∧
      a.next i = {a₂ with rrCursor := (a.handout i).2} := by
  unfold emits next tick handout
  rw [hlease]
  dsimp only
  rw [hrevert]
  dsimp only
  rw [hmove]
  dsimp only
  rw [←hcursor]
  split_ifs
  · exact ⟨(List.append_nil _).symm,rfl⟩
  · exact ⟨rfl,rfl⟩

lemma ticked : Ticked a i (a.emits i) (a.next i) := by
  cases hlease : i.pendingLease with
  | some lease =>
    have hnext : a.next i=a := by
      unfold next tick
      rw [hlease]
    have hemits : a.emits i = (leaseActions i.tenants i.slices ((i.slices.head?.map Slice.len).getD 0)
        lease.1 lease.2).toOption.getD [] := by
      unfold emits tick
      rw [hlease]
    rw [hnext]
    refine .leased (by simp [hlease]) fun x hx => ?_
    rw [hemits] at hx
    cases hactions : leaseActions i.tenants i.slices ((i.slices.head?.map Slice.len).getD 0) lease.1
      lease.2 with
    | error e => simp [hactions,Except.toOption] at hx
    | ok actions =>
      rw [hactions] at hx
      rcases leaseActions_mem hactions hx with ⟨_,rfl⟩ | ⟨_,-,rfl⟩ <;> rfl
  | none =>
    obtain ⟨r,hlast,hwindow,hrevert⟩ | ⟨last,hlast,hrevert⟩ := a.counterfactual_cases i.now i.tenants
    · have hmove := differential_cases (countStreak { a with
        lastMove := none, cooldownUntil := some (i.now+a.cfg.cfCooldown), streak := 0}
          (pressurePair i.tenants)) i.now i.slices (pressurePair i.tenants) true
      obtain hmove | ⟨hmoved,-⟩ := hmove
      · obtain ⟨hemits,hnext⟩ := tick_handout hlease hrevert hmove (by rw [countStreak_eq])
        rw [hemits,hnext,countStreak_eq]
        exact .reverted hlease hlast hwindow
      · cases hmoved
    · have hmove := differential_cases (countStreak {a with lastMove := last} (pressurePair i.tenants))
        i.now i.slices (pressurePair i.tenants) false
      obtain hmove | ⟨-,hstreak,hcool,s,x,y,psi,hmove⟩ := hmove
      · obtain ⟨hemits,hnext⟩ := tick_handout hlease hrevert hmove (by rw [countStreak_eq])
        rw [hemits,hnext,countStreak_eq]
        exact .stayed hlease hlast
      · obtain ⟨hemits,hnext⟩ := tick_handout hlease hrevert hmove (by rw [countStreak_eq])
        rw [hemits,hnext]
        rw [countStreak_eq] at hstreak hcool ⊢
        exact .moved hlease hstreak hcool

omit [FloatOps F] in
lemma handout_moves : (a.handout i).1.filter Action.moves=[] := by
  rw [List.filter_eq_nil_iff]
  intro x hx
  unfold handout at hx
  split_ifs at hx
  · cases hx
  · obtain ⟨_,-,-,_,-,rfl⟩ := roundRobin_mem hx
    simp [Action.moves]

end Arbiter

/-- A tick as its history records it: when it was, whether no lease was pending, whether the
differential was above the threshold, and what it moved. -/
structure Beat where
  now : ℕ
  leaseFree : Bool
  high : Bool
  movements : List Action

def Beat.settled (e : Beat) : Bool := e.movements.all fun x => match x with
  | .moveSlice _ _ _ => false
  | _ => true

/-- The ticks at the end of a history, those with a pending lease left out, that had a high
differential and moved no slice. -/
def sustained (history : List Beat) : ℕ :=
  streak ((history.filter Beat.leaseFree).map fun e => e.high && e.settled)

lemma sustained_concat (history : List Beat) (e : Beat) : sustained (history++[e]) =
    if e.leaseFree then if e.high && e.settled then sustained history+1 else 0 else sustained history := by
  unfold sustained
  cases h : e.leaseFree <;> simp [h]

def ArbiterConfig.cooldownAfter {F : Type} (cfg : ArbiterConfig F) : Action → ℕ
  | .revertMove _ _ _ => cfg.cfCooldown
  | _ => cfg.cooldown

inductive Latest : List Beat → Beat → Action → Prop
  | intro {before e after m} (hm : m∈e.movements) (hafter : ∀ z∈after, z.movements=[]) :
      Latest (before++e::after) e m

lemma Latest.concat {history : List Beat} {e : Beat} {m : Action} (h : Latest history e m) {b : Beat}
    (hb : b.movements=[]) : Latest (history++[b]) e m := by
  obtain ⟨hm,hafter⟩ := h
  rw [List.append_assoc,List.cons_append]
  refine .intro hm fun z hz => ?_
  obtain hz | hz := List.mem_append.mp hz
  · exact hafter z hz
  · rw [List.mem_singleton.mp hz,hb]

lemma Latest.of_concat {history : List Beat} {b e : Beat} {m : Action} (h : Latest (history++[b]) e m) :
    (e=b ∧ m∈b.movements) ∨ (b.movements=[] ∧ Latest history e m) := by
  generalize hh : history++[b] = l at h
  obtain @⟨before,e,after,m,hm,hafter⟩ := h
  induction after using List.reverseRecOn with
  | nil =>
    obtain ⟨rfl,heq⟩ := List.append_inj' hh rfl
    obtain rfl := List.cons.inj heq |>.1
    exact .inl ⟨rfl,hm⟩
  | append_singleton after z _ =>
    rw [←List.cons_append,←List.append_assoc] at hh
    obtain ⟨rfl,heq⟩ := List.append_inj' hh rfl
    obtain rfl := List.cons.inj heq |>.1
    exact .inr ⟨hafter b (by simp),.intro hm fun z hz => hafter z (List.mem_append_left _ hz)⟩

namespace Arbiter
variable {F : Type} [FloatOps F]

def beat (a : Arbiter F) (i : TickInput F) : Beat :=
  ⟨i.now,i.pendingLease.isNone,high a.cfg i.tenants,(a.emits i).filter Action.moves⟩

def history (a : Arbiter F) (is : List (TickInput F)) : List Beat :=
  outputs next (fun a i => [a.beat i]) a is

structure Remembers (cfg : ArbiterConfig F) (a : Arbiter F) (history : List Beat) : Prop where
  cfg_eq : a.cfg=cfg
  streak_le : a.streak ≤ sustained history
  cooldown : ∀ e m, Latest history e m → a.cooldownUntil=some (e.now+cfg.cooldownAfter m)
  lastMove : ∀ r, a.lastMove=some r → ∃ e,
    Latest history e (.moveSlice r.slice r.fromTenant r.toTenant) ∧ e.now=r.movedAt

structure Lawful (cfg : ArbiterConfig F) (history : List Beat) (b : Beat) : Prop where
  one : b.movements.length≤1
  lease : b.leaseFree=false → b.movements=[]
  cooled : ∀ s x y, .moveSlice s x y∈b.movements → ∀ e m, Latest history e m →
    e.now+cfg.cooldownAfter m≤b.now
  sustained : ∀ s x y, .moveSlice s x y∈b.movements → b.high ∧ ∃ recent,
    recent <:+ history.filter Beat.leaseFree ∧ recent.length+1=cfg.streak ∧
      ∀ e∈recent, e.high ∧ ∀ s x y, .moveSlice s x y∉e.movements
  reverted : ∀ s x y, .revertMove s x y∈b.movements → ∃ e,
    Latest history e (.moveSlice s y x) ∧ b.now≤e.now+cfg.cfWindow

section
variable {cfg : ArbiterConfig F} {a a' : Arbiter F} {i : TickInput F} {past : List Beat} {actions : List Action}

lemma Ticked.lawful (ht : Ticked a i actions a') (hstreak : 1 ≤ cfg.streak) (h : Remembers cfg a past) :
    Lawful cfg past ⟨i.now,i.pendingLease.isNone,high a.cfg i.tenants,actions.filter Action.moves⟩ := by
  obtain ⟨rfl,hle,hcooldown,hlast⟩ := h
  have hnone {b : Beat} (hb : b.movements=[]) : Lawful a.cfg past b := by
    constructor <;> simp [hb]
  cases ht with
  | leased hlease hactions => exact hnone (by simpa [List.filter_eq_nil_iff] using hactions)
  | stayed hlease hlast => exact hnone (handout_moves a i)
  | @reverted r hlease hr hwindow =>
    have hmoves : (Action.revertMove r.slice r.toTenant r.fromTenant::(a.handout i).1).filter
        Action.moves = [.revertMove r.slice r.toTenant r.fromTenant] := by
      rw [List.filter_cons_of_pos rfl,handout_moves]
    obtain ⟨e,he,hnow⟩ := hlast r hr
    rw [hmoves]
    refine ⟨by simp,by simp [hlease],by simp,by simp,?_⟩
    intro s x y hmem
    cases List.mem_singleton.mp hmem
    exact ⟨e,he,by dsimp only; omega⟩
  | @moved s x y psi hlease hcount hcool =>
    have hmoves : (Action.moveSlice s x y::(a.handout i).1).filter Action.moves =
        [.moveSlice s x y] := by
      rw [List.filter_cons_of_pos rfl,handout_moves]
    rw [hmoves]
    refine ⟨by simp,by simp [hlease],?_,?_,by simp⟩
    · intro _ _ _ _ e m hlatest
      simpa [cooldownActive,hcooldown e m hlatest] using hcool
    · intro _ _ _ _
      split_ifs at hcount with hhigh
      · have hwrap : wrappingAdd 32 a.streak 1≤a.streak+1 := Nat.mod_le _ _
        have hle : a.cfg.streak-1 ≤ sustained past := by omega
        obtain ⟨recent,hsuffix,hlen,hall⟩ := exists_suffix_of_le_streak hle
        refine ⟨hhigh,recent,hsuffix,by omega,fun e he => ?_⟩
        obtain ⟨hh,hs⟩ := Bool.and_eq_true_iff.mp (hall e he)
        exact ⟨hh,fun s x y hmem => by simpa using List.all_eq_true.mp hs _ hmem⟩
      · omega

lemma Ticked.remembers (ht : Ticked a i actions a') (h : Remembers cfg a past) : Remembers cfg a' (past ++
      [⟨i.now,i.pendingLease.isNone,high a.cfg i.tenants,actions.filter Action.moves⟩]) := by
  obtain ⟨rfl,hle,hcooldown,hlast⟩ := h
  -- the latest movement of a history whose last tick moved nothing
  have hquiet {b : Beat} (hb : b.movements=[]) (e : Beat) (m : Action)
      (hlatest : Latest (past++[b]) e m) : a.cooldownUntil=some (e.now+a.cfg.cooldownAfter m) := by
    obtain ⟨-,hm⟩ | ⟨-,hlatest⟩ := hlatest.of_concat
    · cases hb ▸ hm
    · exact hcooldown e m hlatest
  have hself {b : Beat} {m : Action} (hb : b.movements = [m]) (e : Beat) (m' : Action)
      (hlatest : Latest (past++[b]) e m') : e=b ∧ m'=m := by
    obtain ⟨rfl,hm⟩ | ⟨hnil,-⟩ := hlatest.of_concat
    · exact ⟨rfl,List.mem_singleton.mp (hb ▸ hm)⟩
    · simp [hb] at hnil
  have hwrap : wrappingAdd 32 a.streak 1≤a.streak+1 := Nat.mod_le _ _
  cases ht with
  | leased hlease hactions =>
    have hnil : actions.filter Action.moves=[] := by
      simpa [List.filter_eq_nil_iff] using hactions
    rw [hnil]
    refine ⟨rfl,?_,hquiet rfl,fun r hr => ?_⟩
    · rwa [sustained_concat,hlease]
    · obtain ⟨e,he,hnow⟩ := hlast r hr
      exact ⟨e,he.concat rfl,hnow⟩
  | @stayed last hlease hkept =>
    rw [handout_moves]
    refine ⟨rfl,?_,hquiet rfl,fun r hr => ?_⟩
    · rw [sustained_concat,hlease]
      cases high a.cfg i.tenants with
      | false => exact Nat.zero_le _
      | true => exact hwrap.trans (Nat.succ_le_succ hle)
    · obtain rfl | rfl := hkept
      · obtain ⟨e,he,hnow⟩ := hlast r hr
        exact ⟨e,he.concat rfl,hnow⟩
      · cases hr
  | @reverted r hlease hr hwindow =>
    rw [List.filter_cons_of_pos rfl,handout_moves]
    refine ⟨rfl,?_,fun e m hlatest => ?_,fun r hr => by cases hr⟩
    · rw [sustained_concat,hlease]
      cases high a.cfg i.tenants with
      | false => exact Nat.zero_le _
      | true => exact Nat.succ_le_succ (Nat.zero_le _)
    · obtain ⟨rfl,rfl⟩ := hself rfl e m hlatest
      rfl
  | @moved s x y psi hlease hcount hcool =>
    rw [List.filter_cons_of_pos rfl,handout_moves]
    refine ⟨rfl,Nat.zero_le _,fun e m hlatest => ?_,fun r hr => ?_⟩
    · obtain ⟨rfl,rfl⟩ := hself rfl e m hlatest
      rfl
    · cases hr
      exact ⟨_,.intro (List.mem_singleton_self _) (by simp),rfl⟩
end

omit [FloatOps F] in
lemma remembers_new (cfg : ArbiterConfig F) : Remembers cfg (Arbiter.new cfg) [] := by
  refine ⟨rfl,Nat.zero_le _,fun e m h => ?_,fun r hr => by cases hr⟩
  generalize hnil : ([] : List Beat) = l at h
  obtain ⟨-,-⟩ := h
  simp at hnil

lemma remembers_history (cfg : ArbiterConfig F) (is : List (TickInput F)) :
    Remembers cfg (run next (Arbiter.new cfg) is) ((Arbiter.new cfg).history is) := by
  induction is using List.reverseRecOn with
  | nil => exact remembers_new cfg
  | append_singleton is i ih =>
    rw [history,outputs_append,run_append]
    exact (ticked _ i).remembers ih

/-- In every run each tick moves what its history allows: at most one slice, none while a lease is
pending, after the cooldown of the latest movement and a sustained differential, and back only the
latest move within its window. -/
theorem movements_disciplined (cfg : ArbiterConfig F) (hstreak : 1 ≤ cfg.streak)
    (is : List (TickInput F)) (i : TickInput F) :
    Lawful cfg ((Arbiter.new cfg).history is) ((run next (Arbiter.new cfg) is).beat i) :=
  (ticked _ i).lawful hstreak (remembers_history cfg is)

/-- Two tenants, one slice. The second tenant holds it, and only the first is under pressure. -/
def pressedTick (now : ℕ) : TickInput ℚ :=
  ⟨now,[⟨1,⟨50,0,0⟩,0⟩,⟨2,⟨0,0,0⟩,1⟩],[⟨0,0,4096,some 2,.active⟩],none⟩

/-- Then the slice has moved, and its former holder suffers. -/
def regrettedTick (now : ℕ) : TickInput ℚ :=
  ⟨now,[⟨1,⟨0,0,0⟩,1⟩,⟨2,⟨50,0,0⟩,0⟩],[⟨0,0,4096,some 1,.active⟩],none⟩

/-- The fifth tick under pressure moves the slice; the next one moves it back. -/
theorem movements_disciplined_pressed :
    ((Arbiter.new (F := ℚ) .default).history ((List.range 5).map pressedTick++[regrettedTick 5])).map
      Beat.movements = [[],[],[],[],[.moveSlice 0 2 1],[.revertMove 0 1 2]] ∧
    Lawful (F := ℚ) .default ((Arbiter.new .default).history ((List.range 5).map pressedTick))
      ((run next (Arbiter.new .default) ((List.range 5).map pressedTick)).beat (regrettedTick 5)) :=
  ⟨by decide +kernel,movements_disciplined .default (by decide) _ _⟩

end Arbiter
end RamShared.Broker

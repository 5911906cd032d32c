import RamShared.Broker.Discipline

/-! The free slices go to the tenants in turn, and the cursor carries the turn from tick to tick. -/
namespace RamShared.Broker
open Lib

def assignments (actions : List Action) : List (SliceId × TenantId) :=
  actions.filterMap fun x => match x with
    | .assignFree s t => some (s,t)
    | _ => none

@[simp] lemma assignments_append (xs ys : List Action) :
    assignments (xs++ys) = assignments xs++assignments ys := List.filterMap_append

@[simp] lemma assignments_assignFree (s : SliceId) (t : TenantId) (actions : List Action) :
    assignments (.assignFree s t::actions) = (s,t)::assignments actions := rfl

def given (tenant : TenantId) (actions : List Action) : ℕ :=
  ((assignments actions).map Prod.snd).count tenant

namespace Arbiter
variable {F : Type}

lemma idsIn_cons (s : Slice) (rest : List Slice) (state : SliceState) : idsIn (s::rest) state =
    if s.state=state then s.id::idsIn rest state else idsIn rest state := by
  unfold idsIn
  split_ifs with hs <;> simp [hs]

section
variable {tenants : List (TenantView F)} (htenants : tenants≠[]) (slices : List Slice)
include htenants

lemma exists_turn (cursor : ℕ) : ∃ t, tenants[cursor%tenants.length]?=some t :=
  ⟨_,List.getElem?_eq_getElem (Nat.mod_lt _ (List.length_pos_iff.mpr htenants))⟩

lemma roundRobin_slices (cursor : ℕ) :
    (assignments (roundRobin tenants slices cursor).1).map Prod.fst = idsIn slices .free := by
  induction slices generalizing cursor with
  | nil => rfl
  | cons s rest ih =>
    obtain ⟨t,ht⟩ := exists_turn htenants cursor
    rw [roundRobin,idsIn_cons]
    split_ifs
    · simp [ht,ih]
    · exact ih cursor

lemma roundRobin_turns {cursor : ℕ} (hcursor : cursor+(idsIn slices .free).length<2^64) :
    (assignments (roundRobin tenants slices cursor).1).map Prod.snd =
      (List.range' cursor (idsIn slices .free).length).filterMap
        (fun k => (tenants.map TenantView.id)[k%tenants.length]?) ∧
    (roundRobin tenants slices cursor).2 = cursor+(idsIn slices .free).length := by
  induction slices generalizing cursor with
  | nil => exact ⟨rfl,rfl⟩
  | cons s rest ih =>
    obtain ⟨t,ht⟩ := exists_turn htenants cursor
    rw [idsIn_cons] at hcursor ⊢
    rw [roundRobin]
    split_ifs at hcursor ⊢
    · rw [List.length_cons] at hcursor ⊢
      have hstep : wrappingAdd 64 cursor 1 = cursor+1 := Nat.mod_eq_of_lt (by omega)
      have hcursor' : cursor+1+(idsIn rest .free).length<2^64 := by omega
      obtain ⟨hturns,hnext⟩ := ih hcursor'
      simp only [ht,hstep,assignments_assignFree,List.map_cons,hturns,hnext,List.range'_succ,
        List.filterMap_cons,List.getElem?_map,Option.map_some,true_and]
      omega
    · exact ih hcursor
end

variable [FloatOps F]

lemma assignments_emits (a : Arbiter F) {i : TickInput F} (hlease : i.pendingLease=none) :
    assignments (a.emits i) = assignments (a.handout i).1 ∧ (a.next i).rrCursor = (a.handout i).2 := by
  have ht := a.ticked i
  generalize a.emits i=actions, a.next i = a' at ht
  cases ht with
  | leased hpending => simp [hlease] at hpending
  | reverted => exact ⟨rfl,rfl⟩
  | moved => exact ⟨rfl,rfl⟩
  | stayed => exact ⟨rfl,rfl⟩

/-- The tenant list of a run, and that no lease is pending. -/
def Fixed (ids : List TenantId) (i : TickInput F) : Prop :=
  i.tenants.map TenantView.id=ids ∧ i.pendingLease=none

lemma emits_slices (a : Arbiter F) {ids : List TenantId} (hids : ids≠[]) {i : TickInput F}
    (hi : Fixed ids i) : (assignments (a.emits i)).map Prod.fst = idsIn i.slices .free := by
  obtain ⟨rfl,hlease⟩ := hi
  have htenants : i.tenants≠[] := by simpa using hids
  rw [(a.assignments_emits hlease).1,handout,if_neg (by simpa using htenants)]
  exact roundRobin_slices htenants i.slices a.rrCursor

def actions (a : Arbiter F) (is : List (TickInput F)) : List Action := outputs next emits a is

lemma actions_turns (cfg : ArbiterConfig F) {ids : List TenantId} (hids : ids≠[])
    (is : List (TickInput F)) (his : ∀ i∈is, Fixed ids i)
    (htotal : (assignments ((Arbiter.new cfg).actions is)).length<2^64) :
    (run next (Arbiter.new cfg) is).rrCursor = (assignments ((Arbiter.new cfg).actions is)).length ∧
    (assignments ((Arbiter.new cfg).actions is)).map Prod.snd =
      turns ids (assignments ((Arbiter.new cfg).actions is)).length := by
  induction is using List.reverseRecOn with
  | nil => exact ⟨rfl,rfl⟩
  | append_singleton is i ih =>
    have hi : Fixed ids i := his i (by simp)
    have hactions : (Arbiter.new cfg).actions (is++[i]) =
        (Arbiter.new cfg).actions is++(run next (Arbiter.new cfg) is).emits i := by
      simp [actions,outputs_append,outputs]
    have hlen := congrArg List.length ((run next (Arbiter.new cfg) is).emits_slices hids hi)
    rw [List.length_map] at hlen
    rw [hactions,assignments_append,List.length_append,hlen] at htotal ⊢
    obtain ⟨hcursor,hturns⟩ := ih (fun j hj => his j (by simp [hj])) (by omega)
    have htenants : i.tenants≠[] := by
      rintro hnil
      exact hids (by simpa [hnil] using hi.1.symm)
    have hround := roundRobin_turns htenants i.slices (hcursor ▸ htotal)
    have hhandout : (run next (Arbiter.new cfg) is).handout i =
        roundRobin i.tenants i.slices (run next (Arbiter.new cfg) is).rrCursor :=
      if_neg (by simpa using htenants)
    obtain ⟨hemits,hnext⟩ := (run next (Arbiter.new cfg) is).assignments_emits hi.2
    rw [hhandout] at hemits hnext
    refine ⟨?_,?_⟩
    · rw [run_append,←hcursor]
      exact hnext.trans hround.2
    · rw [List.map_append,hturns,turns_add,hemits,hround.1,hcursor,←hi.1,List.length_map]

/-- Fair shares: every tick assigns each free slice of its view once and no other slice, and after
every tick two tenants listed once have been given the same number of slices, up to one. -/
theorem roundRobin_fair (cfg : ArbiterConfig F) (ids : List TenantId) (hids : ids ≠ [])
    (is : List (TickInput F)) (his : ∀ i ∈ is, Fixed ids i)
    (htotal : (assignments ((Arbiter.new cfg).actions is)).length < 2^64) :
    (∀ before i after, is = before++i::after →
      (assignments ((run next (Arbiter.new cfg) before).emits i)).map Prod.fst =
        idsIn i.slices .free) ∧
    ∀ before, before <+: is → ∀ x y, ids.count x = 1 → ids.count y = 1 →
      given x ((Arbiter.new cfg).actions before) ≤ given y ((Arbiter.new cfg).actions before)+1 := by
  refine ⟨fun before i after his' => emits_slices _ hids (his i (by simp [his'])),?_⟩
  rintro before ⟨after,rfl⟩ x y hx hy
  have hle : (assignments ((Arbiter.new cfg).actions before)).length ≤
      (assignments ((Arbiter.new cfg).actions (before++after))).length := by
    simp [actions,outputs_append]
  obtain ⟨-,hturns⟩ := actions_turns cfg hids before (fun i hi => his i (by simp [hi]))
    (lt_of_le_of_lt hle htotal)
  rw [given,given,hturns]
  exact count_turns_le hx hy _

/-- Three free slices, then none, then two, for tenants 7 and 9. -/
def freeTick (slices : List Slice) : TickInput ℚ := ⟨0,[⟨7,⟨0,0,0⟩,0⟩,⟨9,⟨0,0,0⟩,0⟩],slices,none⟩

def freeTicks : List (TickInput ℚ) :=
  [freeTick [⟨0,0,4096,none,.free⟩,⟨1,4096,4096,some 7,.active⟩,⟨2,8192,4096,none,.free⟩,
      ⟨3,12288,4096,none,.free⟩],
    freeTick [],
    freeTick [⟨4,0,4096,none,.free⟩,⟨5,4096,4096,none,.free⟩]]

theorem roundRobin_fair_freeTicks :
    assignments ((Arbiter.new (F := ℚ) .default).actions freeTicks) = [(0,7),(2,9),(3,7),(4,9),(5,7)] ∧
    given 7 ((Arbiter.new (F := ℚ) .default).actions freeTicks) ≤
      given 9 ((Arbiter.new (F := ℚ) .default).actions freeTicks)+1 := by
  have hassigned : assignments ((Arbiter.new (F := ℚ) .default).actions freeTicks) =
      [(0,7),(2,9),(3,7),(4,9),(5,7)] := by decide +kernel
  have hfixed : ∀ i ∈ freeTicks, Fixed [7,9] i := by
    intro i hi
    simp only [freeTicks,List.mem_cons,List.not_mem_nil,or_false] at hi
    rcases hi with rfl | rfl | rfl <;> exact ⟨rfl,rfl⟩
  refine ⟨hassigned,?_⟩
  exact (roundRobin_fair .default [7,9] (by simp) freeTicks hfixed (by rw [hassigned]; decide)).2
    freeTicks List.prefix_rfl 7 9 (by decide) (by decide)

end Arbiter
end RamShared.Broker

import RamShared.Agent.Session
import RamShared.Lib.Run

/-! What an agent has mounted it can release, as long as no detach of a mounted slice fails, a slice
is not ordered on while the agent is still busy with it, and no session ends over a mount that is
under way. -/
namespace RamShared.Agent
open Broker Lib

variable {s : SliceId}

namespace AgentState
variable {F : Type} (a : AgentState)

def inFlight : List ExecCmd := (a.executor.map Prod.fst).toList++a.commands

def OffQueued (s : SliceId) : Prop :=
  ∃ cmd∈a.inFlight, cmd.isOn=false ∧ cmd.slice=s

instance (s : SliceId) : Decidable (a.OffQueued s) :=
  inferInstanceAs (Decidable (∃ cmd∈a.inFlight, cmd.isOn=false ∧ cmd.slice=s))

/-- A slice whose mount or detach is completed by the step, and whether it is mounted then. A failed
detach changes nothing. -/
def completed : AgentStep F → Option (SliceId × Bool)
  | .exec outcome =>
    match a.executor with
    | some (cmd,[]) => some (cmd.slice,cmd.isOn)
    | some (cmd,c::rest) =>
      match advance (c::rest) outcome with
      | .ok _ => none
      | .error _ => if cmd.isOn then some (cmd.slice,false) else none
    | none => none
  | .clean _ =>
    match a.phase, a.cleanup with
    | .cleaning, (s,[])::_ => some (s,false)
    | _, _ => none
  | _ => none

def failedDetach : AgentStep F → Option SliceId
  | .exec outcome =>
    match a.executor with
    | some (cmd,program) =>
      match advance program outcome with
      | .ok _ => none
      | .error _ => if cmd.isOn then none else some cmd.slice
    | none => none
  | .clean outcome =>
    match a.phase, a.cleanup with
    | .cleaning, (s,program)::_ =>
      match advance program outcome with
      | .ok _ => none
      | .error _ => some s
    | _, _ => none
  | _ => none

def orderedOn : AgentStep F → Option SliceId
  | .message (.swapOn s _ _ _) => if a.phase=.running then some s else none
  | _ => none

def endsSession : AgentStep F → Bool
  | .stop => a.phase=.running
  | .report written => a.phase=.running && !written
  | .message (.error _) => a.phase=.running
  | _ => false

/-- The results and the commands about a slice, oldest first: whether each is a mount. -/
def pipeline (s : SliceId) : List Bool :=
  ((a.results.filter fun r => r.slice=s).map ExecResult.isOn) ++
    (a.inFlight.filter fun cmd => cmd.slice=s).map ExecCmd.isOn

lemma inFlight_of_executor {a : AgentState} {cmd : ExecCmd} {program : List SwapCommand}
    (h : a.executor=some (cmd,program)) : a.inFlight = cmd::a.commands := by
  simp [inFlight,h]

lemma inFlight_append (active : List (SliceId × String)) (cmds : List ExecCmd) :
    inFlight {a with active := active, commands := a.commands++cmds} = a.inFlight++cmds := by
  simp [inFlight]

lemma OffQueued.of_subset {a a' : AgentState} (h : a.OffQueued s)
    (hsub : ∀ cmd∈a.inFlight, cmd∈a'.inFlight) : a'.OffQueued s := by
  obtain ⟨cmd,hcmd,hoff⟩ := h
  exact ⟨cmd,hsub cmd hcmd,hoff⟩

end AgentState

open AgentState (pipeline inFlight OffQueued inFlight_of_executor)

lemma mem_keys_forget {k : SliceId} {active : List (SliceId × String)} :
    k∈(forget s active).map Prod.fst ↔ k∈active.map Prod.fst ∧ k≠s := by
  simp only [forget,List.mem_map,List.mem_filter,decide_eq_true_eq]
  constructor
  · rintro ⟨e,⟨he,hne⟩,rfl⟩
    exact ⟨⟨e,he,rfl⟩,hne⟩
  · rintro ⟨⟨e,he,rfl⟩,hne⟩
    exact ⟨e,⟨he,hne⟩,rfl⟩

/-- The agent with the slices whose last completed mount succeeded and that have not been detached
since. -/
structure Watched where
  agent : AgentState
  mounted : SliceId → Bool

namespace Watched
variable {F : Type}

def new : Watched := ⟨.new,fun _ => false⟩

def step (cfg : AgentConfig) (w : Watched) (x : AgentStep F) : Watched :=
  ⟨w.agent.step cfg x,(w.agent.completed x).elim w.mounted fun c => Function.update w.mounted c.1 c.2⟩

/-- Every mounted slice is in the map, or a detach of it is queued. -/
def CanRelease (w : Watched) : Prop :=
  ∀ s, w.mounted s=true → s∈w.agent.active.map Prod.fst ∨ w.agent.OffQueued s

/-- A slice is ordered on only when no command and no result about it is outstanding; a detach of a
mounted slice does not fail; and when a session ends, a mount under way is to be detached again. -/
structure Careful (w : Watched) (x : AgentStep F) : Prop where
  ordered : ∀ s∈w.agent.orderedOn x,
    (∀ cmd∈w.agent.inFlight, cmd.slice≠s) ∧ ∀ r∈w.agent.results, r.slice≠s
  detach : ∀ s∈w.agent.failedDetach x, w.mounted s=false
  ending : w.agent.endsSession x=true →
    ∀ cmd∈w.agent.inFlight, cmd.isOn=true → w.agent.OffQueued cmd.slice

instance (w : Watched) (x : AgentStep F) : Decidable (w.Careful x) :=
  decidable_of_iff
    ((∀ s∈w.agent.orderedOn x,
        (∀ cmd∈w.agent.inFlight, cmd.slice≠s) ∧ ∀ r∈w.agent.results, r.slice≠s) ∧
      (∀ s∈w.agent.failedDetach x, w.mounted s=false) ∧
      (w.agent.endsSession x=true →
        ∀ cmd∈w.agent.inFlight, cmd.isOn=true → w.agent.OffQueued cmd.slice))
    ⟨fun h => ⟨h.1,h.2.1,h.2.2⟩,fun h => ⟨h.ordered,h.detach,h.ending⟩⟩

structure Releasing (w : Watched) : Prop where
  /-- A mount is the oldest thing that the agent has to do with the slice. -/
  first : ∀ s, true∉(w.agent.pipeline s).tail
  covered : ∀ cmd∈w.agent.inFlight, cmd.isOn=true →
    cmd.slice∈w.agent.active.map Prod.fst ∨ w.agent.OffQueued cmd.slice
  kept : ∀ s, w.mounted s=true → s∈w.agent.active.map Prod.fst ∨ w.agent.OffQueued s ∨
    s∈w.agent.cleanup.map Prod.fst
  settled : ∀ r∈w.agent.results, (r.isOn && r.ok)=false → w.mounted r.slice=false
  cleaned : w.agent.phase≠.cleaning → w.agent.cleanup=[]
  closed : w.agent.phase≠.running → w.agent.active=[]

lemma releasing_new : Releasing new := by
  constructor <;> simp [new,AgentState.new,pipeline,inFlight]

namespace Releasing
variable {w : Watched}
variable {cmd : ExecCmd} {program : List SwapCommand}

variable (h : w.Releasing)
include h

lemma no_mount_of_result {r : ExecResult} (hr : r∈w.agent.results)
    (hcmd : cmd∈w.agent.inFlight) (hslice : cmd.slice=r.slice) : cmd.isOn=false := by
  by_contra hon
  rw [Bool.not_eq_false] at hon
  apply h.first r.slice
  have hmem : r∈w.agent.results.filter fun x => x.slice=r.slice := by simp [hr]
  obtain ⟨x,xs,hx⟩ := List.exists_cons_of_ne_nil (List.ne_nil_of_mem hmem)
  rw [pipeline,hx]
  apply List.mem_append_right
  exact List.mem_map.mpr ⟨cmd,by simp [hcmd,hslice],hon⟩

lemma no_mount_behind {cmd' : ExecCmd} (hx : w.agent.executor=some (cmd,program)) (hcmd : cmd'∈w.agent.commands)
    (hslice : cmd'.slice=cmd.slice) : cmd'.isOn=false := by
  by_contra hon
  rw [Bool.not_eq_false] at hon
  apply h.first cmd.slice
  have hmem : true∈(w.agent.commands.filter fun c => c.slice=cmd.slice).map ExecCmd.isOn :=
    List.mem_map.mpr ⟨cmd',by simp [hcmd,hslice],hon⟩
  rw [pipeline,inFlight_of_executor hx,
    List.filter_cons_of_pos (by simp),List.map_cons]
  cases (w.agent.results.filter fun r => r.slice=cmd.slice).map ExecResult.isOn with
  | nil => exact hmem
  | cons b bs => exact List.mem_append_right _ (List.mem_cons_of_mem _ hmem)

lemma congr {a : AgentState} (hflight : a.inFlight=w.agent.inFlight)
    (hresults : a.results=w.agent.results) (hactive : a.active.Perm w.agent.active)
    (hcleanup : a.cleanup.map Prod.fst = w.agent.cleanup.map Prod.fst)
    (hphase : a.phase=w.agent.phase) : Releasing ⟨a,w.mounted⟩ := by
  have hoff (s : SliceId) : a.OffQueued s ↔ w.agent.OffQueued s := by
    unfold OffQueued
    rw [hflight]
  have hkey (s : SliceId) : s∈a.active.map Prod.fst ↔ s∈w.agent.active.map Prod.fst :=
    (hactive.map Prod.fst).mem_iff
  refine ⟨fun s => ?_,?_,fun s hs => ?_,?_,fun hp => ?_,fun hp => ?_⟩
  · unfold pipeline
    rw [hflight,hresults]
    exact h.first s
  · change ∀ cmd∈a.inFlight, _ → cmd.slice∈a.active.map Prod.fst ∨ a.OffQueued cmd.slice
    rw [hflight]
    intro cmd hcmd hon
    rw [hkey,hoff]
    exact h.covered cmd hcmd hon
  · change s∈a.active.map Prod.fst ∨ a.OffQueued s ∨ s∈a.cleanup.map Prod.fst
    rw [hkey,hoff,hcleanup]
    exact h.kept s hs
  · change ∀ r∈a.results, _
    rw [hresults]
    exact h.settled
  · have hnil := h.cleaned (hphase ▸ hp)
    rw [hnil,List.map_nil] at hcleanup
    exact List.map_eq_nil_iff.mp hcleanup
  · have hnil := h.closed (hphase ▸ hp)
    rw [hnil] at hactive
    exact hactive.eq_nil

lemma answer (hx : w.agent.executor=some (cmd,program)) {r : ExecResult}
    (hslice : r.slice=cmd.slice) (hon : r.isOn=cmd.isOn) (d : Devices) :
    Releasing ⟨{w.agent with executor := none, results := w.agent.results++[r], devices := d},
      Function.update w.mounted cmd.slice (r.isOn && r.ok)⟩ := by
  have hflight := inFlight_of_executor hx
  have hhead : cmd∈w.agent.inFlight := by simp [hflight]
  -- a detach that is not the one answered is still there
  have hoff {s : SliceId} (hs : w.agent.OffQueued s) (hne : cmd.isOn=true ∨ cmd.slice≠s) :
      ∃ c∈w.agent.commands, c.isOn=false ∧ c.slice=s := by
    obtain ⟨c,hc,hcoff,hcs⟩ := hs
    rw [hflight] at hc
    obtain rfl | hc := List.mem_cons.mp hc
    · obtain hne | hne := hne
      · simp [hne] at hcoff
      · exact absurd hcs hne
    · exact ⟨c,hc,hcoff,hcs⟩
  refine ⟨fun s => ?_,?_,fun s hs => ?_,fun x hxr hno => ?_,h.cleaned,h.closed⟩
  · have heq : pipeline
        {w.agent with executor := none, results := w.agent.results++[r], devices := d} s =
        w.agent.pipeline s := by
      unfold pipeline
      rw [hflight]
      by_cases hs : cmd.slice=s
      · simp [inFlight,hs,hslice,hon]
      · simp [inFlight,hs,hslice]
    rw [heq]
    exact h.first s
  · intro c hc hcon
    have hc : c∈w.agent.commands := by simpa [inFlight] using hc
    obtain hkey | hq := h.covered c (by rw [hflight]; exact List.mem_cons_of_mem _ hc) hcon
    · exact .inl hkey
    · have hne : cmd.slice≠c.slice := fun he => by
        simp [h.no_mount_behind hx hc he.symm] at hcon
      obtain ⟨c',hc',ho⟩ := hoff hq (.inr hne)
      exact .inr ⟨c',by simpa [inFlight] using hc',ho⟩
  · by_cases hs' : s=cmd.slice
    · subst hs'
      simp only [Function.update_self,Bool.and_eq_true] at hs
      obtain hkey | hq := h.covered cmd hhead (hon ▸ hs.1)
      · exact .inl hkey
      · obtain ⟨c',hc',ho⟩ := hoff hq (.inl (hon ▸ hs.1))
        exact .inr (.inl ⟨c',by simpa [inFlight] using hc',ho⟩)
    · simp only [Function.update_of_ne hs'] at hs
      obtain hkey | hq | hc := h.kept s hs
      · exact .inl hkey
      · obtain ⟨c',hc',ho⟩ := hoff hq (.inr (Ne.symm hs'))
        exact .inr (.inl ⟨c',by simpa [inFlight] using hc',ho⟩)
      · exact .inr (.inr hc)
  · change Function.update w.mounted cmd.slice (r.isOn && r.ok) x.slice=false
    obtain hold | hnew := List.mem_append.mp hxr
    · by_cases hs : x.slice=cmd.slice
      · rw [hs,Function.update_self]
        have := h.no_mount_of_result hold hhead hs.symm
        simp [hon,this]
      · rw [Function.update_of_ne hs]
        exact h.settled x hold hno
    · obtain rfl := List.mem_singleton.mp hnew
      rw [hslice,Function.update_self]
      exact hno

lemma cleaned_one {rest : List (SliceId × List SwapCommand)}
    (hc : w.agent.cleanup = (s,program)::rest) (d : Devices) :
    Releasing ⟨{w.agent with cleanup := rest, devices := d},Function.update w.mounted s false⟩ := by
  have hphase : w.agent.phase=.cleaning := by
    by_contra hp
    simp [h.cleaned hp] at hc
  refine ⟨h.first,h.covered,fun k hk => ?_,fun r hr hno => ?_,fun hp => absurd hphase hp,h.closed⟩
  · have hne : k≠s := by
      rintro rfl
      simp at hk
    simp only [Function.update_of_ne hne] at hk
    obtain hkey | hq | hcl := h.kept k hk
    · exact .inl hkey
    · exact .inr (.inl hq)
    · rw [hc,List.map_cons,List.mem_cons] at hcl
      exact .inr (.inr (hcl.resolve_left hne))
  · change Function.update w.mounted s false r.slice=false
    by_cases hs : r.slice=s
    · rw [hs,Function.update_self]
    · rw [Function.update_of_ne hs]
      exact h.settled r hr hno

lemma queue_offs {active : List (SliceId × String)} {cmds : List ExecCmd} (hoffs : ∀ cmd∈cmds, cmd.isOn=false)
    (hkeys : ∀ s∈w.agent.active.map Prod.fst, s∈active.map Prod.fst ∨ ∃ cmd∈cmds, cmd.slice=s)
    (hphase : w.agent.phase=.running) :
    Releasing ⟨{w.agent with active := active, commands := w.agent.commands++cmds},w.mounted⟩ := by
  have hflight := w.agent.inFlight_append active cmds
  have hmono {s : SliceId} (hs : w.agent.OffQueued s) : OffQueued
      {w.agent with active := active, commands := w.agent.commands++cmds} s :=
    hs.of_subset fun c hc => by
      rw [hflight]
      exact List.mem_append_left _ hc
  have hkey {s : SliceId} (hs : s∈w.agent.active.map Prod.fst) : s∈active.map Prod.fst ∨
      OffQueued {w.agent with active := active, commands := w.agent.commands++cmds} s := by
    obtain hs | ⟨c,hc,rfl⟩ := hkeys s hs
    · exact .inl hs
    · exact .inr ⟨c,by rw [hflight]; exact List.mem_append_right _ hc,hoffs c hc,rfl⟩
  refine ⟨fun s => ?_,?_,fun s hs => ?_,h.settled,h.cleaned,fun hp => absurd hphase hp⟩
  · have heq : pipeline
        {w.agent with active := active, commands := w.agent.commands++cmds} s =
        w.agent.pipeline s++(cmds.filter fun c => c.slice=s).map ExecCmd.isOn := by
      unfold pipeline
      rw [hflight]
      simp
    have hfalse : true∉(cmds.filter fun c => c.slice=s).map ExecCmd.isOn := by
      intro hmem
      obtain ⟨c,hc,hcon⟩ := List.mem_map.mp hmem
      simp [hoffs c (List.mem_of_mem_filter hc)] at hcon
    have hfirst := h.first s
    rw [heq]
    cases hp : w.agent.pipeline s with
    | nil => exact fun hmem => hfalse (List.mem_of_mem_tail hmem)
    | cons b bs =>
      rw [hp] at hfirst
      rw [List.cons_append,List.tail_cons,List.mem_append,not_or]
      exact ⟨hfirst,hfalse⟩
  · change ∀ c∈inFlight _, _
    rw [hflight]
    intro c hc hcon
    obtain hc | hc := List.mem_append.mp hc
    · obtain hs | hs := h.covered c hc hcon
      · exact hkey hs
      · exact .inr (hmono hs)
    · simp [hoffs c hc] at hcon
  · obtain hk | hq | hc := h.kept s hs
    · obtain hk | hk := hkey hk
      · exact .inl hk
      · exact .inr (.inl hk)
    · exact .inr (.inl (hmono hq))
    · exact .inr (.inr hc)

lemma order_on (hflight : ∀ cmd∈w.agent.inFlight, cmd.slice≠s)
    (hresults : ∀ r∈w.agent.results, r.slice≠s) (dev : String) (hcmd : cmd.slice=s)
    (hphase : w.agent.phase=.running) : Releasing ⟨{ w.agent with
      active := (s,dev)::forget s w.agent.active
      commands := w.agent.commands++[cmd]},w.mounted⟩ := by
  have hin := w.agent.inFlight_append ((s,dev)::forget s w.agent.active) [cmd]
  have hmono {k : SliceId} (hk : w.agent.OffQueued k) : OffQueued { w.agent with
      active := (s,dev)::forget s w.agent.active
      commands := w.agent.commands++[cmd]} k :=
    hk.of_subset fun c hc => by
      rw [hin]
      exact List.mem_append_left _ hc
  have hkey {k : SliceId} (hk : k∈w.agent.active.map Prod.fst) :
      k∈((s,dev)::forget s w.agent.active).map Prod.fst := by
    rw [List.map_cons,List.mem_cons,mem_keys_forget]
    by_cases hks : k=s
    · exact .inl hks
    · exact .inr ⟨hk,hks⟩
  refine ⟨fun k => ?_,?_,fun k hk => ?_,h.settled,h.cleaned,fun hp => absurd hphase hp⟩
  · have heq : pipeline { w.agent with
        active := (s,dev)::forget s w.agent.active
        commands := w.agent.commands++[cmd]} k =
        w.agent.pipeline k++([cmd].filter fun c => c.slice=k).map ExecCmd.isOn := by
      unfold pipeline
      rw [hin]
      simp
    rw [heq]
    by_cases hk : s=k
    · have hnil : w.agent.pipeline k=[] := by
        subst hk
        simpa [pipeline] using ⟨hresults,hflight⟩
      rw [hnil,List.nil_append]
      simp [hcmd,hk]
    · rw [List.filter_cons_of_neg (by simpa [hcmd] using hk)]
      simpa using h.first k
  · change ∀ c∈inFlight _, _
    rw [hin]
    intro c hc hcon
    obtain hc | hc := List.mem_append.mp hc
    · obtain hk | hk := h.covered c hc hcon
      · exact .inl (hkey hk)
      · exact .inr (hmono hk)
    · rw [List.mem_singleton.mp hc,hcmd]
      exact .inl List.mem_cons_self
  · obtain hk | hq | hc := h.kept k hk
    · exact .inl (hkey hk)
    · exact .inr (.inl (hmono hq))
    · exact .inr (.inr hc)

lemma drain (hphase : w.agent.phase=.running) : Releasing ⟨w.agent.drainResult,w.mounted⟩ := by
  unfold AgentState.drainResult
  cases hr : w.agent.results with
  | nil => exact h
  | cons r results =>
    have hmem : r∈w.agent.results := by simp [hr]
    -- only the entry of a slice that is neither mounted nor being mounted leaves the map
    have hkey {k : SliceId} (hk : k∈w.agent.active.map Prod.fst)
        (hne : k=r.slice → (r.isOn && r.ok)=true) :
        k∈(if r.isOn && r.ok then w.agent.active else forget r.slice w.agent.active).map Prod.fst := by
      split_ifs with hok
      · exact hk
      · exact mem_keys_forget.mpr ⟨hk,fun he => hok (hne he)⟩
    refine ⟨fun s => ?_,?_,fun s hs => ?_,fun x hx => h.settled x (by simp [hr,hx]),h.cleaned,
      fun hp => absurd hphase hp⟩
    · have hfirst := h.first s
      unfold pipeline at hfirst ⊢
      rw [hr] at hfirst
      change true∉(List.map _ (List.filter _ results)++List.map _ (List.filter _ w.agent.inFlight)).tail
      by_cases hs : r.slice=s
      · rw [List.filter_cons_of_pos (by simpa using hs),List.map_cons,List.cons_append,
          List.tail_cons] at hfirst
        exact fun hm => hfirst (List.mem_of_mem_tail hm)
      · rwa [List.filter_cons_of_neg (by simpa using hs)] at hfirst
    · intro cmd hcmd hon
      obtain hk | hk := h.covered cmd hcmd hon
      · refine .inl (hkey hk fun he => ?_)
        simp [h.no_mount_of_result hmem hcmd he] at hon
      · exact .inr hk
    · obtain hk | hq | hc := h.kept s hs
      · refine .inl (hkey hk fun he => ?_)
        by_contra hno
        have := h.settled r hmem (by simpa using hno)
        rw [he] at hs
        simp [this] at hs
      · exact .inr (.inl hq)
      · exact .inr (.inr hc)

lemma endLoop (hending : ∀ cmd∈w.agent.inFlight, cmd.isOn=true → w.agent.OffQueued cmd.slice)
    (hphase : w.agent.phase=.running) : Releasing ⟨w.agent.endLoop,w.mounted⟩ := by
  refine ⟨h.first,fun cmd hcmd hon => .inr (hending cmd hcmd hon),fun s hs => ?_,h.settled,
    fun hp => absurd rfl hp,fun _ => rfl⟩
  obtain hk | hq | hc := h.kept s hs
  · refine .inr (.inr ?_)
    obtain ⟨e,he,rfl⟩ := List.mem_map.mp hk
    exact List.mem_map.mpr ⟨_,List.mem_map_of_mem he,rfl⟩
  · exact .inr (.inl hq)
  · simp [h.cleaned (by simp [hphase])] at hc

variable (cfg : AgentConfig)

lemma message (m : Msg F) (hc : w.Careful (AgentStep.message m)) (hphase : w.agent.phase=.running) :
    Releasing ⟨if (w.agent.handleMsg cfg m).1 then (w.agent.handleMsg cfg m).2
      else (w.agent.handleMsg cfg m).2.endLoop,w.mounted⟩ := by
  cases m with
  | swapOn s exportName endpoint prio =>
    obtain ⟨hflight,hresults⟩ := hc.ordered s (by simp [AgentState.orderedOn,hphase])
    exact h.order_on hflight hresults _ rfl hphase
  | swapOff s =>
    refine h.queue_offs ?_ (fun k hk => ?_) hphase
    · simp [ExecCmd.isOn]
    · by_cases hks : k=s
      · exact .inr ⟨_,List.mem_singleton_self _,hks.symm⟩
      · exact .inl (mem_keys_forget.mpr ⟨hk,hks⟩)
  | demoteAll =>
    refine h.queue_offs (fun cmd hcmd => ?_) (fun k hk => .inr ?_) hphase
    · obtain ⟨e,-,rfl⟩ := List.mem_map.mp hcmd
      rfl
    · obtain ⟨e,he,rfl⟩ := List.mem_map.mp hk
      exact ⟨_,List.mem_map_of_mem he,rfl⟩
  | error reason =>
    exact h.endLoop (hc.ending (by simp [AgentState.endsSession,hphase])) hphase
  | _ => exact h

lemma exec (outcome : Outcome) (hc : w.Careful (AgentStep.exec outcome : AgentStep F)) :
    (w.step cfg (AgentStep.exec outcome : AgentStep F)).Releasing := by
  obtain ⟨a,mounted⟩ := w
  cases hx : a.executor with
  | none =>
    simp only [Watched.step,AgentState.step,AgentState.exec,AgentState.completed,hx]
    cases hq : a.commands with
    | nil => exact h
    | cons cmd cmds =>
      exact h.congr (by simp [inFlight,hx,hq]) rfl (.refl _) rfl rfl
  | some job =>
    obtain ⟨cmd,_ | ⟨c,rest⟩⟩ := job
    · simp only [Watched.step,AgentState.step,AgentState.exec,AgentState.completed,hx]
      have ha := h.answer hx (r := cmd.result none) rfl rfl a.devices
      simpa [ExecCmd.result] using ha
    · cases hadv : advance (c::rest) outcome with
      | ok rest' =>
        simp only [Watched.step,AgentState.step,AgentState.exec,AgentState.completed,hx,hadv]
        exact h.congr (by simp [inFlight,hx]) rfl (.refl _) rfl rfl
      | error e =>
        have ha := h.answer hx (r := cmd.result (some e)) rfl rfl (c.apply outcome a.devices)
        simp only [Watched.step,AgentState.step,AgentState.exec,AgentState.completed,hx,hadv]
        cases hon : cmd.isOn with
        | true => simpa [ExecCmd.result] using ha
        | false =>
          have hm : mounted cmd.slice=false :=
            hc.detach cmd.slice (by simp [AgentState.failedDetach,hx,hadv,hon])
          have hno : ((cmd.result (some e)).isOn && (cmd.result (some e)).ok) = mounted cmd.slice := by
            simp [ExecCmd.result,hm]
          rw [hno,Function.update_eq_self] at ha
          simpa using ha

lemma clean (outcome : Outcome) (hc : w.Careful (AgentStep.clean outcome : AgentStep F)) :
    (w.step cfg (AgentStep.clean outcome : AgentStep F)).Releasing := by
  obtain ⟨⟨phase,active,commands,executor,results,cleanup,devices⟩,mounted⟩ := w
  cases phase with
  | cleaning =>
    cases cleanup with
    | nil => exact ⟨h.first,h.covered,h.kept,h.settled,fun _ => rfl,fun _ => h.closed (by simp)⟩
    | cons job rest =>
      obtain ⟨s,_ | ⟨c,program⟩⟩ := job
      · exact h.cleaned_one rfl devices
      · simp only [Watched.step,AgentState.step,AgentState.clean,AgentState.completed]
        cases hadv : advance (c::program) outcome with
        | ok program' => exact h.congr rfl rfl (.refl _) rfl rfl
        | error e =>
          have ha := h.cleaned_one rfl (c.apply outcome devices)
          have hm : mounted s=false := hc.detach s (by simp [AgentState.failedDetach,hadv])
          rwa [←hm,Function.update_eq_self] at ha
  | down => exact h
  | running => exact h

theorem step (x : AgentStep F) (hc : w.Careful x) : (w.step cfg x).Releasing := by
  cases x with
  | connect =>
    simp only [Watched.step,AgentState.step,AgentState.completed]
    split_ifs with hphase
    · have hcovered := h.covered
      have hkept := h.kept
      rw [h.closed (by simp [hphase])] at hcovered hkept
      exact ⟨h.first,hcovered,hkept,h.settled,fun _ => h.cleaned (by simp [hphase]),fun _ => rfl⟩
    · exact h
  | message m =>
    simp only [Watched.step,AgentState.step,AgentState.completed]
    split_ifs with hphase hgo
    · simpa [hgo] using h.message cfg m hc hphase
    · simpa [hgo] using h.message cfg m hc hphase
    · exact h
  | report written =>
    simp only [Watched.step,AgentState.step,AgentState.completed]
    split_ifs with hphase hw
    · exact h.drain hphase
    · have hd := h.drain hphase
      have hflight : w.agent.drainResult.inFlight=w.agent.inFlight := by
        unfold AgentState.drainResult
        split <;> rfl
      have hphase' : w.agent.drainResult.phase=.running := by
        unfold AgentState.drainResult
        split <;> exact hphase
      refine hd.endLoop ?_ hphase'
      change ∀ cmd∈w.agent.drainResult.inFlight, _ → w.agent.drainResult.OffQueued cmd.slice
      unfold OffQueued
      rw [hflight]
      exact hc.ending (by simpa [AgentState.endsSession,hphase] using hw)
    · exact h
  | stop =>
    simp only [Watched.step,AgentState.step,AgentState.completed]
    split_ifs with hphase
    · exact h.endLoop (hc.ending (by simp [AgentState.endsSession,hphase])) hphase
    · exact h
  | exec outcome => exact h.exec cfg outcome hc
  | clean outcome => exact h.clean cfg outcome hc
  | reorder order =>
    simp only [Watched.step,AgentState.step,AgentState.completed]
    split_ifs with hperm
    · exact h.congr rfl rfl hperm rfl rfl
    · exact h

end Releasing

/-- In a run of careful steps, whenever a session is running, so whenever it handles a `DemoteAll`
or ends, everything that the agent has mounted is in the map or about to be detached. -/
theorem can_release (cfg : AgentConfig) (xs : List (AgentStep F))
    (h : AllSteps (step cfg) Careful new xs)
    (hphase : (run (step cfg) new xs).agent.phase = .running) :
    (run (step cfg) new xs).CanRelease := by
  have hr : (run (step cfg) new xs).Releasing :=
    h.invariant _ (fun _ x hw hx => hw.step cfg x hx) releasing_new
  intro s hs
  obtain hk | hq | hc := hr.kept s hs
  · exact .inl hk
  · exact .inr hq
  · rw [hr.cleaned (by simp [hphase])] at hc
    cases hc

def mountedSlice : List (AgentStep ℚ) :=
  [.connect,.message (.swapOn 0 "s0" (.unix "/run/nbd.sock") none),.exec (.ok ()),.exec (.ok ()),
    .exec (.ok ()),.exec (.ok ()),.exec (.ok ())]

def sampleConfig : AgentConfig := ⟨"/dev/nbd",none⟩

theorem can_release_mountedSlice :
    AllSteps (step sampleConfig) Careful new mountedSlice ∧
      (run (step sampleConfig) new mountedSlice).mounted 0 = true ∧
      (run (step sampleConfig) new mountedSlice).CanRelease := by
  have h : AllSteps (step sampleConfig) Careful new mountedSlice := by decide +kernel
  exact ⟨h,by decide +kernel,can_release sampleConfig mountedSlice h (by decide +kernel)⟩

/-- The slice is ordered off, and its `swapoff` fails. -/
def failedSwapoff : List (AgentStep ℚ) :=
  mountedSlice++[.report true,.message (.swapOff 0),.exec (.ok ()),.exec (.error ⟨none,"busy"⟩),
    .report true]

theorem failedSwapoff_not_released :
    (run (step sampleConfig) new failedSwapoff).agent.phase = .running ∧
      (run (step sampleConfig) new failedSwapoff).mounted 0 = true ∧
      ¬(run (step sampleConfig) new failedSwapoff).CanRelease ∧
      (run (step sampleConfig) new (failedSwapoff++[.message .demoteAll])).agent.commands = [] := by
  have hm : (run (step sampleConfig) new failedSwapoff).mounted 0 = true := by decide +kernel
  refine ⟨by decide +kernel,hm,fun h => ?_,by decide +kernel⟩
  have hkeys : 0 ∉ (run (step sampleConfig) new failedSwapoff).agent.active.map Prod.fst := by
    decide +kernel
  have hoff : ¬(run (step sampleConfig) new failedSwapoff).agent.OffQueued 0 := by decide +kernel
  exact (h 0 hm).elim hkeys hoff

end Watched
end RamShared.Agent

import RamShared.Agent.Fleet
import Std.Data.String.ToNat

/-! What an agent holds of a slice. From the `SwapOn` to the report that frees the slice, there is
one thing at a time in the agent that stands for it: the command to mount it, the connected device,
or the result. -/
namespace RamShared.Agent
open Broker Lib

def exportOf (s : SliceId) : String := s!"s{s}"

lemma exportOf_inj {s k : SliceId} : exportOf s = exportOf k ↔ s=k := by
  simp [exportOf,String.append_right_inj,Nat.repr_inj,toString]

lemma AgentConfig.dev_inj (cfg : AgentConfig) {s k : SliceId} : cfg.dev s = cfg.dev k ↔ s=k := by
  simp [AgentConfig.dev,String.append_right_inj,Nat.repr_inj,toString]

/-- The result of a failed mount or of a successful detach: the broker may free the slice. -/
def ExecResult.frees (s : SliceId) (r : ExecResult) : Bool := r.slice = s && r.isOn != r.ok

def ExecCmd.mounts (s : SliceId) (cmd : ExecCmd) : Bool := cmd.isOn && cmd.slice=s

/-- The slice that a message orders on, with the name of its export. -/
def mountOf {F : Type} : Msg F → Option (SliceId × String)
  | .swapOn s exportName _ _ => some (s,exportName)
  | _ => none

variable {dev : String}

namespace Host

def link (h : Host) (s : SliceId) : String × String := (h.cfg.dev s,exportOf s)

/-- The command in execution counts as a mount until its device is connected, and as a result once
its detach is done. -/
def execWeight (s : SliceId) : Option (ExecCmd × List SwapCommand) → ℕ
  | some (cmd,program) =>
    if cmd.slice=s ∧ (cmd.isOn=true ∧ program=cmd.program ∨ cmd.isOn=false ∧ program=[]) then 1
    else 0
  | none => 0

def weight (h : Host) (s : SliceId) : ℕ :=
  h.agent.commands.countP (ExecCmd.mounts s)+execWeight s h.agent.executor +
    h.agent.devices.connected.count (h.link s)+h.agent.results.countP (ExecResult.frees s)

def Midway (program rest : List SwapCommand) : Prop := rest≠[] ∧ rest≠program

/-- The command is about the device of its slice, and mounts the export of its slice. -/
def Named (cfg : AgentConfig) : ExecCmd → Prop
  | .on s exportName _ dev _ => exportName = exportOf s ∧ dev = cfg.dev s
  | .off s dev => dev = cfg.dev s

structure Sound (h : Host) : Prop where
  commands : ∀ cmd∈h.agent.commands, Named h.cfg cmd
  active : ∀ e∈h.agent.active, e.2 = h.cfg.dev e.1
  connected : ∀ e∈h.agent.devices.connected, ∃ s, e = h.link s
  swapped : ∀ s, h.cfg.dev s∈h.agent.devices.swapped → h.link s∈h.agent.devices.connected
  executor : ∀ cmd rest, h.agent.executor=some (cmd,rest) →
    Named h.cfg cmd ∧ rest <:+ cmd.program ∧ (Midway cmd.program rest →
      h.link cmd.slice∈h.agent.devices.connected ∧ h.cfg.dev cmd.slice∉h.agent.devices.swapped)
  cleanup : ∀ s rest, (s,rest)∈h.agent.cleanup →
    rest <:+ detachSwap (h.cfg.dev s) ∧ (Midway (detachSwap (h.cfg.dev s)) rest →
      h.link s∈h.agent.devices.connected ∧ h.cfg.dev s∉h.agent.devices.swapped ∧
        ∀ cmd rest', h.agent.executor=some (cmd,rest') → cmd.slice=s → ¬Midway cmd.program rest')
  waiting : ∀ e∈h.agent.cleanup.tail, e.2 = detachSwap (h.cfg.dev e.1)

variable {rest : List SwapCommand} (s : SliceId) (cmd : ExecCmd)

lemma attach_suffix {endpoint : NbdEndpoint} {exportName : String} {prio : Option ℤ}
    (h : rest <:+ attachSwap endpoint exportName dev prio) :
    rest = attachSwap endpoint exportName dev prio ∨ rest = [.mkswap dev,.swapon dev prio] ∨
      rest = [.swapon dev prio] ∨ rest=[] := by
  simpa [attachSwap,List.suffix_cons_iff] using h

lemma detach_suffix (h : rest <:+ detachSwap dev) :
    rest = detachSwap dev ∨ rest = [.nbdDisconnect dev] ∨ rest=[] := by
  simpa [detachSwap,List.suffix_cons_iff] using h

variable (cfg : AgentConfig)

lemma sound_new (sid : ℕ) : Sound ⟨cfg,sid,.new⟩ := by
  constructor <;> simp [AgentState.new]

lemma weight_new (sid : ℕ) (s : SliceId) : weight ⟨cfg,sid,.new⟩ s=0 := by
  simp [weight,AgentState.new,execWeight]

lemma link_ne {h : Host} {s k : SliceId} (hk : k≠s) : (h.link k).1 ≠ h.cfg.dev s :=
  fun he => hk (h.cfg.dev_inj.mp he)

lemma mem_disconnect {h : Host} {s k : SliceId} (hk : k≠s) {l : List (String × String)}
    (hl : h.link k∈l) : h.link k∈l.filter (·.1 ≠ h.cfg.dev s) :=
  List.mem_filter.mpr ⟨hl,by simpa using link_ne hk⟩

lemma execWeight_begin : execWeight s (some (cmd,cmd.program)) = if cmd.mounts s then 1 else 0 := by
  by_cases hs : cmd.slice=s
  · cases cmd <;> simp [execWeight,ExecCmd.mounts,ExecCmd.isOn,ExecCmd.program,detachSwap,hs]
  · simp [execWeight,ExecCmd.mounts,hs]

lemma execWeight_end : execWeight s (some (cmd,[])) = if (cmd.result none).frees s then 1 else 0 := by
  by_cases hs : cmd.slice=s
  · cases cmd <;> simp [execWeight,ExecCmd.result,ExecResult.frees,ExecCmd.isOn,ExecCmd.program,
      attachSwap,hs]
  · simp [execWeight,ExecCmd.result,ExecResult.frees,hs]

lemma execWeight_midway (h : Midway cmd.program rest) : execWeight s (some (cmd,rest))=0 := by
  simp [execWeight,h.1,h.2]

lemma count_disconnect (h : Host) (s k : SliceId) (l : List (String × String)) :
    (l.filter (·.1 ≠ h.cfg.dev s)).count (h.link k) = if k=s then 0 else l.count (h.link k) := by
  split_ifs with hk
  · apply List.count_eq_zero.mpr
    intro hm
    subst hk
    simpa [link] using (List.mem_filter.mp hm).2
  · exact List.count_filter (by simpa using link_ne hk)

namespace Sound
variable {h : Host}

lemma session (hs : h.Sound) (phase : Phase) (results : List ExecResult)
    {active : List (SliceId × String)} {commands : List ExecCmd}
    (hact : ∀ e∈active, e.2 = h.cfg.dev e.1) (hcmd : ∀ cmd∈commands, Named h.cfg cmd) :
    Sound { h with agent := { h.agent with
      phase := phase, active := active, commands := commands, results := results}} :=
  ⟨hcmd,hact,hs.connected,hs.swapped,hs.executor,hs.cleanup,hs.waiting⟩

lemma endLoop (hs : h.Sound) : Sound {h with agent := h.agent.endLoop} := by
  have hnew : ∀ e∈h.agent.endLoop.cleanup, e.2 = detachSwap (h.cfg.dev e.1) := by
    intro e he
    obtain ⟨x,hx,rfl⟩ := List.mem_map.mp he
    exact congrArg detachSwap (hs.active x hx)
  refine ⟨hs.commands,nofun,hs.connected,hs.swapped,hs.executor,fun s rest hm => ?_,
    fun e he => hnew e (List.mem_of_mem_tail he)⟩
  obtain rfl : rest = detachSwap (h.cfg.dev s) := hnew _ hm
  exact ⟨List.suffix_refl _,fun hmid => absurd rfl hmid.2⟩

variable {cmd : ExecCmd} {s : SliceId} {c : SwapCommand}

lemma take (hs : h.Sound) {cmds : List ExecCmd} (hc : h.agent.commands = cmd::cmds) :
    Sound {h with agent := {h.agent with commands := cmds, executor := some (cmd,cmd.program)}} := by
  refine ⟨fun c hm => hs.commands c (by simp [hc,hm]),hs.active,hs.connected,hs.swapped,?_,
    fun s rest hm => ?_,hs.waiting⟩
  · rintro c rest ⟨⟩
    exact ⟨hs.commands cmd (by simp [hc]),List.suffix_refl _,fun hmid => absurd rfl hmid.2⟩
  · obtain ⟨hsuf,hmid⟩ := hs.cleanup s rest hm
    refine ⟨hsuf,fun hm' => ?_⟩
    obtain ⟨h₁,h₂,-⟩ := hmid hm'
    refine ⟨h₁,h₂,?_⟩
    rintro c rest' ⟨⟩ -
    exact fun hmid => absurd rfl hmid.2

lemma answer (hs : h.Sound) (results : List ExecResult) :
    Sound {h with agent := {h.agent with executor := none, results := results}} := by
  refine ⟨hs.commands,hs.active,hs.connected,hs.swapped,nofun,fun s rest hm => ?_,hs.waiting⟩
  obtain ⟨hsuf,hmid⟩ := hs.cleanup s rest hm
  refine ⟨hsuf,fun hm' => ?_⟩
  obtain ⟨h₁,h₂,-⟩ := hmid hm'
  exact ⟨h₁,h₂,nofun⟩

variable {rest : List SwapCommand}

variable (hs : h.Sound)
include hs

lemma connect (hname : Named h.cfg cmd) (hslice : cmd.slice=s)
    (hsuf : rest <:+ cmd.program) (hlink : h.link s∉h.agent.devices.connected) :
    Sound { h with agent := { h.agent with
      executor := some (cmd,rest)
      devices := { h.agent.devices with connected := h.link s::h.agent.devices.connected}}} := by
  have hdev : h.cfg.dev s∉h.agent.devices.swapped := fun hd => hlink (hs.swapped s hd)
  refine ⟨hs.commands,hs.active,?_,fun k hk => List.mem_cons_of_mem _ (hs.swapped k hk),?_,
    fun k r hm => ?_,hs.waiting⟩
  · intro e he
    obtain rfl | he := List.mem_cons.mp he
    · exact ⟨s,rfl⟩
    · exact hs.connected e he
  · rintro c r ⟨⟩
    subst hslice
    exact ⟨hname,hsuf,fun _ => ⟨List.mem_cons_self,hdev⟩⟩
  · obtain ⟨hsuf',hmid⟩ := hs.cleanup k r hm
    refine ⟨hsuf',fun hm' => ?_⟩
    obtain ⟨h₁,h₂,-⟩ := hmid hm'
    refine ⟨List.mem_cons_of_mem _ h₁,h₂,?_⟩
    rintro c r' ⟨⟩ hk
    rw [hslice] at hk
    exact absurd (hk ▸ h₁) hlink

lemma format (hx : h.agent.executor=some (cmd,c::rest)) (hmid : Midway cmd.program (c::rest)) :
    Sound {h with agent := {h.agent with executor := some (cmd,rest)}} := by
  obtain ⟨hname,hsuf,hlink⟩ := hs.executor _ _ hx
  refine ⟨hs.commands,hs.active,hs.connected,hs.swapped,?_,fun k r hm => ?_,hs.waiting⟩
  · rintro _ _ ⟨⟩
    exact ⟨hname,(List.suffix_cons c rest).trans hsuf,fun _ => hlink hmid⟩
  · obtain ⟨hsuf',hclean⟩ := hs.cleanup k r hm
    refine ⟨hsuf',fun hm' => ?_⟩
    obtain ⟨h₁,h₂,h₃⟩ := hclean hm'
    refine ⟨h₁,h₂,?_⟩
    rintro _ _ ⟨⟩ hk
    exact absurd hmid (h₃ _ _ hx hk)

lemma swapon (hx : h.agent.executor=some (cmd,[c])) (hmid : Midway cmd.program [c]) :
    Sound { h with agent := { h.agent with
      executor := some (cmd,[])
      devices := { h.agent.devices with
        swapped := h.cfg.dev cmd.slice::h.agent.devices.swapped}}} := by
  obtain ⟨hname,hsuf,hlink⟩ := hs.executor _ _ hx
  refine ⟨hs.commands,hs.active,hs.connected,fun k hk => ?_,?_,fun k r hm => ?_,hs.waiting⟩
  · obtain hk | hk := List.mem_cons.mp hk
    · rw [h.cfg.dev_inj.mp hk]
      exact (hlink hmid).1
    · exact hs.swapped k hk
  · rintro _ _ ⟨⟩
    exact ⟨hname,List.nil_suffix,fun hm => absurd rfl hm.1⟩
  · obtain ⟨hsuf',hclean⟩ := hs.cleanup k r hm
    refine ⟨hsuf',fun hm' => ?_⟩
    obtain ⟨h₁,h₂,h₃⟩ := hclean hm'
    have hne : cmd.slice≠k := fun he => h₃ _ _ hx he hmid
    refine ⟨h₁,?_,?_⟩
    · rw [List.mem_cons,not_or]
      exact ⟨fun he => hne (h.cfg.dev_inj.mp he).symm,h₂⟩
    · rintro _ _ ⟨⟩ -
      exact fun hm => hm.1 rfl

lemma swapoff (hx : h.agent.executor=some (.off s dev,c::rest))
    (hused : dev∈h.agent.devices.swapped) : Sound { h with agent := { h.agent with
      executor := some (.off s dev,rest)
      devices := { h.agent.devices with
        swapped := h.agent.devices.swapped.filter (· ≠ dev)}}} := by
  obtain ⟨hname,hsuf,-⟩ := hs.executor _ _ hx
  have hdev : dev = h.cfg.dev s := hname
  subst hdev
  have hsub {d : String} (hd : d∈h.agent.devices.swapped.filter (· ≠ h.cfg.dev s)) :
      d∈h.agent.devices.swapped := List.mem_of_mem_filter hd
  refine ⟨hs.commands,hs.active,hs.connected,fun k hk => hs.swapped k (hsub hk),?_,
    fun k r hm => ?_,hs.waiting⟩
  · rintro _ _ ⟨⟩
    refine ⟨hname,(List.suffix_cons c rest).trans hsuf,fun _ => ⟨hs.swapped s hused,?_⟩⟩
    simp [ExecCmd.slice]
  · obtain ⟨hsuf',hclean⟩ := hs.cleanup k r hm
    refine ⟨hsuf',fun hm' => ?_⟩
    obtain ⟨h₁,h₂,-⟩ := hclean hm'
    refine ⟨h₁,fun hk => h₂ (hsub hk),?_⟩
    rintro _ _ ⟨⟩ hk
    obtain rfl : s=k := hk
    exact absurd hused h₂

lemma disconnect (hx : h.agent.executor=some (.off s dev,[c]))
    (hmid : Midway (detachSwap dev) [c]) : Sound { h with agent := { h.agent with
      executor := some (.off s dev,[])
      devices := { h.agent.devices with
        connected := h.agent.devices.connected.filter (·.1≠dev)}}} := by
  obtain ⟨hname,hsuf,hlink⟩ := hs.executor _ _ hx
  have hdev : dev = h.cfg.dev s := hname
  subst hdev
  have hunused : h.cfg.dev s∉h.agent.devices.swapped := (hlink hmid).2
  refine ⟨hs.commands,hs.active,fun e he => hs.connected e (List.mem_of_mem_filter he),fun k hk => ?_,
    ?_,fun k r hm => ?_,hs.waiting⟩
  · have hne : k≠s := fun he => hunused (he ▸ hk)
    exact mem_disconnect hne (hs.swapped k hk)
  · rintro _ _ ⟨⟩
    exact ⟨hname,List.nil_suffix,fun hm => absurd rfl hm.1⟩
  · obtain ⟨hsuf',hclean⟩ := hs.cleanup k r hm
    refine ⟨hsuf',fun hm' => ?_⟩
    obtain ⟨h₁,h₂,h₃⟩ := hclean hm'
    have hne : k≠s := fun he => h₃ _ _ hx he.symm hmid
    refine ⟨mem_disconnect hne h₁,h₂,?_⟩
    rintro _ _ ⟨⟩ -
    exact fun hm => hm.1 rfl

lemma cleaned {e : SliceId × List SwapCommand}
    {rest : List (SliceId × List SwapCommand)} (hc : h.agent.cleanup = e::rest) :
    Sound {h with agent := {h.agent with cleanup := rest}} := by
  refine ⟨hs.commands,hs.active,hs.connected,hs.swapped,hs.executor,
    fun s r hm => hs.cleanup s r (by simp [hc,hm]),fun x hx => hs.waiting x ?_⟩
  rw [hc]
  exact List.mem_of_mem_tail hx

lemma cleanSwapoff {program : List SwapCommand}
    {rest : List (SliceId × List SwapCommand)} (hc : h.agent.cleanup = (s,c::program)::rest)
    (hused : h.cfg.dev s∈h.agent.devices.swapped) : Sound { h with agent := { h.agent with
      cleanup := (s,program)::rest
      devices := { h.agent.devices with
        swapped := h.agent.devices.swapped.filter (· ≠ h.cfg.dev s)}}} := by
  have hsub {d : String} (hd : d∈h.agent.devices.swapped.filter (· ≠ h.cfg.dev s)) :
      d∈h.agent.devices.swapped := List.mem_of_mem_filter hd
  have hwait : ∀ x∈rest, x.2 = detachSwap (h.cfg.dev x.1) := fun x hx =>
    hs.waiting x (by rw [hc]; exact hx)
  refine ⟨hs.commands,hs.active,hs.connected,fun k hk => hs.swapped k (hsub hk),fun cmd r hx => ?_,
    fun k r hm => ?_,hwait⟩
  · obtain ⟨hname,hsuf,hmid⟩ := hs.executor cmd r hx
    refine ⟨hname,hsuf,fun hm => ?_⟩
    obtain ⟨h₁,h₂⟩ := hmid hm
    exact ⟨h₁,fun hd => h₂ (hsub hd)⟩
  · obtain hm | hm := List.mem_cons.mp hm
    · obtain ⟨rfl,rfl⟩ := Prod.mk.inj hm
      obtain ⟨hsuf,-⟩ := hs.cleanup k (c::r) (by simp [hc])
      refine ⟨(List.suffix_cons c r).trans hsuf,fun _ => ⟨hs.swapped k hused,by simp,?_⟩⟩
      rintro cmd r' hx rfl hmid
      exact ((hs.executor cmd r' hx).2.2 hmid).2 hused
    · obtain rfl : r = detachSwap (h.cfg.dev k) := hwait _ hm
      exact ⟨List.suffix_refl _,fun hmid => absurd rfl hmid.2⟩

lemma cleanDisconnect {rest : List (SliceId × List SwapCommand)}
    (hc : h.agent.cleanup = (s,[c])::rest) (hmid : Midway (detachSwap (h.cfg.dev s)) [c]) :
    Sound { h with agent := { h.agent with
      cleanup := (s,[])::rest
      devices := { h.agent.devices with
        connected := h.agent.devices.connected.filter (·.1 ≠ h.cfg.dev s)}}} := by
  have hwait : ∀ x∈rest, x.2 = detachSwap (h.cfg.dev x.1) := fun x hx =>
    hs.waiting x (by rw [hc]; exact hx)
  obtain ⟨hsuf,hclean⟩ := hs.cleanup s [c] (by simp [hc])
  obtain ⟨hlink,hunused,hexec⟩ := hclean hmid
  refine ⟨hs.commands,hs.active,fun e he => hs.connected e (List.mem_of_mem_filter he),fun k hk => ?_,
    fun cmd r hx => ?_,fun k r hm => ?_,hwait⟩
  · have hne : k≠s := fun he => hunused (he ▸ hk)
    exact mem_disconnect hne (hs.swapped k hk)
  · obtain ⟨hname,hsuf',hmid'⟩ := hs.executor cmd r hx
    refine ⟨hname,hsuf',fun hm => ?_⟩
    obtain ⟨h₁,h₂⟩ := hmid' hm
    exact ⟨mem_disconnect (fun he => hexec cmd r hx he hm) h₁,h₂⟩
  · obtain hm | hm := List.mem_cons.mp hm
    · obtain ⟨rfl,rfl⟩ := Prod.mk.inj hm
      exact ⟨List.nil_suffix,fun hm => absurd rfl hm.1⟩
    · obtain rfl : r = detachSwap (h.cfg.dev k) := hwait _ hm
      exact ⟨List.suffix_refl _,fun hmid => absurd rfl hmid.2⟩

end Sound

section Steps
variable {F : Type} {h : Host}

section Executor
variable {a : AgentState} {cmd : ExecCmd} {c : SwapCommand} {rest : List SwapCommand}

lemma exec_ok (hx : a.executor=some (cmd,c::rest)) (u : Unit) : a.exec (.ok u) =
    {a with devices := c.apply (.ok u) a.devices, executor := some (cmd,rest)} := by
  simp [AgentState.exec,hx,advance]

lemma exec_error {e : IoError} {err : SwapError} (hx : a.executor=some (cmd,c::rest))
    (hf : c.failure e=some err) : a.exec (.error e) =
    { a with
      devices := c.apply (.error e) a.devices
      executor := none
      results := a.results++[cmd.result (some err)]} := by
  simp [AgentState.exec,hx,advance,hf]

end Executor

variable {s : SliceId}

lemma weight_le {a : AgentState} (hc : a.commands=h.agent.commands) (hr : a.results=h.agent.results)
    (hx : execWeight s a.executor+a.devices.connected.count (h.link s) ≤
      execWeight s h.agent.executor+h.agent.devices.connected.count (h.link s)) :
    weight {h with agent := a} s≤h.weight s := by
  unfold weight
  dsimp only
  rw [hc,hr]
  change _+_+List.count (h.link s) _+_≤_
  omega

lemma weight_answer {job : ExecCmd × List SwapCommand} (hx : h.agent.executor=some job)
    (r : ExecResult) (s : SliceId) (hr : (if r.frees s then 1 else 0)≤execWeight s (some job)) :
    weight { h with agent := { h.agent with
      executor := none, results := h.agent.results++[r]}} s≤h.weight s := by
  simp only [weight,hx,List.countP_append,List.countP_singleton,link] at hr ⊢
  change _+0+_+_≤_
  omega

lemma count_connect (h : Host) (s k : SliceId) (l : List (String × String)) :
    (h.link s::l).count (h.link k) = l.count (h.link k)+if s=k then 1 else 0 := by
  rw [List.count_cons]
  congr 1
  simp [link,h.cfg.dev_inj,exportOf_inj]

lemma execWeight_mount (s k : SliceId) (endpoint : NbdEndpoint) (prio : Option ℤ) :
    execWeight k (some (.on s (exportOf s) endpoint (cfg.dev s) prio,
      attachSwap endpoint (exportOf s) (cfg.dev s) prio)) = if s=k then 1 else 0 := by
  have hb := execWeight_begin k (.on s (exportOf s) endpoint (cfg.dev s) prio)
  by_cases hk : s=k
  all_goals simpa [ExecCmd.mounts,ExecCmd.isOn,ExecCmd.slice,ExecCmd.program,hk] using hb

variable {outcome : Outcome}

lemma exec_mount (hs : h.Sound) (hw : ∀ s, h.weight s≤1) {endpoint : NbdEndpoint}
    {prio : Option ℤ} {c : SwapCommand} {rest : List SwapCommand}
    (hx : h.agent.executor=some (.on s (exportOf s) endpoint (h.cfg.dev s) prio,c::rest))
    (hsuf : c::rest <:+ attachSwap endpoint (exportOf s) (h.cfg.dev s) prio)
    (hok : c≠.nbdClient endpoint (exportOf s) (h.cfg.dev s) → outcome=.ok ()) :
    Sound {h with agent := h.agent.exec outcome} ∧
      ∀ k, weight {h with agent := h.agent.exec outcome} k≤h.weight k := by
  have hmid {r : List SwapCommand} (h₁ : r≠[]) (h₂ : r.length<3) :
      Midway (attachSwap endpoint (exportOf s) (h.cfg.dev s) prio) r :=
    ⟨h₁,fun he => by rw [he] at h₂; simp [attachSwap] at h₂⟩
  obtain hr | hr | hr | hr := attach_suffix hsuf
  · obtain ⟨rfl,rfl⟩ := List.cons.inj hr
    have hbegin := fun k => execWeight_mount h.cfg s k endpoint prio
    cases outcome with
    | ok u =>
      have hlink : h.link s∉h.agent.devices.connected := by
        intro hm
        have h₁ := hw s
        have h₂ := List.count_pos_iff.mpr hm
        have h₃ := hbegin s
        rw [if_pos rfl,attachSwap] at h₃
        rw [weight,hx] at h₁
        omega
      rw [exec_ok hx]
      refine ⟨hs.connect ⟨rfl,rfl⟩ rfl ((List.suffix_cons _ _).trans hsuf) hlink,
        fun k => weight_le (by rfl) (by rfl) ?_⟩
      have h₁ := hbegin k
      have h₂ := execWeight_midway k (.on s (exportOf s) endpoint (h.cfg.dev s) prio)
        (hmid (r := [.mkswap (h.cfg.dev s),.swapon (h.cfg.dev s) prio]) (by simp) (by simp))
      have h₃ := h.count_connect s k h.agent.devices.connected
      rw [hx]
      change execWeight k (some _)+List.count (h.link k) (h.link s::_)≤_
      rw [attachSwap] at h₁
      omega
    | error e =>
      rw [exec_error hx rfl]
      refine ⟨hs.answer _,fun k => weight_answer hx _ k ?_⟩
      have h₁ := hbegin k
      rw [attachSwap] at h₁
      rw [h₁]
      by_cases hk : s = k <;>
        simp [ExecCmd.result,ExecResult.frees,ExecCmd.slice,ExecCmd.isOn,hk]
  · obtain ⟨rfl,rfl⟩ := List.cons.inj hr
    obtain rfl := hok (by simp)
    rw [exec_ok hx]
    refine ⟨hs.format hx (hmid (by simp) (by simp)),fun k => weight_le (by rfl) (by rfl) ?_⟩
    have h₁ := execWeight_midway k (.on s (exportOf s) endpoint (h.cfg.dev s) prio)
      (hmid (r := [.swapon (h.cfg.dev s) prio]) (by simp) (by simp))
    change execWeight k (some _)+List.count (h.link k) h.agent.devices.connected≤_
    omega
  · obtain ⟨rfl,rfl⟩ := List.cons.inj hr
    obtain rfl := hok (by simp)
    rw [exec_ok hx]
    refine ⟨hs.swapon hx (hmid (by simp) (by simp)),fun k => weight_le (by rfl) (by rfl) ?_⟩
    have h₁ := execWeight_end k (.on s (exportOf s) endpoint (h.cfg.dev s) prio)
    simp only [ExecCmd.result,ExecResult.frees,ExecCmd.isOn,bne_self_eq_false,Bool.and_false,
      Bool.false_eq_true,if_false] at h₁
    change execWeight k (some _)+List.count (h.link k) h.agent.devices.connected≤_
    omega
  · cases hr

lemma exec_detach (hs : h.Sound) {c : SwapCommand} {rest : List SwapCommand}
    (hx : h.agent.executor=some (.off s (h.cfg.dev s),c::rest))
    (hsuf : c::rest <:+ detachSwap (h.cfg.dev s)) (hp : Fleet.Possible h outcome (some c)) :
    Sound {h with agent := h.agent.exec outcome} ∧
      ∀ k, weight {h with agent := h.agent.exec outcome} k≤h.weight k := by
  have hmid : Midway (detachSwap (h.cfg.dev s)) [.nbdDisconnect (h.cfg.dev s)] :=
    ⟨by simp,by simp [detachSwap]⟩
  have hdone (k : SliceId) : execWeight k (some (.off s (h.cfg.dev s),[])) = if s=k then 1 else 0 := by
    have he := execWeight_end k (.off s (h.cfg.dev s))
    by_cases hk : s=k
    all_goals simpa [ExecCmd.result,ExecResult.frees,ExecCmd.isOn,ExecCmd.slice,hk] using he
  obtain hr | hr | hr := detach_suffix hsuf
  · obtain ⟨rfl,rfl⟩ := List.cons.inj hr
    cases outcome with
    | ok u =>
      rw [exec_ok hx]
      refine ⟨hs.swapoff hx (hp rfl),fun k => weight_le (by rfl) (by rfl) ?_⟩
      have h₁ := execWeight_midway k (.off s (h.cfg.dev s)) hmid
      change execWeight k (some _)+List.count (h.link k) h.agent.devices.connected≤_
      omega
    | error e =>
      rw [exec_error hx rfl]
      refine ⟨hs.answer _,fun k => weight_answer hx _ k ?_⟩
      simp [ExecCmd.result,ExecResult.frees,ExecCmd.isOn]
  · obtain ⟨rfl,rfl⟩ := List.cons.inj hr
    have he : h.agent.exec outcome = { h.agent with
        executor := some (.off s (h.cfg.dev s),[])
        devices := { h.agent.devices with
          connected := h.agent.devices.connected.filter (·.1 ≠ h.cfg.dev s)}} := by
      cases outcome <;> simp [AgentState.exec,hx,advance,SwapCommand.apply,SwapCommand.failure]
    rw [he]
    refine ⟨hs.disconnect hx hmid,fun k => weight_le (by rfl) (by rfl) ?_⟩
    have hpos := List.count_pos_iff.mpr ((hs.executor _ _ hx).2.2 hmid).1
    have h₁ := hdone k
    have h₂ := h.count_disconnect s k h.agent.devices.connected
    change execWeight k (some _)+List.count (h.link k) (List.filter _ _)≤_
    by_cases hk : s=k
    · subst hk
      simp only [if_true] at h₁ h₂
      simp only [ExecCmd.slice] at hpos
      omega
    · rw [if_neg hk] at h₁
      rw [if_neg (Ne.symm hk)] at h₂
      omega
  · cases hr

lemma exec_spec (hs : h.Sound) (hw : ∀ s, h.weight s≤1) (hp : Fleet.Possible h outcome (Fleet.executing h))
    (ht : ∀ c, Fleet.executing h=some c → c.formats=true → outcome=.ok ()) :
    Sound {h with agent := h.agent.exec outcome} ∧
      ∀ s, weight {h with agent := h.agent.exec outcome} s≤h.weight s := by
  cases hx : h.agent.executor with
  | none =>
    cases hc : h.agent.commands with
    | nil => simpa [AgentState.exec,hx,hc] using hs
    | cons cmd cmds =>
      have he : h.agent.exec outcome =
          {h.agent with commands := cmds, executor := some (cmd,cmd.program)} := by
        simp [AgentState.exec,hx,hc]
      rw [he]
      refine ⟨hs.take hc,fun s => ?_⟩
      have hb := execWeight_begin s cmd
      simp only [weight,hx,hc,List.countP_cons,execWeight,link] at hb ⊢
      omega
  | some job =>
    obtain ⟨cmd,rest⟩ := job
    obtain ⟨hname,hsuf,-⟩ := hs.executor cmd rest hx
    cases rest with
    | nil =>
      have he : h.agent.exec outcome =
          {h.agent with executor := none, results := h.agent.results++[cmd.result none]} := by
        simp [AgentState.exec,hx]
      rw [he]
      exact ⟨hs.answer _,fun s => weight_answer hx _ s (execWeight_end s cmd).ge⟩
    | cons c rest =>
      have hexec : Fleet.executing h=some c := by simp [Fleet.executing,hx]
      rw [hexec] at hp ht
      cases cmd with
      | on s exportName endpoint dev prio =>
        obtain ⟨rfl,rfl⟩ := hname
        refine exec_mount hs hw hx hsuf fun hc => ht c rfl ?_
        obtain hr | hr | hr | hr := attach_suffix hsuf
        · exact absurd (List.cons.inj hr).1 hc
        · rw [(List.cons.inj hr).1]
          rfl
        · rw [(List.cons.inj hr).1]
          rfl
        · cases hr
      | off s dev =>
        obtain rfl := hname
        exact exec_detach hs hx hsuf hp

lemma clean_spec (hs : h.Sound) (hp : Fleet.Possible h outcome (Fleet.cleaning h)) :
    Sound {h with agent := h.agent.clean outcome} ∧
      ∀ s, weight {h with agent := h.agent.clean outcome} s≤h.weight s := by
  cases hc : h.agent.cleanup with
  | nil =>
    have he : h.agent.clean outcome = {h.agent with phase := .down} := by
      simp [AgentState.clean,hc]
    rw [he]
    exact ⟨hs.session .down _ hs.active hs.commands,fun s => weight_le (by rfl) (by rfl) le_rfl⟩
  | cons e rest =>
    obtain ⟨s,program⟩ := e
    cases program with
    | nil =>
      have he : h.agent.clean outcome = {h.agent with cleanup := rest} := by
        simp [AgentState.clean,hc]
      rw [he]
      exact ⟨hs.cleaned hc,fun s => weight_le (by rfl) (by rfl) le_rfl⟩
    | cons c program =>
      have hclean : Fleet.cleaning h=some c := by simp [Fleet.cleaning,hc]
      rw [hclean] at hp
      obtain hr | hr | hr := detach_suffix (hs.cleanup s (c::program) (by simp [hc])).1
      · obtain ⟨rfl,rfl⟩ := List.cons.inj hr
        cases outcome with
        | ok u =>
          have he : h.agent.clean (.ok u) = { h.agent with
              cleanup := (s,[.nbdDisconnect (h.cfg.dev s)])::rest
              devices := { h.agent.devices with
                swapped := h.agent.devices.swapped.filter (· ≠ h.cfg.dev s)}} := by
            simp [AgentState.clean,hc,advance,SwapCommand.apply]
          rw [he]
          exact ⟨hs.cleanSwapoff hc (hp rfl),fun s => weight_le (by rfl) (by rfl) le_rfl⟩
        | error e =>
          have he : h.agent.clean (.error e) = {h.agent with cleanup := rest} := by
            simp [AgentState.clean,hc,advance,SwapCommand.apply,SwapCommand.failure]
          rw [he]
          exact ⟨hs.cleaned hc,fun s => weight_le (by rfl) (by rfl) le_rfl⟩
      · obtain ⟨rfl,rfl⟩ := List.cons.inj hr
        have he : h.agent.clean outcome = { h.agent with
            cleanup := (s,[])::rest
            devices := { h.agent.devices with
              connected := h.agent.devices.connected.filter (·.1 ≠ h.cfg.dev s)}} := by
          cases outcome <;>
            simp [AgentState.clean,hc,advance,SwapCommand.apply,SwapCommand.failure]
        rw [he]
        refine ⟨hs.cleanDisconnect hc ⟨by simp,by simp [detachSwap]⟩,
          fun k => weight_le (by rfl) (by rfl) (Nat.add_le_add_left ?_ _)⟩
        exact List.filter_sublist.count_le _
      · cases hr

def told : AgentStep F → List (SliceId × String)
  | .message m => (mountOf m).toList
  | _ => []

/-- The system commands behave, the mounts among them do not fail half-way, and the exports that the
agent is told to mount are those of their slices. -/
def Admissible (h : Host) : AgentStep F → Prop
  | .exec outcome => Fleet.Possible h outcome (Fleet.executing h) ∧
    ∀ c, Fleet.executing h=some c → c.formats=true → outcome=.ok ()
  | .clean outcome => Fleet.Possible h outcome (Fleet.cleaning h)
  | x => ∀ e∈told x, e.2 = exportOf e.1

lemma handleMsg_spec (hs : h.Sound) (m : Msg F) (hm : ∀ e∈told (.message m), e.2 = exportOf e.1) :
    Sound {h with agent := (h.agent.handleMsg h.cfg m).2} ∧
      ∀ s, weight {h with agent := (h.agent.handleMsg h.cfg m).2} s ≤
        h.weight s+((told (.message m)).map Prod.fst).count s := by
  have hforget (s : SliceId) : ∀ e∈forget s h.agent.active, e.2 = h.cfg.dev e.1 :=
    fun e he => hs.active e (List.mem_of_mem_filter he)
  have hcmds {cmds : List ExecCmd} (hc : ∀ cmd∈cmds, Named h.cfg cmd) :
      ∀ cmd∈h.agent.commands++cmds, Named h.cfg cmd := fun cmd hmem =>
    (List.mem_append.mp hmem).elim (hs.commands cmd) (hc cmd)
  -- A command to detach weighs nothing.
  have hoff {active : List (SliceId × String)} {cmds : List ExecCmd}
      (hc : ∀ cmd∈cmds, cmd.isOn=false) (s : SliceId) :
      weight { h with agent := { h.agent with
        active := active, commands := h.agent.commands++cmds}} s = h.weight s := by
    have hz : cmds.countP (ExecCmd.mounts s)=0 :=
      List.countP_eq_zero.mpr fun cmd hmem => by simp [ExecCmd.mounts,hc cmd hmem]
    simp only [weight,List.countP_append,hz,link,Nat.add_zero]
  cases m
  case swapOn s exportName endpoint prio =>
    obtain rfl : exportName = exportOf s := hm (s,exportName) (by simp [told,mountOf])
    refine ⟨hs.session _ _ ?_ (hcmds ?_),fun k => ?_⟩
    · intro e he
      obtain rfl | he := List.mem_cons.mp he
      · rfl
      · exact hforget s e he
    · intro cmd hmem
      rw [List.mem_singleton.mp hmem]
      exact ⟨rfl,rfl⟩
    · by_cases hk : s = k <;>
        simp [weight,AgentState.handleMsg,told,mountOf,List.countP_append,ExecCmd.mounts,ExecCmd.isOn,
          ExecCmd.slice,link,hk]
      omega
  case swapOff s =>
    have hdev : (h.agent.active.lookup s).getD (h.cfg.dev s) = h.cfg.dev s := by
      cases hl : h.agent.active.lookup s with
      | none => rfl
      | some dev =>
        obtain ⟨l₁,l₂,he,-⟩ := List.lookup_eq_some_iff.mp hl
        exact hs.active (s,dev) (by simp [he])
    refine ⟨hs.session _ _ (hforget s) (hcmds ?_),fun k => (hoff ?_ k).le⟩
    · intro cmd hmem
      rw [List.mem_singleton.mp hmem]
      exact hdev
    · intro cmd hmem
      rw [List.mem_singleton.mp hmem]
      rfl
  case demoteAll =>
    refine ⟨hs.session _ _ nofun (hcmds ?_),fun k => (hoff ?_ k).le⟩
    · intro cmd hmem
      obtain ⟨e,he,rfl⟩ := List.mem_map.mp hmem
      exact hs.active e he
    · intro cmd hmem
      obtain ⟨e,-,rfl⟩ := List.mem_map.mp hmem
      rfl
  all_goals exact ⟨hs,fun k => Nat.le_add_right _ _⟩

lemma resultOf_done (r : ExecResult) : resultOf (r.done : Msg F)=some r := by
  obtain ⟨isOn,slice,ok,detail⟩ := r
  cases isOn <;> rfl

lemma drainResult_spec (hs : h.Sound) : Sound {h with agent := h.agent.drainResult} ∧
      ∀ s, weight {h with agent := h.agent.drainResult} s +
        h.agent.results.head?.toList.countP (ExecResult.frees s) = h.weight s := by
  cases hr : h.agent.results with
  | nil => simpa [AgentState.drainResult,hr] using hs
  | cons r results =>
    have he : h.agent.drainResult = { h.agent with
        results := results
        active := if r.isOn && r.ok then h.agent.active else forget r.slice h.agent.active} := by
      simp [AgentState.drainResult,hr]
    rw [he]
    refine ⟨hs.session _ _ ?_ hs.commands,fun s => ?_⟩
    · intro e hmem
      split_ifs at hmem
      · exact hs.active e hmem
      · exact hs.active e (List.mem_of_mem_filter hmem)
    · simp only [weight,hr,List.countP_cons,List.head?_cons,Option.toList_some,List.countP_nil,
        link]
      omega

lemma step_spec (hs : h.Sound) (hw : ∀ s, h.weight s≤1) (x : AgentStep F) (hx : Admissible h x) :
    Sound {h with agent := h.agent.step h.cfg x} ∧
      ∀ s, weight {h with agent := h.agent.step h.cfg x} s +
        ((h.agent.reported x).filterMap resultOf).countP (ExecResult.frees s) ≤
          h.weight s+((told x).map Prod.fst).count s := by
  cases x with
  | exec outcome => exact exec_spec hs hw hx.1 hx.2
  | clean outcome =>
    by_cases hphase : h.agent.phase=.cleaning
    · rw [AgentState.step,if_pos hphase]
      exact clean_spec hs hx
    · rw [AgentState.step,if_neg hphase]
      exact ⟨hs,fun s => le_rfl⟩
  | connect =>
    by_cases hphase : h.agent.phase=.down
    · rw [AgentState.step,if_pos hphase]
      exact ⟨hs.session _ _ nofun hs.commands,fun s => weight_le (by rfl) (by rfl) le_rfl⟩
    · rw [AgentState.step,if_neg hphase]
      exact ⟨hs,fun s => le_rfl⟩
  | reorder order =>
    by_cases hperm : order.Perm h.agent.active
    · rw [AgentState.step,if_pos hperm]
      exact ⟨hs.session _ _ (fun e he => hs.active e (hperm.mem_iff.mp he)) hs.commands,
        fun s => weight_le (by rfl) (by rfl) le_rfl⟩
    · rw [AgentState.step,if_neg hperm]
      exact ⟨hs,fun s => le_rfl⟩
  | stop =>
    by_cases hphase : h.agent.phase=.running
    · rw [AgentState.step,if_pos hphase]
      exact ⟨hs.endLoop,fun s => weight_le (by rfl) (by rfl) le_rfl⟩
    · rw [AgentState.step,if_neg hphase]
      exact ⟨hs,fun s => le_rfl⟩
  | message m =>
    by_cases hphase : h.agent.phase=.running
    · obtain ⟨h₁,h₂⟩ := handleMsg_spec hs m hx
      rw [AgentState.step,if_pos hphase]
      dsimp only
      split_ifs
      · exact ⟨h₁,h₂⟩
      · exact ⟨h₁.endLoop,fun s => h₂ s⟩
    · rw [AgentState.step,if_neg hphase]
      exact ⟨hs,fun s => Nat.le_add_right _ _⟩
  | report written =>
    by_cases hphase : h.agent.phase=.running
    · obtain ⟨h₁,h₂⟩ := drainResult_spec hs
      rw [AgentState.step,if_pos hphase]
      cases written with
      | false => exact ⟨h₁.endLoop,fun s => (Nat.le_add_right _ _).trans (h₂ s).le⟩
      | true =>
        refine ⟨h₁,fun s => (Eq.le ?_).trans (h₂ s).le⟩
        rw [AgentState.reported,if_pos hphase]
        cases h.agent.results <;> simp [resultOf_done]
    · rw [AgentState.step,if_neg hphase]
      refine ⟨hs,fun s => ?_⟩
      cases written <;> simp [AgentState.reported,hphase]

end Steps
end Host
end RamShared.Agent

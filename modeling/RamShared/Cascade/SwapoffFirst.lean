import RamShared.Cascade.Steps

/-! `down` never takes a backend away under live swap: every run of it is a teardown in steps, none of
which goes on after a failure. -/
namespace RamShared.Cascade
open Lib
open Prog (perform)

variable {binding : LifecycleBinding} {plan : List NbdLifecycleAction} {tr : Trace}

lemma anyExists_quiet (files : List RuntimeFile) : (anyExists files).Within Quiet fun _ => True := by
  induction files with
  | nil => trivial
  | cons file files ih =>
    refine within_perform trivial fun found => ?_
    cases found with
    | true => trivial
    | false => exact ih

lemma planDown_quiet : planDown.Within Quiet fun found => ∀ binding plan, found=some (binding,plan) →
    ∃ entries live, planNbdLifecycle binding entries live=.ok plan := by
  refine .bind readSwaps_quiet fun entries _ => .bind (anyExists_quiet _) fun evidence _ =>
    within_perform trivial fun bound => ?_
  cases bound with
  | true =>
    refine .bind (P := fun _ => True) (within_perform trivial fun _ => within_demand fun _ _ =>
      within_demand fun _ _ => within_pure trivial) fun binding _ => ?_
    refine .bind detectLiveManagedDevices_quiet fun live _ => .bind authorizeBoundEnvironment_quiet
      fun _ _ => within_demand fun plan hplan => within_pure ?_
    rintro _ _ ⟨⟩
    exact ⟨entries,live,hplan⟩
  | false =>
    change Prog.Within _ _ (if false=true then _ else if _ then pure none else .fail _)
    rw [if_neg Bool.false_ne_true]
    split_ifs
    · exact within_pure fun _ _ h => absurd h (by simp)
    · trivial

lemma removeRuntimeFiles_within (files : List RuntimeFile) :
    (removeRuntimeFiles files).Within (fun c => ∃ file, c=.removeRuntimeFile file) fun _ => True := by
  refine Prog.Within.forEach (fun file => ?_) files
  exact ⟨⟨file,rfl⟩,fun _ => trivial⟩

abbrev Step := Prog.Round Call Call.Reply CascadeError NbdLifecycleAction

/-- A teardown: the steps of a plan that were made, each with the calls it made and its outcome. -/
structure Teardown (tr : Trace) where
  binding : LifecycleBinding
  entries : List SwapEntry
  live : List BoundDeviceIdentity
  plan : List NbdLifecycleAction
  planned : planNbdLifecycle binding entries live=.ok plan
  head : Trace
  steps : List Step
  tail : Trace
  trace : tr = head++steps.flatMap (·.trace)++tail
  quiet : ∀ x∈head, Quiet x.1
  removals : ∀ x∈tail, ∃ file, x.1=.removeRuntimeFile file
  inOrder : steps.map (·.item) <+: plan
  runs : ∀ s∈steps, (executeAction binding s.item).Runs s.trace s.result
  /-- Nothing follows a step that failed. -/
  failed : ∀ before s after, steps = before++s::after → s.result≠.ok () → after=[] ∧ tail=[]
  /-- The binding goes after all steps have succeeded. -/
  bindingLast : ∀ x∈tr, x.1=.removeRuntimeFile .lifecycleBinding →
    steps.map (·.item)=plan ∧ ∀ s∈steps, s.result=.ok ()

lemma follows_planned {entries : List SwapEntry} {live : List BoundDeviceIdentity}
    (h : planNbdLifecycle binding entries live=.ok plan) (htr : ∀ x∈tr, Quiet x.1) :
    Prog.Follows Ordered (executeNbdLifecyclePlan binding plan) tr fun _ _ => True := by
  obtain ⟨active,resets,device,rfl⟩ := planNbdLifecycle_ok h
  exact follows_plan active resets fun x hx => (htr x hx).not_takesAway

lemma exists_teardown {entries : List SwapEntry} {live : List BoundDeviceIdentity}
    (hplan : planNbdLifecycle binding entries live=.ok plan) {head t tail : Trace}
    {r : Except CascadeError Unit} (hhead : ∀ x∈head, Quiet x.1)
    (ht : (executeNbdLifecyclePlan binding plan).Runs t r)
    (htail : ∀ x∈tail, ∃ file, x.1=.removeRuntimeFile file) (hr : r≠.ok () → tail=[]) :
    Nonempty (Teardown (head++t++tail)) := by
  obtain ⟨steps,hsteps,rfl⟩ := ht.forEach
  refine ⟨⟨binding,entries,live,plan,hplan,head,steps,tail,rfl,hhead,htail,hsteps.inOrder,hsteps.runs,
    fun before s after hs hfailed => ?_,fun x hx hremoved => ?_⟩⟩
  · obtain ⟨hafter,hne⟩ := hsteps.failed hs hfailed
    exact ⟨hafter,hr hne⟩
  -- Neither the checks nor the steps remove the binding.
  · rcases List.mem_append.mp hx with hx | hx
    · rcases List.mem_append.mp hx with hx | hx
      · have hquiet := hhead x hx
        rw [hremoved] at hquiet
        exact hquiet.elim
      · obtain ⟨a,b,hab⟩ := List.append_of_mem hx
        obtain ⟨c,y⟩ := x
        obtain rfl : c=_ := hremoved
        exact absurd rfl ((follows_planned hplan hhead).runs ht hab)
    · refine hsteps.all ?_
      by_contra hne
      simp [hr hne] at hx

lemma teardown_of_runs {markers : List String} {r : Except CascadeError Unit}
    (h : (downWithRuntime markers).Runs tr r) : (∀ x∈tr, Quiet x.1) ∨ Nonempty (Teardown tr) := by
  rcases h.bind with ⟨err,hplan,-⟩ | ⟨found,head,t,rfl,hplan,h⟩
  · exact .inl (hplan.within planDown_quiet).1
  · obtain ⟨hhead,hfound⟩ := hplan.within planDown_quiet
    cases found with
    | none =>
      obtain ⟨rfl,-⟩ := h
      exact .inl (by simpa using hhead)
    | some found =>
      obtain ⟨binding,plan⟩ := found
      obtain ⟨entries,live,hplanned⟩ := hfound _ rfl binding plan rfl
      refine .inr ?_
      rcases Prog.Runs.bind h with ⟨err,hexec,-⟩ | ⟨⟨⟩,t,tail,rfl,hexec,hremove⟩
      · have htail : ∀ x∈([] : Trace), ∃ file, x.1=.removeRuntimeFile file := List.forall_mem_nil _
        have hteardown := exists_teardown hplanned hhead hexec htail fun _ => rfl
        rwa [List.append_nil] at hteardown
      · rw [←List.append_assoc]
        exact exists_teardown hplanned hhead hexec (hremove.within (removeRuntimeFiles_within _)).1
          fun hne => absurd rfl hne

lemma follows_downWithRuntime (markers : List String) :
    Prog.Follows (fun tr c => Ordered tr c ∨ ∃ file, c=.removeRuntimeFile file)
      (downWithRuntime markers) [] fun _ _ => True := by
  refine .within_bind planDown_quiet (fun tr c hc => .inl (hc.ordered tr c)) (fun found m hm hfound => ?_)
    fun _ _ _ => trivial
  cases found with
  | none => exact .ok trivial
  | some found =>
    obtain ⟨entries,live,hplanned⟩ := hfound found.1 found.2 rfl
    refine .bind ((follows_planned hplanned hm).weaken fun _ _ => .inl) (fun _ _ _ => ?_) fun _ _ _ => trivial
    exact .within (removeRuntimeFiles_within _) (fun _ _ => .inr) fun _ _ _ _ => trivial

structure BackendsKept (tr : Trace) : Prop where
  /-- Nothing is taken away before the last swapoff. -/
  swapoffFirst : ∀ a x b, tr = a++x::b → TakesAway x.1 → ∀ y∈b, ¬IsSwapoff y.1
  /-- A device that is reset or disconnected is absent from a snapshot since the last swapoff. -/
  idle : ∀ a command args out b, tr = a++⟨.run command args,out⟩::b → command ≠ "swapoff" →
    ∃ path, (command = "zramctl" ∧ args = ["-r",path] ∨ command = "nbd-client" ∧ args = ["-d",path]) ∧
      Idle path a
  /-- The daemon is told to stop only with nothing left that it serves. -/
  unused : ∀ a pid out b, tr = a++⟨.pidfdSendSignal pid,out⟩::b → Unused a
  stepwise : (∀ x∈tr, Quiet x.1) ∨ Nonempty (Teardown tr)

theorem down_keeps_backends (markers : List String) (answers : ℕ → ∀ c : Call, c.Reply) :
    BackendsKept (Prog.eval Prog.record (downWithRuntime markers) answers []).2 := by
  obtain ⟨tr,htr,hruns⟩ := Prog.runs_eval (p := downWithRuntime markers) answers []
  rw [htr,List.nil_append]
  have hrule {a b : Trace} {x : Σ c : Call, c.Reply} (h : tr = a++x::b) :
      Ordered a x.1 ∨ ∃ file, x.1 = .removeRuntimeFile file :=
    (follows_downWithRuntime markers).runs hruns h
  refine ⟨fun a x b h hx y hy hswapoff => ?_,fun a command args out b h hcommand => ?_,
    fun a pid out b h => ?_,teardown_of_runs hruns⟩
  · obtain ⟨b₁,b₂,rfl⟩ := List.append_of_mem hy
    have hordered := hrule (a := a++x::b₁) (b := b₂) (x := y) (h.trans (by simp))
    obtain ⟨c,out⟩ := y
    cases c with
    | run command args =>
      obtain rfl : command = "swapoff" := hswapoff
      rcases hordered with hordered | ⟨file,hfile⟩
      · rw [Ordered,if_pos rfl] at hordered
        exact hordered x (by simp) hx
      · cases hfile
    | _ => exact hswapoff
  · rcases hrule h with hordered | ⟨file,hfile⟩
    · rwa [Ordered,if_neg hcommand] at hordered
    · cases hfile
  · rcases hrule h with hordered | ⟨file,hfile⟩
    · exact hordered
    · cases hfile

end RamShared.Cascade

import RamShared.Cascade.Down

/-! The calls of `down` that take a backend away, and what each step of its plan has seen by the time it
makes one. The other calls only look. -/
namespace RamShared.Cascade
open Lib
open Prog (perform)

instance (c : Call) : Nonempty c.Reply := by
  cases c <;> first
  | exact ⟨.error (.io "")⟩
  | exact ⟨false⟩
  | exact ⟨none⟩
  | exact ⟨0⟩

def Quiet : Call → Prop
  | .run _ _ | .pidfdSendSignal _ | .removeRuntimeFile _ => False
  | _ => True

def TakesAway : Call → Prop
  | .run command _ => command ≠ "swapoff"
  | .pidfdSendSignal _ => True
  | _ => False

def IsSwapoff : Call → Prop
  | .run command _ => command = "swapoff"
  | _ => False

/-- The last snapshots since any swapoff: one of them does not have the device. -/
def Idle (path : String) (tr : Trace) : Prop :=
  ∃ a entries m, tr = a++⟨.readSwaps,.ok entries⟩::m ∧
    (∀ e∈entries, e.canonicalPath ≠ canonicalizeSwapPath path) ∧ ∀ x∈m, ¬IsSwapoff x.1

/-- The NBD device was disconnected, and no command has been run since. -/
def Disconnected (m tr : Trace) : Prop :=
  ∃ a path out, tr = a++⟨.run "nbd-client" ["-d",path],.ok out⟩::m ∧
    ∀ x∈m, ∀ command args, x.1≠.run command args

/-- Since then no managed device was live and no NBD or ublk device was swapped to. -/
def Unused (tr : Trace) : Prop :=
  ∃ m, Disconnected m tr ∧ ⟨.detectLiveManagedDevices,.ok []⟩∈m ∧
    ∃ entries, ⟨.readSwaps,.ok entries⟩∈m ∧ ∀ e∈entries, e.isVramBlock=false

def Ordered (tr : Trace) : Call → Prop
  | .run command args =>
    if command = "swapoff" then ∀ x∈tr, ¬TakesAway x.1
    else ∃ path, (command = "zramctl" ∧ args = ["-r",path] ∨ command = "nbd-client" ∧ args = ["-d",path]) ∧
      Idle path tr
  | .pidfdSendSignal _ => Unused tr
  | .removeRuntimeFile file => file≠.lifecycleBinding
  | _ => True

section Within
variable {C : Call → Prop} {α β : Type} {P : β → Prop}

lemma within_perform {c : Call} {f : c.Reply → Program β} (hc : C c) (h : ∀ r, (f r).Within C P) :
    (perform c >>= f).Within C P := ⟨hc,h⟩

lemma within_pure {b : β} (h : P b) : (pure b : Program β).Within C P := h

lemma within_demand {x : Except CascadeError α} {f : α → Program β}
    (h : ∀ a, x=.ok a → (f a).Within C P) : (demand x >>= f).Within C P := by
  cases x with
  | ok a => exact h a rfl
  | error err => trivial

variable {c : Bool} {reason : String}

lemma within_refuseIf {f : Unit → Program β} (h : c=false → (f ()).Within C P) :
    (refuseIf c reason >>= f).Within C P := by
  cases c with
  | true => trivial
  | false => exact h rfl

lemma within_refuseIf_last {P : Unit → Prop} (h : c=false → P ()) : (refuseIf c reason).Within C P := by
  cases c with
  | true => trivial
  | false => exact h rfl

lemma refuseIf_quiet : (refuseIf c reason).Within Quiet fun _ => c=false := within_refuseIf_last id

lemma readSwaps_quiet : readSwaps.Within Quiet fun _ => True :=
  within_perform trivial fun _ => .ofExcept fun _ _ => trivial

lemma detectLiveManagedDevices_quiet : detectLiveManagedDevices.Within Quiet fun _ => True :=
  within_perform trivial fun _ => .ofExcept fun _ _ => trivial

variable {binding : LifecycleBinding} {device : BoundDeviceIdentity}

lemma observeBoundDevice_quiet (path : String) (kind : ManagedDeviceKind) :
    (observeBoundDevice path kind).Within Quiet fun observed => observed.path = canonicalizeSwapPath path :=
  within_refuseIf fun _ => within_perform trivial fun _ => within_demand fun _ _ =>
    within_refuseIf fun _ => within_pure rfl

lemma revalidateBoundDevice_quiet : (revalidateBoundDevice device).Within Quiet fun _ =>
    device.path = canonicalizeSwapPath device.path := by
  refine .bind (observeBoundDevice_quiet ..) fun observed hpath => within_refuseIf_last fun h => ?_
  have hobserved : observed=device := by simpa using h
  exact hobserved ▸ hpath

lemma bindDeviceForEffect_quiet : (bindDeviceForEffect device).Within Quiet fun _ =>
    device.path = canonicalizeSwapPath device.path :=
  .bind revalidateBoundDevice_quiet fun _ hpath => within_perform trivial fun _ =>
    within_demand fun _ _ => within_refuseIf fun _ => .bind revalidateBoundDevice_quiet fun _ _ =>
      within_perform trivial fun _ => within_demand fun _ _ => within_refuseIf fun _ => within_pure hpath

lemma revalidateNamedIdentity_quiet {effectPath : String} :
    (revalidateNamedIdentity device effectPath).Within Quiet fun _ => True :=
  .bind (observeBoundDevice_quiet ..) fun _ _ => within_refuseIf fun _ => within_perform trivial fun _ =>
    within_demand fun _ _ => within_refuseIf_last fun _ => trivial

lemma revalidateDaemonAndSocket_quiet : (revalidateDaemonAndSocket binding).Within Quiet fun _ => True :=
  within_perform trivial fun _ => within_demand fun _ _ => within_refuseIf fun _ =>
  within_perform trivial fun _ => within_refuseIf fun _ =>
  within_perform trivial fun _ => within_demand fun _ _ => within_refuseIf fun _ =>
  within_perform trivial fun _ => within_refuseIf fun _ =>
  within_perform trivial fun _ => within_demand fun _ _ => within_refuseIf fun _ =>
  within_perform trivial fun _ => within_demand fun _ _ => within_refuseIf_last fun _ => trivial

lemma authorizeRecords_quiet : (authorizeSwapRecord binding).Within Quiet (fun _ => True) ∧
    (authorizeZramRecord binding).Within Quiet fun _ => True := by
  constructor
  all_goals
    refine within_perform trivial fun found => ?_
    cases found with
    | false => trivial
    | true =>
      refine .bind (P := fun _ => True) (within_perform trivial fun _ => within_demand fun _ _ =>
        within_refuseIf fun _ => within_pure trivial) fun _ _ => ?_
      generalize binding.devices.find? _=device
      cases device with
      | none => trivial
      | some expected => exact within_refuseIf_last fun _ => trivial

lemma authorizeBoundEnvironment_quiet {swaps : List SwapEntry} {live expected : List BoundDeviceIdentity} :
    (authorizeBoundEnvironment binding swaps live expected).Within Quiet fun _ =>
      proveExactLiveDeviceSet binding live expected=.ok () :=
  within_demand fun _ _ => .bind revalidateDaemonAndSocket_quiet fun _ _ =>
    .bind authorizeRecords_quiet.1 fun _ _ => .bind authorizeRecords_quiet.2 fun _ _ =>
      within_demand fun _ _ => within_demand fun _ _ => .ofExcept fun _ h => h

lemma authorizeCompletion_quiet {what : String} {expectedAfter : List BoundDeviceIdentity} :
    (authorizeCompletion what binding device expectedAfter).Within Quiet fun _ => True := by
  refine .bind readSwaps_quiet fun _ _ => .bind detectLiveManagedDevices_quiet fun _ _ =>
    .bind authorizeBoundEnvironment_quiet.attempt ?_
  rintro (_ | _) _ <;> trivial

lemma proveExactSwapAbsent_quiet : (proveExactSwapAbsent device).Within Quiet fun _ => True := by
  refine .bind readSwaps_quiet fun entries _ => ?_
  split_ifs <;> trivial

lemma openVerifiedDaemonPidfd_quiet {pid : ℕ} {expectedInstanceId : String} :
    (openVerifiedDaemonPidfd pid expectedInstanceId).Within Quiet fun _ => True :=
  within_perform trivial fun _ => within_refuseIf fun _ => within_perform trivial fun _ =>
  within_refuseIf fun _ => within_refuseIf fun _ => within_refuseIf fun _ =>
  within_perform trivial fun _ => within_demand fun _ _ => within_perform trivial fun _ =>
  within_refuseIf fun _ => within_perform trivial fun _ => within_refuseIf_last fun _ => trivial

lemma verifiedDaemonPid_quiet : verifiedDaemonPid.Within Quiet fun _ => True := by
  refine within_perform trivial fun pid => ?_
  cases pid with
  | none => trivial
  | some pid =>
    refine within_perform trivial fun comm => ?_
    cases comm with
    | none => trivial
    | some comm => trivial

lemma awaitExit_quiet {pid deadline : ℕ} (rounds : ℕ) :
    (awaitExit pid deadline rounds).Within Quiet fun _ => True := by
  induction rounds with
  | zero => trivial
  | succ rounds ih =>
    refine within_perform trivial fun gone => ?_
    cases gone with
    | true => trivial
    | false =>
      refine within_perform trivial fun now => ?_
      split_ifs
      · exact within_perform trivial fun _ => ih
      · trivial

end Within

section Steps
variable {binding : LifecycleBinding} {device : BoundDeviceIdentity} {tr m : Trace}

lemma Quiet.ordered (tr : Trace) (c : Call) (h : Quiet c) : Ordered tr c := by
  cases c <;> trivial

variable {c : Call}

lemma Quiet.not_takesAway (h : Quiet c) : ¬TakesAway c := by
  cases c <;> first | exact id | exact h.elim

lemma Quiet.not_isSwapoff (h : Quiet c) : ¬IsSwapoff c := by
  cases c <;> first | exact id | exact h.elim

lemma Quiet.ne_run (h : Quiet c) (command : String) (args : List String) : c≠.run command args := by
  rintro rfl
  exact h

lemma ordered_swapoff {args : List String} (h : ∀ x∈tr, ¬TakesAway x.1) : Ordered tr (.run "swapoff" args) := by
  rw [Ordered,if_pos rfl]
  exact h

lemma ordered_reset {path : String} (h : Idle path tr) : Ordered tr (.run "zramctl" ["-r",path]) := by
  rw [Ordered,if_neg (by decide)]
  exact ⟨path,.inl ⟨rfl,rfl⟩,h⟩

lemma ordered_disconnect {path : String} (h : Idle path tr) : Ordered tr (.run "nbd-client" ["-d",path]) := by
  rw [Ordered,if_neg (by decide)]
  exact ⟨path,.inr ⟨rfl,rfl⟩,h⟩

lemma follows_readSwaps {α : Type} {f : List SwapEntry → Program α} {Q : Except CascadeError α → Trace → Prop}
    (hok : ∀ entries, Prog.Follows Ordered (f entries) (tr++[⟨.readSwaps,.ok entries⟩]) Q)
    (herr : ∀ err, Q (.error err) (tr++[⟨.readSwaps,.error err⟩])) :
    Prog.Follows Ordered (readSwaps >>= f) tr Q := by
  refine .call trivial fun r => ?_
  cases r with
  | ok entries => exact hok entries
  | error err => exact .fail (herr err)

def OnSuccess (P : Trace → Prop) (r : Except CascadeError Unit) (tr : Trace) : Prop :=
  match r with
  | .ok _ => P tr
  | .error _ => True

lemma follows_proveExactSwapAbsent : Prog.Follows Ordered (proveExactSwapAbsent device) tr
    (OnSuccess fun tr' => ∃ entries, tr' = tr++[⟨.readSwaps,.ok entries⟩] ∧
      ∀ e∈entries, e.canonicalPath≠device.path) := by
  refine follows_readSwaps (fun entries => ?_) fun _ => trivial
  split_ifs with h
  · exact .fail trivial
  · exact .ok ⟨entries,rfl,by simpa using h⟩

lemma follows_releaseDevice {expectedBefore : List BoundDeviceIdentity} :
    Prog.Follows Ordered (releaseDevice binding device expectedBefore) tr (OnSuccess (Idle device.path)) := by
  refine .within_bind readSwaps_quiet Quiet.ordered (fun _ _ _ _ => ?_) fun _ _ _ => trivial
  refine .within_bind detectLiveManagedDevices_quiet Quiet.ordered (fun _ _ _ _ => ?_) fun _ _ _ => trivial
  refine .within_bind authorizeBoundEnvironment_quiet Quiet.ordered (fun _ _ _ _ => ?_) fun _ _ _ => trivial
  refine .bind follows_proveExactSwapAbsent (fun _ _ h => ?_) fun _ _ _ => trivial
  obtain ⟨entries,rfl,habsent⟩ := h
  refine .within (Prog.Within.bind bindDeviceForEffect_quiet fun _ hpath =>
    revalidateNamedIdentity_quiet.mono (fun _ => id) fun _ _ => hpath) Quiet.ordered fun r m hm hpath => ?_
  cases r with
  | error err => trivial
  | ok =>
    refine ⟨_,entries,m,List.append_assoc ..,?_,fun x hx => (hm x hx).not_isSwapoff⟩
    rwa [←hpath () rfl]

lemma follows_swapoff (h : ∀ x∈tr, ¬TakesAway x.1) : Prog.Follows Ordered (swapoff binding device) tr
    fun _ tr' => ∀ x∈tr', ¬TakesAway x.1 := by
  have hquiet {tr : Trace} (h : ∀ x∈tr, ¬TakesAway x.1) {m : Trace} (hm : ∀ x∈m, Quiet x.1) :
      ∀ x∈tr++m, ¬TakesAway x.1 :=
    List.forall_mem_append.mpr ⟨h,fun x hx => (hm x hx).not_takesAway⟩
  refine .within_bind readSwaps_quiet Quiet.ordered (fun _ m₁ hm₁ _ => ?_) fun _ m hm => hquiet h hm
  have h₁ := hquiet h hm₁
  refine .within_bind detectLiveManagedDevices_quiet Quiet.ordered (fun _ m₂ hm₂ _ => ?_)
    fun _ m hm => hquiet h₁ hm
  have h₂ := hquiet h₁ hm₂
  refine .within_bind authorizeBoundEnvironment_quiet Quiet.ordered (fun _ m₃ hm₃ _ => ?_)
    fun _ m hm => hquiet h₂ hm
  have h₃ := hquiet h₂ hm₃
  refine .within_bind bindDeviceForEffect_quiet Quiet.ordered (fun pinned m₄ hm₄ _ => ?_)
    fun _ m hm => hquiet h₃ hm
  have h₄ := hquiet h₃ hm₄
  refine .call (ordered_swapoff h₄) fun r => ?_
  have h₅ : ∀ x∈tr++m₁++m₂++m₃++m₄++[⟨.run "swapoff" ["--",pinned],r⟩], ¬TakesAway x.1 :=
    List.forall_mem_append.mpr ⟨h₄,by simp [TakesAway]⟩
  cases r with
  | ok out =>
    have hproof : (do proveExactSwapAbsent device; revalidateNamedIdentity device pinned).Within Quiet
        fun _ => True := .bind proveExactSwapAbsent_quiet fun _ _ => revalidateNamedIdentity_quiet
    exact .within hproof Quiet.ordered fun _ m hm _ => hquiet h₅ hm
  | error err =>
    change Prog.Follows Ordered (if _ then _ else _) _ _
    split_ifs
    · refine .within_bind proveExactSwapAbsent_quiet.attempt Quiet.ordered (fun absent m hm _ => ?_)
        fun _ m hm => hquiet h₅ hm
      cases absent with
      | ok => exact .ok (hquiet h₅ hm)
      | error => exact .fail (hquiet h₅ hm)
    · exact .fail h₅

lemma follows_resetZram : Prog.Follows Ordered (resetZram binding device) tr fun _ _ => True := by
  refine .bind follows_releaseDevice (fun _ _ hidle => ?_) fun _ _ _ => trivial
  refine .call (ordered_reset hidle) fun r => ?_
  cases r with
  | error err => exact .fail trivial
  | ok out => exact .within authorizeCompletion_quiet Quiet.ordered fun _ _ _ _ => trivial

lemma Disconnected.append {q : Trace} (h : Disconnected m tr) (hq : ∀ x∈q, Quiet x.1) :
    Disconnected (m++q) (tr++q) := by
  obtain ⟨a,path,out,rfl,hm⟩ := h
  refine ⟨a,path,out,List.append_assoc ..,List.forall_mem_append.mpr ⟨hm,fun x hx => (hq x hx).ne_run⟩⟩

lemma follows_disconnectNbd : Prog.Follows Ordered (disconnectNbd binding device) tr
    (OnSuccess fun tr' => ∃ m, Disconnected m tr') := by
  refine .bind follows_releaseDevice (fun _ tr hidle => ?_) fun _ _ _ => trivial
  refine .call (ordered_disconnect hidle) fun r => ?_
  cases r with
  | error err => exact .fail trivial
  | ok out =>
    refine .within authorizeCompletion_quiet Quiet.ordered fun r m hm _ => ?_
    cases r with
    | error err => trivial
    | ok =>
      exact ⟨m,tr,device.path,out,List.append_assoc ..,fun x hx => (hm x hx).ne_run⟩

lemma follows_signalVerifiedDaemon {pid : ℕ} {expectedInstanceId : String} (h : Disconnected m tr)
    (hlive : ⟨.detectLiveManagedDevices,.ok []⟩∈m) {entries : List SwapEntry}
    (hswaps : ⟨.readSwaps,.ok entries⟩∈m) (hunused : ∀ e∈entries, e.isVramBlock=false) :
    Prog.Follows Ordered (signalVerifiedDaemon pid expectedInstanceId) tr fun _ _ => True := by
  refine .within_bind openVerifiedDaemonPidfd_quiet Quiet.ordered (fun _ q hq _ => ?_) fun _ _ _ => trivial
  refine .call ⟨_,h.append hq,List.mem_append_left _ hlive,entries,List.mem_append_left _ hswaps,hunused⟩
    fun r => ?_
  cases r with
  | ok => exact .ok trivial
  | error err => exact .fail trivial

lemma follows_stopDaemonGracefullyAt {timeoutMs : ℕ} (h : Disconnected m tr)
    (hlive : ⟨.detectLiveManagedDevices,.ok []⟩∈m) :
    Prog.Follows Ordered (stopDaemonGracefullyAt timeoutMs) tr fun _ _ => True := by
  have hone {c : Call} {r : c.Reply} (hc : Quiet c) : ∀ x∈([⟨c,r⟩] : Trace), Quiet x.1 := by simpa using hc
  refine .perform trivial fun present => ?_
  have h₁ := h.append (hone (r := present) trivial)
  cases present with
  | false => exact .ok trivial
  | true =>
  refine .within_bind verifiedDaemonPid_quiet Quiet.ordered (fun pid q₂ hq₂ _ => ?_) fun _ _ _ => trivial
  have h₂ := h₁.append hq₂
  cases pid with
  | none => exact .fail trivial
  | some pid =>
  refine .perform trivial fun current => ?_
  have h₃ := h₂.append (hone (r := current) trivial)
  refine .within_bind refuseIf_quiet Quiet.ordered (fun _ q₄ hq₄ _ => ?_)
    fun _ _ _ => trivial
  have h₄ := h₃.append hq₄
  -- The snapshot that `daemon_kill_allowed` is asked about.
  refine follows_readSwaps (fun entries => ?_) fun _ => trivial
  have h₅ := h₄.append (hone (c := .readSwaps) (r := .ok entries) trivial)
  refine .within_bind refuseIf_quiet Quiet.ordered (fun _ q₆ hq₆ hkill => ?_) fun _ _ _ => trivial
  have h₆ := h₅.append hq₆
  refine .perform trivial fun id => ?_
  have h₇ := h₆.append (hone (r := id) trivial)
  cases id with
  | none => exact .fail trivial
  | some id =>
  have hunused : ∀ e∈entries, e.isVramBlock=false := fun e he =>
    not_isVramBlock_of_daemonKillAllowed (by simpa using hkill) he
  refine .bind (follows_signalVerifiedDaemon h₇ (by simp [hlive]) (by simp) hunused) (fun _ _ _ => ?_)
    fun _ _ _ => trivial
  refine .perform trivial fun start => ?_
  refine .within_bind (awaitExit_quiet _) Quiet.ordered (fun _ _ _ _ => ?_) fun _ _ _ => trivial
  refine .perform trivial fun gone => ?_
  refine .within_bind refuseIf_quiet Quiet.ordered (fun _ _ _ _ => ?_)
    fun _ _ _ => trivial
  exact .call (by simp [Ordered]) fun _ => .ok trivial

lemma follows_stopDaemon (h : Disconnected m tr) :
    Prog.Follows Ordered (stopDaemon binding) tr fun _ _ => True := by
  refine .within_bind readSwaps_quiet Quiet.ordered (fun _ q₁ hq₁ _ => ?_) fun _ _ _ => trivial
  refine .call trivial fun live => ?_
  have h₂ := (h.append hq₁).append (q := [⟨.detectLiveManagedDevices,live⟩]) (by simp [Quiet])
  cases live with
  | error err => exact .fail trivial
  | ok live =>
  change Prog.Follows Ordered (authorizeBoundEnvironment .. >>= _) _ _
  refine .within_bind authorizeBoundEnvironment_quiet Quiet.ordered (fun _ q₃ hq₃ hlive => ?_)
    fun _ _ _ => trivial
  obtain rfl := proveExactLiveDeviceSet_nil hlive
  exact follows_stopDaemonGracefullyAt (h₂.append hq₃) (by simp)

lemma follows_plan (active resets : List BoundDeviceIdentity) (h : ∀ x∈tr, ¬TakesAway x.1) :
    Prog.Follows Ordered (executeNbdLifecyclePlan binding (active.map .swapoff++resets.map .resetZram ++
      [.disconnectNbd device,.stopDaemon])) tr fun _ _ => True := by
  rw [List.append_assoc]
  induction active generalizing tr with
  | cons d active ih => exact .bind (follows_swapoff h) (fun _ _ h => ih h) fun _ _ _ => trivial
  | nil =>
    clear h
    induction resets generalizing tr with
    | cons d resets ih => exact .bind follows_resetZram (fun _ _ _ => ih) fun _ _ _ => trivial
    | nil =>
      refine .bind follows_disconnectNbd (fun _ tr h => ?_) fun _ _ _ => trivial
      obtain ⟨m,h⟩ := h
      exact .bind (follows_stopDaemon h) (fun _ _ _ => .ok trivial) fun _ _ _ => trivial

end Steps

end RamShared.Cascade

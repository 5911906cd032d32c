import RamShared.Nbd.SwapTable
import RamShared.Lib.Programs

/-! The life of a ublk device, from its creation to its removal, with the calls to the runtime that the
daemon makes on the way. -/
namespace RamShared.Ublk
open Lib Nbd

structure UblkDevice where
  id : ℕ
  queueDepth : ℕ
  deriving DecidableEq, Repr

inductive BackendKind
  | vram
  | vulkan
  | ram
  | auto
  deriving DecidableEq, Repr

/-- The calls to the runtime, and `join` on the server that it has started. -/
inductive UblkCall
  | guardNotWsl2
  | lockMemory (force lockFuture : Bool)
  | installShutdownHandler
  | addDevice (queueDepth : ℕ)
  | setParams (device : UblkDevice) (sectors : ℕ)
  | startServer (backend : BackendKind) (charPath blockPath : String) (queueDepth size : ℕ)
  | startDevice (device : UblkDevice)
  | waitForShutdown
  | swapState (blockPath : String)
  | swapoff (blockPath : String)
  | stopDevice (device : UblkDevice)
  | join
  | deleteDevice (device : UblkDevice)
  deriving DecidableEq, Repr

def UblkCall.Answer : UblkCall → Type
  | .addDevice _ => UblkDevice
  | .swapState _ => ExactSwapState
  | _ => Unit

abbrev UblkProg (α : Type) := Prog UblkCall (fun e => Except String e.Answer) String α

def call (e : UblkCall) : UblkProg e.Answer := Prog.ask e

variable (device : UblkDevice)

def UblkDevice.blockPath : String := "/dev/ublkb" ++ toString device.id

def UblkDevice.charPath : String := "/dev/ublkc" ++ toString device.id

def proveUblkSwapAbsent (blockPath : String) : UblkProg Unit := do
  match ← (call (.swapState blockPath) : UblkProg ExactSwapState) with
  | .absent => .ok ()
  | .active usedKb => .fail ("refusing ublk stop/delete: " ++ blockPath ++ " remains active swap (used_kb=" ++
      toString usedKb ++ "); device and backend preserved")

def deactivateUblkSwap (blockPath : String) : UblkProg Unit := do
  match ← (call (.swapState blockPath) : UblkProg ExactSwapState) with
  | .absent => .ok ()
  | .active _ =>
    -- The result of the command only decides about a message.
    let _ ← (call (.swapoff blockPath)).attempt
    match ← (proveUblkSwapAbsent blockPath).attempt with
    | .ok () => .ok ()
    | .error (_ : String) => .fail ("ublk swapoff failed or remained active for " ++ blockPath ++
        "; device and backend preserved")

def deleteAndFail (error : String) : UblkProg Unit := do
  proveUblkSwapAbsent device.blockPath
  let () ← call (.deleteDevice device)
  .fail error

def runUblkWithRuntime (size : ℕ) (force : Bool) (queueDepth : ℕ) (backend : BackendKind) : UblkProg Unit :=
  if backend=.vulkan then
    .fail ("ublk with --backend vulkan not supported (DT-11: ublk residency server is CUDA-fixed). " ++
      "Use --backend vram (CUDA), or Vulkan via --slices (broker) / --transport nbd.")
  else do
    let () ← call .guardNotWsl2
    let () ← call (.lockMemory force false)
    let () ← call .installShutdownHandler
    let device ← (call (.addDevice queueDepth) : UblkProg UblkDevice)
    match ← (call (.setParams device (size/512))).attempt with
    | .error error => deleteAndFail device error
    | .ok () =>
    match ← (call (.startServer backend device.charPath device.blockPath device.queueDepth size)).attempt with
    | .error error => deleteAndFail device error
    | .ok () =>
    match ← (call (.startDevice device)).attempt with
    | .error error =>
      proveUblkSwapAbsent device.blockPath
      let () ← call (.stopDevice device)
      let _ ← (call .join).attempt
      deleteAndFail device error
    | .ok () =>
    match ← (call .waitForShutdown).attempt with
    | .error error => .fail ("recoverable NO-GO while waiting for ublk shutdown (" ++ error ++
        "); device and backend preserved")
    | .ok () =>
    deactivateUblkSwap device.blockPath
    proveUblkSwapAbsent device.blockPath
    let () ← call (.stopDevice device)
    let () ← call .join
    proveUblkSwapAbsent device.blockPath
    let () ← call (.deleteDevice device)
    .ok ()

/-! The device is removed only when it is proved not to be swap. -/

/-- The calls that add or start something, or have to do with swap. -/
def UblkCall.Operates : UblkCall → Prop
  | .addDevice _ | .startServer .. | .startDevice _ | .swapState _ | .swapoff _ => True
  | _ => False

abbrev UblkTrace := Prog.Trace UblkCall fun e => Except String e.Answer

/-- The swap state was answered `absent`, and nothing was operated since. -/
def ProvedAbsent (tr : UblkTrace) : Prop :=
  ∃ before after, tr = before++⟨.swapState device.blockPath,.ok ExactSwapState.absent⟩::after ∧
    ∀ x∈after, ¬x.1.Operates

def Removes (e : UblkCall) : Prop := e=.stopDevice device ∨ e=.deleteDevice device

def Guarded (tr : UblkTrace) (e : UblkCall) : Prop := ∀ device, Removes device e → ProvedAbsent device tr

def Only (tr : UblkTrace) : Prop :=
  ∀ depth d, ⟨.addDevice depth,.ok d⟩∈tr → d=device

/-- Success is returned after the deletion of whatever was added. -/
def Cleaned (r : Except String Unit) (tr : UblkTrace) : Prop :=
  r=.ok () → ∀ depth device, ⟨.addDevice depth,.ok device⟩∈tr → ⟨.deleteDevice device,.ok ()⟩∈tr

section
variable {device : UblkDevice} {tr : UblkTrace}

lemma provedAbsent_concat (device : UblkDevice) (tr : UblkTrace) :
    ProvedAbsent device (tr++[⟨.swapState device.blockPath,.ok ExactSwapState.absent⟩]) :=
  ⟨tr,[],rfl,List.forall_mem_nil _⟩

variable {e : UblkCall}

lemma ProvedAbsent.guarded (h : ProvedAbsent device tr) (he : Removes device e) : Guarded tr e := by
  rintro d hd
  rcases he with rfl | rfl <;> rcases hd with hd | hd <;> cases hd <;> exact h

lemma guarded_of_not (he : ∀ device, ¬Removes device e) : Guarded tr e :=
  fun device h => absurd h (he device)

lemma only_nil (device : UblkDevice) : Only device [] := nofun

lemma Only.concat (h : Only device tr) (x : Except String e.Answer)
    (he : ∀ depth, e≠.addDevice depth) : Only device (tr++[⟨e,x⟩]) := by
  intro depth d hd
  rcases List.mem_append.mp hd with hd | hd
  · exact h depth d hd
  · obtain ⟨rfl,-⟩ := Sigma.mk.inj (List.mem_singleton.mp hd)
    exact absurd rfl (he depth)

lemma Only.add (h : Only device tr) (queueDepth : ℕ) :
    Only device (tr++[⟨.addDevice queueDepth,.ok device⟩]) := by
  intro depth d hd
  rcases List.mem_append.mp hd with hd | hd
  · exact h depth d hd
  · obtain ⟨hdepth,hd⟩ := Sigma.mk.inj (List.mem_singleton.mp hd)
    obtain rfl := UblkCall.addDevice.inj hdepth
    exact Except.ok.inj (eq_of_heq hd)

lemma cleaned_error (err : String) (tr : UblkTrace) : Cleaned (.error err) tr := nofun

lemma Only.cleaned (h : Only device tr) : Cleaned (.ok ()) (tr++[⟨.deleteDevice device,.ok ()⟩]) := by
  intro _ depth d hd
  have hall := h.concat (e := .deleteDevice device) (.ok ()) (by simp)
  rw [hall depth d hd]
  exact List.mem_append_right _ (List.mem_singleton_self _)

lemma follows_call {f : e.Answer → UblkProg Unit} (he : ∀ device, ¬Removes device e)
    (hok : ∀ a, Prog.Follows Guarded (f a) (tr++[⟨e,.ok a⟩]) Cleaned) :
    Prog.Follows Guarded (call e >>= f) tr Cleaned :=
  .ask (guarded_of_not he) hok fun err => cleaned_error err _

lemma follows_attempt {f : Except String e.Answer → UblkProg Unit}
    (he : ∀ device, ¬Removes device e) (h : ∀ x, Prog.Follows Guarded (f x) (tr++[⟨e,x⟩]) Cleaned) :
    Prog.Follows Guarded ((call e).attempt >>= f) tr Cleaned :=
  .attemptAsk (guarded_of_not he) h

lemma follows_proveUblkSwapAbsent {f : Unit → UblkProg Unit}
    (hok : Prog.Follows Guarded (f ()) (tr++[⟨.swapState device.blockPath,.ok ExactSwapState.absent⟩]) Cleaned) :
    Prog.Follows Guarded (proveUblkSwapAbsent device.blockPath >>= f) tr Cleaned := by
  unfold proveUblkSwapAbsent
  rw [Prog.bind_bind]
  refine follows_call (by simp [Removes]) fun state => ?_
  cases state with
  | absent => exact hok
  | active usedKb => exact .fail (cleaned_error _ _)

lemma follows_removal {f : e.Answer → UblkProg Unit} (he : Removes device e)
    (hok : ∀ a, Prog.Follows Guarded (f a)
      (tr++[⟨.swapState device.blockPath,.ok ExactSwapState.absent⟩]++[⟨e,.ok a⟩]) Cleaned) :
    Prog.Follows Guarded (proveUblkSwapAbsent device.blockPath >>= fun _ => call e >>= f) tr Cleaned :=
  follows_proveUblkSwapAbsent
    (.ask ((provedAbsent_concat device tr).guarded he) hok fun err => cleaned_error err _)

lemma follows_deleteAndFail (error : String) : Prog.Follows Guarded (deleteAndFail device error) tr Cleaned :=
  follows_removal (.inr rfl) fun _ => .fail (cleaned_error _ _)

lemma follows_attempt_proveUblkSwapAbsent {f : Except String Unit → UblkProg Unit} {blockPath : String}
    (h : ∀ state r, Prog.Follows Guarded (f r) (tr++[⟨.swapState blockPath,state⟩]) Cleaned) :
    Prog.Follows Guarded ((proveUblkSwapAbsent blockPath).attempt >>= f) tr Cleaned :=
  .call (guarded_of_not (by simp [Removes])) fun
    | .ok .absent => h (.ok ExactSwapState.absent) (.ok ())
    | .ok (.active usedKb) => h (.ok (ExactSwapState.active usedKb)) _
    | .error err => h (.error err) (.error err)

lemma follows_deactivateUblkSwap {f : Unit → UblkProg Unit} (h : Only device tr)
    (hok : ∀ tr, Only device tr → Prog.Follows Guarded (f ()) tr Cleaned) :
    Prog.Follows Guarded (deactivateUblkSwap device.blockPath >>= f) tr Cleaned := by
  unfold deactivateUblkSwap
  rw [Prog.bind_bind]
  refine follows_call (by simp [Removes]) fun state => ?_
  have hstate := h.concat (e := .swapState device.blockPath) (.ok state) (by simp)
  cases state with
  | absent => exact hok _ hstate
  | active usedKb =>
    dsimp only
    rw [Prog.bind_bind]
    refine follows_attempt (by simp [Removes]) fun swapoff => ?_
    rw [Prog.bind_bind]
    refine follows_attempt_proveUblkSwapAbsent fun state r => ?_
    have hswapoff := hstate.concat (e := .swapoff device.blockPath) swapoff (by simp)
    cases r with
    | error err => exact .fail (cleaned_error _ _)
    | ok => exact hok _ (hswapoff.concat state (by simp))

lemma follows_shutdown (h : Only device tr) : Prog.Follows Guarded (do
    deactivateUblkSwap device.blockPath
    proveUblkSwapAbsent device.blockPath
    let () ← call (.stopDevice device)
    let () ← call .join
    proveUblkSwapAbsent device.blockPath
    let () ← call (.deleteDevice device)
    .ok ()) tr Cleaned := by
  refine follows_deactivateUblkSwap h fun tr h => ?_
  refine follows_removal (.inl rfl) fun _ => ?_
  refine follows_call (by simp [Removes]) fun _ => ?_
  refine follows_removal (.inr rfl) fun _ => .ok (Only.cleaned ?_)
  exact (((h.concat _ (by simp)).concat _ (by simp)).concat _ (by simp)).concat _ (by simp)

theorem follows_runUblkWithRuntime (size : ℕ) (force : Bool) (queueDepth : ℕ) (backend : BackendKind) :
    Prog.Follows Guarded (runUblkWithRuntime size force queueDepth backend) [] Cleaned := by
  unfold runUblkWithRuntime
  split_ifs
  · exact .fail (cleaned_error _ _)
  refine follows_call (by simp [Removes]) fun (guard : Unit) => ?_
  refine follows_call (by simp [Removes]) fun (lock : Unit) => ?_
  refine follows_call (by simp [Removes]) fun (handler : Unit) => ?_
  refine follows_call (by simp [Removes]) fun (device : UblkDevice) => ?_
  have hadd := ((((only_nil device).concat (e := .guardNotWsl2) (.ok guard) (by simp)).concat
    (e := .lockMemory force false) (.ok lock) (by simp)).concat
    (e := .installShutdownHandler) (.ok handler) (by simp)).add queueDepth
  refine follows_attempt (by simp [Removes]) fun params => ?_
  have hparams := hadd.concat params (by simp)
  cases params with
  | error error => exact follows_deleteAndFail error
  | ok =>
    refine follows_attempt (by simp [Removes]) fun server => ?_
    have hserver := hparams.concat server (by simp)
    cases server with
    | error error => exact follows_deleteAndFail error
    | ok =>
      refine follows_attempt (by simp [Removes]) fun start => ?_
      have hstart := hserver.concat start (by simp)
      cases start with
      | error error =>
        refine follows_removal (.inl rfl) fun _ => ?_
        exact follows_attempt (by simp [Removes]) fun _ => follows_deleteAndFail error
      | ok =>
        refine follows_attempt (by simp [Removes]) fun wait => ?_
        have hwait := hstart.concat wait (by simp)
        cases wait with
        | error error => exact .fail (cleaned_error _ _)
        | ok => exact follows_shutdown hwait

end

instance (e : UblkCall) : Nonempty (Except String e.Answer) := ⟨.error ""⟩

/-- However the runtime answers, a device is stopped or deleted only when it is proved not to be swap, and
when it is left behind an error is returned. -/
theorem removed_only_when_absent (size : ℕ) (force : Bool) (queueDepth : ℕ) (backend : BackendKind)
    (answers : ℕ → ∀ e : UblkCall, Except String e.Answer) :
    let run := (runUblkWithRuntime size force queueDepth backend).eval Prog.record answers []
    (∀ before after e answer device, run.2 = before++⟨e,answer⟩::after → Removes device e →
      ProvedAbsent device before) ∧
    ∀ depth device, ⟨.addDevice depth,.ok device⟩ ∈ run.2 → ⟨.deleteDevice device,.ok ()⟩ ∉ run.2 →
      ∃ err, run.1 = .error err := by
  have hfollows := follows_runUblkWithRuntime size force queueDepth backend
  have hcleaned := hfollows.eval answers
  obtain ⟨t,ht,hruns⟩ := Prog.runs_eval (p := runUblkWithRuntime size force queueDepth backend) answers []
  rw [List.nil_append] at ht
  refine ⟨fun before after e answer device hsplit he => ?_,fun depth device hadd hdelete => ?_⟩
  · exact hfollows.runs hruns (ht.symm.trans hsplit) device he
  · cases hr : ((runUblkWithRuntime size force queueDepth backend).eval Prog.record answers []).1 with
    | error err => exact ⟨err,rfl⟩
    | ok => exact absurd (hcleaned hr depth device hadd) hdelete

end RamShared.Ublk

import RamShared.Lib.Programs

/-! The storage teardown of the Windows service, in its two copies: the whole of it, and the part behind
the volume lock. Both spell out the same steps. The gates, the disk and the wipe are calls, and so are
the updates of the state and of the log of phases. -/
namespace RamShared.Winsvc
open Lib

section
open Prog (perform)

structure LeaseState where
  lease : UInt32
  bytes : UInt64
  deriving DecidableEq, Repr

structure ServiceState where
  lease : Option LeaseState
  diskCreated : Bool
  registeredQueue : Bool
  online : Bool
  deriving DecidableEq, Repr

inductive TeardownPhase
  | identity
  | gateA
  | drain
  | volumeLock
  | gateB
  | flushDismount
  | unregister
  | destroy
  | unlock
  | wipe
  | release
  | resumeOnline
  deriving DecidableEq, Repr

inductive ProvisionError
  | disk (msg : String)
  | pagefileSafety (msg : String)
  deriving DecidableEq, Repr

inductive Call
  | verifyVolumeIdentity (letter : Char)
  | activePagefiles
  | hasMountedVolume
  | lockVolume (letter : Char)
  | unlockVolume
  | flushAndDismount
  | unregisterQueue
  | destroyDisk
  | zero
  | push (phase : TeardownPhase)
  | set (state : ServiceState)
  deriving DecidableEq

abbrev Call.Reply : Call → Type
  | .activePagefiles => Except String (List String)
  | .hasMountedVolume => Bool
  | .push _ | .set _ => Unit
  | _ => Except String Unit

abbrev Program := Prog Call Call.Reply ProvisionError

abbrev Trace := Prog.Trace Call Call.Reply

def demand (kind : String → ProvisionError) (x : Except String Unit) : Program Unit :=
  Prog.ofExcept (x.mapError kind)

def joined (names : List String) : String := ",".intercalate names

def refuseLocked (msg : String) : Program Unit := do
  let _ ← perform Call.unlockVolume
  perform (Call.push .resumeOnline)
  .fail (.pagefileSafety msg)

section Steps

def identity (volumeLetter : Char) : Program Unit := do
  perform (Call.push .identity)
  demand (fun e => .pagefileSafety s!"volume_identity: {e}")
    (← perform (Call.verifyVolumeIdentity volumeLetter))

def gateA : Program Unit := do
  perform (Call.push .gateA)
  match ← perform Call.activePagefiles with
  | .error e => .fail (.pagefileSafety s!"gate_a_query: {e}")
  | .ok [] => .ok ()
  | .ok pagefiles =>
    perform (Call.push .resumeOnline)
    .fail (.pagefileSafety ("gate_a_active: " ++ joined pagefiles))

def volumeLock (volumeLetter : Char) : Program Unit := do
  if ← perform Call.hasMountedVolume then
    perform (Call.push .volumeLock)
    match ← perform (Call.lockVolume volumeLetter) with
    | .ok () => .ok ()
    | .error e =>
      perform (Call.push .resumeOnline)
      .fail (.pagefileSafety s!"volume_lock: {e}")
  else .ok ()

def gateB : Program Unit := do
  perform (Call.push .gateB)
  match ← perform Call.activePagefiles with
  | .ok [] => .ok ()
  | .ok pagefiles => refuseLocked ("gate_b_active: " ++ joined pagefiles)
  | .error e => refuseLocked s!"gate_b_query: {e}"

def flushDismount : Program Unit := do
  if ← perform Call.hasMountedVolume then
    perform (Call.push .flushDismount)
    match ← perform Call.flushAndDismount with
    | .ok () => .ok ()
    | .error e => refuseLocked s!"flush_dismount: {e}"
  else .ok ()

def unregister (state : ServiceState) : Program ServiceState := do
  if state.registeredQueue then
    perform (Call.push .unregister)
    demand .disk (← perform Call.unregisterQueue)
    perform (Call.set {state with registeredQueue := false})
    return {state with registeredQueue := false}
  else return state

def destroy (state : ServiceState) : Program ServiceState := do
  if state.diskCreated then
    perform (Call.push .destroy)
    demand .disk (← perform Call.destroyDisk)
    perform (Call.set {state with diskCreated := false})
    return {state with diskCreated := false}
  else return state

def unlock : Program Unit := do
  if ← perform Call.hasMountedVolume then
    perform (Call.push .unlock)
    demand (fun e => .disk s!"unlock: {e}") (← perform Call.unlockVolume)
  else .ok ()

def wipe : Program Unit := do
  perform (Call.push .wipe)
  demand .disk (← perform Call.zero)

def release (state : ServiceState) : Program Unit := do
  perform (Call.push .release)
  perform (Call.set {state with lease := none})
  perform (Call.set {state with lease := none, online := false})

end Steps

def teardownStorageOnly (volumeLetter : Char) (state : ServiceState) : Program Unit := do
  if !state.online && !state.diskCreated && !state.registeredQueue then .ok ()
  else
    identity volumeLetter
    gateA
    perform (Call.push .drain)
    volumeLock volumeLetter
    gateB
    flushDismount
    let state ← unregister state
    let state ← destroy state
    unlock
    wipe
    release state

/-- The copy in `product_online`, for a volume that its caller has locked. -/
def teardownAfterLock (state : ServiceState) : Program Unit := do
  gateB
  flushDismount
  let state ← unregister state
  let state ← destroy state
  unlock
  wipe
  release state

end

/-! What has been seen before anything is destroyed. -/

open Prog (perform)

instance (c : Call) : Nonempty c.Reply := by
  cases c <;> first
  | exact ⟨.error ""⟩
  | exact ⟨false⟩
  | exact ⟨()⟩

/-- The call changes the state, the disk or the memory behind it. -/
def Touches : Call → Prop
  | .unregisterQueue | .destroyDisk | .zero | .set _ => True
  | _ => False

def Untouched (tr : Trace) : Prop := ∀ x∈tr, ¬Touches x.1

def isGate : Call → Bool
  | .verifyVolumeIdentity _ | .activePagefiles | .lockVolume _ | .flushAndDismount => true
  | _ => false

def gatesOf (tr : Trace) : Trace := tr.filter fun x => isGate x.1

variable (s : ServiceState)

def stateAfter (tr : Trace) : ServiceState :=
  tr.foldl (fun s x => match x.1 with | .set s' => s' | _ => s) s

section Gates
variable (volumeLetter : Char) (mounted : Bool)

/-- `has_mounted_volume` has answered the same all along. -/
def Steady (tr : Trace) : Prop := ∀ b, ⟨.hasMountedVolume,b⟩∈tr → b=mounted

def lockGate : Trace := if mounted then [⟨.lockVolume volumeLetter,.ok ()⟩] else []

def flushGate : Trace := if mounted then [⟨.flushAndDismount,.ok ()⟩] else []

def passed : Trace :=
  [⟨.verifyVolumeIdentity volumeLetter,.ok ()⟩]++[⟨.activePagefiles,.ok []⟩] ++
    lockGate volumeLetter mounted++[⟨.activePagefiles,.ok []⟩]++flushGate mounted

variable (s₀ : ServiceState)

def Admits (tr : Trace) (c : Call) : Prop :=
  Steady mounted tr →
  match c with
  | .unregisterQueue | .destroyDisk => gatesOf tr = passed volumeLetter mounted
  | .zero => gatesOf tr = passed volumeLetter mounted ∧ (stateAfter s₀ tr).diskCreated=false ∧
      (stateAfter s₀ tr).registeredQueue=false
  | .set s => s.lease=none → s₀.lease=none ∨ ⟨.zero,.ok ()⟩∈tr
  | _ => True

end Gates

/-- What holds of the trace after a step; a refusal has not touched anything. -/
def After {α : Type} (P : α → Trace → Prop) (r : Except ProvisionError α) (tr : Trace) : Prop :=
  match r with
  | .ok a => P a tr
  | .error (.disk _) => True
  | .error (.pagefileSafety _) => Untouched tr

section Steps
variable {volumeLetter : Char} {mounted : Bool} {s₀ s : ServiceState} {tr gates : Trace}

lemma Steady.of_append {t : Trace} (h : Steady mounted (tr++t)) : Steady mounted tr :=
  fun b hb => h b (List.mem_append_left t hb)

lemma stateAfter_append (s : ServiceState) (a b : Trace) :
    stateAfter s (a++b) = stateAfter (stateAfter s a) b := List.foldl_append

lemma stateAfter_of_untouched (h : Untouched tr) : stateAfter s₀ tr=s₀ := by
  induction tr with
  | nil => rfl
  | cons x tr ih =>
    obtain ⟨c,r⟩ := x
    obtain ⟨hx,htr⟩ := List.forall_mem_cons.mp h
    cases c with
    | set s => exact absurd trivial hx
    | _ => exact ih htr

/-- Nothing is touched yet, and these gates were passed. -/
structure Cleared (mounted : Bool) (gates tr : Trace) : Prop where
  untouched : Untouched tr
  gates : Steady mounted tr → gatesOf tr=gates

variable {x : Σ c : Call, c.Reply}

lemma Cleared.pass (h : Cleared mounted gates tr) (hgate : isGate x.1) (hx : ¬Touches x.1) :
    Cleared mounted (gates++[x]) (tr++[x]) where
  untouched := List.forall_mem_append.mpr ⟨h.untouched,by simpa using hx⟩
  gates hs := by simp [gatesOf,hgate,←h.gates hs.of_append]

lemma Cleared.skip (h : Cleared mounted gates tr) (hgate : isGate x.1=false) (hx : ¬Touches x.1) :
    Cleared mounted gates (tr++[x]) where
  untouched := List.forall_mem_append.mpr ⟨h.untouched,by simpa using hx⟩
  gates hs := by simp [gatesOf,hgate,←h.gates hs.of_append]

lemma Cleared.settle {f : Bool → Trace} {b : Bool} (h : Cleared mounted (f b) tr)
    (hb : ⟨.hasMountedVolume,b⟩∈tr) : Cleared mounted (f mounted) tr :=
  ⟨h.untouched,fun hs => hs b hb ▸ h.gates hs⟩

lemma follows_refuseLocked {P : Unit → Trace → Prop} {msg : String} (h : Cleared mounted gates tr) :
    Prog.Follows (Admits volumeLetter mounted s₀) (refuseLocked msg) tr (After P) := by
  refine .perform (fun _ => trivial) fun _ => .perform (fun _ => trivial) fun _ => .fail ?_
  exact ((h.skip rfl id).skip rfl id).untouched

section
variable (h : Cleared mounted gates tr)
include h

lemma follows_identity : Prog.Follows (Admits volumeLetter mounted s₀) (identity volumeLetter) tr
      (After fun _ => Cleared mounted (gates++[⟨.verifyVolumeIdentity volumeLetter,.ok ()⟩])) := by
  refine .perform (fun _ => trivial) fun _ => .perform (fun _ => trivial) fun verified => ?_
  have h' := (h.skip (x := ⟨.push .identity,()⟩) rfl id).pass (x := ⟨_,verified⟩) rfl id
  cases verified with
  | error e => exact .fail h'.untouched
  | ok => exact .ok h'

lemma follows_gateA : Prog.Follows (Admits volumeLetter mounted s₀) gateA tr
      (After fun _ => Cleared mounted (gates++[⟨.activePagefiles,.ok []⟩])) := by
  refine .perform (fun _ => trivial) fun _ => .perform (fun _ => trivial) fun pagefiles => ?_
  have h' := (h.skip (x := ⟨.push .gateA,()⟩) rfl id).pass (x := ⟨_,pagefiles⟩) rfl id
  rcases pagefiles with e | (_ | ⟨pagefile,pagefiles⟩)
  · exact .fail h'.untouched
  · exact .ok h'
  · exact .perform (fun _ => trivial) fun _ => .fail (h'.skip rfl id).untouched

lemma follows_volumeLock : Prog.Follows (Admits volumeLetter mounted s₀) (volumeLock volumeLetter) tr
      (After fun _ => Cleared mounted (gates++lockGate volumeLetter mounted)) := by
  refine .perform (fun _ => trivial) fun found => ?_
  have h' := h.skip (x := ⟨.hasMountedVolume,found⟩) rfl id
  cases found with
  | false => exact .ok (.settle (f := fun b => gates++lockGate volumeLetter b) (b := false)
      (by rwa [lockGate,if_neg Bool.false_ne_true,List.append_nil]) (by simp))
  | true =>
    refine .perform (fun _ => trivial) fun _ => .perform (fun _ => trivial) fun locked => ?_
    have h'' := (h'.skip (x := ⟨.push .volumeLock,()⟩) rfl id).pass (x := ⟨_,locked⟩) rfl id
    cases locked with
    | error e => exact .perform (fun _ => trivial) fun _ => .fail (h''.skip rfl id).untouched
    | ok =>
      exact .ok (.settle (f := fun b => gates++lockGate volumeLetter b) (b := true) h'' (by simp))

lemma follows_gateB : Prog.Follows (Admits volumeLetter mounted s₀) gateB tr
      (After fun _ => Cleared mounted (gates++[⟨.activePagefiles,.ok []⟩])) := by
  refine .perform (fun _ => trivial) fun _ => .perform (fun _ => trivial) fun pagefiles => ?_
  have h' := (h.skip (x := ⟨.push .gateB,()⟩) rfl id).pass (x := ⟨_,pagefiles⟩) rfl id
  rcases pagefiles with e | (_ | ⟨pagefile,pagefiles⟩)
  · exact follows_refuseLocked h'
  · exact .ok h'
  · exact follows_refuseLocked h'

lemma follows_flushDismount : Prog.Follows (Admits volumeLetter mounted s₀) flushDismount tr
      (After fun _ => Cleared mounted (gates++flushGate mounted)) := by
  refine .perform (fun _ => trivial) fun found => ?_
  have h' := h.skip (x := ⟨.hasMountedVolume,found⟩) rfl id
  cases found with
  | false => exact .ok (.settle (f := fun b => gates++flushGate b) (b := false)
      (by rwa [flushGate,if_neg Bool.false_ne_true,List.append_nil]) (by simp))
  | true =>
    refine .perform (fun _ => trivial) fun _ => .perform (fun _ => trivial) fun flushed => ?_
    have h'' := (h'.skip (x := ⟨.push .flushDismount,()⟩) rfl id).pass (x := ⟨_,flushed⟩) rfl id
    cases flushed with
    | error e => exact follows_refuseLocked h''
    | ok =>
      exact .ok (.settle (f := fun b => gates++flushGate b) (b := true) h'' (by simp))

end

/-- All gates were passed, and the calls have left the state `s`, still with its lease. -/
structure Opened (volumeLetter : Char) (mounted : Bool) (s₀ s : ServiceState) (tr : Trace) : Prop where
  gates : Steady mounted tr → gatesOf tr = passed volumeLetter mounted
  state : stateAfter s₀ tr=s
  lease : s.lease=s₀.lease

lemma Cleared.opened (h : Cleared mounted (passed volumeLetter mounted) tr) :
    Opened volumeLetter mounted s₀ s₀ tr where
  gates := h.gates
  state := stateAfter_of_untouched h.untouched
  lease := rfl

section
variable (h : Opened volumeLetter mounted s₀ s tr)
include h

lemma Opened.snoc (hgate : isGate x.1=false) (hset : ∀ s', x.1≠.set s') :
    Opened volumeLetter mounted s₀ s (tr++[x]) where
  gates hs := by simpa [gatesOf,hgate] using h.gates hs.of_append
  state := by
    obtain ⟨c,r⟩ := x
    rw [stateAfter_append,h.state]
    cases c with
    | set s' => exact absurd rfl (hset s')
    | _ => rfl
  lease := h.lease

lemma Opened.set {s' : ServiceState} (hs' : s'.lease=s.lease) :
    Opened volumeLetter mounted s₀ s' (tr++[⟨.set s',()⟩]) where
  gates hs := by
    rw [gatesOf,List.filter_append]
    exact (List.append_nil _).trans (h.gates hs.of_append)
  state := by rw [stateAfter_append]; rfl
  lease := hs'.trans h.lease

lemma follows_unregister : Prog.Follows (Admits volumeLetter mounted s₀) (unregister s) tr
      (After fun s' tr' => Opened volumeLetter mounted s₀ s' tr' ∧ s'.registeredQueue=false) := by
  rw [unregister]
  split_ifs with hqueue
  · refine .perform (fun _ => trivial) fun _ => ?_
    have h₁ := h.snoc (x := ⟨.push .unregister,()⟩) rfl nofun
    refine .perform (fun hs => h₁.gates hs) fun unregistered => ?_
    have h₂ := h₁.snoc (x := ⟨.unregisterQueue,unregistered⟩) rfl nofun
    cases unregistered with
    | error e => exact .fail trivial
    | ok =>
      refine .perform (fun _ hlease => .inl (h₂.lease ▸ hlease)) fun _ => .ok ⟨h₂.set rfl,rfl⟩
  · exact .ok ⟨h,by simpa using hqueue⟩

lemma follows_destroy (hqueue : s.registeredQueue=false) :
    Prog.Follows (Admits volumeLetter mounted s₀) (destroy s) tr
      (After fun s' tr' => Opened volumeLetter mounted s₀ s' tr' ∧ s'.registeredQueue=false ∧
        s'.diskCreated=false) := by
  rw [destroy]
  split_ifs with hdisk
  · refine .perform (fun _ => trivial) fun _ => ?_
    have h₁ := h.snoc (x := ⟨.push .destroy,()⟩) rfl nofun
    refine .perform (fun hs => h₁.gates hs) fun destroyed => ?_
    have h₂ := h₁.snoc (x := ⟨.destroyDisk,destroyed⟩) rfl nofun
    cases destroyed with
    | error e => exact .fail trivial
    | ok =>
      refine .perform (fun _ hlease => .inl (h₂.lease ▸ hlease)) fun _ => .ok ⟨h₂.set rfl,hqueue,rfl⟩
  · exact .ok ⟨h,hqueue,by simpa using hdisk⟩

lemma follows_unlock : Prog.Follows (Admits volumeLetter mounted s₀) unlock tr
      (After fun _ => Opened volumeLetter mounted s₀ s) := by
  refine .perform (fun _ => trivial) fun found => ?_
  have h₁ := h.snoc (x := ⟨.hasMountedVolume,found⟩) rfl nofun
  cases found with
  | false => exact .ok h₁
  | true =>
    refine .perform (fun _ => trivial) fun _ => .perform (fun _ => trivial) fun unlocked => ?_
    have h₂ := (h₁.snoc (x := ⟨.push .unlock,()⟩) rfl nofun).snoc (x := ⟨.unlockVolume,unlocked⟩) rfl nofun
    cases unlocked with
    | error e => exact .fail trivial
    | ok => exact .ok h₂

lemma follows_wipe (hqueue : s.registeredQueue=false) (hdisk : s.diskCreated=false) :
    Prog.Follows (Admits volumeLetter mounted s₀) wipe tr (After fun _ tr' => ⟨.zero,.ok ()⟩∈tr') := by
  refine .perform (fun _ => trivial) fun _ => ?_
  have h₁ := h.snoc (x := ⟨.push .wipe,()⟩) rfl nofun
  have hstate := h₁.state
  refine .perform (fun hs => ⟨h₁.gates hs,hstate ▸ hdisk,hstate ▸ hqueue⟩) fun wiped => ?_
  cases wiped with
  | error e => exact .fail trivial
  | ok => exact .ok (List.mem_append_right _ (List.mem_singleton.mpr rfl))

end

lemma follows_release (h : ⟨.zero,.ok ()⟩∈tr) :
    Prog.Follows (Admits volumeLetter mounted s₀) (release s) tr (After fun _ _ => True) := by
  refine .perform (fun _ => trivial) fun _ => .perform (fun _ _ => .inr (by simp [h])) fun _ => ?_
  exact .call (fun _ _ => .inr (by simp [h])) fun _ => .ok trivial

lemma follows_bind {α β : Type} {p : Program α} {f : α → Program β} {P : α → Trace → Prop}
    {P' : β → Trace → Prop} {rule : Trace → Call → Prop} (h : Prog.Follows rule p tr (After P))
    (hf : ∀ a tr, P a tr → Prog.Follows rule (f a) tr (After P')) : Prog.Follows rule (p >>= f) tr (After P') :=
  .bind h hf fun err tr herr => by cases err <;> exact herr

theorem follows_teardownAfterLock (h : Cleared mounted ([⟨.verifyVolumeIdentity volumeLetter,.ok ()⟩] ++
    [⟨.activePagefiles,.ok []⟩]++lockGate volumeLetter mounted) tr) :
    Prog.Follows (Admits volumeLetter mounted s₀) (teardownAfterLock s₀) tr (After fun _ _ => True) := by
  refine follows_bind (follows_gateB h) fun _ _ h => follows_bind (follows_flushDismount h) fun _ _ h => ?_
  refine follows_bind (follows_unregister h.opened) fun s₁ _ h => ?_
  obtain ⟨h,hqueue⟩ := h
  refine follows_bind (follows_destroy h hqueue) fun s₂ _ h => ?_
  obtain ⟨h,hqueue,hdisk⟩ := h
  refine follows_bind (follows_unlock h) fun _ _ h => follows_bind (follows_wipe h hqueue hdisk) fun _ _ h => ?_
  exact follows_release h

end Steps

section Copies
variable {volumeLetter : Char} {mounted : Bool} {s₀ : ServiceState} {tr : Trace}

/-- `teardown_storage_only` up to Gate B. -/
def approach (volumeLetter : Char) : Program Unit := do
  identity volumeLetter
  gateA
  perform (Call.push .drain)
  volumeLock volumeLetter

lemma teardownStorageOnly_eq (volumeLetter : Char) (s : ServiceState) : teardownStorageOnly volumeLetter s =
      if !s.online && !s.diskCreated && !s.registeredQueue then .ok ()
      else approach volumeLetter >>= fun _ => teardownAfterLock s := by
  simp only [approach,Prog.bind_bind]
  rfl

lemma follows_approach (volumeLetter : Char) (mounted : Bool) (s₀ : ServiceState) :
    Prog.Follows (Admits volumeLetter mounted s₀) (approach volumeLetter) []
    (After fun _ => Cleared mounted ([⟨.verifyVolumeIdentity volumeLetter,.ok ()⟩] ++
      [⟨.activePagefiles,.ok []⟩]++lockGate volumeLetter mounted)) := by
  have hstart : Cleared mounted [] [] := ⟨List.forall_mem_nil _,fun _ => rfl⟩
  refine follows_bind (follows_identity hstart) fun _ _ h => follows_bind (follows_gateA h) fun _ _ h => ?_
  exact .perform (fun _ => trivial) fun _ => follows_volumeLock (h.skip rfl id)

theorem follows_teardownStorageOnly (volumeLetter : Char) (mounted : Bool) (s₀ : ServiceState) :
    Prog.Follows (Admits volumeLetter mounted s₀) (teardownStorageOnly volumeLetter s₀) [] (After fun _ _ => True) := by
  rw [teardownStorageOnly_eq]
  split_ifs
  · exact .ok trivial
  · exact follows_bind (follows_approach ..) fun _ _ h => follows_teardownAfterLock h

lemma lease_of_admits (hs : Steady mounted tr)
    (h : ∀ a x b, tr = a++x::b → Admits volumeLetter mounted s₀ a x.1)
    (hlease : (stateAfter s₀ tr).lease=none) : s₀.lease=none ∨ ⟨.zero,.ok ()⟩∈tr := by
  induction tr using List.reverseRecOn with
  | nil => exact .inl hlease
  | append_singleton tr x ih =>
    have hbefore := ih hs.of_append fun a y b htr => h a y (b++[x]) (by rw [htr]; simp)
    have hadmits := h tr x [] rfl hs.of_append
    obtain ⟨c,r⟩ := x
    rw [stateAfter_append] at hlease
    cases c with
    | set s => exact (hadmits hlease).imp_right (List.mem_append_left _)
    | _ => exact (hbefore hlease).imp_right (List.mem_append_left _)

def OffGateB (c : Call) : Prop := c≠.push .gateB

lemma within_perform {α : Type} {c : Call} {f : c.Reply → Program α} {P : α → Prop} (hc : OffGateB c)
    (h : ∀ r, (f r).Within OffGateB P) : (perform c >>= f).Within OffGateB P := ⟨hc,h⟩

lemma within_demand {kind : String → ProvisionError} {x : Except String Unit} :
    (demand kind x).Within OffGateB fun _ => True := .ofExcept fun _ _ => trivial

lemma refuseLocked_offGateB {msg : String} : (refuseLocked msg).Within OffGateB fun _ => True :=
  within_perform nofun fun _ => within_perform nofun fun _ => trivial

lemma approach_offGateB : (approach volumeLetter).Within OffGateB fun _ => True := by
  refine .bind (within_perform nofun fun _ => within_perform nofun fun _ => within_demand) fun _ _ => ?_
  refine .bind (P := fun _ => True) (within_perform nofun fun _ => within_perform nofun fun pagefiles => ?_)
    fun _ _ => within_perform nofun fun _ => within_perform nofun fun found => ?_
  · rcases pagefiles with e | (_ | ⟨pagefile,pagefiles⟩)
    · trivial
    · trivial
    · exact within_perform nofun fun _ => trivial
  · cases found with
    | false => trivial
    | true =>
      refine within_perform nofun fun _ => within_perform nofun fun locked => ?_
      cases locked with
      | ok => trivial
      | error e => exact within_perform nofun fun _ => trivial

lemma flushDismount_offGateB : flushDismount.Within OffGateB fun _ => True := by
  refine within_perform nofun fun found => ?_
  cases found with
  | false => trivial
  | true =>
    refine within_perform nofun fun _ => within_perform nofun fun flushed => ?_
    cases flushed with
    | ok => trivial
    | error e => exact refuseLocked_offGateB

def dismantle : Program Unit := do
  let s ← unregister s
  let s ← destroy s
  unlock
  wipe
  release s

lemma dismantle_offGateB : (dismantle s).Within OffGateB fun _ => True := by
  refine .bind (P := fun _ => True) ?_ fun s _ => .bind (P := fun _ => True) ?_ fun s _ =>
    .bind (P := fun _ => True) (within_perform nofun fun found => ?_) fun _ _ => ?_
  · rw [unregister]
    split_ifs
    · exact within_perform nofun fun _ => within_perform nofun fun _ => .bind within_demand fun _ _ =>
        within_perform nofun fun _ => trivial
    · trivial
  · rw [destroy]
    split_ifs
    · exact within_perform nofun fun _ => within_perform nofun fun _ => .bind within_demand fun _ _ =>
        within_perform nofun fun _ => trivial
    · trivial
  · cases found with
    | false => trivial
    | true => exact within_perform nofun fun _ => within_perform nofun fun _ => within_demand
  · refine .bind (within_perform nofun fun _ => within_perform nofun fun _ => within_demand) fun _ _ => ?_
    exact within_perform nofun fun _ => within_perform nofun fun _ => ⟨nofun,fun _ => trivial⟩

variable {r : Except ProvisionError Unit}

lemma gateB_runs (h : gateB.Runs tr r) : ∃ rest, tr = ⟨.push .gateB,()⟩::rest ∧ ∀ x∈rest, OffGateB x.1 := by
  obtain ⟨⟨⟩,rest,rfl,h⟩ := h
  refine ⟨rest,rfl,(Prog.Runs.within (P := fun _ => True) h (within_perform nofun fun pagefiles => ?_)).1⟩
  rcases pagefiles with e | (_ | ⟨pagefile,pagefiles⟩)
  · exact refuseLocked_offGateB
  · trivial
  · exact refuseLocked_offGateB

lemma teardownAfterLock_runs {s : ServiceState} (h : (teardownAfterLock s).Runs tr r) :
    ∃ rest, tr = ⟨.push .gateB,()⟩::rest ∧ ∀ x∈rest, OffGateB x.1 := by
  rcases h.bind with ⟨err,h,-⟩ | ⟨⟨⟩,t₁,t₂,rfl,h₁,h₂⟩
  · exact gateB_runs h
  · obtain ⟨rest,rfl,hrest⟩ := gateB_runs h₁
    have hwithin : (do flushDismount; dismantle s).Within OffGateB fun _ => True :=
      .bind flushDismount_offGateB fun _ _ => dismantle_offGateB s
    exact ⟨rest++t₂,rfl,List.forall_mem_append.mpr ⟨hrest,(h₂.within hwithin).1⟩⟩

lemma eq_of_gateB {a b t rest : Trace} (h : a++⟨.push .gateB,()⟩::b = t++⟨.push .gateB,()⟩::rest)
    (ht : ∀ x∈t, OffGateB x.1) (hrest : ∀ x∈rest, OffGateB x.1) : a=t := by
  rcases List.append_eq_append_iff.mp h with ⟨c,rfl,hc⟩ | ⟨c,rfl,hc⟩
  · cases c with
    | nil => simp
    | cons x c =>
      obtain ⟨rfl,-⟩ := List.cons.inj hc
      exact absurd rfl (ht ⟨.push .gateB,()⟩ (by simp))
  · cases c with
    | nil => simp
    | cons x c =>
      obtain ⟨-,rfl⟩ := List.cons.inj hc
      exact absurd rfl (hrest ⟨.push .gateB,()⟩ (by simp))

lemma eval_teardownAfterLock {answers : ℕ → ∀ c : Call, c.Reply}
    (h : Prog.eval Prog.record (teardownStorageOnly volumeLetter s₀) answers [] = (r,tr))
    {a b : Trace} (hgate : tr = a++⟨.push .gateB,()⟩::b) :
    Prog.eval Prog.record (teardownAfterLock (stateAfter s₀ a)) (fun n => answers (n+a.length)) a = (r,tr) := by
  rw [teardownStorageOnly_eq] at h
  split_ifs at h
  · obtain ⟨-,rfl⟩ := Prod.mk.inj h
    simp at hgate
  · obtain ⟨t,ht,hruns⟩ := Prog.runs_eval (p := approach volumeLetter) answers []
    rw [List.nil_append] at ht
    have hoff := (hruns.within approach_offGateB).1
    have hafter := (follows_approach volumeLetter true s₀).eval answers
    rcases hr : Prog.eval Prog.record (approach volumeLetter) answers [] with ⟨err | ⟨⟩,t'⟩
    · obtain rfl : t'=t := by rw [←ht,hr]
      obtain ⟨-,rfl⟩ := Prod.mk.inj ((Prog.eval_bind_error hr).symm.trans h)
      exact absurd rfl (hoff ⟨.push .gateB,()⟩ (by simp [hgate]))
    · obtain rfl : t'=t := by rw [←ht,hr]
      rw [Prog.eval_record_bind (t := t') hr,List.nil_append] at h
      obtain ⟨t₂,ht₂,hruns₂⟩ := Prog.runs_eval (p := teardownAfterLock s₀)
        (fun n => answers (n+t'.length)) t'
      obtain ⟨rest,rfl,hrest⟩ := teardownAfterLock_runs hruns₂
      rw [h,hgate] at ht₂
      obtain rfl := eq_of_gateB ht₂ hoff hrest
      rw [hr] at hafter
      rw [stateAfter_of_untouched hafter.untouched]
      exact h

/-- The answers, with a `has_mounted_volume` that does not change. -/
def steadily (mounted : Bool) (answers : ℕ → ∀ c : Call, c.Reply) (n : ℕ) : ∀ c : Call, c.Reply
  | .hasMountedVolume => mounted
  | c => answers n c

lemma steady_eval (mounted : Bool) (answers : ℕ → ∀ c : Call, c.Reply) (p : Program Unit) :
    Steady mounted (Prog.eval Prog.record p (steadily mounted answers) []).2 := by
  intro b hb
  rcases Prog.mem_eval_record hb with hb | ⟨n,hb⟩
  · cases hb
  · exact hb

/-- A run of `teardown_storage_only` and its outcome. -/
structure SafeTeardown (volumeLetter : Char) (mounted : Bool) (s₀ : ServiceState)
    (answers : ℕ → ∀ c : Call, c.Reply) (r : Except ProvisionError Unit) (tr : Trace) : Prop where
  /-- Before anything is destroyed exactly the gates were asked, and all were passed. -/
  frontier : ∀ a x b, tr = a++x::b → x.1=.unregisterQueue ∨ x.1=.destroyDisk ∨ x.1=.zero →
    gatesOf a = passed volumeLetter mounted
  wiped : ∀ a out b, tr = a++⟨.zero,out⟩::b →
    (stateAfter s₀ a).diskCreated=false ∧ (stateAfter s₀ a).registeredQueue=false
  lease : ∀ a b, tr = a++b → (stateAfter s₀ a).lease=none → s₀.lease=none ∨ ⟨.zero,.ok ()⟩∈a
  refused : ∀ msg, r=.error (.pagefileSafety msg) → stateAfter s₀ tr=s₀ ∧ Untouched tr
  copies : ∀ a b, tr = a++⟨.push .gateB,()⟩::b →
    Prog.eval Prog.record (teardownAfterLock (stateAfter s₀ a)) (fun n => answers (n+a.length)) a = (r,tr)

theorem teardown_safe (volumeLetter : Char) (mounted : Bool) (s₀ : ServiceState)
    (answers : ℕ → ∀ c : Call, c.Reply) :
    SafeTeardown volumeLetter mounted s₀ (steadily mounted answers)
      (Prog.eval Prog.record (teardownStorageOnly volumeLetter s₀) (steadily mounted answers) []).1
      (Prog.eval Prog.record (teardownStorageOnly volumeLetter s₀) (steadily mounted answers) []).2 := by
  generalize hrun : Prog.eval Prog.record (teardownStorageOnly volumeLetter s₀) (steadily mounted answers) []
    = run
  obtain ⟨r,tr⟩ := run
  change SafeTeardown volumeLetter mounted s₀ (steadily mounted answers) r tr
  have hfollows := follows_teardownStorageOnly volumeLetter mounted s₀
  have hsteady : Steady mounted tr := by
    have h := steady_eval mounted answers (teardownStorageOnly volumeLetter s₀)
    rwa [hrun] at h
  have hadmits : ∀ a x b, tr = a++x::b → Admits volumeLetter mounted s₀ a x.1 := by
    obtain ⟨t,ht,hruns⟩ := Prog.runs_eval (p := teardownStorageOnly volumeLetter s₀)
      (steadily mounted answers) []
    rw [hrun,List.nil_append] at ht
    subst ht
    exact fun a x b h => hfollows.runs hruns h
  refine ⟨fun a x b h hx => ?_,fun a out b h => ?_,fun a b h => ?_,fun msg hr => ?_,
    fun a b h => eval_teardownAfterLock hrun h⟩
  · have hx' := hadmits a x b h (h ▸ hsteady).of_append
    obtain ⟨c,out⟩ := x
    rcases hx with rfl | rfl | rfl
    · exact hx'
    · exact hx'
    · exact hx'.1
  · exact (hadmits a _ b h (h ▸ hsteady).of_append).2
  · subst h
    exact lease_of_admits hsteady.of_append fun a' x b' ha => hadmits a' x (b'++b) (by rw [ha]; simp)
  · have hafter := hfollows.eval (steadily mounted answers)
    rw [hrun] at hafter
    subst hr
    exact ⟨stateAfter_of_untouched hafter,hafter⟩

end Copies

end RamShared.Winsvc

import RamShared.Nbd.Daemon

/-! When the daemon frees its backend: what it then knows about the device, told by the history of
the two kinds of child. -/
namespace RamShared.Nbd
open Lib

variable (es : List DaemonEvent)

/-- A `swapoff` was confirmed after the last recovery `swapon` was launched. -/
def confirmedSinceSwapon : Bool :=
  es.foldl (fun known e =>
    match e with
    | .swapon => false
    | .swapoffConfirmed => true
    | _ => known) false

/-- The recovery `swapon` that was launched last was reported as failed, or its thread vanished. -/
def lastSwaponFailed : Bool :=
  es.foldl (fun failed e =>
    match e with
    | .swapon => false
    | .swaponReported ok => !ok
    | _ => failed) false

def lastUsedKb : Option ℕ :=
  es.foldl (fun last e =>
    match e with
    | .usedKb kb => some kb
    | _ => last) none

def lastExplicitlyAbsent : Option Bool :=
  es.foldl (fun last e =>
    match e with
    | .explicitlyAbsent absent => some absent
    | _ => last) none

/-- The device showed no use, and either it was seen absent or a `swapoff` was confirmed that no
later `swapon` can have undone. -/
def OutOfUse : Prop :=
  lastUsedKb es=some 0 ∧ (lastExplicitlyAbsent es=some true ∨ confirmedSinceSwapon es=true)

instance : Decidable (OutOfUse es) :=
  inferInstanceAs (Decidable (lastUsedKb es=some 0 ∧
    (lastExplicitlyAbsent es=some true ∨ confirmedSinceSwapon es=true)))

/-- Where the tier stands: in use or unknown, parked by a confirmed `swapoff`, with a recovery
pending, or left by a failed recovery. -/
inductive Tier
  | up
  | parked
  | recovering
  | failed
  deriving DecidableEq, Repr

section
variable (es : List DaemonEvent) (e : DaemonEvent)

@[simp] lemma confirmedSinceSwapon_concat : confirmedSinceSwapon (es++[e]) =
    match e with
    | .swapon => false
    | .swapoffConfirmed => true
    | _ => confirmedSinceSwapon es := by
  simp [confirmedSinceSwapon]

@[simp] lemma lastSwaponFailed_concat : lastSwaponFailed (es++[e]) =
    match e with
    | .swapon => false
    | .swaponReported ok => !ok
    | _ => lastSwaponFailed es := by
  simp [lastSwaponFailed]

@[simp] lemma lastUsedKb_concat : lastUsedKb (es++[e]) =
    match e with
    | .usedKb kb => some kb
    | _ => lastUsedKb es := by
  simp [lastUsedKb]

@[simp] lemma lastExplicitlyAbsent_concat : lastExplicitlyAbsent (es++[e]) =
    match e with
    | .explicitlyAbsent absent => some absent
    | _ => lastExplicitlyAbsent es := by
  simp [lastExplicitlyAbsent]

end

namespace NbdDaemon

def flags (d : NbdDaemon) : Bool × Bool × Bool × Bool × DaemonPhase × Bool × Bool :=
  (d.swapoffConfirmed,d.recoveryActivation.resultRx,d.demoteRx,d.demoted,d.phase,
    d.recoveryActivation.shutdownRequested,d.shutdownRequested)

/-- The flags of the daemon against its history. -/
structure Tracks (d : NbdDaemon) (es : List DaemonEvent) (tier : Tier) : Prop where
  confirmed : d.swapoffConfirmed = decide (tier≠.up)
  since : confirmedSinceSwapon es = decide (tier=.parked)
  failed : lastSwaponFailed es = decide (tier=.failed)
  pending : d.recoveryActivation.resultRx = decide (tier=.recovering)
  quiet : tier≠.up → d.demoteRx=false
  demoted : d.phase=.serving → d.demoted = decide (tier≠.up)
  shutdown : d.shutdownRequested=true → d.recoveryActivation.shutdownRequested=true
  kept : DaemonEvent.freeAllLive∉es

def Stays (x : NbdDaemon × List DaemonEvent) : Prop :=
  ∃ tier, Tracks x.1 (es++x.2) tier ∧ x.1.phase=.serving

/-- An iteration ends inside the loop, or leaves it without a recovery child. -/
def Ends (x : NbdDaemon × List DaemonEvent) : Prop :=
  ∃ tier, Tracks x.1 (es++x.2) tier ∧
    (x.1.phase=.serving ∨ x.1.phase=.leaving ∧ tier≠.recovering)

variable {d : NbdDaemon} {es : List DaemonEvent} {tier : Tier}
variable {x : NbdDaemon × List DaemonEvent}

lemma Stays.ends (h : Stays es x) : Ends es x := by
  obtain ⟨tier,ht,hp⟩ := h
  exact ⟨tier,ht,.inl hp⟩

variable {f : NbdDaemon → NbdDaemon × List DaemonEvent} (child : ChildPoll) (t : Tick)

lemma stays_andThen (h : Stays (es++x.2) (f x.1)) : Stays es (andThen x f) := by
  simpa only [Stays,andThen,List.append_assoc] using h

lemma Stays.andThen (h : Stays es x)
    (hf : ∀ {d es tier}, Tracks d es tier → d.phase=.serving → Stays es (f d)) : Stays es (andThen x f) := by
  obtain ⟨tier,ht,hp⟩ := h
  exact stays_andThen (hf ht hp)

lemma Stays.andThen_ends (h : Stays es x)
    (hf : ∀ {d es tier}, Tracks d es tier → d.phase=.serving → Ends es (f d)) :
    Ends es (NbdDaemon.andThen x f) := by
  obtain ⟨tier,ht,hp⟩ := h
  obtain ⟨tier',ht',hp'⟩ := hf ht hp
  rw [List.append_assoc] at ht'
  exact ⟨tier',ht',hp'⟩

section
variable (h : Tracks d es tier)
include h

lemma Tracks.congr {d' : NbdDaemon} (hf : d'.flags=d.flags) : Tracks d' es tier := by
  simp only [flags,Prod.mk.injEq] at hf
  obtain ⟨h₁,h₂,h₃,h₄,h₅,h₆,h₇⟩ := hf
  refine ⟨h₁.trans h.confirmed,h.since,h.failed,h₂.trans h.pending,fun ht => h₃.trans (h.quiet ht),
    fun hp => ?_,fun hs => ?_,h.kept⟩
  · exact h₄.trans (h.demoted (h₅ ▸ hp))
  · exact h₆.trans (h.shutdown (h₇ ▸ hs))

lemma Tracks.stays (hp : d.phase=.serving) {d' : NbdDaemon} (hf : d'.flags=d.flags) : Stays es (d',[]) := by
  have hphase : d'.phase=d.phase := congrArg (fun x => x.2.2.2.2.1) hf
  refine ⟨tier,?_,hphase.trans hp⟩
  rw [List.append_nil]
  exact h.congr hf

lemma Tracks.eq_up (hp : d.phase=.serving) (hd : d.demoted=false) : tier=.up := by
  have hdem := h.demoted hp
  rw [hd] at hdem
  simpa using hdem.symm

lemma Tracks.eq_up_of_demoteRx (hrx : d.demoteRx=true) : tier=.up := by
  by_contra hne
  rw [h.quiet hne] at hrx
  cases hrx

end

lemma stays_launchSwapoff (h : Tracks d es .up) (hp : d.phase=.serving) : Stays es d.launchSwapoff := by
  refine ⟨.up,⟨h.confirmed,?_,?_,h.pending,fun hne => absurd rfl hne,h.demoted,h.shutdown,?_⟩,hp⟩
  · simpa [launchSwapoff] using h.since
  · simpa [launchSwapoff] using h.failed
  · simpa [launchSwapoff] using h.kept

lemma stays_demoteWhen (trigger : Bool) (h : Tracks d es tier) (hp : d.phase=.serving) :
    Stays es (d.demoteWhen trigger) := by
  unfold demoteWhen
  split_ifs with ht
  · obtain rfl := h.eq_up hp ht.2.1
    exact stays_launchSwapoff h hp
  · exact h.stays hp rfl

lemma stays_pollDemote (h : Tracks d es tier) (hp : d.phase=.serving) : Stays es (d.pollDemote child) := by
  unfold pollDemote
  split_ifs with hrx
  · obtain rfl := h.eq_up_of_demoteRx hrx
    have dropped : Stays es ({d with demoteRx := false},[]) := by
      refine ⟨.up,?_,hp⟩
      rw [List.append_nil]
      exact ⟨h.confirmed,h.since,h.failed,h.pending,fun hne => absurd rfl hne,h.demoted,h.shutdown,
        h.kept⟩
    cases child with
    | empty => exact h.stays hp rfl
    | disconnected => exact dropped
    | sent ok =>
      cases ok with
      | false => exact dropped
      | true =>
        refine ⟨.parked,⟨rfl,?_,?_,?_,fun _ => rfl,fun _ => rfl,h.shutdown,?_⟩,hp⟩
        · simp
        · simpa using h.failed
        · simpa using h.pending
        · simpa using h.kept
  · exact h.stays hp rfl

lemma stays_pollDemoteAgain (h : Tracks d es tier) (hp : d.phase=.serving) :
    Stays es (d.pollDemoteAgain child) := by
  unfold pollDemoteAgain
  split_ifs
  · exact stays_pollDemote child (h.congr rfl) hp
  · exact stays_pollDemote child h hp

lemma stays_activationFailed (h : Tracks d es .recovering) (hp : d.phase=.serving) :
    Stays es
      ({ d with
          recoveryActivation := {d.recoveryActivation with resultRx := false, failedEpoch := true}
          recovery := d.recovery.reset},
        [.swaponReported false]) := by
  refine ⟨.failed,⟨?_,?_,?_,rfl,fun _ => h.quiet (by simp),fun _ => ?_,h.shutdown,?_⟩,hp⟩
  · simpa using h.confirmed
  · simpa using h.since
  · simp
  · simpa using h.demoted hp
  · simpa using h.kept

lemma tracks_activationSucceeded (h : Tracks d es .recovering) :
    Tracks
      { d with
        recoveryActivation := {d.recoveryActivation with resultRx := false, failedEpoch := false}
        demoted := false, swapoffAttempted := false, swapoffConfirmed := false
        recovery := d.recovery.reset}
      (es++[.swaponReported true]) .up := by
  refine ⟨rfl,?_,?_,rfl,fun hne => absurd rfl hne,fun _ => rfl,h.shutdown,?_⟩
  · simpa using h.since
  · simp
  · simpa using h.kept

lemma stays_pollActivation (h : Tracks d es tier) (hp : d.phase=.serving) :
    Stays es (d.pollActivation child) := by
  unfold pollActivation RecoveryActivation.poll
  by_cases hrx : d.recoveryActivation.resultRx=true
  · obtain rfl : tier=.recovering := by
      have hpend := h.pending
      rw [hrx] at hpend
      simpa using hpend.symm
    have hfailed := stays_activationFailed h hp
    rw [if_pos hrx]
    cases child with
    | empty => exact h.stays hp rfl
    | disconnected => exact hfailed
    | sent ok =>
      cases ok with
      | false => exact hfailed
      | true =>
        have hup := tracks_activationSucceeded h
        refine stays_andThen ?_
        dsimp only
        split_ifs
        · exact stays_launchSwapoff hup hp
        · exact hup.stays hp rfl
  · rw [if_neg hrx]
    exact h.stays hp rfl

lemma stays_countIoErrors (touchesVram : Bool) (replyErrno : UInt32) (h : Tracks d es tier)
    (hp : d.phase=.serving) : Stays es (d.countIoErrors touchesVram replyErrno) := by
  unfold countIoErrors
  split_ifs
  · exact stays_demoteWhen _ (h.congr rfl) hp
  · exact h.stays hp rfl
  · exact h.stays hp rfl

lemma stays_checkBudgetRefuses (budgetRefuses : ℕ) (h : Tracks d es tier)
    (hp : d.phase=.serving) : Stays es (d.checkBudgetRefuses budgetRefuses) := by
  unfold checkBudgetRefuses
  split_ifs
  · exact stays_demoteWhen _ (h.congr rfl) hp
  · exact h.stays hp rfl

lemma stays_launchRecovery (spawned : Bool) (h : Tracks d es tier) (hp : d.phase=.serving)
    (ht : tier≠.up) (hrx : d.recoveryActivation.resultRx=false)
    (hepoch : d.recoveryActivation.failedEpoch=false) : Stays es (d.launchRecovery spawned) := by
  have hstart : d.recoveryActivation.start=.ok {d.recoveryActivation with resultRx := true} := by
    simp [RecoveryActivation.start,hrx,hepoch]
  unfold launchRecovery
  rw [hstart]
  cases spawned with
  | false => exact h.stays hp rfl
  | true =>
    refine ⟨.recovering,⟨?_,?_,?_,rfl,fun _ => h.quiet ht,fun _ => ?_,h.shutdown,?_⟩,hp⟩
    · simpa [ht] using h.confirmed
    · simp
    · simp
    · simpa [ht] using h.demoted hp
    · simpa using h.kept

section
variable (h : Tracks d es tier)
include h

section
variable (hp : d.phase=.serving)
include hp

lemma stays_pollBudget : Stays es (d.pollBudget t) := by
  unfold pollBudget
  split_ifs with hdxg hdown hparked
  · exact h.stays hp rfl
  · obtain rfl := h.eq_up hp hdown.1
    exact stays_launchSwapoff h hp
  · have ht : tier≠.up := by
      have hdem := h.demoted hp
      rw [hparked.1] at hdem
      simpa using hdem.symm
    have hsame : ∀ healthy tierEmpty recovery,
        { d with
          recovery := recovery
          recoveryActivation := (d.recoveryActivation.launchAllowed healthy tierEmpty).2}.flags =
          d.flags := by
      intro healthy tierEmpty recovery
      simp [flags]
    dsimp only
    split_ifs with hready
    · obtain ⟨hrx,hepoch⟩ := RecoveryActivation.launchAllowed_idle hready.2.2
      exact stays_launchRecovery _ (h.congr (hsame _ _ _)) hp ht hrx hepoch
    · exact h.stays hp (hsame _ _ _)
  · exact h.stays hp rfl

lemma stays_housekeep : Stays es (d.housekeep t) := by
  have observed : ∀ {d es tier}, Tracks d es tier → d.phase=.serving →
      Stays es (d,[.usedKb t.usedKb]) := by
    intro d es tier h hp
    refine ⟨tier,⟨h.confirmed,?_,?_,h.pending,h.quiet,h.demoted,h.shutdown,?_⟩,hp⟩
    · simpa using h.since
    · simpa using h.failed
    · simpa using h.kept
  exact (((stays_pollDemoteAgain _ h hp).andThen observed).andThen (stays_demoteWhen _)).andThen
    (stays_pollBudget t)

lemma stays_afterMessage : Stays es (d.afterMessage t) :=
  (stays_checkBudgetRefuses _ h hp).andThen (stays_housekeep t)

end

lemma ends_leaveLoop (hs : d.shutdownRequested=true)
    (ha : d.recoveryActivation.backendReleaseAllowed=true) : Ends es d.leaveLoop := by
  have hrx : d.recoveryActivation.resultRx=false := by
    simpa [RecoveryActivation.backendReleaseAllowed,h.shutdown hs] using ha
  have ht : tier≠.recovering := by
    have hpend := h.pending
    rw [hrx] at hpend
    simpa using hpend
  refine ⟨tier,?_,.inr ⟨rfl,ht⟩⟩
  simp only [leaveLoop,List.append_nil]
  exact ⟨h.confirmed,h.since,h.failed,h.pending,h.quiet,nofun,h.shutdown,h.kept⟩

lemma tracks_requestShutdown : Tracks d.requestShutdown es tier :=
  ⟨h.confirmed,h.since,h.failed,h.pending,h.quiet,h.demoted,fun _ => rfl,h.kept⟩

end

lemma ends_handleMsg (m : WMsg) (h : Tracks d es tier) (hp : d.phase=.serving) : Ends es (d.handleMsg t m) := by
  have counted : ∀ live, Tracks {d with live := live} es tier := fun _ => h.congr rfl
  cases m with
  | opened => exact (stays_afterMessage t (counted d.live.onOpen) hp).ends
  | closed =>
    simp only [handleMsg]
    split_ifs
    · exact ((counted d.live.onClose.2).stays hp rfl).ends
    · exact (stays_afterMessage t (counted d.live.onClose.2) hp).ends
  | shutdown =>
    have hr := tracks_requestShutdown h
    simp only [handleMsg]
    split_ifs with ha
    · exact ends_leaveLoop hr rfl ha
    · exact (hr.stays hp rfl).ends
  | job touchesVram replyErrno verdict =>
    exact (((stays_countIoErrors touchesVram replyErrno h hp).andThen
      (stays_demoteWhen _)).andThen (stays_afterMessage t)).ends
  | zeroExport => exact (stays_afterMessage t h hp).ends

lemma ends_receive (h : Tracks d es tier) (hp : d.phase=.serving) : Ends es (d.receive t) := by
  have hr := tracks_requestShutdown h
  unfold receive
  cases t.received with
  | msg m => exact ends_handleMsg t m h hp
  | timeout =>
    dsimp only
    split_ifs
    · exact (h.stays hp rfl).ends
    · exact (stays_housekeep t h hp).ends
  | disconnected =>
    dsimp only
    split_ifs with ha
    · exact ends_leaveLoop hr rfl ha
    · exact (hr.stays hp rfl).ends
    · exact (stays_housekeep t hr hp).ends

lemma ends_serveOnce (h : Tracks d es tier) (hp : d.phase=.serving) : Ends es (d.serveOnce t) := by
  have hsig : Tracks
      (if t.signal=true ∧ d.shutdownRequested=false then d.requestShutdown else d) es tier ∧
      (if t.signal=true ∧ d.shutdownRequested=false then d.requestShutdown else d).phase =
        .serving := by
    split_ifs
    · exact ⟨tracks_requestShutdown h,hp⟩
    · exact ⟨h,hp⟩
  refine Stays.andThen_ends ((stays_pollActivation _ hsig.1 hsig.2).andThen (stays_pollDemote _)) ?_
  intro d es tier h hp
  split_ifs with hl
  · exact ends_leaveLoop h hl.1 hl.2.1
  · exact ends_receive t h hp

/-- What is known about the device in each phase before the release. -/
def Teardown (es : List DaemonEvent) (tier : Tier) (demoteRx : Bool) : DaemonPhase → Prop
  | .serving => True
  | .leaving => tier≠.recovering
  | .releasing usedKb explicitlyAbsent =>
    tier≠.recovering ∧ demoteRx=false ∧ lastUsedKb es=some usedKb ∧
      lastExplicitlyAbsent es=some explicitlyAbsent
  | .freed => False

def Verdict (before : List DaemonEvent) : Prop :=
  DaemonEvent.freeAllLive∉before ∧
    (OutOfUse before ↔ lastExplicitlyAbsent before=some true ∨ lastSwaponFailed before=false)

def Explains (es : List DaemonEvent) (d : NbdDaemon) : Prop :=
  (∃ tier, Tracks d es tier ∧ Teardown es tier d.demoteRx d.phase) ∨
    d.phase=.freed ∧ ∃ before, es = before++[.freeAllLive] ∧ Verdict before

lemma Ends.explains (h : Ends es x) : Explains (es++x.2) x.1 := by
  obtain ⟨tier,ht,hp | ⟨hp,hne⟩⟩ := h
  · exact .inl ⟨tier,ht,by simp [hp,Teardown]⟩
  · exact .inl ⟨tier,ht,by simp [hp,Teardown,hne]⟩

lemma explains_observed {d : NbdDaemon} (usedKb : ℕ) (explicitlyAbsent : Bool)
    (h : Tracks d es tier) (ht : tier≠.recovering) (hrx : d.demoteRx=false)
    (hp : d.phase=.releasing usedKb explicitlyAbsent) :
    Explains (es++[.usedKb usedKb,.explicitlyAbsent explicitlyAbsent]) d := by
  rw [List.append_cons]
  refine .inl ⟨tier,⟨h.confirmed,?_,?_,h.pending,h.quiet,?_,h.shutdown,?_⟩,?_⟩
  · simpa only [confirmedSinceSwapon_concat] using h.since
  · simpa only [lastSwaponFailed_concat] using h.failed
  · simp [hp]
  · simpa using h.kept
  · rw [hp]
    exact ⟨ht,hrx,by simp only [lastUsedKb_concat],by simp only [lastExplicitlyAbsent_concat]⟩

lemma explains_leave (demote : Option Bool) (usedKb : ℕ) (explicitlyAbsent : Bool)
    (h : Tracks d es tier) (ht : tier≠.recovering) : Explains (es++(d.leave demote usedKb explicitlyAbsent).2)
      (d.leave demote usedKb explicitlyAbsent).1 := by
  unfold leave
  dsimp only
  rw [←List.append_assoc]
  by_cases hc : (d.demoteRx && demote == some true)=true
  · have hrx : d.demoteRx=true := by
      simp only [Bool.and_eq_true] at hc
      exact hc.1
    obtain rfl := h.eq_up_of_demoteRx hrx
    refine explains_observed usedKb explicitlyAbsent (?_ : Tracks _ _ .parked) (by simp) rfl rfl
    rw [hc,if_pos rfl]
    refine ⟨by simp,by simp,?_,?_,fun _ => rfl,nofun,fun _ => rfl,?_⟩
    · simpa using h.failed
    · exact h.pending
    · simpa using h.kept
  · refine explains_observed usedKb explicitlyAbsent ?_ ht rfl rfl
    rw [if_neg hc,List.append_nil]
    exact ⟨by simpa [hc] using h.confirmed,h.since,h.failed,h.pending,fun _ => rfl,nofun,fun _ => rfl,
      h.kept⟩

lemma tracks_retried (swapoff : Option Bool) (phase : DaemonPhase) (hphase : phase≠.serving)
    (h : Tracks d es tier) (ht : tier≠.recovering) (hrx : d.demoteRx=false) :
    ∃ tier', tier'≠.recovering ∧
      Tracks
        { d with
          swapoffAttempted := true
          swapoffConfirmed := d.swapoffConfirmed || (!d.swapoffConfirmed && swapoff == some true)
          phase := phase}
        (es++((if d.swapoffConfirmed then [] else [.swapoff]) ++
          (if !d.swapoffConfirmed && swapoff == some true then [.swapoffConfirmed] else []))) tier' := by
  by_cases hconf : d.swapoffConfirmed=true
  · refine ⟨tier,ht,?_⟩
    simp only [hconf,Bool.not_true,Bool.false_and,Bool.or_false,if_true,Bool.false_eq_true,if_false,
      List.append_nil]
    exact ⟨hconf.symm.trans h.confirmed,h.since,h.failed,h.pending,h.quiet,fun hp => absurd hp hphase,
      h.shutdown,h.kept⟩
  · rw [Bool.not_eq_true] at hconf
    have hup : tier=.up := by
      have hconf' := h.confirmed
      rw [hconf] at hconf'
      simpa using hconf'.symm
    subst hup
    by_cases hok : swapoff=some true
    · refine ⟨.parked,by simp,?_⟩
      rw [hconf,hok,←List.append_assoc]
      refine ⟨rfl,?_,?_,?_,fun _ => hrx,fun hp => absurd hp hphase,h.shutdown,?_⟩
      · exact confirmedSinceSwapon_concat _ _
      · exact (lastSwaponFailed_concat _ _).trans ((lastSwaponFailed_concat _ _).trans h.failed)
      · exact h.pending
      · simpa using h.kept
    · have hok' : (swapoff == some true)=false := by simpa using hok
      refine ⟨.up,by simp,?_⟩
      rw [hconf,hok']
      refine ⟨rfl,?_,?_,h.pending,h.quiet,fun hp => absurd hp hphase,h.shutdown,?_⟩
      · simpa using h.since
      · simpa using h.failed
      · simpa using h.kept

/-- The condition of the release, told by the history: only a failed recovery leaves a confirmed
`swapoff` that is older than the last `swapon`. -/
lemma verdict_of_allowed {usedKb : ℕ} {explicitlyAbsent : Bool} (h : Tracks d es tier)
    (ht : Teardown es tier d.demoteRx (.releasing usedKb explicitlyAbsent))
    (hallowed : Nbd.backendReleaseAllowed d.swapoffAttempted d.swapoffConfirmed usedKb
      explicitlyAbsent=true) : Verdict es := by
  obtain ⟨hne,-,hkb,habsent⟩ := ht
  simp only [Nbd.backendReleaseAllowed,Bool.and_eq_true,Bool.or_eq_true,decide_eq_true_eq] at hallowed
  obtain ⟨rfl,hsafe⟩ := hallowed
  refine ⟨h.kept,?_⟩
  rw [OutOfUse,hkb,habsent,h.since,h.failed]
  cases explicitlyAbsent with
  | true => simp
  | false =>
    have hup : tier≠.up := by
      rw [h.confirmed] at hsafe
      simpa using And.right (hsafe.resolve_left nofun)
    cases tier <;> simp_all

lemma explains_release {usedKb : ℕ} {explicitlyAbsent : Bool} (swapoff : Option Bool) (usedKb' : ℕ)
    (explicitlyAbsent' : Bool) (h : Tracks d es tier)
    (ht : Teardown es tier d.demoteRx (.releasing usedKb explicitlyAbsent)) :
    Explains (es++(d.release usedKb explicitlyAbsent swapoff usedKb' explicitlyAbsent').2)
      (d.release usedKb explicitlyAbsent swapoff usedKb' explicitlyAbsent').1 := by
  unfold release
  by_cases hallowed : Nbd.backendReleaseAllowed d.swapoffAttempted d.swapoffConfirmed usedKb
      explicitlyAbsent=true
  · rw [if_pos hallowed]
    exact .inr ⟨rfl,es,rfl,verdict_of_allowed h ht hallowed⟩
  · rw [if_neg hallowed]
    obtain ⟨hne,hrx,-,-⟩ := ht
    obtain ⟨tier',hne',h'⟩ := tracks_retried swapoff
      (.releasing usedKb' explicitlyAbsent') nofun h hne hrx
    have he := explains_observed usedKb' explicitlyAbsent' h' hne' hrx rfl
    rwa [List.append_assoc] at he

lemma Explains.act (h : Explains es d) (i : DaemonInput) : Explains (es++(d.act i).2) (d.act i).1 := by
  have idle : Explains (es++[]) d := by rwa [List.append_nil]
  obtain ⟨tier,ht,hphase⟩ | ⟨hp,-⟩ := h
  · unfold NbdDaemon.act
    split
    · rename_i hp
      exact (ends_serveOnce _ ht hp).explains
    · rename_i hp
      rw [hp] at hphase
      exact explains_leave _ _ _ ht hphase
    · rename_i hp
      rw [hp] at hphase
      exact explains_release _ _ _ ht hphase
    · exact idle
  · have hact : d.act i = (d,[]) := by
      unfold NbdDaemon.act
      rw [hp]
    rwa [hact]

lemma explains_run (h : Explains es d) (is : List DaemonInput) : Explains (es++d.trace is) (run step d is) := by
  induction is generalizing d es with
  | nil => rwa [trace,outputs,List.append_nil]
  | cons i is ih =>
    have hi := ih (h.act i)
    rwa [List.append_assoc] at hi

end NbdDaemon

/-- When the daemon frees its backend, the device is out of use unless the last recovery `swapon`
failed and the device was not seen absent. -/
theorem freed_out_of_use_iff (dxg : Bool) (is : List DaemonInput) (es rest : List DaemonEvent)
    (h : NbdDaemon.trace { dxg := dxg } is = es++.freeAllLive::rest) :
    OutOfUse es ↔ lastExplicitlyAbsent es = some true ∨ lastSwaponFailed es = false := by
  have hnew : NbdDaemon.Explains [] { dxg := dxg } :=
    .inl ⟨.up,⟨rfl,rfl,rfl,rfl,fun _ => rfl,fun _ => rfl,nofun,by simp⟩,trivial⟩
  have hrun := NbdDaemon.explains_run hnew is
  rw [List.nil_append,h] at hrun
  obtain ⟨tier,ht,-⟩ | ⟨-,before,hes,hfree,hverdict⟩ := hrun
  · exact absurd (by simp) ht.kept
  · rw [eq_comm,List.append_cons_inj_of_notMem hfree (by simp)] at hes
    rwa [← hes.1]

/-- A recovery that succeeded is undone by the `swapoff` of the teardown before the release. -/
theorem freed_out_of_use_after_recovery :
    NbdDaemon.trace { dxg := true }
        [.tick { budgetHealthy := false },.tick { demote := .sent true },.tick {},.tick {},
          .tick { activation := .sent true, received := .msg .shutdown },.leave none 0 false,
          .release (some true) 0 false,.release none 0 false] =
      [.usedKb 0,.swapoff,.swapoffConfirmed,.usedKb 0,.usedKb 0,.usedKb 0,.swapon,
        .swaponReported true,.usedKb 0,.explicitlyAbsent false,.swapoff,.swapoffConfirmed,.usedKb 0,
        .explicitlyAbsent false]++[.freeAllLive] ∧
    OutOfUse
      [.usedKb 0,.swapoff,.swapoffConfirmed,.usedKb 0,.usedKb 0,.usedKb 0,.swapon,
        .swaponReported true,.usedKb 0,.explicitlyAbsent false,.swapoff,.swapoffConfirmed,.usedKb 0,
        .explicitlyAbsent false] :=
  ⟨by decide,(freed_out_of_use_iff true
    [.tick { budgetHealthy := false },.tick { demote := .sent true },.tick {},.tick {},
      .tick { activation := .sent true, received := .msg .shutdown },.leave none 0 false,
      .release (some true) 0 false,.release none 0 false] _ [] (by decide)).mpr (by decide)⟩

/-- The thread of the recovery vanishes; the `swapoff` from before its launch still allows the
release, and no other is made. -/
theorem freed_after_vanished_recovery :
    NbdDaemon.trace { dxg := true }
        [.tick { budgetHealthy := false },.tick { demote := .sent true },.tick {},.tick {},
          .tick { activation := .disconnected, received := .msg .shutdown },.leave none 0 false,
          .release none 0 false] =
      [.usedKb 0,.swapoff,.swapoffConfirmed,.usedKb 0,.usedKb 0,.usedKb 0,.swapon,
        .swaponReported false,.usedKb 0,.explicitlyAbsent false]++[.freeAllLive] ∧
    ¬OutOfUse
      [.usedKb 0,.swapoff,.swapoffConfirmed,.usedKb 0,.usedKb 0,.usedKb 0,.swapon,
        .swaponReported false,.usedKb 0,.explicitlyAbsent false] := by
  decide

end RamShared.Nbd

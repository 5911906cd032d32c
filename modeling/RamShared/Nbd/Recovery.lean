import RamShared.Nbd.Children

/-! The serving loop moves its children. An iteration is cut before the WDDM poll, where alone a recovery
observes and launches; up to there its events tell what happened. -/
namespace RamShared.Nbd
open Lib

def Mark.ofEvent : DaemonEvent → Option Mark
  | .swapoff => some .swapoff
  | .swapoffConfirmed => some .confirmed
  | .swapon => some .launched
  | .swaponReported ok => some (.reported ok)
  | _ => none

/-- Events tell everything but the observations and the refusals. -/
def Mark.told : Mark → Bool
  | .observed _ _ => false
  | .refused => false
  | _ => true

lemma filter_told (es : List DaemonEvent) :
    (es.filterMap Mark.ofEvent).filter Mark.told = es.filterMap Mark.ofEvent := by
  rw [List.filter_eq_self]
  intro m hm
  obtain ⟨e,-,he⟩ := List.mem_filterMap.mp hm
  cases e <;> simp [Mark.ofEvent] at he <;> subst he <;> rfl

variable (t : Tick) (d : NbdDaemon)

namespace NbdDaemon

def children : Children :=
  ⟨d.demoted,d.demoteRx,d.recoveryActivation.resultRx,d.recoveryActivation.failedEpoch,d.recovery⟩

/-! The parts of an iteration up to the WDDM poll. -/

def housekeepUntilPoll : NbdDaemon × List DaemonEvent :=
  andThen (andThen (d.pollDemoteAgain t.demoteAgain) fun d => (d,[.usedKb t.usedKb]))
    fun d => d.demoteWhen (t.heartbeatDue && t.gpuLost)

def afterMessageUntilPoll : NbdDaemon × List DaemonEvent :=
  andThen (d.checkBudgetRefuses t.budgetRefuses) (housekeepUntilPoll t)

def handleMsgUntilPoll : WMsg → (NbdDaemon × List DaemonEvent) × Bool
  | .opened => ({d with live := d.live.onOpen}.afterMessageUntilPoll t,true)
  | .closed =>
    let (quiescent,live) := d.live.onClose
    if quiescent then (({d with live := live},[]),false)
    else ({d with live := live}.afterMessageUntilPoll t,true)
  | .shutdown => (d.handleMsg t .shutdown,false)
  | .job touchesVram replyErrno verdict =>
    (andThen (andThen (d.countIoErrors touchesVram replyErrno) fun d =>
      d.checkResidency touchesVram verdict) (afterMessageUntilPoll t),true)
  | .zeroExport => (d.afterMessageUntilPoll t,true)

def receiveUntilPoll : (NbdDaemon × List DaemonEvent) × Bool :=
  match t.received with
  | .msg m => handleMsgUntilPoll t d m
  | .timeout => if d.recoveryActivation.isPending then ((d,[]),false) else (d.housekeepUntilPoll t,true)
  | .disconnected =>
    let d := d.requestShutdown
    if d.recoveryActivation.backendReleaseAllowed then (d.leaveLoop,false)
    else if d.recoveryActivation.isPending then ((d,[]),false)
    else (d.housekeepUntilPoll t,true)

def serveUntilPoll (t : Tick) : (NbdDaemon × List DaemonEvent) × Bool :=
  let d := if t.signal=true ∧ d.shutdownRequested=false then d.requestShutdown else d
  let x := andThen (d.pollActivation t.activation) fun d => d.pollDemote t.demote
  let y :=
    if x.1.shutdownRequested=true ∧ x.1.recoveryActivation.backendReleaseAllowed=true ∧
        x.1.demoteRx=false then (x.1.leaveLoop,false)
    else x.1.receiveUntilPoll t
  ((y.1.1,x.2++y.1.2),y.2)

def thenPoll (x : (NbdDaemon × List DaemonEvent) × Bool) : NbdDaemon × List DaemonEvent :=
  if x.2 then andThen x.1 fun d => d.pollBudget t else x.1

lemma andThen_assoc (x : NbdDaemon × List DaemonEvent) (f g : NbdDaemon → NbdDaemon × List DaemonEvent) :
    andThen (andThen x f) g = andThen x fun d => andThen (f d) g := by
  simp [andThen]

variable (t : Tick) (d : NbdDaemon)

lemma afterMessage_eq : d.afterMessage t = andThen (d.afterMessageUntilPoll t) fun d => d.pollBudget t :=
  (andThen_assoc _ _ _).symm

lemma handleMsg_eq (m : WMsg) : d.handleMsg t m = thenPoll t (d.handleMsgUntilPoll t m) := by
  cases m with
  | opened => exact afterMessage_eq t _
  | closed =>
    simp only [handleMsg,handleMsgUntilPoll]
    split_ifs
    · rfl
    · exact afterMessage_eq t _
  | shutdown => rfl
  | job touchesVram replyErrno verdict =>
    have hafter : afterMessage t = fun d => andThen (d.afterMessageUntilPoll t) fun d => d.pollBudget t :=
      funext (afterMessage_eq t)
    rw [handleMsg,hafter,←andThen_assoc]
    rfl
  | zeroExport => exact afterMessage_eq t d

lemma receive_eq : d.receive t = thenPoll t (d.receiveUntilPoll t) := by
  unfold receive receiveUntilPoll
  cases t.received with
  | msg m => exact handleMsg_eq t d m
  | timeout =>
    dsimp only
    split_ifs <;> rfl
  | disconnected =>
    dsimp only
    split_ifs <;> rfl

lemma serveOnce_eq (t : Tick) : d.serveOnce t = thenPoll t (d.serveUntilPoll t) := by
  unfold serveOnce serveUntilPoll
  dsimp only
  generalize (andThen ((if t.signal=true ∧ d.shutdownRequested=false then d.requestShutdown
    else d).pollActivation t.activation) fun d => d.pollDemote t.demote)=x
  unfold andThen
  dsimp only
  split_ifs
  · rfl
  · rw [receive_eq]
    unfold thenPoll
    split_ifs <;> simp [andThen]

/-! The parts move the children as their events tell. -/

def Moved (d : NbdDaemon) (x : NbdDaemon × List DaemonEvent) : Prop :=
  Children.Moves d.children (x.2.filterMap Mark.ofEvent) x.1.children

lemma Moved.andThen {d : NbdDaemon} {x : NbdDaemon × List DaemonEvent}
    {f : NbdDaemon → NbdDaemon × List DaemonEvent} (h : Moved d x) (hf : Moved x.1 (f x.1)) :
    Moved d (andThen x f) := by
  unfold Moved NbdDaemon.andThen
  rw [List.filterMap_append]
  exact h.trans hf

lemma moved_same {d d' : NbdDaemon} {es : List DaemonEvent} (h : d'.children=d.children)
    (hes : es.filterMap Mark.ofEvent=[]) : Moved d (d',es) := by
  unfold Moved
  rw [hes,h]
  exact .refl _

lemma Moved.of_children {d d' : NbdDaemon} {x : NbdDaemon × List DaemonEvent} (h : Moved d' x)
    (hc : d'.children=d.children) : Moved d x := by
  unfold Moved at h ⊢
  rwa [←hc]

section
variable (d : NbdDaemon)

lemma moved_launchSwapoff (h : d.demoted=false) : Moved d d.launchSwapoff :=
  (Children.Move.swapoff h).moves

lemma moved_demoteWhen (trigger : Bool) : Moved d (d.demoteWhen trigger) := by
  unfold demoteWhen
  split_ifs with h
  · exact d.moved_launchSwapoff h.2.1
  · exact moved_same rfl rfl

variable (child : ChildPoll) (t : Tick)

lemma moved_pollDemote : Moved d (d.pollDemote child) := by
  unfold pollDemote
  split_ifs with hrx
  · cases child with
    | empty => exact moved_same rfl rfl
    | disconnected => exact (Children.Move.lost hrx (.inl rfl)).moves
    | sent ok =>
      cases ok with
      | false => exact (Children.Move.lost hrx (.inl rfl)).moves
      | true => exact (Children.Move.confirmed hrx (.inl rfl)).moves
  · exact moved_same rfl rfl

lemma moved_pollDemoteAgain : Moved d (d.pollDemoteAgain child) := by
  unfold pollDemoteAgain
  split_ifs with h
  · unfold pollDemote
    rw [if_pos h.1]
    cases child with
    | empty => exact absurd rfl h.2
    | disconnected => exact (Children.Move.lost h.1 (.inr rfl)).moves
    | sent ok =>
      cases ok with
      | false => exact (Children.Move.lost h.1 (.inr rfl)).moves
      | true => exact (Children.Move.confirmed h.1 (.inr rfl)).moves
  · exact d.moved_pollDemote child

lemma moved_pollActivation : Moved d (d.pollActivation child) := by
  unfold pollActivation RecoveryActivation.poll
  split_ifs with hrx
  · cases child with
    | empty => exact moved_same rfl rfl
    | disconnected => exact (Children.Move.failed hrx).moves
    | sent ok =>
      cases ok with
      | false => exact (Children.Move.failed hrx).moves
      | true =>
        refine Moved.andThen (Children.Move.succeeded hrx).moves ?_
        dsimp only
        split_ifs
        · exact moved_launchSwapoff _ rfl
        · exact moved_same rfl rfl
  · exact moved_same rfl rfl

lemma moved_countIoErrors (touchesVram : Bool) (replyErrno : UInt32) :
    Moved d (d.countIoErrors touchesVram replyErrno) := by
  unfold countIoErrors
  split_ifs
  · exact (moved_demoteWhen _ _).of_children rfl
  · exact moved_same rfl rfl
  · exact moved_same rfl rfl

lemma moved_checkBudgetRefuses (budgetRefuses : ℕ) : Moved d (d.checkBudgetRefuses budgetRefuses) := by
  unfold checkBudgetRefuses
  split_ifs
  · exact (moved_demoteWhen _ _).of_children rfl
  · exact moved_same rfl rfl

lemma moved_housekeepUntilPoll : Moved d (d.housekeepUntilPoll t) :=
  ((d.moved_pollDemoteAgain _).andThen (moved_same rfl rfl)).andThen (moved_demoteWhen _ _)

lemma moved_afterMessageUntilPoll : Moved d (d.afterMessageUntilPoll t) :=
  (d.moved_checkBudgetRefuses _).andThen (moved_housekeepUntilPoll _ t)

lemma moved_handleMsgUntilPoll (m : WMsg) : Moved d (d.handleMsgUntilPoll t m).1 := by
  cases m with
  | opened => exact (moved_afterMessageUntilPoll _ t).of_children rfl
  | closed =>
    simp only [handleMsgUntilPoll]
    split_ifs
    · exact moved_same rfl rfl
    · exact (moved_afterMessageUntilPoll _ t).of_children rfl
  | shutdown =>
    simp only [handleMsgUntilPoll,handleMsg]
    split_ifs <;> exact moved_same rfl rfl
  | job touchesVram replyErrno verdict =>
    exact ((d.moved_countIoErrors touchesVram replyErrno).andThen (moved_demoteWhen _ _)).andThen
      (moved_afterMessageUntilPoll _ t)
  | zeroExport => exact d.moved_afterMessageUntilPoll t

lemma moved_receiveUntilPoll : Moved d (d.receiveUntilPoll t).1 := by
  unfold receiveUntilPoll
  cases t.received with
  | msg m => exact d.moved_handleMsgUntilPoll t m
  | timeout =>
    dsimp only
    split_ifs
    · exact moved_same rfl rfl
    · exact d.moved_housekeepUntilPoll t
  | disconnected =>
    dsimp only
    split_ifs
    · exact moved_same rfl rfl
    · exact moved_same rfl rfl
    · exact (moved_housekeepUntilPoll _ t).of_children rfl

lemma moved_serveUntilPoll : Moved d (d.serveUntilPoll t).1 := by
  have hsignal : (if t.signal=true ∧ d.shutdownRequested=false then d.requestShutdown
      else d).children=d.children := by
    split_ifs <;> rfl
  have hpolls : Moved d (andThen ((if t.signal=true ∧ d.shutdownRequested=false
      then d.requestShutdown else d).pollActivation t.activation) fun d => d.pollDemote t.demote) :=
    ((moved_pollActivation _ _).andThen (moved_pollDemote _ _)).of_children hsignal
  unfold serveUntilPoll
  dsimp only
  generalize andThen ((if t.signal=true ∧ d.shutdownRequested=false
    then d.requestShutdown else d).pollActivation t.activation) (fun d => d.pollDemote t.demote) = x at hpolls
  split_ifs
  · exact hpolls.andThen (f := leaveLoop) (moved_same rfl rfl)
  · exact hpolls.andThen (f := fun d => (d.receiveUntilPoll t).1) (x.1.moved_receiveUntilPoll t)

end

/-! The WDDM poll. -/

end NbdDaemon

def Tick.healthy : Bool := t.budgetHealthy && t.globalHealthy

def Tick.tierEmpty : Bool := decide (t.chunksLive=0)

namespace NbdDaemon

def asks (t : Tick) : Bool :=
  !d.shutdownRequested && (d.recovery.observe t.healthy t.tierEmpty).1 &&
    (d.recoveryActivation.launchAllowed t.healthy t.tierEmpty).1

def pollMarks (t : Tick) : List Mark :=
  if d.dxg=true ∧ d.demoted=true ∧ d.demoteRx=false then
    .observed t.healthy t.tierEmpty ::
      if d.asks t then [if t.spawned then .launched else .refused] else []
  else (d.pollBudget t).2.filterMap Mark.ofEvent

def observing (t : Tick) : NbdDaemon :=
  { d with
    recovery := (d.recovery.observe t.healthy t.tierEmpty).2
    recoveryActivation := (d.recoveryActivation.launchAllowed t.healthy t.tierEmpty).2}

lemma pollBudget_demoted {d : NbdDaemon} (hdxg : d.dxg=true) (hd : d.demoted=true)
    (hrx : d.demoteRx=false) (t : Tick) : d.pollBudget t =
      if d.asks t then (d.observing t).launchRecovery t.spawned else (d.observing t,[]) := by
  unfold pollBudget
  rw [if_neg (by simp [hdxg]),if_neg (by simp [hd]),if_pos ⟨hd,hrx⟩]
  unfold asks
  simp only [Bool.and_eq_true,Bool.not_eq_true',and_assoc]
  rfl

lemma moves_observing {d : NbdDaemon} (hd : d.demoted=true) (t : Tick) :
    Children.Moves d.children [.observed t.healthy t.tierEmpty] (d.observing t).children := by
  have hmove := (Children.Move.observed (c := d.children) t.healthy t.tierEmpty hd).moves
  unfold children observing
  rw [RecoveryActivation.launchAllowed_resultRx,RecoveryActivation.launchAllowed_failedEpoch]
  exact hmove

lemma moves_launchRecovery {d : NbdDaemon} (hd : d.demoted=true) {t : Tick} (hasks : d.asks t=true) :
    Children.Moves (d.observing t).children [if t.spawned then .launched else .refused]
        ((d.observing t).launchRecovery t.spawned).1.children ∧
      ((d.observing t).launchRecovery t.spawned).2 = if t.spawned then [.swapon] else [] := by
  simp only [asks,Bool.and_eq_true] at hasks
  obtain ⟨⟨-,hready⟩,hallowed⟩ := hasks
  obtain ⟨hrx,hepoch⟩ := RecoveryActivation.launchAllowed_idle hallowed
  have hstart : (d.observing t).recoveryActivation.start =
      .ok {(d.observing t).recoveryActivation with resultRx := true} := by
    simp only [RecoveryActivation.start,observing,hrx,hepoch,Bool.false_eq_true,if_false]
  have hstreak : (d.observing t).recovery.required≤(d.observing t).recovery.streak := by
    unfold RecoveryTracker.observe at hready
    split_ifs at hready with hbad
    simpa [observing,RecoveryTracker.observe,hbad] using hready
  unfold launchRecovery
  rw [hstart]
  cases t.spawned with
  | false => exact ⟨(Children.Move.refused hrx).moves,rfl⟩
  | true => exact ⟨(Children.Move.launched hd hrx hepoch hstreak).moves,rfl⟩

lemma moved_pollBudget {d : NbdDaemon} (h : ¬(d.dxg=true ∧ d.demoted=true ∧ d.demoteRx=false))
    (t : Tick) : Moved d (d.pollBudget t) := by
  unfold pollBudget
  split_ifs with hdxg hlaunch hdemoted
  · exact moved_same rfl rfl
  · exact d.moved_launchSwapoff hlaunch.1
  · exact absurd ⟨by simpa using hdxg,hdemoted⟩ h
  · exact moved_same rfl rfl

variable (d : NbdDaemon) (t : Tick)

lemma moves_pollBudget : Children.Moves d.children (d.pollMarks t) (d.pollBudget t).1.children ∧
      (d.pollMarks t).filter Mark.told = (d.pollBudget t).2.filterMap Mark.ofEvent := by
  unfold pollMarks
  by_cases hdemoted : d.dxg=true ∧ d.demoted=true ∧ d.demoteRx=false
  · rw [if_pos hdemoted]
    obtain ⟨hdxg,hd,hrx⟩ := hdemoted
    rw [pollBudget_demoted hdxg hd hrx]
    by_cases hasks : d.asks t=true
    · obtain ⟨hmoves,hevents⟩ := moves_launchRecovery hd hasks
      rw [if_pos hasks,if_pos hasks]
      refine ⟨(moves_observing hd t).trans hmoves,?_⟩
      rw [hevents]
      cases t.spawned <;> rfl
    · rw [if_neg hasks,if_neg hasks]
      exact ⟨moves_observing hd t,rfl⟩
  · rw [if_neg hdemoted]
    exact ⟨moved_pollBudget hdemoted t,filter_told _⟩

/-! Whole runs of the loop. -/

def serveMarks (d : NbdDaemon) (t : Tick) : List Mark :=
  let x := d.serveUntilPoll t
  x.1.2.filterMap Mark.ofEvent++if x.2 then x.1.1.pollMarks t else []

lemma moves_serveOnce : Children.Moves d.children (d.serveMarks t) (d.serveOnce t).1.children ∧
      (d.serveMarks t).filter Mark.told = (d.serveOnce t).2.filterMap Mark.ofEvent := by
  have hmoved := d.moved_serveUntilPoll t
  unfold serveMarks
  rw [serveOnce_eq]
  generalize d.serveUntilPoll t = x at hmoved
  dsimp only
  unfold thenPoll
  split_ifs
  · obtain ⟨hpoll,htold⟩ := x.1.1.moves_pollBudget t
    refine ⟨hmoved.trans hpoll,?_⟩
    rw [List.filter_append,filter_told,htold]
    exact List.filterMap_append.symm
  · rw [List.append_nil]
    exact ⟨hmoved,filter_told _⟩

/-- What a tick does to the children: nothing, once the loop is left. -/
def marks (d : NbdDaemon) (t : Tick) : List Mark :=
  if d.phase=.serving then d.serveMarks t else []

def tick (d : NbdDaemon) (t : Tick) : NbdDaemon := d.step (.tick t)

def history (d : NbdDaemon) (ts : List Tick) : List Mark := outputs tick marks d ts

lemma moves_tick : Children.Moves d.children (d.marks t) (d.tick t).children ∧
    (d.marks t).filter Mark.told = (d.act (.tick t)).2.filterMap Mark.ofEvent := by
  unfold marks tick step act
  split_ifs with hphase
  · rw [hphase]
    exact d.moves_serveOnce t
  · cases h : d.phase with
    | serving => exact absurd h hphase
    | _ => exact ⟨.refl _,rfl⟩

lemma history_told (ts : List Tick) :
    (d.history ts).filter Mark.told = (d.trace (ts.map .tick)).filterMap Mark.ofEvent := by
  induction ts generalizing d with
  | nil => rfl
  | cons t ts ih =>
    have hrest := ih (d.tick t)
    simp only [history,trace,outputs,List.map_cons,List.filter_append,List.filterMap_append] at hrest ⊢
    rw [(d.moves_tick t).2]
    exact congrArg _ hrest

lemma moves_run (ts : List Tick) : Children.Moves d.children (d.history ts) (run tick d ts).children := by
  induction ts generalizing d with
  | nil => exact .refl _
  | cons t ts ih => exact (d.moves_tick t).1.trans (ih _)

lemma remembers_start (dxg : Bool) : Children.Remembers (children {dxg := dxg}) [] where
  required := rfl
  quiet := nofun
  pending := nofun
  launches := rfl
  fresh := fun _ => rfl
  streak := fun _ => Nat.zero_le _
  demoted := nofun
  retried := fun _ front f back hsplit => by simp at hsplit
  allowed := allowed_nil _

/-- In every run of the loop, a pending `swapoff` and a pending recovery exclude each other, and every child
is launched on a history that allows it. -/
theorem children_disciplined (dxg : Bool) (ts : List Tick) :
    let d := run tick { dxg := dxg } ts
    ¬(d.demoteRx=true ∧ d.recoveryActivation.isPending=true) ∧
      Allowed Mark.Ok (history { dxg := dxg } ts) ∧
      (history { dxg := dxg } ts).filter Mark.told =
        (trace { dxg := dxg } (ts.map .tick)).filterMap Mark.ofEvent := by
  have hremembers := (remembers_start dxg).moves (moves_run { dxg := dxg } ts)
  rw [List.nil_append] at hremembers
  refine ⟨?_,hremembers.allowed,history_told _ ts⟩
  rintro ⟨hdemote,hpending⟩
  have hquiet := hremembers.quiet (hremembers.pending hpending).1
  rw [show (run tick { dxg := dxg } ts).children.demoteRx = true from hdemote] at hquiet
  cases hquiet

end NbdDaemon
end RamShared.Nbd

import RamShared.Winbroker.Session

/-! The end of a lease whose session is gone. The book records the tenant, not the session, so the
lease lives on while any session of the tenant shows signs of life. -/
namespace RamShared.Winbroker
open Broker Lib
variable {F : Type}

def activeId (b : LeaseBook) : Option ℕ := b.active.map fun a => a.lease.id

/-- A renewal of the lease keeps its deadline at or before `t`. -/
def TimelyRenewal (id t : ℕ) (b : LeaseBook) : LeaseCall → Prop
  | .renewActive _ now ttl => activeId b=some id → now+ttl≤t
  | _ => True

/-- A lease granted before, to end by `t` if it is still active. -/
structure EndsBy (id t : ℕ) (b : LeaseBook) : Prop where
  old : id<b.nextId
  exclusive : b.pending=none ∨ b.active=none
  deadline : ∀ a, b.active=some a → a.lease.id=id → a.deadline≤t

/-- A lease granted before that is not active. -/
structure Ended (id : ℕ) (b : LeaseBook) : Prop where
  old : id<b.nextId
  inactive : activeId b≠some id

namespace EndsBy
variable {id t : ℕ} {b b' : LeaseBook} {call : LeaseCall} {reply : LeaseReply}

variable (h : EndsBy id t b)
include h

lemma transition (ht : b.Transition call reply b') (htimely : TimelyRenewal id t b call) : EndsBy id t b' := by
  cases ht with
  | kept => exact h
  | accepted _ _ _ hactive => exact ⟨h.old,.inr hactive,h.deadline⟩
  | granted =>
    -- the new lease takes the next number, which is not the old one
    refine ⟨Nat.lt_succ_of_lt h.old,.inl rfl,?_⟩
    rintro a ⟨⟩ hid
    exact absurd hid (Nat.ne_of_gt h.old)
  | renewed hactive =>
    refine ⟨h.old,h.exclusive.imp_right fun hnone => by simp [hactive] at hnone,?_⟩
    rintro a ⟨⟩ hid
    exact htimely (by simpa [activeId,hactive] using hid)
  | expired hactive => exact ⟨h.old,.inr rfl,nofun⟩
  | released hactive => exact ⟨h.old,.inr rfl,nofun⟩
  | cancelled => exact ⟨h.old,.inl rfl,h.deadline⟩

lemma ended : Ended id (b.expire t).2 := by
  unfold LeaseBook.expire
  cases ha : b.active with
  | none => exact ⟨h.old,by simp [activeId,ha]⟩
  | some a =>
    dsimp only
    split_ifs with hdeadline
    · exact ⟨h.old,by simp [activeId]⟩
    · refine ⟨h.old,?_⟩
      simp only [activeId,ha,Option.map_some,ne_eq,Option.some.injEq]
      exact fun hid => hdeadline (h.deadline a ha hid)

lemma free (hactive : activeId b=some id) : (b.expire t).2 = {b with pending := none, active := none} := by
  obtain ⟨a,ha,hid⟩ := Option.map_eq_some_iff.mp hactive
  have hpending : b.pending=none := h.exclusive.resolve_right (by simp [ha])
  simp only [LeaseBook.expire,ha,h.deadline a ha hid,if_true]
  rw [←hpending]

end EndsBy

lemma Ended.transition {id : ℕ} {b b' : LeaseBook} {call : LeaseCall} {reply : LeaseReply}
    (h : Ended id b) (ht : b.Transition call reply b') : Ended id b' := by
  cases ht with
  | granted => exact ⟨Nat.lt_succ_of_lt h.old,by simpa [activeId] using Nat.ne_of_gt h.old⟩
  | renewed hactive =>
    refine ⟨h.old,fun hid => h.inactive ?_⟩
    rw [←hid]
    simp [activeId,hactive]
  | expired => exact ⟨h.old,by simp [activeId]⟩
  | released => exact ⟨h.old,by simp [activeId]⟩
  | _ => exact ⟨h.old,h.inactive⟩

lemma capacityBytes_transition {b b' : LeaseBook} {call : LeaseCall} {reply : LeaseReply}
    (ht : b.Transition call reply b') : b'.capacityBytes=b.capacityBytes := by
  cases ht <;> rfl

namespace BrokerSessionCore

/-- A `Psi` of a live session among `who`, taken while the lease is active, lies at least the
lifetime of a lease before `t`. -/
def PsiBefore (who : ℕ → Prop) (id t : ℕ) (c : BrokerSessionCore) : Move F → Prop
  | .msg sessionId (.psi _ _ _) now => who sessionId → c.liveSession=some sessionId →
    activeId c.leaseBook=some id → now+c.leaseTtl≤t
  | _ => True

def isRestart : Move F → Bool
  | .msg _ (.register _ _ _) _ => true
  | .disconnect _ => true
  | _ => false

variable {id : ℕ} {c : BrokerSessionCore}

lemma timelyRenewal_calls {t : ℕ} {m : Move F} (h : PsiBefore (fun _ => True) id t c m) :
    AllSteps LeaseBook.step (TimelyRenewal id t) c.leaseBook (c.calls m) := by
  cases m with
  | msg sessionId message now =>
    by_cases hlive : c.liveSession=some sessionId
    · cases message with
      | leaseRequest bytes =>
        cases hd : (c.leaseBook.beginRequest 1 bytes).1 <;>
          simp [calls,hlive,hd,AllSteps,TimelyRenewal]
      | psi sample swaps mem =>
        simp only [calls,hlive,ne_eq,not_true_eq_false,if_false]
        exact ⟨h trivial hlive,trivial⟩
      | _ => simp [calls,hlive,AllSteps,TimelyRenewal]
    · simp [calls,hlive,AllSteps]
  | disconnect sessionId =>
    by_cases hlive : c.liveSession=some sessionId <;>
      simp [calls,hlive,AllSteps,TimelyRenewal]
  | tick now => simp [calls,AllSteps,TimelyRenewal]

lemma endsBy_step {t : ℕ} {m : Move F} (h : EndsBy id t c.leaseBook)
    (hpsi : PsiBefore (fun _ => True) id t c m) : EndsBy id t (c.step m).leaseBook := by
  rw [(c.step_frame m).1]
  exact (timelyRenewal_calls hpsi).invariant LeaseBook.step
    (fun b call hb hcall => hb.transition (b.perform_transition call) hcall) h

lemma ended_step (c : BrokerSessionCore) (m : Move F) (h : Ended id c.leaseBook) :
    Ended id (c.step m).leaseBook := by
  rw [(c.step_frame m).1]
  exact run_induction LeaseBook.step
    (fun b call hb => hb.transition (b.perform_transition call)) h _

lemma leaseTtl_run (c : BrokerSessionCore) (moves : List (Move F)) : (run step c moves).leaseTtl=c.leaseTtl :=
  run_induction step (P := fun c' => c'.leaseTtl=c.leaseTtl)
    (fun c' m h => (c'.step_frame m).2.trans h) rfl moves

lemma capacityBytes_run (c : BrokerSessionCore) (moves : List (Move F)) :
    (run step c moves).leaseBook.capacityBytes=c.leaseBook.capacityBytes := by
  refine run_induction step (P := fun c' => c'.leaseBook.capacityBytes=c.leaseBook.capacityBytes)
    (fun c' m h => ?_) rfl moves
  rw [(c'.step_frame m).1]
  refine run_induction LeaseBook.step
    (P := fun b => b.capacityBytes=c.leaseBook.capacityBytes) (fun b call hb => ?_) h _
  exact (capacityBytes_transition (b.perform_transition call)).trans hb

lemma endsBy_granted {sessionId bytes now size : ℕ} (h : BrokerEffect.reply (F := F) (.leaseGranted id size) ∈
      (c.onAuthenticatedMsgAt sessionId (.leaseRequest bytes) now).1) :
    0<c.leaseTtl ∧ EndsBy id (now+c.leaseTtl)
      (c.onAuthenticatedMsgAt (F := F) sessionId (.leaseRequest bytes) now).2.leaseBook := by
  by_cases hlive : c.liveSession=some sessionId
  · simp only [onAuthenticatedMsgAt,hlive,ne_eq,not_true_eq_false,if_false] at h ⊢
    cases hd : (c.leaseBook.beginRequest 1 bytes).1 with
    | denied reason => simp [onLeaseRequest_denied hd,denied] at h
    | pending p =>
      rw [onLeaseRequest_pending hd] at h ⊢
      have httl : 0<c.leaseTtl := by
        refine Nat.pos_of_ne_zero fun hzero => ?_
        simp [LeaseBook.grantPending,hzero,denied] at h
      refine ⟨httl,?_⟩
      have ht := (c.leaseBook.beginRequest 1 bytes).2.grantPending_transition bytes now c.leaseTtl
      generalize (c.leaseBook.beginRequest 1 bytes).2.grantPending bytes now c.leaseTtl = r at h ht ⊢
      obtain ⟨e | lease,book⟩ := r
      · simp [denied] at h
      · obtain ⟨rfl,-⟩ : id=lease.id ∧ size=lease.bytes := by simpa using h
        cases ht with
        | kept _ hgranted => cases hgranted
        | granted =>
          refine ⟨Nat.lt_succ_self _,.inl rfl,?_⟩
          rintro a ⟨⟩ -
          exact le_rfl
        | cancelled hcall => obtain ⟨hcall,-⟩ | ⟨_,hcall,-⟩ := hcall <;> cases hcall
  · simp [onAuthenticatedMsgAt,hlive,onUnregisteredMsg] at h

lemma restart_step {m : Move F} (hm : isRestart m) (hpending : c.leaseBook.pending=none) :
    (c.step m).leaseBook=c.leaseBook := by
  rw [(c.step_frame m).1]
  cases m with
  | msg sessionId message now => cases message <;> simp_all [isRestart,calls]
  | disconnect sessionId =>
    by_cases hlive : c.liveSession=some sessionId <;>
      simp [calls,hlive,LeaseBook.step,LeaseBook.perform,LeaseBook.disconnect,
        LeaseBook.cancelPending,hpending]
  | tick now => cases hm

lemma restart_run {moves : List (Move F)} (hm : ∀ m∈moves, isRestart m)
    (hpending : c.leaseBook.pending=none) : (run step c moves).leaseBook=c.leaseBook := by
  induction moves generalizing c with
  | nil => rfl
  | cons m moves ih =>
    have hm₁ := restart_step (hm m (by simp)) hpending
    rw [run_cons,ih (fun m' hm' => hm m' (by simp [hm'])) (by rw [hm₁]; exact hpending),hm₁]

lemma request_granted {sessionId bytes now : ℕ} (hlive : c.liveSession=some sessionId)
    (hpending : c.leaseBook.pending=none) (hactive : c.leaseBook.active=none) (hpos : 0<bytes)
    (hle : bytes ≤ c.leaseBook.capacityBytes) (httl : 0<c.leaseTtl)
    (hnow : (instantAdd now c.leaseTtl).isSome) (hid : c.leaseBook.nextId+1<2^32) :
    BrokerEffect.reply (F := F) (.leaseGranted c.leaseBook.nextId bytes) ∈
      (c.onAuthenticatedMsgAt sessionId (.leaseRequest bytes) now).1 := by
  obtain ⟨deadline,hdeadline⟩ := Option.isSome_iff_exists.mp hnow
  have hnext : checkedAdd 32 c.leaseBook.nextId 1=some (c.leaseBook.nextId+1) :=
    checkedAdd_eq_some.mpr ⟨hid,rfl⟩
  simp [onAuthenticatedMsgAt,hlive,onLeaseRequest,LeaseBook.beginRequest,hpending,hactive,
    hpos.ne',not_lt.mpr hle,LeaseBook.grantPending,httl.ne',hdeadline,hnext]

/-- A lease is not active after the first tick at or after its lifetime past the later of its grant
and the last `Psi` of a session while it was active, and never again. A lease that was still active
at that tick leaves the book to the next session that asks. -/
theorem orphaned_lease_ends (capacityBytes leaseTtl : ℕ) (allowedTenant brokerInstanceId : String)
    (before during : List (Move F)) (sessionId bytes size id granted t : ℕ) :
    let start := run step (newWithLeaseTtl capacityBytes allowedTenant brokerInstanceId leaseTtl) before
    let obtained := start.step (.msg (F := F) sessionId (.leaseRequest bytes) granted)
    let last := run step obtained during
    let ticked := last.step (.tick (F := F) t)
    .reply (.leaseGranted id size) ∈ (start.perform (F := F) (.msg sessionId (.leaseRequest bytes) granted)).1 →
    granted+leaseTtl ≤ t → AllSteps step (PsiBefore (fun _ => True) id t) obtained during →
    (∀ after : List (Move F), activeId (run step ticked after).leaseBook ≠ some id) ∧
      (activeId last.leaseBook = some id → ∀ restart : List (Move F), (∀ m ∈ restart, isRestart m) →
        ∀ session request now, (run step ticked restart).liveSession = some session →
          0 < request → request ≤ capacityBytes → (instantAdd now leaseTtl).isSome →
          last.leaseBook.nextId+1 < 2^32 →
          BrokerEffect.reply (F := F) (.leaseGranted last.leaseBook.nextId request) ∈
            ((run step ticked restart).perform (.msg session (.leaseRequest request) now)).1) := by
  intro start obtained last ticked hgrant ht hpsi
  have httl : start.leaseTtl=leaseTtl := leaseTtl_run _ before
  have hends : EndsBy id t obtained.leaseBook := by
    have h := (endsBy_granted hgrant).2
    exact ⟨h.old,h.exclusive,fun a ha hid => (h.deadline a ha hid).trans (httl ▸ ht)⟩
  have hlast : EndsBy id t last.leaseBook :=
    hpsi.invariant step (P := fun c => EndsBy id t c.leaseBook) (fun c m h => endsBy_step h) hends
  have hbook : ticked.leaseBook = (last.leaseBook.expire t).2 := (last.step_frame (.tick t)).1
  refine ⟨fun after => ?_,fun hactive restart hrestart session request now hlive hpos hle hnow hid => ?_⟩
  · have hticked : Ended id ticked.leaseBook := hbook ▸ hlast.ended
    exact (run_induction step (P := fun c => Ended id c.leaseBook) ended_step hticked after).inactive
  · have hfree := hbook.trans (hlast.free hactive)
    have hrun : (run step ticked restart).leaseBook = { last.leaseBook with pending := none, active := none } :=
      (restart_run hrestart (by rw [hfree])).trans hfree
    have hcapacity : last.leaseBook.capacityBytes=capacityBytes :=
      (capacityBytes_run obtained during).trans ((capacityBytes_run start [.msg (F := F) sessionId
        (.leaseRequest bytes) granted]).trans (capacityBytes_run _ before))
    have httl' : (run step ticked restart).leaseTtl = leaseTtl :=
      (leaseTtl_run last (.tick t::restart)).trans ((leaseTtl_run obtained during).trans
        ((start.step_frame _).2.trans httl))
    have h := request_granted (F := F) (c := run step ticked restart) hlive (by rw [hrun])
      (by rw [hrun]) hpos (by rw [hrun]; exact hle.trans_eq hcapacity.symm)
      (by rw [httl',← httl]; exact (endsBy_granted hgrant).1) (by rwa [httl'])
      (by rwa [hrun])
    rwa [hrun] at h

def time : Move F → Option ℕ
  | .msg _ _ now => some now
  | .disconnect _ => none
  | .tick now => some now

def registered : BrokerSessionCore :=
  run step (new 8192 "windrive" "broker")
    [.msg (F := ℚ) 1 (.register protoVersion "windrive" .winDrive) 0]

/-- The session is gone; the restarted client registers, is refused a lease of its own and sends a
`Psi` as session 2. -/
def restartedClient : List (Move ℚ) :=
  [.disconnect 1,.msg 2 (.register protoVersion "windrive" .winDrive) (10^9),
    .msg 2 (.leaseRequest 4096) (2*10^9),.msg 2 (.psi .zero [] none) (29*10^9)]

theorem orphaned_lease_ends_restartedClient :
    ∀ after : List (Move ℚ), activeId (run step ((run step (registered.step
      (.msg (F := ℚ) 1 (.leaseRequest 4096) 0)) restartedClient).step
      (.tick (F := ℚ) (59*10^9))) after).leaseBook ≠ some 1 := by
  refine (orphaned_lease_ends 8192 defaultLeaseTtl "windrive" "broker"
    [.msg 1 (.register protoVersion "windrive" .winDrive) 0] restartedClient 1 4096 4096 1 0
    (59*10^9) ?_ ?_ ?_).1
  · exact .tail _ (.head _)
  · decide
  · refine ⟨trivial,trivial,trivial,fun _ _ _ => ?_,trivial⟩
    decide

/-- The obtaining session sent no `Psi` at all, and yet its lease is active after the tick at its
lifetime: the `Psi` of the next session has renewed it, and that session is still refused. -/
theorem successor_keeps_orphan :
    let obtained := registered.step (.msg (F := ℚ) 1 (.leaseRequest 4096) 0)
    let ticked := (run step obtained restartedClient).step (.tick (F := ℚ) defaultLeaseTtl)
    BrokerEffect.reply (F := ℚ) (.leaseGranted 1 4096) ∈
        (registered.perform (.msg 1 (.leaseRequest 4096) 0)).1 ∧
      (restartedClient.filterMap time++[defaultLeaseTtl]).Pairwise (· ≤ ·) ∧
      (run step obtained (restartedClient.take 1)).liveSession = none ∧
      AllSteps step (PsiBefore (· = 1) 1 defaultLeaseTtl) obtained restartedClient ∧
      activeId ticked.leaseBook = some 1 ∧
      denied .alreadyHeld ∈ (ticked.perform (F := ℚ) (.msg 2 (.leaseRequest 4096) (31*10^9))).1 := by
  refine ⟨.tail _ (.head _),by decide,by decide,⟨trivial,trivial,trivial,?_,trivial⟩,by decide,.head _⟩
  intro h
  cases h

end BrokerSessionCore
end RamShared.Winbroker

import RamShared.Admission.Rounds

/-! Every admission rests on a minute of healthy samples, by the very supervisor whose status it has
read. -/
namespace RamShared.Admission
open Lib Workload Pressure

instance (e : Access) : Nonempty e.Answer := by
  cases e <;> first
  | exact ⟨.error ""⟩
  | exact ⟨.error .notFound⟩
  | exact ⟨fun _ => false⟩
  | exact ⟨""⟩

variable {tr : Trace} {α : Type}

section Programs

/-- The first call takes the lock, and no other is made unless it was given; none issues a lease. -/
def Locked : Trace → Access → Prop
  | [], e => ∃ owner, e=.lock owner
  | call::_, e => (∃ owner, call = ⟨.lock owner,.ok ()⟩) ∧ (∀ owner, e≠.lock owner) ∧
    ∀ lease, e≠.writeLease lease

def Admitted (tr : Trace) : Prop :=
  ∃ owner t status isAlive state isAlive' lease rest,
    tr = ⟨.lock owner,.ok ()⟩::⟨.markerPresent,.ok false⟩::⟨.clock,.ok t⟩::⟨.readStatus,.ok status⟩::
      ⟨.probe,isAlive⟩::⟨.readAdmissionState,state⟩::⟨.probe,isAlive'⟩::⟨.readLease,.ok lease⟩::rest ∧
    Accepted status t 0 isAlive ∧ lease.supervisorIdentity=status.supervisorIdentity ∧
    lease.issuedAtEpochMs≤t ∧ t≤lease.issuedAtEpochMs+maxControlEvidenceAgeMs

/-- A lease is written only on a status that has shown sixty healthy samples. -/
def Proves (tr : Trace) : Access → Prop
  | .writeLease lease => ∃ status isAlive, ⟨.readStatus,.ok status⟩∈tr ∧
    Accepted status lease.issuedAtEpochMs 60 isAlive ∧
    lease.supervisorIdentity=status.supervisorIdentity
  | _ => True

def Outcome (r : Except String Reservation) (tr : Trace) : Prop :=
  match r with
  | .ok _ => Admitted tr
  | .error _ => True

lemma follows_admitReservationAt (owner : OwnerIdentity) (class_ : WorkloadClass)
    (memoryBytes aggregateMax : ℕ) :
    Prog.Follows Locked (admitReservationAt owner class_ memoryBytes aggregateMax) [] Outcome := by
  have hlater {tr : Trace} {e : Access} (he : (∀ owner, e≠.lock owner) ∧ ∀ lease, e≠.writeLease lease) :
      Locked (⟨.lock owner,.ok ()⟩::tr) e := ⟨⟨owner,rfl⟩,he⟩
  refine .call ⟨owner,rfl⟩ fun r => .ofExcept (fun _ hr => ?_) fun _ _ => trivial
  subst hr
  refine .call (hlater ⟨nofun,nofun⟩) fun r => .ofExcept (fun present hr => ?_) fun _ _ => trivial
  subst hr
  cases present with
  | true => exact .fail trivial
  | false =>
  refine .call (hlater ⟨nofun,nofun⟩) fun r => .ofExcept (fun t hr => ?_) fun _ _ => trivial
  subst hr
  refine .call (hlater ⟨nofun,nofun⟩) fun file => .call (hlater ⟨nofun,nofun⟩) fun isAlive => ?_
  refine .ofExcept (fun status hstatus => ?_) fun _ _ => trivial
  obtain ⟨rfl,haccepted⟩ := readCurrentSupervisorStatus_ok hstatus
  refine .call (hlater ⟨nofun,nofun⟩) fun state => .call (hlater ⟨nofun,nofun⟩) fun isAlive' => ?_
  refine .ofExcept (fun _ _ => ?_) fun _ _ => trivial
  refine .call (hlater ⟨nofun,nofun⟩) fun file => .call (hlater ⟨nofun,nofun⟩) fun probe => ?_
  refine .ofExcept (fun found hfound => ?_) fun _ _ => trivial
  cases found with
  | none => exact .fail trivial
  | some lease =>
  obtain ⟨rfl,hlease⟩ := readResumeLeaseIfPresent_ok hfound
  obtain ⟨hidentity,hissued,hrecent⟩ := validateResumeLease_ok hlease
  refine .call (hlater ⟨nofun,nofun⟩) fun r => .ofExcept (fun ledger hr => ?_) fun _ _ => trivial
  refine .call (hlater ⟨nofun,nofun⟩) fun probe => .call (hlater ⟨nofun,nofun⟩) fun nonce => ?_
  refine .ofExcept (fun x _ => ?_) fun _ _ => trivial
  refine .call (hlater ⟨nofun,nofun⟩) fun r => .ofExcept (fun _ _ => ?_) fun _ _ => trivial
  exact .ok ⟨owner,t,status,isAlive,state,isAlive',lease,_,rfl,haccepted,hidentity,hissued,hrecent⟩

lemma follows_refuseIf {rule : Trace → Access → Prop} {c : Bool} {reason : String}
    {f : Unit → Program α} {Q : Except String α → Trace → Prop}
    (hok : Prog.Follows rule (f ()) tr Q) (herr : Q (.error reason) tr) :
    Prog.Follows rule (refuseIf c reason >>= f) tr Q := by
  cases c with
  | true => exact .fail herr
  | false => exact hok

lemma follows_demand {rule : Trace → Access → Prop} (x : Except String α)
    {Q : Except String α → Trace → Prop} (h : ∀ r, Q r tr) : Prog.Follows rule (demand x) tr Q := by
  cases x with
  | ok a => exact .ok (h _)
  | error err => exact .fail (h _)

lemma follows_recordTransaction {current : OwnerIdentity} {supervisor : SupervisorStatus}
    {gate : GuestSafeModeGate} {lease : ResumeLease} {c : Σ e, Access.Answer e}
    (h : c∈tr) (hostGate : Option HostSafeModeGate) (pending : Option ResumeLease) :
    Prog.Follows Proves (recordTransaction current supervisor gate lease hostGate pending) tr
      fun _ tr => c∈tr := by
  cases hostGate with
  | some record =>
    refine follows_refuseIf ?_ h
    exact .call trivial fun r => follows_demand r fun _ => List.mem_append_left _ h
  | none =>
    cases pending with
    | none => exact .fail h
    | some transaction =>
      have hnext (r : Access.Answer .probe) : c∈tr++[⟨.probe,r⟩] := List.mem_append_left _ h
      refine .call trivial fun r => .ofExcept (fun _ _ => ?_) fun _ _ => hnext r
      unfold refuseIf
      split_ifs
      · exact .fail (hnext r)
      · exact .ok (hnext r)

lemma follows_removeHostGate (distro : String) (hostGate : Option HostSafeModeGate) :
    Prog.Follows Proves (removeHostGate distro hostGate) tr fun _ _ => True := by
  cases hostGate with
  | none => exact .ok trivial
  | some record => exact .call trivial fun r => follows_demand _ fun _ => trivial

lemma follows_recoverResumeAt (current : OwnerIdentity) :
    Prog.Follows Proves (recoverResumeAt current) [] fun _ _ => True := by
  refine .call trivial fun r => .ofExcept (fun bootId _ => ?_) fun _ _ => trivial
  refine follows_refuseIf ?_ trivial
  refine .call trivial fun r => .ofExcept (fun t _ => ?_) fun _ _ => trivial
  refine .call trivial fun file => .call trivial fun isAlive => ?_
  refine .ofExcept (fun status hstatus => ?_) fun _ _ => trivial
  obtain ⟨rfl,haccepted⟩ : file=.ok status ∧ Accepted status t 60 isAlive := by
    cases hread : readCurrentSupervisorStatus file current t 60 isAlive with
    | error err =>
      rw [hread] at hstatus
      cases hstatus
    | ok s =>
      rw [hread] at hstatus
      obtain rfl : s=status := Except.ok.inj hstatus
      exact readCurrentSupervisorStatus_ok hread
  refine .call trivial fun r => .ofExcept (fun gate _ => ?_) fun _ _ => trivial
  refine follows_refuseIf (follows_refuseIf ?_ trivial) trivial
  refine .call trivial fun r => .ofExcept (fun hostGate _ => ?_) fun _ _ => trivial
  refine .call trivial fun r => .ofExcept (fun pending _ => ?_) fun _ _ => trivial
  refine (follows_recordTransaction (c := ⟨.readStatus,.ok status⟩) (by simp) hostGate pending).bind
    (fun _ tr htr => ?_) fun _ _ _ => trivial
  refine .call ⟨status,isAlive,htr,haccepted,rfl⟩ fun r => .ofExcept (fun _ _ => ?_) fun _ _ => trivial
  refine (follows_removeHostGate gate.distro hostGate).bind (fun _ tr _ => ?_) fun _ _ _ => trivial
  refine .call trivial fun r => .ofExcept (fun _ _ => ?_) fun _ _ => trivial
  exact .call trivial fun r => follows_demand r fun _ => trivial

end Programs

namespace Shared
variable {d d' : Shared} {n : ℕ} {tr : Trace}

/-- The lease was issued on a status that its supervisor had published shortly before. -/
def Proven (d : Shared) (lease : ResumeLease) : Prop :=
  ∃ x∈d.published, x.status.supervisorIdentity=lease.supervisorIdentity ∧
    60≤x.status.healthySamples ∧ x.status.writtenAtUnixMs≤lease.issuedAtEpochMs ∧
    lease.issuedAtEpochMs≤x.status.writtenAtUnixMs+maxControlEvidenceAgeMs

/-- The evidence files hold what the supervisors and the recoveries have written. -/
structure Genuine (d : Shared) : Prop where
  status : ∀ s∈d.files.status, ∃ x∈d.published, x.status=s
  lease : ∀ l∈d.files.lease, d.Proven l
  streaks : ∀ x∈d.published, Streak x.samples x.status.healthySamples

structure Known (d : Shared) (tr : Trace) : Prop where
  status : ∀ s, ⟨.readStatus,.ok s⟩∈tr → ∃ x∈d.published, x.status=s
  lease : ∀ l, ⟨.readLease,.ok l⟩∈tr → d.Proven l

lemma Proven.mono {lease : ResumeLease} (h : d.Proven lease) (hd : d.published ⊆ d'.published) :
    d'.Proven lease := by
  obtain ⟨x,hx,hlease⟩ := h
  exact ⟨x,hd hx,hlease⟩

lemma Known.mono (h : d.Known tr) (hd : d.published ⊆ d'.published) : d'.Known tr := by
  refine ⟨fun s hs => ?_,fun l hl => (h.lease l hl).mono hd⟩
  obtain ⟨x,hx,hs⟩ := h.status s hs
  exact ⟨x,hd hx,hs⟩

section Access
variable (d n) (e : Access) (r : Reply)

lemma access_published : (d.access n e r).1.published=d.published := by
  cases e <;> first
  | rfl
  | (simp only [access]; split_ifs <;> rfl)

lemma access_status : (d.access n e r).1.files.status=d.files.status := by
  cases e <;> first
  | rfl
  | (simp only [access]; split_ifs <;> rfl)

lemma access_lease : (d.access n e r).1.files.lease=d.files.lease ∨
    ∃ lease, e=.writeLease lease ∧ (d.access n e r).1.files.lease=some lease := by
  cases e with
  | writeLease lease =>
    simp only [access]
    split_ifs
    · exact .inr ⟨lease,rfl,rfl⟩
    · exact .inl rfl
  | lock owner =>
    simp only [access]
    split_ifs <;> exact .inl rfl
  | _ => exact .inl rfl

lemma access_lock (he : ∀ owner, e≠.lock owner) : (d.access n e r).1.lock=d.lock := by
  cases e with
  | lock owner => exact absurd rfl (he owner)
  | _ => rfl

lemma access_lock_of_ok {owner : OwnerIdentity} (h : (d.access n (.lock owner) r).2=.ok ()) :
    (d.access n (.lock owner) r).1.lock=some n := by
  simp only [access] at h ⊢
  split_ifs at h ⊢
  · rfl
  · cases hr : r.error <;> simp_all [Reply.result]

lemma access_lock_others {m : ℕ} (h : d.lock=some m) : (d.access n e r).1.lock=some m := by
  cases e with
  | lock owner => simp [access,h]
  | _ => exact h

end Access

lemma Genuine.known (hg : d.Genuine) (h : d.Known tr) (n : ℕ) (e : Access) (r : Reply) :
    d.Known (tr++[⟨e,(d.access n e r).2⟩]) := by
  have hread {α : Type} {file : Option α} {a : α} (ha : r.read file=.ok a) : a∈file := by
    unfold Reply.read at ha
    cases hf : r.fault <;> cases file <;> simp_all
  refine ⟨fun s hs => ?_,fun l hl => ?_⟩
  · obtain hs | hs := List.mem_append.mp hs
    · exact h.status s hs
    · have heq := List.mem_singleton.mp hs
      obtain rfl := congrArg Sigma.fst heq
      exact hg.status s (hread (eq_of_heq (Sigma.mk.inj heq).2).symm)
  · obtain hl | hl := List.mem_append.mp hl
    · exact h.lease l hl
    · have heq := List.mem_singleton.mp hl
      obtain rfl := congrArg Sigma.fst heq
      exact hg.lease l (hread (eq_of_heq (Sigma.mk.inj heq).2).symm)

lemma Genuine.congr (hg : d.Genuine) (hp : d'.published=d.published)
    (hs : d'.files.status=d.files.status) (hl : d'.files.lease=d.files.lease) : d'.Genuine := by
  refine ⟨fun s h => ?_,fun l h => ?_,fun x h => ?_⟩
  · rw [hp]
    exact hg.status s (hs ▸ h)
  · exact (hg.lease l (hl ▸ h)).mono (hp ▸ List.Subset.refl _)
  · exact hg.streaks x (hp ▸ h)

lemma Genuine.access (hg : d.Genuine) (hk : d.Known tr) (n : ℕ) (e : Access) (r : Reply)
    (he : ∀ lease, e=.writeLease lease → Proves tr e) : (d.access n e r).1.Genuine := by
  have hp := d.access_published n e r
  obtain hl | ⟨lease,rfl,hl⟩ := d.access_lease n e r
  · exact hg.congr hp (d.access_status n e r) hl
  · obtain ⟨status,isAlive,hmem,haccepted,hidentity⟩ := he lease rfl
    obtain ⟨x,hx,rfl⟩ := hk.status status hmem
    refine ⟨fun s h => ?_,fun l h => ?_,fun x h => hg.streaks x (hp ▸ h)⟩
    · rw [hp]
      exact hg.status s (d.access_status n _ r ▸ h)
    · obtain rfl := Option.some.inj (hl.symm.trans h)
      refine Proven.mono ⟨x,hx,hidentity.symm,haccepted.samples,haccepted.written,haccepted.recent⟩ ?_
      rw [hp]
      exact List.Subset.refl _

end Shared

def Sound (d : Shared) (n : ℕ) : Party → Prop
  | .supervisor s =>
    (s.stopped=false → s.running=none → Streak s.samples s.machine.healthySamples) ∧
      ∀ p∈s.running, ∃ tr, Backs s.samples p tr (Ends s.samples)
  | .recovery x => d.Known x.trace ∧ Prog.Follows Proves x.prog x.trace fun _ _ => True
  | .admission x => d.Known x.trace ∧ Prog.Follows Locked x.prog x.trace Outcome ∧
    ∀ e next, x.prog=.call e next → x.trace≠[] → d.lock=some n

lemma Sound.mono {d d' : Shared} {n : ℕ} {p : Party} (h : Sound d n p)
    (hd : d.published ⊆ d'.published) (hl : d.lock=some n → d'.lock=some n) : Sound d' n p := by
  cases p with
  | supervisor s => exact h
  | recovery x => exact ⟨h.1.mono hd,h.2⟩
  | admission x => exact ⟨h.1.mono hd,h.2.1,fun e next hx ht => hl (h.2.2 e next hx ht)⟩

variable {s : Supervising}

namespace System
variable {w : System} {n : ℕ} {p q : Party} {d : Shared}

structure Rests (w : System) : Prop where
  genuine : w.shared.Genuine
  sound : w.Each Sound
  publishers : ∀ x∈w.shared.published,
    ∃ p, w.threads[x.process]?=some p ∧ p.identity=some x.status.supervisorIdentity
  distinct : ∀ (n m : ℕ) p q i, w.threads[n]?=some p → w.threads[m]?=some q →
    p.identity=some i → q.identity=some i → n=m

lemma rests_new (ledger : ReservationLedger) (records : World) : (new ledger records).Rests := by
  refine ⟨⟨?_,?_,?_⟩,fun n p hn => ?_,?_,fun n _ p _ _ hn => ?_⟩
  · rintro _ ⟨⟩
  · rintro _ ⟨⟩
  · exact List.forall_mem_nil _
  · cases hn
  · exact List.forall_mem_nil _
  · cases hn

lemma Rests.turn (h : w.Rests) {act : ℕ → Shared → Party → Shared × Party}
    (hn : w.threads[n]?=some p) (ha : act n w.shared p = (d,q)) (hg : d.Genuine) (hq : Sound d n q)
    (hi : q.identity=p.identity) (hsub : w.shared.published ⊆ d.published)
    (hp : ∀ x∈d.published, x∈w.shared.published ∨ x.process=n ∧ p.identity=some x.status.supervisorIdentity)
    (hl : ∀ m, m≠n → w.shared.lock=some m → d.lock=some m) : Rests (Threads.turn act w n) := by
  have hget {m : ℕ} {u : Party} : (Threads.turn act w n).threads[m]?=some u ↔
      m=n ∧ q=u ∨ m≠n ∧ w.threads[m]?=some u := by
    have hturn : (Threads.turn act w n).threads[m]?=some u ↔ _ := Threads.get_turn hn
    simpa [ha] using hturn
  have hshared : (Threads.turn act w n).shared=d := by rw [Threads.shared_turn hn,ha]
  -- After the turn, every place has the identity that it had before.
  have hsame {m : ℕ} {u : Party} (hu : (Threads.turn act w n).threads[m]?=some u) :
      ∃ v, w.threads[m]?=some v ∧ v.identity=u.identity := by
    obtain ⟨rfl,rfl⟩ | ⟨-,hm⟩ := hget.mp hu
    · exact ⟨p,hn,hi.symm⟩
    · exact ⟨u,hm,rfl⟩
  refine ⟨hshared ▸ hg,h.sound.turn (fun t ht => ?_) (fun t m u ht hmn hm => ?_),?_,?_⟩
  · obtain rfl := Option.some.inj (hn.symm.trans ht)
    rw [ha]
    exact hq
  · obtain rfl := Option.some.inj (hn.symm.trans ht)
    rw [ha]
    exact (h.sound m u hm).mono hsub (hl m hmn)
  · intro x hx
    rw [hshared] at hx
    obtain hx | ⟨hxn,hx⟩ := hp x hx
    · obtain ⟨v,hv,hvi⟩ := h.publishers x hx
      by_cases hxn : x.process=n
      · rw [hxn] at hv
        obtain rfl := Option.some.inj (hn.symm.trans hv)
        exact ⟨q,hget.mpr (.inl ⟨hxn,rfl⟩),hi.trans hvi⟩
      · exact ⟨v,hget.mpr (.inr ⟨hxn,hv⟩),hvi⟩
    · exact ⟨q,hget.mpr (.inl ⟨hxn,rfl⟩),hi.trans hx⟩
  · intro a b u v i hu hv hui hvi
    obtain ⟨u',hu',hui'⟩ := hsame hu
    obtain ⟨v',hv',hvi'⟩ := hsame hv
    exact h.distinct a b u' v' i hu' hv' (hui'.trans hui) (hvi'.trans hvi)

lemma Rests.spawn (h : w.Rests) (hp : ∀ d n, Sound d n p)
    (hi : ∀ i, p.identity=some i → ∀ q∈w.threads, q.identity≠some i) : Rests (w.spawn p) := by
  refine ⟨h.genuine,h.sound.spawn (hp _ _),fun x hx => ?_,fun a b u v i hu hv hui hvi => ?_⟩
  · obtain ⟨q,hq,hqi⟩ := h.publishers x hx
    exact ⟨q,Threads.get_spawn.mpr (.inl hq),hqi⟩
  · obtain hu | ⟨rfl,rfl⟩ := Threads.get_spawn.mp hu
    · obtain hv | ⟨-,rfl⟩ := Threads.get_spawn.mp hv
      · exact h.distinct a b u v i hu hv hui hvi
      · exact absurd hui (hi i hvi u (List.mem_of_getElem? hu))
    · obtain hv | ⟨hb,-⟩ := Threads.get_spawn.mp hv
      · exact absurd hvi (hi i hui v (List.mem_of_getElem? hv))
      · exact hb.symm

lemma Rests.publish (h : w.Rests) {e : Effect} (he : Backed s.samples e) (a : Answer)
    (n : ℕ) {d : Shared} (hp : d.published=w.shared.published)
    (hs : d.files.status=w.shared.files.status) (hl : d.files.lease=w.shared.files.lease) :
    (d.publish n s a e).Genuine ∧ (d.publish n s a e).lock=d.lock ∧
      w.shared.published ⊆ (d.publish n s a e).published ∧
      ∀ x∈(d.publish n s a e).published, x∈w.shared.published ∨
        x.process=n ∧ some s.identity=some x.status.supervisorIdentity := by
  have hd : d.Genuine := h.genuine.congr hp hs hl
  unfold Shared.publish
  split
  · split_ifs
    · rename_i decision results daemonInstanceId writtenAtUnixMs hlands
      refine ⟨⟨?_,fun l hm => ?_,fun x hx => ?_⟩,rfl,?_,fun x hx => ?_⟩
      · rintro _ ⟨⟩
        exact ⟨_,List.mem_append_right _ (List.mem_singleton_self _),rfl⟩
      · exact (hd.lease l hm).mono (List.subset_append_left _ _)
      · obtain hx | hx := List.mem_append.mp hx
        · exact hd.streaks x hx
        · rw [List.mem_singleton.mp hx]
          exact he
      · rw [←hp]
        exact List.subset_append_left _ _
      · obtain hx | hx := List.mem_append.mp hx
        · exact .inl (hp ▸ hx)
        · rw [List.mem_singleton.mp hx]
          exact .inr ⟨rfl,rfl⟩
    · exact ⟨hd,rfl,hp ▸ List.Subset.refl _,fun x hx => .inl (hp ▸ hx)⟩
  · split_ifs
    · exact ⟨hd.congr rfl rfl rfl,rfl,hp ▸ List.Subset.refl _,fun x hx => .inl (hp ▸ hx)⟩
    · exact ⟨hd,rfl,hp ▸ List.Subset.refl _,fun x hx => .inl (hp ▸ hx)⟩
  · exact ⟨hd,rfl,hp ▸ List.Subset.refl _,fun x hx => .inl (hp ▸ hx)⟩

lemma sound_resume {r : Action (Supervisor × SupervisorDecision × Option String)}
    {tr : Prog.Trace Effect fun e => Except String e.Result} (h : Backs s.samples r tr (Ends s.samples))
    (d : Shared) (n : ℕ) : Sound d n (.supervisor (s.resume r)) := by
  cases r with
  | ok x => exact ⟨fun _ _ => h.2,nofun⟩
  | fail err => exact ⟨nofun,nofun⟩
  | call e next =>
    refine ⟨nofun,?_⟩
    rintro _ ⟨⟩
    exact ⟨tr,h⟩

lemma resume_identity (s : Supervising) (r : Action (Supervisor × SupervisorDecision × Option String)) :
    (s.resume r).identity=s.identity := by
  cases r <;> rfl

lemma Rests.supervisor (h : w.Rests) (hn : w.threads[n]?=some (.supervisor s))
    (t : Turn) : Rests (Threads.turn (act t) w n) := by
  obtain ⟨hidle,hrunning⟩ := h.sound n _ hn
  have hquiet {u : Supervising} (ht : s.turn n w.shared t = (w.shared,u))
      (hs : Sound w.shared n (.supervisor u)) (hi : u.identity=s.identity) :
      Rests (Threads.turn (act t) w n) :=
    h.turn (d := w.shared) (q := .supervisor u) hn (by simp [act,ht]) h.genuine hs
      (congrArg some hi) (List.Subset.refl _) (fun x hx => .inl hx) fun _ _ hm => hm
  cases t with
  | access | unlock => exact hquiet rfl ⟨hidle,hrunning⟩ rfl
  | kill => exact hquiet rfl ⟨nofun,nofun⟩ rfl
  | round total available psi delayMs elapsedMs nowMs =>
    by_cases hbusy : (s.stopped || s.running.isSome)=true
    · exact hquiet (if_pos hbusy) ⟨hidle,hrunning⟩ rfl
    · obtain ⟨hstopped,hnone⟩ : s.stopped=false ∧ s.running=none := by simpa using hbusy
      let sample := collectSample total available psi delayMs elapsedMs
      refine hquiet (u := { s with
        samples := s.samples++[sample]
        running := some (iteration s.machine sample nowMs)}) (if_neg hbusy) ⟨nofun,?_⟩ rfl
      rintro _ ⟨⟩
      exact ⟨[],backs_iteration ((hidle hstopped hnone).concat
        (fullyHealthy_collectSample total available psi delayMs elapsedMs)) nowMs⟩
  | effect a =>
    cases hs : s.running with
    | none => exact hquiet (by simp [Supervising.turn,Supervising.effect,hs]) ⟨hidle,hrunning⟩ rfl
    | some p =>
      obtain ⟨tr,hp⟩ := hrunning p hs
      cases p with
      | ok x => exact hquiet (by simp [Supervising.turn,Supervising.effect,hs]) ⟨hidle,hrunning⟩ rfl
      | fail err => exact hquiet (by simp [Supervising.turn,Supervising.effect,hs]) ⟨hidle,hrunning⟩ rfl
      | call e next =>
        obtain ⟨hg,hl,hsub,hpub⟩ := h.publish hp.2.1 (w.shared.answer e a) n
          (d := (w.shared.exec e a).1) rfl rfl rfl
        refine h.turn (q := .supervisor (s.resume (next (w.shared.exec e a).2))) hn
          (by simp [act,Supervising.turn,Supervising.effect,hs]) hg
          (sound_resume (hp.answer (w.shared.exec e a).2) _ n) (congrArg some (resume_identity s _)) hsub
          hpub fun m _ hm => ?_
        rw [hl]
        exact hm

lemma turn_cases (x : Running α) (n : ℕ) (d : Shared) (t : Turn) : x.turn n d t = (d,x) ∨
    (∃ y, x.turn n d t = (d.unlock n,y) ∧ y.trace=x.trace ∧
      ((∃ a, x.prog=.ok a ∧ y.prog=.ok a) ∨ ∃ err, y.prog=.fail err)) ∨ ∃ e next r, x.prog=.call e next ∧
      (x.turn n d t).2 = ⟨next (d.access n e r).2,x.trace++[⟨e,(d.access n e r).2⟩]⟩ ∧
      ((x.turn n d t).1 = (d.access n e r).1 ∨
        (x.turn n d t).1 = (d.access n e r).1.unlock n ∧ ∃ err, next (d.access n e r).2=.fail err) := by
  obtain ⟨prog,tr⟩ := x
  cases t with
  | round | effect => exact .inl rfl
  | access r =>
    cases prog with
    | ok | fail => exact .inl rfl
    | call e next =>
      refine .inr (.inr ⟨e,next,r,rfl,rfl,?_⟩)
      cases hp : next (d.access n e r).2 with
      | fail err => exact .inr ⟨by simp [Running.turn,Running.step,hp],err,rfl⟩
      | ok | call => exact .inl (by simp [Running.turn,Running.step,hp])
  | unlock =>
    cases prog with
    | fail | call => exact .inl rfl
    | ok a => exact .inr (.inl ⟨_,rfl,rfl,.inl ⟨a,rfl,rfl⟩⟩)
  | kill =>
    cases prog with
    | ok a => exact .inr (.inl ⟨_,rfl,rfl,.inl ⟨a,rfl,rfl⟩⟩)
    | fail err => exact .inr (.inl ⟨_,rfl,rfl,.inr ⟨err,rfl⟩⟩)
    | call e next => exact .inr (.inl ⟨_,rfl,rfl,.inr ⟨_,rfl⟩⟩)

lemma unlock_others {d : Shared} {n m : ℕ} (hmn : m≠n) (h : d.lock=some m) : (d.unlock n).lock=some m := by
  simp [Shared.unlock,h,hmn]

lemma Rests.running (h : w.Rests) {x : Running α} {mk : Running α → Party}
    (hmk : ∀ y, (mk y).identity=none) {t : Turn}
    (hact : ∀ d, act t n d (mk x) = (x.turn n d t).map id mk) (hn : w.threads[n]?=some (mk x))
    (hk : w.shared.Known x.trace)
    (hlease : ∀ e next, x.prog=.call e next → ∀ lease, e=.writeLease lease → Proves x.trace e)
    (hsame : Sound w.shared n (mk x)) (hstop : ∀ y : Running α, y.trace=x.trace →
      ((∃ a, x.prog=.ok a ∧ y.prog=.ok a) ∨ ∃ err, y.prog=.fail err) → Sound (w.shared.unlock n) n (mk y))
    (hcall : ∀ e next r d, x.prog=.call e next → d.published=w.shared.published →
      (d.lock = (w.shared.access n e r).1.lock ∨ ∃ err, next (w.shared.access n e r).2=.fail err) →
      Sound d n (mk ⟨next (w.shared.access n e r).2,x.trace++[⟨e,(w.shared.access n e r).2⟩]⟩)) :
    Rests (Threads.turn (act t) w n) := by
  have hstep {d : Shared} {y : Running α} (hy : x.turn n w.shared t = (d,y)) (hg : d.Genuine)
      (hs : Sound d n (mk y)) (hp : d.published=w.shared.published)
      (hl : ∀ m, m≠n → w.shared.lock=some m → d.lock=some m) : Rests (Threads.turn (act t) w n) := by
    refine h.turn (q := mk y) hn (by simp [hact,hy]) hg hs ((hmk y).trans (hmk x).symm) ?_ (fun u hu => ?_) hl
    · rw [hp]
      exact List.Subset.refl _
    · exact .inl (hp ▸ hu)
  obtain ht | ⟨y,ht,htr,hy⟩ | ⟨e,next,r,hx,ht,hd⟩ := turn_cases x n w.shared t
  · exact hstep ht h.genuine hsame rfl fun _ _ hm => hm
  · exact hstep ht (h.genuine.congr rfl rfl rfl) (hstop y htr hy) rfl fun m hmn hm => unlock_others hmn hm
  · have hg := h.genuine.access hk n e r (hlease e next hx)
    have hp := w.shared.access_published n e r
    obtain hd | ⟨hd,hfail⟩ := hd
    · exact hstep (Prod.ext hd ht) hg (hcall e next r _ hx hp (.inl rfl)) hp fun m _ hm =>
        w.shared.access_lock_others n e r hm
    · exact hstep (Prod.ext hd ht) (hg.congr rfl rfl rfl) (hcall e next r _ hx hp (.inr hfail)) hp
        fun m hmn hm => unlock_others hmn (w.shared.access_lock_others n e r hm)

lemma Rests.recovery (h : w.Rests) {x : Running Unit} (hn : w.threads[n]?=some (.recovery x)) (t : Turn) :
    Rests (Threads.turn (act t) w n) := by
  obtain ⟨hk,hf⟩ := h.sound n _ hn
  have hmk (y : Running Unit) : (Party.recovery y).identity=none := rfl
  refine h.running hmk (fun _ => rfl) hn hk (fun e next hx _ _ => ?_) ⟨hk,hf⟩
    (fun y htr hy => ?_) fun e next r d hx hp _ => ?_
  · rw [hx] at hf
    exact hf.2.1
  · have hy' : w.shared.Known y.trace := by rw [htr]; exact hk
    refine ⟨hy'.mono (List.Subset.refl _),?_⟩
    obtain ⟨a,-,hy⟩ | ⟨err,hy⟩ := hy <;> rw [hy]
    · exact .ok trivial
    · exact .fail trivial
  · rw [hx] at hf
    exact ⟨(h.genuine.known hk n e r).mono (hp ▸ List.Subset.refl _),hf.answer _⟩

lemma Rests.admission (h : w.Rests) {x : Running Reservation} (hn : w.threads[n]?=some (.admission x))
    (t : Turn) : Rests (Threads.turn (act t) w n) := by
  obtain ⟨hk,hf,hl⟩ := h.sound n _ hn
  have hmk (y : Running Reservation) : (Party.admission y).identity=none := rfl
  refine h.running hmk (fun _ => rfl) hn hk
    (fun e next hx lease he => ?_) ⟨hk,hf,hl⟩ (fun y htr hy => ?_) fun e next r d hx hp hd => ?_
  · rw [hx] at hf
    have hrule := hf.2.1
    cases htr : x.trace with
    | nil =>
      rw [htr] at hrule
      obtain ⟨owner,rfl⟩ := hrule
      cases he
    | cons call tr =>
      rw [htr] at hrule
      exact absurd he (hrule.2.2 lease)
  · have hy' : w.shared.Known y.trace := by rw [htr]; exact hk
    refine ⟨hy'.mono (List.Subset.refl _),?_,?_⟩
    · obtain ⟨a,hx,hy⟩ | ⟨err,hy⟩ := hy <;> rw [hy]
      · rw [hx] at hf
        exact htr ▸ hf
      · exact .fail trivial
    · intro e next hcall
      obtain ⟨a,-,hy⟩ | ⟨err,hy⟩ := hy <;> rw [hy] at hcall <;> cases hcall
  · rw [hx] at hf
    have hrule := hf.2.1
    have hnext := hf.answer (w.shared.access n e r).2
    refine ⟨(h.genuine.known hk n e r).mono (hp ▸ List.Subset.refl _),hnext,fun e' next' hcall _ => ?_⟩
    simp only at hcall
    rw [hcall] at hnext
    obtain hd | ⟨err,hfail⟩ := hd
    · rw [hd]
      cases htr : x.trace with
      | nil =>
        -- The call was the one for the lock, and the next one is made only if it was given.
        rw [htr] at hrule hnext
        obtain ⟨owner,rfl⟩ := hrule
        obtain ⟨⟨owner',hok⟩,-⟩ := hnext.2.1
        obtain ⟨hown,hans⟩ := Sigma.mk.inj hok
        cases hown
        exact w.shared.access_lock_of_ok n r (eq_of_heq hans)
      | cons call tr =>
        rw [htr] at hrule
        rw [w.shared.access_lock n e r hrule.2.1]
        exact hl e next hx (by simp [htr])
    · rw [hfail] at hcall
      cases hcall

lemma Rests.step (h : w.Rests) {a : Move} (ha : w.Distinct a) : (w.step a).Rests := by
  cases a with
  | supervise identity =>
    refine h.spawn (fun d n => ⟨fun _ _ => Streak.zero _,nofun⟩) fun i hi q hq => ?_
    obtain rfl := Option.some.inj hi
    exact ha q hq
  | recover current =>
    exact h.spawn (fun d n => ⟨⟨nofun,nofun⟩,follows_recoverResumeAt current⟩) nofun
  | admitting owner class_ memoryBytes aggregateMax =>
    exact h.spawn (fun d n => ⟨⟨nofun,nofun⟩,follows_admitReservationAt owner class_ memoryBytes aggregateMax,
      fun _ _ _ ht => absurd rfl ht⟩) nofun
  | gates guestGate hostGate pending =>
    exact ⟨h.genuine.congr rfl rfl rfl,fun n p hn => (h.sound n p hn).mono (List.Subset.refl _) id,
      h.publishers,h.distinct⟩
  | turn n t =>
    change Rests (Threads.turn _ _ _)
    cases hn : w.threads[n]? with
    | none => simpa [Threads.turn,hn] using h
    | some p =>
      cases p with
      | supervisor s => exact h.supervisor hn t
      | recovery x => exact h.recovery hn t
      | admission x => exact h.admission hn t

/-- An admission by the calls of the trace rests on a minute of healthy samples: its status was
published by the one supervisor of that identity, which the probe reported alive, and the same
supervisor had published, at most half a minute before, on sixty healthy samples in a row. -/
def RestsOnMinute (w : System) (tr : Trace) : Prop :=
  ∃ owner t status isAlive rest,
    tr = ⟨.lock owner,.ok ()⟩::⟨.markerPresent,.ok false⟩::⟨.clock,.ok t⟩::⟨.readStatus,.ok status⟩::
      ⟨.probe,isAlive⟩::rest ∧
    status.controlState = "HEALTHY" ∧ status.writtenAtUnixMs≤t ∧ t ≤ status.writtenAtUnixMs+15000 ∧
    isAlive status.supervisorIdentity=true ∧
    ∃ n s, w.threads[n]?=some (.supervisor s) ∧ s.identity=status.supervisorIdentity ∧
      (∀ (m : ℕ) u, w.threads[m]?=some (.supervisor u) → u.identity=s.identity → m=n) ∧
      (∃ samples, ⟨n,samples,status⟩∈w.shared.published) ∧
      ∃ earlier minute proof, ⟨n,earlier++minute,proof⟩∈w.shared.published ∧
        proof.writtenAtUnixMs≤t ∧ t≤proof.writtenAtUnixMs+30000 ∧
        minute.length=60 ∧ ∀ x∈minute, FullyHealthy x

/-- Whatever the processes, the clocks and the probe do: an admission that succeeds rests on a healthy
minute, and the safe-mode marker is looked at under the lock of the ledger only. -/
theorem admission_rests_on_minute (ledger : ReservationLedger) (records : World) (moves : List Move)
    (h : AllSteps step Distinct (new ledger records) moves) (n : ℕ) (x : Running Reservation)
    (hn : (run step (new ledger records) moves).threads[n]? = some (.admission x)) :
    (∀ reservation, x.prog = .ok reservation →
      RestsOnMinute (run step (new ledger records) moves) x.trace) ∧
    ∀ next, x.prog = .call .markerPresent next →
      (run step (new ledger records) moves).shared.lock = some n := by
  have hr : (run step (new ledger records) moves).Rests :=
    h.invariant step (fun _ _ hw ha => hw.step ha) (rests_new ledger records)
  generalize run step (new ledger records) moves = w at hn hr
  obtain ⟨hk,hf,hl⟩ := hr.sound n _ hn
  refine ⟨fun reservation hx => ?_,fun next hx => hl _ next hx fun htr => ?_⟩
  · rw [hx] at hf
    obtain ⟨owner,t,status,isAlive,state,isAlive',lease,rest,htr,haccepted,hidentity,hissued,hrecent⟩ := hf.2
    obtain ⟨a,ha,rfl⟩ := hk.status status (by simp [htr])
    obtain ⟨b,hb,hbi,hsixty,hwritten,hage⟩ := hk.lease lease (by simp [htr])
    obtain ⟨p,hp,hpi⟩ := hr.publishers a ha
    obtain ⟨q,hq,hqi⟩ := hr.publishers b hb
    -- Both publications are by the process of that identity.
    have hab : b.process=a.process := hr.distinct _ _ q p _ hq hp (hqi.trans (by rw [hbi,hidentity])) hpi
    obtain ⟨earlier,minute,hsamples,hlength,hall⟩ := (hr.genuine.streaks b hb).mono hsixty
    cases p with
    | recovery | admission => cases hpi
    | supervisor s =>
      have hs : s.identity=a.status.supervisorIdentity := Option.some.inj hpi
      refine ⟨owner,t,a.status,isAlive,_,htr,haccepted.healthy,haccepted.written,haccepted.recent,
        haccepted.alive,a.process,s,hp,hs,fun m u hm hu => ?_,⟨a.samples,ha⟩,
        earlier,minute,b.status,?_,hwritten.trans hissued,?_,hlength,hall⟩
      · exact hr.distinct m _ _ _ s.identity hm hp (congrArg some hu) rfl
      · rw [← hab,← hsamples]
        exact hb
      · unfold maxControlEvidenceAgeMs at hrecent hage
        omega
  · rw [hx,htr] at hf
    obtain ⟨owner,hlock⟩ := hf.2.1
    cases hlock

instance (w : System) : ∀ a, Decidable (w.Distinct a)
  | .supervise identity => inferInstanceAs (Decidable (∀ p∈w.threads, p.identity≠some identity))
  | .recover _ | .admitting _ _ _ _ | .turn _ _ | .gates _ _ _ => inferInstanceAs (Decidable True)

/-- A round on a healthy sample, with the six calls that it makes. -/
def healthyRound (k : ℕ) : List Move :=
  .turn 0 (.round 17179869184 12884901888 (some 0) 0 k (1000*k))::
    List.replicate 6 (.turn 0 (.effect ⟨none,false,"daemon",[]⟩))

def granted (nowMs : ℕ) : Turn := .access ⟨none,none,false,"boot",nowMs,fun _ => true⟩

def minuteThenAdmission : List Move :=
  [.supervise ⟨"boot",7,1,"ab"⟩]++(List.range 60).flatMap healthyRound ++
    [.gates (some ⟨1,"0123456789abcdef0123456789abcdef","distro","boot"⟩)
      (fun _ => some ⟨1,"0123456789abcdef0123456789abcdef","distro","earlier","pressure","noon"⟩) none,
      .recover ⟨"boot",8,1,"ac"⟩]++List.replicate 12 (.turn 1 (granted 61000)) ++
    [.admitting ⟨"boot",9,1,"ad"⟩ .build (2*gibBytes) (12*gibBytes)] ++
    List.replicate 13 (.turn 2 (granted 62000))

/-- Process `n` is an admission that has returned a reservation. -/
def returned (w : System) (n : ℕ) : Bool :=
  match w.threads[n]? with
  | some (.admission ⟨.ok _,_⟩) => true
  | _ => false

theorem admission_rests_on_minute_minuteThenAdmission :
    ∃ x reservation, (run step (new ⟨3,1,[]⟩ .new) minuteThenAdmission).threads[2]? = some (.admission x) ∧
      x.prog = .ok reservation ∧
      RestsOnMinute (run step (new ⟨3,1,[]⟩ .new) minuteThenAdmission) x.trace := by
  have h : AllSteps step Distinct (new ⟨3,1,[]⟩ .new) minuteThenAdmission := by decide +kernel
  have hr : returned (run step (new ⟨3,1,[]⟩ .new) minuteThenAdmission) 2 = true := by decide +kernel
  unfold returned at hr
  split at hr
  · rename_i reservation tr hn
    exact ⟨_,reservation,hn,rfl,(admission_rests_on_minute _ _ _ h 2 _ hn).1 reservation rfl⟩
  · cases hr

end System
end RamShared.Admission

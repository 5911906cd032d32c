import RamShared.Nbd.Daemon
import RamShared.Lib.Streak

/-! The two kinds of child of the serving loop. First as a machine of their own, that knows only which
child is pending and what the recovery remembers; then the loop, which moves it. -/
namespace RamShared.Nbd
open Lib

/-- What the history of the children is made of: a `swapoff` is launched and confirmed, a recovery
observes the tier, launches a `swapon` or is refused one, and hears of it. -/
inductive Mark
  | swapoff
  | confirmed
  | observed (healthy tierEmpty : Bool)
  | launched
  | refused
  | reported (ok : Bool)
  deriving DecidableEq, Repr

namespace Mark

def good : Mark → Bool
  | .observed healthy tierEmpty => healthy && tierEmpty
  | _ => false

/-- An unhealthy observation, or one of a tier that is not empty. -/
def bad : Mark → Bool
  | .observed healthy tierEmpty => !(healthy && tierEmpty)
  | _ => false

/-- The `swapon` failed, or could not be started. -/
def failure : Mark → Bool
  | .reported ok => !ok
  | .refused => true
  | _ => false

def isReport : Mark → Bool
  | .reported _ => true
  | _ => false

lemma eq_of_good {m : Mark} (h : m.good=true) : m=.observed true true := by
  cases m <;> simp_all [good]

end Mark

variable (history : List Mark)

/-- A `swapoff` was confirmed after the last successful recovery, and no other was launched since. -/
def Demoted : Prop :=
  ∃ front back, history = front++.confirmed::back ∧ Mark.reported true∉back ∧ Mark.swapoff∉back

/-- After every failure there was a bad observation. -/
def Retried : Prop :=
  ∀ front f back, history = front++f::back → f.failure=true → ∃ m∈back, m.bad=true

/-- What the history must show when a recovery `swapon` is launched. -/
structure Recovers (before : List Mark) : Prop where
  demoted : Demoted before
  settled : List.replicate 3 (.observed true true) <:+ before
  retried : Retried before

lemma Demoted.concat {history : List Mark} (h : Demoted history) {m : Mark} (hm : m≠.reported true)
    (hm' : m≠.swapoff) : Demoted (history++[m]) := by
  obtain ⟨front,back,rfl,hback,hback'⟩ := h
  exact ⟨front,back++[m],by simp,by simpa [hback] using hm.symm,by simpa [hback'] using hm'.symm⟩

lemma demoted_concat : Demoted (history++[.confirmed]) :=
  ⟨history,[],rfl,by simp,by simp⟩

lemma retried_concat {history : List Mark} {m : Mark} (hm : m.failure=false)
    (h : Retried history ∨ m.bad=true) : Retried (history++[m]) := by
  intro front f back hsplit hf
  rcases List.eq_nil_or_concat back with rfl | ⟨back,m',rfl⟩
  · cases (List.append_inj' hsplit rfl).2
    simp [hm] at hf
  · rw [List.concat_eq_append,←List.cons_append,←List.append_assoc] at hsplit
    obtain ⟨hfront,hlast⟩ := List.append_inj' hsplit rfl
    cases hlast
    rcases h with h | hbad
    · obtain ⟨x,hx,hxbad⟩ := h front f back hfront hf
      exact ⟨x,by simp [hx],hxbad⟩
    · exact ⟨m,by simp,hbad⟩

/-- A `swapoff` is launched when no recovery is pending, a `swapon` when the recovery may. -/
def Mark.Ok (before : List Mark) : Mark → Prop
  | .swapoff => before.count .launched = before.countP Mark.isReport
  | .launched => Recovers before
  | _ => True

/-- Which children are pending, and what decides about the next one. -/
structure Children where
  demoted : Bool
  demoteRx : Bool
  resultRx : Bool
  failedEpoch : Bool
  recovery : RecoveryTracker

variable {l : List Mark}

namespace Children

/-- What may happen to the children, and what it leaves in the history. -/
inductive Move (c : Children) : List Mark → Children → Prop
  | swapoff (h : c.demoted=false) : Move c [.swapoff] {c with demoteRx := true}
  | confirmed {r} (h : c.demoteRx=true) (hr : r=c.recovery ∨ r=c.recovery.reset) :
      Move c [.confirmed] {c with demoteRx := false, demoted := true, recovery := r}
  | lost {r} (h : c.demoteRx=true) (hr : r=c.recovery ∨ r=c.recovery.reset) :
      Move c [] {c with demoteRx := false, recovery := r}
  | succeeded (h : c.resultRx=true) : Move c [.reported true] { c with
      demoted := false, resultRx := false, failedEpoch := false, recovery := c.recovery.reset}
  | failed (h : c.resultRx=true) : Move c [.reported false] { c with
      resultRx := false, failedEpoch := true, recovery := c.recovery.reset}
  | observed (healthy tierEmpty : Bool) (h : c.demoted=true) :
      Move c [.observed healthy tierEmpty] { c with
        failedEpoch := c.failedEpoch && (healthy && tierEmpty)
        recovery := (c.recovery.observe healthy tierEmpty).2}
  | launched (h : c.demoted=true) (hrx : c.resultRx=false) (hepoch : c.failedEpoch=false)
      (hready : c.recovery.required ≤ c.recovery.streak) : Move c [.launched] {c with resultRx := true}
  | refused (hrx : c.resultRx=false) :
      Move c [.refused] {c with failedEpoch := true, recovery := c.recovery.reset}

inductive Moves : Children → List Mark → Children → Prop
  | refl (c : Children) : Moves c [] c
  | step {c c₁ c₂ : Children} {l l' : List Mark} (h : Move c l c₁) (t : Moves c₁ l' c₂) : Moves c (l++l') c₂

lemma Move.moves {c c' : Children} (h : Move c l c') : Moves c l c' := by
  have := Moves.step h (.refl c')
  rwa [List.append_nil] at this

lemma Moves.trans {c₁ c₂ c₃ : Children} {l' : List Mark} (h : Moves c₁ l c₂) (h' : Moves c₂ l' c₃) :
    Moves c₁ (l++l') c₃ := by
  induction h with
  | refl => exact h'
  | step h _ ih =>
    rw [List.append_assoc]
    exact .step h (ih h')

/-- What the children remember, told by their history. -/
structure Remembers (c : Children) (history : List Mark) : Prop where
  required : c.recovery.required=3
  quiet : c.demoted=true → c.demoteRx=false
  pending : c.resultRx=true → c.demoted=true ∧ c.failedEpoch=false
  launches : history.count .launched = history.countP Mark.isReport+c.resultRx.toNat
  fresh : c.demoted=false → c.recovery.streak=0
  streak : c.resultRx=false → c.recovery.streak≤Lib.streak (history.map Mark.good)
  demoted : c.demoted=true → Demoted history
  retried : c.failedEpoch=false → Retried history
  allowed : Allowed Mark.Ok history

section
variable {c c' : Children} {history : List Mark}

lemma Remembers.not_pending (h : Remembers c history) (hd : c.demoted=false) : c.resultRx=false := by
  by_contra hrx
  rw [Bool.not_eq_false] at hrx
  simpa [hd] using (h.pending hrx).1

lemma Remembers.not_demoted (h : Remembers c history) (hrx : c.demoteRx=true) : c.demoted=false := by
  by_contra hd
  rw [Bool.not_eq_false] at hd
  simp [h.quiet hd] at hrx

lemma reset_streak {r r' : RecoveryTracker} (h : r.streak=0) (hr : r'=r ∨ r'=r.reset) :
    r'.streak=0 ∧ r'.required=r.required := by
  rcases hr with rfl | rfl
  · exact ⟨h,rfl⟩
  · exact ⟨rfl,rfl⟩

variable (h : Remembers c history)
include h

lemma Remembers.settled (hrx : c.resultRx=false) (hready : c.recovery.required ≤ c.recovery.streak) :
    List.replicate 3 (.observed true true) <:+ history := by
  have hthree : 3≤Lib.streak (history.map Mark.good) := by
    rw [h.required] at hready
    exact hready.trans (h.streak hrx)
  obtain ⟨recent,hsuffix,hlen,hall⟩ := exists_suffix_of_le_streak hthree
  rwa [List.eq_replicate_of_mem fun m hm => Mark.eq_of_good (hall m hm),hlen] at hsuffix

lemma Remembers.move (hm : Move c l c') : Remembers c' (history++l) := by
  cases hm with
  | swapoff hd =>
    have hrx := h.not_pending hd
    have hlaunches := h.launches
    refine ⟨h.required,fun hd' => ?_,h.pending,by simpa [Mark.isReport] using hlaunches,h.fresh,
      fun _ => ?_,fun hd' => ?_,fun he => retried_concat rfl (.inl (h.retried he)),h.allowed.concat ?_⟩
    · simp [hd] at hd'
    · simp [h.fresh hd]
    · simp [hd] at hd'
    · rwa [hrx] at hlaunches
  | confirmed hrx hr =>
    have hd := h.not_demoted hrx
    obtain ⟨hzero,hreq⟩ := reset_streak (h.fresh hd) hr
    refine ⟨hreq.trans h.required,fun _ => rfl,fun hrx' => ?_,by simpa [Mark.isReport] using h.launches,
      nofun,fun _ => ?_,fun _ => demoted_concat history,fun he => retried_concat rfl (.inl (h.retried he)),
      h.allowed.concat trivial⟩
    · simp [h.not_pending hd] at hrx'
    · simp [hzero]
  | lost hrx hr =>
    have hd := h.not_demoted hrx
    obtain ⟨hzero,hreq⟩ := reset_streak (h.fresh hd) hr
    rw [List.append_nil]
    exact ⟨hreq.trans h.required,fun _ => rfl,h.pending,h.launches,fun _ => hzero,fun _ => by simp [hzero],
      h.demoted,h.retried,h.allowed⟩
  | succeeded hrx =>
    obtain ⟨hd,he⟩ := h.pending hrx
    have hlaunches := h.launches
    refine ⟨h.required,nofun,nofun,?_,fun _ => rfl,fun _ => Nat.zero_le _,nofun,
      fun _ => retried_concat rfl (.inl (h.retried he)),h.allowed.concat trivial⟩
    simpa [hrx,Mark.isReport] using hlaunches
  | failed hrx =>
    obtain ⟨hd,he⟩ := h.pending hrx
    have hlaunches := h.launches
    refine ⟨h.required,h.quiet,nofun,?_,fun hd' => ?_,fun _ => Nat.zero_le _,
      fun _ => (h.demoted hd).concat (by simp) (by simp),nofun,h.allowed.concat trivial⟩
    · simpa [hrx,Mark.isReport] using hlaunches
    · simp [hd] at hd'
  | observed healthy tierEmpty hd =>
    refine ⟨?_,h.quiet,fun hrx => ⟨hd,?_⟩,by simpa [Mark.isReport] using h.launches,
      fun hd' => ?_,fun hrx => ?_,fun _ => (h.demoted hd).concat (by simp) (by simp),fun he => ?_,h.allowed.concat trivial⟩
    · unfold RecoveryTracker.observe
      split_ifs <;> exact h.required
    · simp [(h.pending hrx).2]
    · simp [hd] at hd'
    · have hle := h.streak hrx
      unfold RecoveryTracker.observe
      cases healthy <;> cases tierEmpty <;> simp [Mark.good,RecoveryTracker.reset]
      omega
    · refine retried_concat rfl ?_
      rcases Bool.and_eq_false_iff.mp he with he | hbad
      · exact .inl (h.retried he)
      · exact .inr (by rw [Mark.bad,hbad,Bool.not_false])
  | launched hd hrx hepoch hready =>
    refine ⟨h.required,h.quiet,fun _ => ⟨hd,hepoch⟩,?_,h.fresh,nofun,
      fun _ => (h.demoted hd).concat (by simp) (by simp),fun he => retried_concat rfl (.inl (h.retried he)),
      h.allowed.concat ⟨h.demoted hd,h.settled hrx hready,h.retried hepoch⟩⟩
    simpa [hrx,Mark.isReport] using h.launches
  | refused hrx =>
    refine ⟨h.required,h.quiet,fun hrx' => ?_,by simpa [Mark.isReport] using h.launches,
      fun _ => rfl,fun _ => Nat.zero_le _,fun hd => (h.demoted hd).concat (by simp) (by simp),nofun,h.allowed.concat trivial⟩
    simp [hrx] at hrx'

theorem Remembers.moves (hm : Moves c l c') : Remembers c' (history++l) := by
  induction hm generalizing history with
  | refl => rwa [List.append_nil]
  | step hm _ ih =>
    rw [←List.append_assoc]
    exact ih (h.move hm)

end

end Children
end RamShared.Nbd

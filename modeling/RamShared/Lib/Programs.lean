import RamShared.Lib.Run

/-! Programs that call their environment and may be stopped before every call. A triple says what holds
at the end, and along with it that the invariant holds at every point at which the program can stop,
and that no call is made outside its precondition. -/
namespace RamShared.Lib

/-- A program over the calls `E`, of which `e` is answered by an `R e`; it returns, or fails. -/
inductive Prog (E : Type) (R : E → Type) (ε α : Type)
  | ok (a : α)
  | fail (err : ε)
  | call (e : E) (next : R e → Prog E R ε α)

namespace Prog
variable {E : Type} {R : E → Type} {ε ε' α β : Type}

def andThen (f : α → Prog E R ε β) : Prog E R ε α → Prog E R ε β
  | .ok a => f a
  | .fail err => .fail err
  | .call e next => .call e fun r => (next r).andThen f

instance : Monad (Prog E R ε) where
  pure := .ok
  bind p f := p.andThen f

lemma bind_bind {γ : Type} (p : Prog E R ε α) (f : α → Prog E R ε β) (g : β → Prog E R ε γ) :
    (p >>= f) >>= g = p >>= fun a => f a >>= g := by
  induction p with
  | ok a => rfl
  | fail err => rfl
  | call e next ih => exact congrArg _ (funext ih)

def attempt : Prog E R ε α → Prog E R ε' (Except ε α)
  | .ok a => .ok (.ok a)
  | .fail err => .ok (.error err)
  | .call e next => .call e fun r => (next r).attempt

def ofExcept : Except ε α → Prog E R ε α
  | .ok a => .ok a
  | .error err => .fail err

def ask {S : E → Type} (e : E) : Prog E (fun e => Except ε (S e)) ε (S e) := .call e ofExcept

variable {f : α → Prog E R ε β} {e : E}

section Semantics
variable {W A : Type} (exec : W → (e : E) → A → W × R e)

def eval : Prog E R ε α → (ℕ → A) → W → Except ε α × W
  | .ok a, _, w => (.ok a,w)
  | .fail err, _, w => (.error err,w)
  | .call e next, as, w =>
    eval (next (exec w e (as 0)).2) (fun n => as (n+1)) (exec w e (as 0)).1

variable {exec} in
lemma eval_bind_error {p : Prog E R ε α} {f : α → Prog E R ε β} {as : ℕ → A} {w w' : W} {err : ε}
    (h : eval exec p as w = (.error err,w')) : eval exec (p >>= f) as w = (.error err,w') := by
  induction p generalizing as w with
  | ok a => cases h
  | fail err' =>
    obtain ⟨herr,rfl⟩ := Prod.mk.inj h
    obtain rfl := Except.error.inj herr
    rfl
  | call e next ih => exact ih _ h

variable (Inv : W → Prop) (Pre : W → E → Prop)

def Triple : Prog E R ε α → W → (Except ε α → W → Prop) → Prop
  | .ok a, w, Q => Inv w ∧ Q (.ok a) w
  | .fail err, w, Q => Inv w ∧ Q (.error err) w
  | .call e next, w, Q => Inv w ∧ Pre w e ∧
    ∀ a, Triple (next (exec w e a).2) (exec w e a).1 Q

variable {exec} {Inv} {Pre} {p : Prog E R ε α} {w : W} {Q Q' : Except ε α → W → Prop}

lemma Triple.inv (h : Triple exec Inv Pre p w Q) : Inv w := by
  cases p <;> exact h.1

lemma Triple.mono (h : Triple exec Inv Pre p w Q) (hQ : ∀ r w, Inv w → Q r w → Q' r w) :
    Triple exec Inv Pre p w Q' := by
  induction p generalizing w with
  | ok a => exact ⟨h.1,hQ _ _ h.1 h.2⟩
  | fail err => exact ⟨h.1,hQ _ _ h.1 h.2⟩
  | call e next ih => exact ⟨h.1,h.2.1,fun a => ih _ (h.2.2 a)⟩

lemma Triple.bind {f : α → Prog E R ε β} {Q' : Except ε β → W → Prop} (h : Triple exec Inv Pre p w Q)
    (hok : ∀ a w, Inv w → Q (.ok a) w → Triple exec Inv Pre (f a) w Q')
    (herr : ∀ err w, Inv w → Q (.error err) w → Q' (.error err) w) : Triple exec Inv Pre (p >>= f) w Q' := by
  induction p generalizing w with
  | ok a => exact hok a w h.1 h.2
  | fail err => exact ⟨h.1,herr err w h.1 h.2⟩
  | call e next ih => exact ⟨h.1,h.2.1,fun a => ih _ (h.2.2 a)⟩

lemma Triple.attempt (h : Triple exec Inv Pre p w Q) :
    Triple exec Inv Pre (p.attempt : Prog E R ε' (Except ε α)) w fun r w => ∃ x, r=.ok x ∧ Q x w := by
  induction p generalizing w with
  | ok a => exact ⟨h.1,_,rfl,h.2⟩
  | fail err => exact ⟨h.1,_,rfl,h.2⟩
  | call e next ih => exact ⟨h.1,h.2.1,fun a => ih _ (h.2.2 a)⟩

lemma Triple.ask {S : E → Type} {exec : W → (e : E) → A → W × Except ε (S e)}
    {Q : Except ε (S e) → W → Prop} (hw : Inv w) (he : Pre w e)
    (h : ∀ a, Inv (exec w e a).1 ∧ Q (exec w e a).2 (exec w e a).1) : Triple exec Inv Pre (Prog.ask e) w Q := by
  refine ⟨hw,he,fun a => ?_⟩
  have ha := h a
  generalize (exec w e a).2 = r at ha ⊢
  cases r <;> exact ha

end Semantics

section Traces
variable {p : Prog E R ε α}

abbrev Trace (E : Type) (R : E → Type) := List (Σ e, R e)

/-- An environment that answers in any way and only keeps the trace. -/
def record (tr : Trace E R) (e : E) (answers : ∀ e, R e) : Trace E R × R e :=
  (tr++[⟨e,answers e⟩],answers e)

/-- Whatever is answered, a call is made only if the rule admits it after the trace so far. -/
abbrev Follows (rule : Trace E R → E → Prop) (p : Prog E R ε α) (tr : Trace E R)
    (Q : Except ε α → Trace E R → Prop) : Prop :=
  Triple record (fun _ => True) rule p tr Q

abbrev perform (e : E) : Prog E R ε (R e) := .call e .ok

variable {rule : Trace E R → E → Prop} {tr : Trace E R} {Q : Except ε α → Trace E R → Prop}

lemma Follows.ok {a : α} (h : Q (.ok a) tr) : Follows rule (.ok a) tr Q := ⟨trivial,h⟩

lemma Follows.fail {err : ε} (h : Q (.error err) tr) : Follows rule (.fail err) tr Q := ⟨trivial,h⟩

lemma Follows.call {next : R e → Prog E R ε α} (he : rule tr e)
    (h : ∀ r, Follows rule (next r) (tr++[⟨e,r⟩]) Q) : Follows rule (.call e next) tr Q :=
  ⟨trivial,he,fun answers => h (answers e)⟩

lemma Follows.perform {f : R e → Prog E R ε α} (he : rule tr e)
    (h : ∀ r, Follows rule (f r) (tr++[⟨e,r⟩]) Q) : Follows rule (Prog.perform e >>= f) tr Q :=
  .call he h

lemma Follows.answer [∀ e, Nonempty (R e)] {next : R e → Prog E R ε α}
    (h : Follows rule (.call e next) tr Q) (r : R e) : Follows rule (next r) (tr++[⟨e,r⟩]) Q := by
  classical
  have hr := h.2.2 (Function.update (fun _ => Classical.ofNonempty) e r)
  simpa only [record,Function.update_self] using hr

lemma Follows.ofExcept {x : Except ε β} {f : β → Prog E R ε α}
    (hok : ∀ b, x=.ok b → Follows rule (f b) tr Q) (herr : ∀ err, x=.error err → Q (.error err) tr) :
    Follows rule (Prog.ofExcept x >>= f) tr Q := by
  cases x with
  | ok b => exact hok b rfl
  | error err => exact Follows.fail (herr err rfl)

lemma Follows.bind {Q' : Except ε β → Trace E R → Prop}
    (h : Follows rule p tr Q) (hok : ∀ a tr, Q (.ok a) tr → Follows rule (f a) tr Q')
    (herr : ∀ err tr, Q (.error err) tr → Q' (.error err) tr) : Follows rule (p >>= f) tr Q' :=
  Triple.bind h (fun a tr _ => hok a tr) fun err tr _ => herr err tr

section Ask
variable {S : E → Type} {rule : Trace E (fun e => Except ε (S e)) → E → Prop} {e : E}
  {tr : Trace E fun e => Except ε (S e)} {Q : Except ε α → Trace E (fun e => Except ε (S e)) → Prop}

lemma Follows.ask {f : S e → Prog E (fun e => Except ε (S e)) ε α} (he : rule tr e)
    (hok : ∀ a, Follows rule (f a) (tr++[⟨e,.ok a⟩]) Q)
    (herr : ∀ err, Q (.error err) (tr++[⟨e,.error err⟩])) : Follows rule (Prog.ask e >>= f) tr Q :=
  .call he fun
    | .ok a => hok a
    | .error err => .fail (herr err)

lemma Follows.attemptAsk {f : Except ε (S e) → Prog E (fun e => Except ε (S e)) ε α} (he : rule tr e)
    (h : ∀ x, Follows rule (f x) (tr++[⟨e,x⟩]) Q) :
    Follows rule ((Prog.ask e).attempt >>= f) tr Q :=
  .call he fun
    | .ok a => h (.ok a)
    | .error err => h (.error err)

end Ask

lemma Follows.eval (h : Follows rule p tr Q) (answers : ℕ → ∀ e, R e) :
    Q (Prog.eval record p answers tr).1 (Prog.eval record p answers tr).2 := by
  induction p generalizing answers tr with
  | ok a => exact h.2
  | fail err => exact h.2
  | call e next ih => exact ih _ (h.2.2 (answers 0)) _

lemma Follows.weaken {rule' : Trace E R → E → Prop} (h : Follows rule p tr Q)
    (hrule : ∀ tr e, rule tr e → rule' tr e) : Follows rule' p tr Q := by
  induction p generalizing tr with
  | ok a => exact h
  | fail err => exact h
  | call e next ih => exact ⟨trivial,hrule tr e h.2.1,fun answers => ih _ (h.2.2 answers)⟩

/-- Every call is of the kind `C`, and what is returned satisfies `P`, whatever is answered. -/
def Within (C : E → Prop) (P : α → Prop) : Prog E R ε α → Prop
  | .ok a => P a
  | .fail _ => True
  | .call e next => C e ∧ ∀ r, (next r).Within C P

section Within
variable {C : E → Prop} {P : α → Prop}

lemma Within.bind {P' : β → Prop} (h : p.Within C P)
    (hf : ∀ a, P a → (f a).Within C P') : (p >>= f).Within C P' := by
  induction p with
  | ok a => exact hf a h
  | fail err => trivial
  | call e next ih => exact ⟨h.1,fun r => ih r (h.2 r)⟩

lemma Within.mono {C' : E → Prop} {P' : α → Prop} (h : p.Within C P) (hC : ∀ e, C e → C' e)
    (hP : ∀ a, P a → P' a) : p.Within C' P' := by
  induction p with
  | ok a => exact hP a h
  | fail err => trivial
  | call e next ih => exact ⟨hC e h.1,fun r => ih r (h.2 r)⟩

lemma Within.ofExcept {x : Except ε α} (h : ∀ a, x=.ok a → P a) :
    (Prog.ofExcept x : Prog E R ε α).Within C P := by
  cases x with
  | ok a => exact h a rfl
  | error err => trivial

lemma Within.attempt (h : p.Within C P) : (p.attempt : Prog E R ε' (Except ε α)).Within C fun _ => True := by
  induction p with
  | ok a => trivial
  | fail err => trivial
  | call e next ih => exact ⟨h.1,fun r => ih r (h.2 r)⟩

lemma Follows.within_bind {Q : Except ε β → Trace E R → Prop}
    (h : p.Within C P) (hrule : ∀ tr e, C e → rule tr e)
    (hok : ∀ a m, (∀ x∈m, C x.1) → P a → Follows rule (f a) (tr++m) Q)
    (herr : ∀ err m, (∀ x∈m, C x.1) → Q (.error err) (tr++m)) : Follows rule (p >>= f) tr Q := by
  suffices hgen : ∀ m, (∀ x∈m, C x.1) → Follows rule (p >>= f) (tr++m) Q by
    simpa using hgen [] (List.forall_mem_nil _)
  induction p with
  | ok a => exact fun m hm => hok a m hm h
  | fail err => exact fun m hm => .fail (herr err m hm)
  | call e next ih =>
    refine fun m hm => .call (hrule _ e h.1) fun r => ?_
    rw [List.append_assoc]
    exact ih r (h.2 r) _ (List.forall_mem_append.mpr ⟨hm,by simpa using h.1⟩)

lemma Follows.within (h : p.Within C P) (hrule : ∀ tr e, C e → rule tr e)
    (hQ : ∀ r m, (∀ x∈m, C x.1) → (∀ a, r=.ok a → P a) → Q r (tr++m)) : Follows rule p tr Q := by
  suffices hgen : ∀ m, (∀ x∈m, C x.1) → Follows rule p (tr++m) Q by
    simpa using hgen [] (List.forall_mem_nil _)
  induction p with
  | ok a => exact fun m hm => .ok (hQ _ m hm fun _ ha => Except.ok.inj ha ▸ h)
  | fail err => exact fun m hm => .fail (hQ _ m hm fun _ ha => absurd ha (by simp))
  | call e next ih =>
    refine fun m hm => .call (hrule _ e h.1) fun r => ?_
    rw [List.append_assoc]
    exact ih r (h.2 r) _ (List.forall_mem_append.mpr ⟨hm,by simpa using h.1⟩)

end Within

/-- The program can make exactly the calls `t`, so answered, and then end with `r`. -/
def Runs : Prog E R ε α → Trace E R → Except ε α → Prop
  | .ok a, t, r => t=[] ∧ r=.ok a
  | .fail err, t, r => t=[] ∧ r=.error err
  | .call e next, t, r => ∃ x t', t = ⟨e,x⟩::t' ∧ (next x).Runs t' r

section Runs
variable {t : Trace E R} {r : Except ε α}

lemma runs_eval (answers : ℕ → ∀ e, R e) (tr : Trace E R) :
    ∃ t, (eval record p answers tr).2 = tr++t ∧ p.Runs t (eval record p answers tr).1 := by
  induction p generalizing answers tr with
  | ok a => exact ⟨[],(List.append_nil _).symm,rfl,rfl⟩
  | fail err => exact ⟨[],(List.append_nil _).symm,rfl,rfl⟩
  | call e next ih =>
    obtain ⟨t,ht,hr⟩ := ih (answers 0 e) (fun n => answers (n+1)) (tr++[⟨e,answers 0 e⟩])
    exact ⟨⟨e,answers 0 e⟩::t,by rw [eval,record,ht,List.append_assoc]; rfl,_,t,rfl,hr⟩

lemma mem_eval_record {answers : ℕ → ∀ e, R e} {tr : Trace E R} {x : R e}
    (h : ⟨e,x⟩∈(eval record p answers tr).2) : ⟨e,x⟩∈tr ∨ ∃ n, x = answers n e := by
  induction p generalizing answers tr with
  | ok a => exact .inl h
  | fail err => exact .inl h
  | call e' next ih =>
    rcases ih (answers 0 e') h with h | ⟨n,h⟩
    · rcases List.mem_append.mp h with h | h
      · exact .inl h
      · obtain ⟨rfl,hx⟩ := Sigma.mk.inj (List.mem_singleton.mp h)
        exact .inr ⟨0,eq_of_heq hx⟩
    · exact .inr ⟨n+1,h⟩

/-- The second part of a sequence goes on with the answers that are left. -/
lemma eval_record_bind {answers : ℕ → ∀ e, R e} {tr t : Trace E R} {a : α}
    (h : eval record p answers tr = (.ok a,tr++t)) : eval record (p >>= f) answers tr =
      eval record (f a) (fun n => answers (n+t.length)) (tr++t) := by
  induction p generalizing answers tr t with
  | ok a' =>
    obtain ⟨ha,ht⟩ := Prod.mk.inj h
    obtain rfl := Except.ok.inj ha
    obtain rfl : t=[] := by simpa using ht
    rw [List.append_nil]
    rfl
  | fail err => cases h
  | call e next ih =>
    obtain ⟨t',ht,-⟩ := runs_eval (p := next (answers 0 e)) (fun n => answers (n+1))
      (tr++[⟨e,answers 0 e⟩])
    have htail : t = ⟨e,answers 0 e⟩::t' := by
      have htr := (congrArg Prod.snd h).symm.trans ht
      rw [List.append_assoc] at htr
      exact List.append_cancel_left htr
    subst htail
    have hnext := ih (answers 0 e) (t := t') (h.trans (by simp [record]))
    change eval record (next (answers 0 e) >>= f) (fun n => answers (n+1)) (record tr e (answers 0)).1=_
    simpa [record,Nat.add_assoc] using hnext

lemma Runs.bind {r : Except ε β} (h : (p >>= f).Runs t r) : (∃ err, p.Runs t (.error err) ∧ r=.error err) ∨
    ∃ a t₁ t₂, t = t₁++t₂ ∧ p.Runs t₁ (.ok a) ∧ (f a).Runs t₂ r := by
  induction p generalizing t with
  | ok a => exact .inr ⟨a,[],t,rfl,⟨rfl,rfl⟩,h⟩
  | fail err => exact .inl ⟨err,⟨h.1,rfl⟩,h.2⟩
  | call e next ih =>
    obtain ⟨x,t',rfl,h⟩ := h
    rcases ih x h with ⟨err,he,hr⟩ | ⟨a,t₁,t₂,rfl,ha,hf⟩
    · exact .inl ⟨err,⟨x,t',rfl,he⟩,hr⟩
    · exact .inr ⟨a,⟨e,x⟩::t₁,t₂,rfl,⟨x,t₁,rfl,ha⟩,hf⟩

lemma Runs.within {C : E → Prop} {P : α → Prop} (h : p.Runs t r) (hp : p.Within C P) :
    (∀ x∈t, C x.1) ∧ ∀ a, r=.ok a → P a := by
  induction p generalizing t with
  | ok a =>
    obtain ⟨rfl,rfl⟩ := h
    exact ⟨List.forall_mem_nil _,fun _ ha => Except.ok.inj ha ▸ hp⟩
  | fail err =>
    obtain ⟨rfl,rfl⟩ := h
    exact ⟨List.forall_mem_nil _,fun _ ha => absurd ha (by simp)⟩
  | call e next ih =>
    obtain ⟨x,t',rfl,h⟩ := h
    exact ⟨List.forall_mem_cons.mpr ⟨hp.1,(ih x h (hp.2 x)).1⟩,(ih x h (hp.2 x)).2⟩

lemma Follows.runs [∀ e, Nonempty (R e)] (h : Follows rule p tr Q) (hr : p.Runs t r) {a b : Trace E R} {x : R e} (ht : t = a++⟨e,x⟩::b) : rule (tr++a) e := by
  induction p generalizing tr t a with
  | ok => simp [hr.1] at ht
  | fail => simp [hr.1] at ht
  | call e' next ih =>
    obtain ⟨y,t',rfl,hr⟩ := hr
    cases a with
    | nil =>
      obtain ⟨he,-⟩ := List.cons.inj ht
      obtain ⟨rfl,-⟩ := Sigma.mk.inj he
      rw [List.append_nil]
      exact h.2.1
    | cons z a =>
      obtain ⟨rfl,ht'⟩ := List.cons.inj ht
      have hrule := ih y (h.answer y) hr ht'
      rwa [List.append_assoc] at hrule

end Runs

section Loop
variable {ι : Type} (f : ι → Prog E R ε Unit)

def forEach : List ι → Prog E R ε Unit
  | [] => .ok ()
  | i::is => do
    f i
    forEach is

structure Round (E : Type) (R : E → Type) (ε ι : Type) where
  item : ι
  trace : Trace E R
  result : Except ε Unit

/-- The rounds that were made of a loop; the last one may have failed. -/
inductive Rounds : List ι → List (Round E R ε ι) → Except ε Unit → Prop
  | done : Rounds [] [] (.ok ())
  | next {i is t log r} : (f i).Runs t (.ok ()) → Rounds is log r → Rounds (i::is) (⟨i,t,.ok ()⟩::log) r
  | stop {i is t err} : (f i).Runs t (.error err) → Rounds (i::is) [⟨i,t,.error err⟩] (.error err)

variable {f} {is : List ι} {t : Trace E R} {r : Except ε Unit} {log : List (Round E R ε ι)}

lemma Within.forEach {C : E → Prop} (h : ∀ i, (f i).Within C fun _ => True) (is : List ι) :
    (Prog.forEach f is).Within C fun _ => True := by
  induction is with
  | nil => trivial
  | cons i is ih => exact (h i).bind fun _ _ => ih

lemma Runs.forEach (h : (forEach f is).Runs t r) : ∃ log, Rounds f is log r ∧ t = log.flatMap Round.trace := by
  induction is generalizing t with
  | nil =>
    obtain ⟨rfl,rfl⟩ := h
    exact ⟨[],.done,rfl⟩
  | cons i is ih =>
    rcases Runs.bind h with ⟨err,hf,rfl⟩ | ⟨⟨⟩,t₁,t₂,rfl,hf,h⟩
    · exact ⟨_,.stop hf,by simp⟩
    · obtain ⟨log,hlog,rfl⟩ := ih h
      exact ⟨_,.next hf hlog,by simp⟩

variable (h : Rounds f is log r)
include h

lemma Rounds.runs : ∀ s∈log, (f s.item).Runs s.trace s.result := by
  induction h with
  | done => exact List.forall_mem_nil _
  | next hf _ ih => exact List.forall_mem_cons.mpr ⟨hf,ih⟩
  | stop hf => simpa using hf

lemma Rounds.inOrder : log.map Round.item <+: is := by
  induction h with
  | done => exact List.nil_prefix
  | next _ _ ih => exact (List.cons_prefix_cons ..).mpr ⟨rfl,ih⟩
  | stop => exact (List.cons_prefix_cons ..).mpr ⟨rfl,List.nil_prefix⟩

lemma Rounds.failed {before after : List (Round E R ε ι)} {s : Round E R ε ι}
    (hlog : log = before++s::after) (hs : s.result≠.ok ()) : after=[] ∧ r≠.ok () := by
  induction h generalizing before with
  | done => simp at hlog
  | next _ _ ih =>
    cases before with
    | nil =>
      obtain ⟨rfl,-⟩ := List.cons.inj hlog
      exact absurd rfl hs
    | cons s' before => exact ih (List.cons.inj hlog).2
  | stop =>
    cases before with
    | nil => exact ⟨(List.cons.inj hlog).2.symm,by simp⟩
    | cons s' before => simp at hlog

lemma Rounds.all (hr : r=.ok ()) : log.map Round.item=is ∧ ∀ s∈log, s.result=.ok () := by
  induction h with
  | done => exact ⟨rfl,List.forall_mem_nil _⟩
  | next _ _ ih =>
    obtain ⟨hitems,hall⟩ := ih hr
    exact ⟨congrArg _ hitems,List.forall_mem_cons.mpr ⟨rfl,hall⟩⟩
  | stop => cases hr

end Loop
end Traces
end Prog

structure Host (W P : Type) where
  world : W
  running : Option P

namespace Host
variable {E : Type} {R : E → Type} {ε α W A I : Type}

/-- A program is started, in place of the one that has returned or was stopped; or the next call of
the running program is answered. -/
inductive Move (I A : Type)
  | start (i : I)
  | answer (a : A)
  deriving DecidableEq, Repr

variable (exec : W → (e : E) → A → W × R e) (enter : I → W → W) (prog : I → Prog E R ε α)

def step (h : Host W (Prog E R ε α)) : Move I A → Host W (Prog E R ε α)
  | .start i => ⟨enter i h.world,some (prog i)⟩
  | .answer a =>
    match h.running with
    | some (.call e next) => ⟨(exec h.world e a).1,some (next (exec h.world e a).2)⟩
    | _ => h

def next (h : Host W (Prog E R ε α)) : Option E :=
  match h.running with
  | some (.call e _) => some e
  | _ => none

variable {exec} {enter} {prog} {Inv : W → Prop} {Pre : W → E → Prop} {Q : Except ε α → W → Prop}

/-- If every program can be started under the invariant then the invariant holds throughout, and every
call is made under its precondition. -/
theorem run_safe {ok : I → Prop}
    (hstart : ∀ i w, ok i → Inv w → Prog.Triple exec Inv Pre (prog i) (enter i w) Q)
    {w : W} (hw : Inv w) {ms : List (Move I A)} (hms : ∀ i, .start i∈ms → ok i) :
    Inv (run (step exec enter prog) ⟨w,none⟩ ms).world ∧
    AllSteps (step exec enter prog) (fun h m => ∀ a, m=.answer a → ∀ e∈h.next, Pre h.world e) ⟨w,none⟩ ms := by
  suffices hgen : ∀ h : Host W (Prog E R ε α), Inv h.world →
      (∀ p∈h.running, Prog.Triple exec Inv Pre p h.world Q) →
      Inv (run (step exec enter prog) h ms).world ∧
      AllSteps (step exec enter prog) (fun h m => ∀ a, m=.answer a → ∀ e∈h.next, Pre h.world e)
        h ms from hgen ⟨w,none⟩ hw nofun
  induction ms with
  | nil => exact fun h hi _ => ⟨hi,trivial⟩
  | cons m ms ih =>
    intro h hi hp
    obtain ⟨world,running⟩ := h
    have htail := ih fun i hmem => hms i (List.mem_cons_of_mem m hmem)
    cases m with
    | start i =>
      have ht := hstart i world (hms i (List.mem_cons_self ..)) hi
      obtain ⟨h₁,h₂⟩ := htail ⟨enter i world,some (prog i)⟩ ht.inv
        (by rintro _ ⟨⟩; exact ht)
      exact ⟨h₁,nofun,h₂⟩
    | answer a =>
      cases running with
      | none =>
        obtain ⟨h₁,h₂⟩ := htail ⟨world,none⟩ hi hp
        exact ⟨h₁,nofun,h₂⟩
      | some p =>
        cases p with
        | ok | fail =>
          obtain ⟨h₁,h₂⟩ := htail ⟨world,some _⟩ hi hp
          exact ⟨h₁,nofun,h₂⟩
        | call e next =>
          obtain ⟨-,hpre,hnext⟩ := hp _ rfl
          obtain ⟨h₁,h₂⟩ := htail ⟨(exec world e a).1,some (next (exec world e a).2)⟩ (hnext a).inv
            (by rintro _ ⟨⟩; exact hnext a)
          refine ⟨h₁,?_,h₂⟩
          rintro _ _ _ ⟨⟩
          exact hpre

end Host
end RamShared.Lib

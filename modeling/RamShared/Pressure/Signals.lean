import RamShared.Lib.Fallible
import RamShared.Pressure.Actions

/-! Signals are bound to the identity that is on record, and the records survive a stop of the
supervisor at any point. -/
namespace RamShared.Pressure
open Lib Workload

variable (v : VictimIdentity)

/-- What a signal does to the scope: whether a freeze was run with no successful thaw since. -/
def Signal.freezes (frozen : Bool) (s : Signal) : Bool :=
  if s.verb=.freeze ∧ s.victim=some v then true
  else if s.verb=.thaw ∧ s.victim=some v ∧ s.ok=true then false
  else frozen

/-- A freeze was run on the identity, and no thaw of it has succeeded since. -/
def unthawed (log : List Signal) : Bool := log.foldl (Signal.freezes v) false

lemma unthawed_concat (log : List Signal) (s : Signal) :
    unthawed v (log++[s]) = s.freezes v (unthawed v log) := by
  simp [unthawed]

variable (w : World)

namespace World

/-- The identity in the record that the verb goes by. -/
def recorded : Verb → Option VictimIdentity
  | .freeze | .thaw => w.frozen.map FrozenTargetRecord.victim
  | .term | .kill => w.emergency.map EmergencyTargetRecord.victim

/-- A successful `TERM` of the identity is on record, by a time that is long enough ago. -/
def GraceOver (v : VictimIdentity) : Prop :=
  ∃ t now, ⟨.term,some v,true,some t⟩∈w.log ∧
    w.emergency.bind EmergencyTargetRecord.termSucceededAtUnixMs=some t ∧
    w.issuedAt=some now ∧ t+emergencyTermGraceMs≤now

/-- A unit is signalled right after the unit manager has returned the identity on record. -/
def Allowed : Effect → Prop
  | .run verb unit => ∃ v, w.asked=some v ∧ v.unit=unit ∧ w.recorded verb=some v ∧
    (verb=.kill → w.GraceOver v)
  | _ => True

structure Sound (w : World) : Prop where
  frozen : ∀ v, unthawed v w.log=true → w.frozen.map FrozenTargetRecord.victim=some v
  termed : ∀ r∈w.emergency, r.phase≠.pendingTerm → ∃ t, r.termSucceededAtUnixMs=some t ∧
    t<2^63 ∧ ⟨.term,some r.victim,true,some t⟩∈w.log
  time : ∀ t∈w.issuedAt, t<2^63

lemma sound_new : new.Sound := ⟨nofun,nofun,nofun⟩

lemma Sound.quiet {w : World} (h : w.Sound) : w.quiet.Sound := ⟨h.frozen,h.termed,h.time⟩

/-- The world after a signal to the identity that was asked for. -/
def signal (verb : Verb) (v : VictimIdentity) (ok : Bool) : World :=
  {w.quiet with log := w.log++[⟨verb,some v,ok,w.issuedAt⟩]}

section Changes
variable {w : World} {v : VictimIdentity}

variable (h : w.Sound)
include h

lemma Sound.signal {verb : Verb} (hr : w.recorded verb=some v) (ok : Bool) : (w.signal verb v ok).Sound := by
  refine ⟨fun u hu => ?_,fun r hm hp => ?_,h.time⟩
  · rw [World.signal,unthawed_concat,Signal.freezes] at hu
    split_ifs at hu with hfreeze
    · obtain ⟨rfl,he⟩ := hfreeze
      exact hr.trans he
    · exact h.frozen u hu
  · obtain ⟨t,ht,hlt,hmem⟩ := h.termed r hm hp
    exact ⟨t,ht,hlt,List.mem_append_left _ hmem⟩

lemma Sound.unthawed_thaw (hr : w.frozen.map FrozenTargetRecord.victim=some v)
    (u : VictimIdentity) : unthawed u (w.signal .thaw v true).log=false := by
  rw [World.signal,unthawed_concat,Signal.freezes]
  by_cases huv : v=u
  · simp [huv]
  · have hu : unthawed u w.log≠true := fun hu => huv (Option.some.inj (hr.symm.trans (h.frozen u hu)))
    simpa [huv] using hu

lemma Sound.setFrozen {r : FrozenTargetRecord} (hr : w.frozen.map FrozenTargetRecord.victim=none ∨
      w.frozen.map FrozenTargetRecord.victim=some r.victim) : Sound {w with frozen := some r} := by
  refine ⟨fun u hu => ?_,h.termed,h.time⟩
  have hf := h.frozen u hu
  obtain hn | hs := hr
  · rw [hn] at hf
    cases hf
  · exact hs.symm.trans hf

lemma Sound.setEmergency {r : EmergencyTargetRecord}
    (hr : r.phase≠.pendingTerm → ∃ t, r.termSucceededAtUnixMs=some t ∧ t<2^63 ∧
      ⟨.term,some r.victim,true,some t⟩∈w.log) : Sound {w with emergency := some r} := by
  refine ⟨h.frozen,?_,h.time⟩
  rintro _ ⟨⟩
  exact hr

end Changes
end World

variable {v : VictimIdentity}

lemma validateRecordVictim_ok {unit invocationId : String}
    (h : validateRecordVictim unit invocationId=.ok v) : v = ⟨unit,invocationId⟩ := by
  unfold validateRecordVictim at h
  rw [ite_throw_ok] at h
  exact (Except.ok.inj h.2).symm

lemma checkFrozenTarget_ok {r : Option FrozenTargetRecord} {x : Option (FrozenPhase × VictimIdentity)}
    (h : checkFrozenTarget r=.ok x) : x.map Prod.snd = r.map FrozenTargetRecord.victim := by
  cases r with
  | none =>
    obtain rfl : none=x := Except.ok.inj h
    rfl
  | some record =>
    simp only [checkFrozenTarget,ite_throw_ok,bind_ok] at h
    obtain ⟨-,v,hv,hx⟩ := h
    obtain rfl := Except.ok.inj hx
    obtain rfl := validateRecordVictim_ok hv
    rfl

lemma checkEmergencyTarget_ok {r x : Option EmergencyTargetRecord}
    (h : checkEmergencyTarget r=.ok x) : x=r := by
  cases r with
  | none => exact (Except.ok.inj h).symm
  | some record =>
    simp only [checkEmergencyTarget,ite_throw_ok] at h
    exact (Except.ok.inj h.2).symm

abbrev Safe {α : Type} (p : Action α) (w : World) (Q : Except String α → World → Prop) : Prop :=
  Prog.Triple World.exec World.Sound World.Allowed p w Q

variable {nowMs : ℕ}

section Calls
variable {w : World}

lemma Answer.result_ok {α : Type} {a : Answer} {x y : α} (h : a.result x=.ok y) : x=y ∧ a.error=none := by
  unfold Answer.result at h
  cases he : a.error with
  | some err => simp [he] at h
  | none => simpa [he] using h

lemma safe_ofExcept {α : Type} {r : Except String α} {Q : Except String α → World → Prop}
    (h : w.Sound) (hQ : Q r w) : Safe (Prog.ofExcept r) w Q := by
  cases r <;> exact ⟨h,hQ⟩

variable (h : w.Sound)
include h

lemma safe_readFrozenTarget : Safe readFrozenTarget w fun r w' => w'=w.quiet ∧ ∀ x, r=.ok x →
      x.map Prod.snd = w.frozen.map FrozenTargetRecord.victim := by
  refine (Prog.Triple.ask (Q := fun r w' => w'=w.quiet ∧ ∀ x, r=.ok x → x=w.frozen) h trivial
    fun a => ⟨h.quiet,rfl,fun x hx => (Answer.result_ok hx).1.symm⟩).bind ?_ ?_
  · rintro x w' hw ⟨rfl,hx⟩
    refine safe_ofExcept hw ⟨rfl,fun y hy => ?_⟩
    rw [checkFrozenTarget_ok hy,hx x rfl]
  · exact fun err w' _ hx => ⟨hx.1,nofun⟩

lemma safe_readEmergencyTarget :
    Safe readEmergencyTarget w fun r w' => w'=w.quiet ∧ ∀ x, r=.ok x → x=w.emergency := by
  refine (Prog.Triple.ask (Q := fun r w' => w'=w.quiet ∧ ∀ x, r=.ok x → x=w.emergency) h trivial
    fun a => ⟨h.quiet,rfl,fun x hx => (Answer.result_ok hx).1.symm⟩).bind ?_ ?_
  · rintro x w' hw ⟨rfl,hx⟩
    refine safe_ofExcept hw ⟨rfl,fun y hy => ?_⟩
    rw [checkEmergencyTarget_ok hy,hx x rfl]
  · exact fun err w' _ hx => ⟨hx.1,nofun⟩

lemma safe_writeFrozenTarget {phase : FrozenPhase} (hr : w.frozen.map FrozenTargetRecord.victim=none ∨
      w.frozen.map FrozenTargetRecord.victim=some v) :
    Safe (writeFrozenTarget phase v nowMs) w fun r w' => w'.issuedAt=w.issuedAt ∧
      (r=.ok () → w'.frozen.map FrozenTargetRecord.victim=some v) := by
  refine Prog.Triple.ask h trivial fun a => ⟨?_,rfl,fun ha => ?_⟩
  · simp only [World.exec]
    split_ifs
    · exact h.quiet.setFrozen hr
    · exact h.quiet
  · simp [World.exec,Answer.lands,(Answer.result_ok ha).2,FrozenTargetRecord.victim]

lemma safe_writeEmergencyTarget {phase : EmergencyPhase}
    {term : Option ℕ} (hr : phase≠.pendingTerm → ∃ t, term=some t ∧ t<2^63 ∧
      ⟨.term,some v,true,some t⟩∈w.log) :
    Safe (writeEmergencyTarget phase v term nowMs) w fun r w' => w'.issuedAt=w.issuedAt ∧
      (r=.ok () → w'.emergency.map EmergencyTargetRecord.victim=some v) := by
  refine Prog.Triple.ask h trivial fun a => ⟨?_,rfl,fun ha => ?_⟩
  · simp only [World.exec]
    split_ifs
    · exact h.quiet.setEmergency hr
    · exact h.quiet
  · simp [World.exec,Answer.lands,(Answer.result_ok ha).2,EmergencyTargetRecord.victim]

lemma safe_runIdentityBoundAction (verb : Verb)
    (hr : w.recorded verb=some v) (hk : verb=.kill → w.GraceOver v) :
    Safe (runIdentityBoundAction v verb) w fun r w' => w'.issuedAt=w.issuedAt ∧
      (r=.ok () → w' = w.signal verb v true) := by
  refine (Prog.Triple.ask (Q := fun r w' => w'.issuedAt=w.issuedAt ∧
    ∀ x, r=.ok x → w' = {w with asked := some ⟨v.unit,x⟩}) h trivial fun a =>
      ⟨⟨h.frozen,h.termed,h.time⟩,rfl,fun x hx => ?_⟩).bind ?_ ?_
  · obtain ⟨hx,he⟩ := Answer.result_ok hx
    simp [World.exec,he,hx]
  · rintro x w' hw ⟨-,hx⟩
    obtain rfl := hx x rfl
    split_ifs with hid
    · have hv : v = ⟨v.unit,x⟩ := by rw [hid]
      refine Prog.Triple.ask hw ⟨v,by rw [←hv],rfl,hr,hk⟩ fun a => ?_
      have hexec : (World.exec {w with asked := some ⟨v.unit,x⟩} (.run verb v.unit) a).1 =
          w.signal verb v a.error.isNone := by
        simp [World.exec,World.signal,World.quiet,←hv]
      rw [hexec]
      refine ⟨h.signal hr _,rfl,fun ha => ?_⟩
      rw [(Answer.result_ok ha).2]
      rfl
    · exact ⟨hw,rfl,nofun⟩
  · exact fun err w' _ hx => ⟨hx.1,nofun⟩

end Calls

section Actions
variable {w : World}

section
variable (h : w.Sound)
include h

lemma safe_freezeVictim (hr : w.frozen.map FrozenTargetRecord.victim=none ∨
      w.frozen.map FrozenTargetRecord.victim=some v) :
    Safe (freezeVictim v nowMs) w fun _ w' => w'.issuedAt=w.issuedAt := by
  refine (safe_writeFrozenTarget h hr).bind ?_ fun _ _ _ hx => hx.1
  rintro _ w₁ h₁ ⟨ht₁,hf₁⟩
  refine (safe_runIdentityBoundAction h₁ .freeze (hf₁ rfl) nofun).bind ?_ fun _ _ _ hx => hx.1.trans ht₁
  rintro _ w₂ h₂ ⟨ht₂,hf₂⟩
  obtain rfl := hf₂ rfl
  exact (safe_writeFrozenTarget h₂ (.inr (hf₁ rfl))).mono fun _ _ _ hx => hx.1.trans ht₁

lemma safe_executeFreeze (paths : ActionPaths) (selected : Except String (Option VictimIdentity)) :
    Safe (executeFreeze paths selected) w fun _ w' => w'.issuedAt=w.issuedAt := by
  unfold executeFreeze
  cases paths.issuedAtUnixMs with
  | none => exact ⟨h,rfl⟩
  | some nowMs =>
    refine (safe_readFrozenTarget h).bind ?_ ?_
    · rintro x _ h₁ ⟨rfl,hx⟩
      have hf := hx x rfl
      cases x with
      | none =>
        refine (safe_ofExcept (Q := fun _ w' => w'=w.quiet) h₁ rfl).bind ?_ ?_
        · rintro v _ h₂ rfl
          exact safe_freezeVictim h₂ (.inl hf.symm)
        · rintro err _ _ rfl
          rfl
      | some y =>
        obtain ⟨phase,v⟩ := y
        cases phase with
        | pending => exact safe_freezeVictim h₁ (.inr hf.symm)
        | applied => exact ⟨h₁,rfl⟩
    · rintro err _ _ ⟨rfl,-⟩
      rfl

lemma safe_executeThaw : Safe executeThaw w fun _ w' => w'.issuedAt=w.issuedAt := by
  refine (safe_readFrozenTarget h).bind ?_ ?_
  · rintro x _ h₁ ⟨rfl,hx⟩
    have hf := hx x rfl
    cases x with
    | none => exact ⟨h₁,rfl⟩
    | some y =>
      obtain ⟨phase,v⟩ := y
      refine (safe_runIdentityBoundAction h₁ .thaw hf.symm nofun).bind ?_ fun _ _ _ hx => hx.1
      rintro _ _ h₂ ⟨-,hf₂⟩
      obtain rfl := hf₂ rfl
      -- The thaw has succeeded, so the record may go.
      refine Prog.Triple.ask h₂ trivial fun a => ⟨⟨fun u hu => ?_,h₂.termed,h₂.time⟩,rfl⟩
      exact Bool.noConfusion (hu.symm.trans (h₁.unthawed_thaw hf.symm u))
  · rintro err _ _ ⟨rfl,-⟩
    rfl

lemma safe_termVictim (ht : w.issuedAt=some nowMs) :
    Safe (termVictim v nowMs) w fun _ w' => w'.issuedAt=w.issuedAt := by
  refine (safe_writeEmergencyTarget h nofun).bind ?_ fun _ _ _ hx => hx.1
  rintro _ w₁ h₁ ⟨ht₁,he₁⟩
  refine (safe_runIdentityBoundAction h₁ .term (he₁ rfl) nofun).bind ?_ fun _ _ _ hx => hx.1.trans ht₁
  rintro _ w₂ h₂ ⟨-,he₂⟩
  obtain rfl := he₂ rfl
  have hnow : w₁.issuedAt=some nowMs := ht₁.trans ht
  refine (safe_writeEmergencyTarget h₂ fun _ => ⟨nowMs,rfl,h₁.time nowMs hnow,?_⟩).mono
    fun _ _ _ hx => hx.1.trans ht₁
  rw [World.signal,hnow]
  exact List.mem_append_right _ (List.mem_singleton_self _)

lemma safe_executeTerm {paths : ActionPaths} (ht : w.issuedAt=paths.issuedAtUnixMs)
    (selected : Except String (Option VictimIdentity)) :
    Safe (executeTerm paths selected) w fun _ w' => w'.issuedAt=w.issuedAt := by
  unfold executeTerm
  cases hp : paths.issuedAtUnixMs with
  | none => exact ⟨h,rfl⟩
  | some nowMs =>
    have hnow : w.issuedAt=some nowMs := ht.trans hp
    have hterm {r : Except String VictimIdentity} (h₁ : w.quiet.Sound) :
        Safe (Prog.ofExcept r >>= fun v => termVictim v nowMs) w.quiet
          fun _ w' => w'.issuedAt=w.issuedAt := by
      refine (safe_ofExcept (Q := fun _ w' => w'=w.quiet) h₁ rfl).bind ?_ ?_
      · rintro v _ h₂ rfl
        exact safe_termVictim h₂ hnow
      · rintro err _ _ rfl
        rfl
    refine (safe_readEmergencyTarget h).bind ?_ ?_
    · rintro x _ h₁ ⟨rfl,-⟩
      cases x with
      | none => exact hterm h₁
      | some record =>
        cases hphase : record.phase with
        | pendingTerm => simpa only [hphase] using hterm h₁
        | termed | killed => simpa only [hphase] using ⟨h₁,rfl⟩
    · rintro err _ _ ⟨rfl,-⟩
      rfl

lemma safe_executeKill {paths : ActionPaths} (ht : w.issuedAt=paths.issuedAtUnixMs) :
    Safe (executeKill paths) w fun _ w' => w'.issuedAt=w.issuedAt := by
  unfold executeKill
  cases hp : paths.issuedAtUnixMs with
  | none => exact ⟨h,rfl⟩
  | some nowMs =>
    refine (safe_readEmergencyTarget h).bind ?_ ?_
    · rintro x _ h₁ ⟨rfl,hx⟩
      have he := hx x rfl
      cases x with
      | none => exact ⟨h₁,rfl⟩
      | some record =>
        cases hphase : record.phase with
        | pendingTerm | killed => simpa only [hphase] using ⟨h₁,rfl⟩
        | termed =>
          obtain ⟨t,hterm,hlt,hmem⟩ := h.termed record he.symm (by rw [hphase]; exact nofun)
          have hsat : saturatingAdd 64 t emergencyTermGraceMs = t+emergencyTermGraceMs := by
            simp only [saturatingAdd,emergencyTermGraceMs]
            omega
          simp only [hphase,hterm,hsat]
          by_cases hgrace : nowMs<t+emergencyTermGraceMs
          · rw [if_pos hgrace]
            exact ⟨h₁,rfl⟩
          · rw [if_neg hgrace]
            refine (safe_ofExcept (Q := fun r w' => w'=w.quiet ∧ ∀ v, r=.ok v → v=record.victim)
              h₁ ⟨rfl,fun v hv => validateRecordVictim_ok hv⟩).bind ?_ ?_
            · rintro v _ h₂ ⟨rfl,hv⟩
              obtain rfl := hv v rfl
              have hgo : w.quiet.GraceOver record.victim := by
                refine ⟨t,nowMs,hmem,?_,ht.trans hp,Nat.le_of_not_lt hgrace⟩
                rw [World.quiet,←he]
                exact hterm
              have hrec : w.quiet.recorded .kill=some record.victim := by
                simp [World.recorded,World.quiet,←he]
              refine (safe_runIdentityBoundAction h₂ .kill hrec fun _ => hgo).bind ?_ fun _ _ _ hx => hx.1
              rintro _ _ h₃ ⟨-,hs⟩
              obtain rfl := hs rfl
              exact (safe_writeEmergencyTarget h₃ fun _ =>
                ⟨t,rfl,hlt,List.mem_append_left _ hmem⟩).mono fun _ _ _ hx => hx.1
            · rintro err _ _ ⟨rfl,-⟩
              rfl
    · rintro err _ _ ⟨rfl,-⟩
      rfl

end

lemma safe_quiet {e : Effect} (h : w.Sound) (ha : w.Allowed e) (he : ∀ a, (w.exec e a).1=w.quiet) :
    Safe (ask e) w fun _ w' => w'.issuedAt=w.issuedAt := by
  refine Prog.Triple.ask h ha fun a => ?_
  rw [he a]
  exact ⟨h.quiet,rfl⟩

lemma safe_writeRuntimeRequest (h : w.Sound) (paths : ActionPaths) (name : String) (targetBytes : Option ℕ) :
    Safe (writeRuntimeRequest paths name targetBytes) w fun _ w' => w'.issuedAt=w.issuedAt := by
  unfold writeRuntimeRequest
  split
  · exact safe_quiet h trivial fun _ => rfl
  · exact ⟨h,rfl⟩

lemma safe_closeAdmission (h : w.Sound) (decision : SupervisorDecision) (writtenAtUnixMs : ℕ) :
    Safe (closeAdmission decision writtenAtUnixMs) w fun _ w' => w'.issuedAt=w.issuedAt := by
  unfold closeAdmission
  split_ifs
  · exact ⟨h,rfl⟩
  · exact safe_quiet h trivial fun _ => rfl

section Execution
variable {paths : ActionPaths} {close : Action Unit}
  (hclose : ∀ w : World, w.Sound → Safe close w fun _ w' => w'.issuedAt=w.issuedAt)
include hclose

lemma safe_executeAction (h : w.Sound) (ht : w.issuedAt=paths.issuedAtUnixMs)
    (victim : Except String (Option VictimIdentity)) (action : SupervisorAction) :
    Safe (executeAction paths close victim action) w fun _ w' => w'.issuedAt=w.issuedAt := by
  cases action with
  | closeAdmission => exact hclose w h
  | reduceVramCache | requestReclaim => exact safe_writeRuntimeRequest h paths _ _
  | freezeDiscardable => exact safe_executeFreeze h paths victim
  | thawDiscardable => exact safe_executeThaw h
  | terminateDiscardable => exact safe_executeTerm h ht victim
  | killDiscardable => exact safe_executeKill h ht

lemma safe_executeAll (h : w.Sound) (ht : w.issuedAt=paths.issuedAtUnixMs)
    (victim : Except String (Option VictimIdentity)) (actions : List SupervisorAction) :
    Safe (executeAll paths close victim actions) w fun _ _ => True := by
  induction actions generalizing w with
  | nil => exact ⟨h,trivial⟩
  | cons action actions ih =>
    refine (safe_executeAction hclose h ht victim action).attempt.bind ?_ fun _ _ _ _ => trivial
    rintro r w' h' ⟨-,-,ht'⟩
    exact (ih h' (ht'.trans ht)).bind (fun _ _ hw _ => ⟨hw,trivial⟩) fun _ _ _ _ => trivial

lemma safe_executeActionsWith (h : w.Sound) (ht : w.issuedAt=paths.issuedAtUnixMs)
    (decision : SupervisorDecision) : Safe (executeActionsWith decision paths close) w fun _ _ => True := by
  have hselect : Safe selectVictim w fun _ w' => w'.issuedAt=w.issuedAt :=
    (safe_quiet (e := .readLedger) h trivial fun _ => rfl).bind (fun _ _ hw hx => ⟨hw,hx⟩) fun _ _ _ hx => hx
  refine hselect.attempt.bind ?_ fun _ _ _ _ => trivial
  rintro victim w' h' ⟨-,-,ht'⟩
  exact safe_executeAll hclose h' (ht'.trans ht) victim decision.actions

end Execution
end Actions

structure Execution where
  decision : SupervisorDecision
  paths : ActionPaths
  writtenAtUnixMs : ℕ
  deriving DecidableEq, Repr

variable (x : Execution)

namespace Execution

def prog : Action (List ActionResult) :=
  executeActionsWith x.decision x.paths (closeAdmission x.decision x.writtenAtUnixMs)

def enter (w : World) : World :=
  {w.quiet with issuedAt := x.paths.issuedAtUnixMs}

/-- The wall time is below `2^63` milliseconds. -/
def Timely : Prop := ∀ t∈x.paths.issuedAtUnixMs, t<2^63

abbrev Run := List (Host.Move Execution Answer)

/-- The supervisor after the executions, each of them run to its end or stopped somewhere. -/
abbrev after (ms : Run) : Host World (Action (List ActionResult)) :=
  run (Host.step World.exec enter prog) ⟨World.new,none⟩ ms

lemma safe_prog {w : World} (hx : x.Timely) (h : w.Sound) : Safe x.prog (x.enter w) fun _ _ => True :=
  safe_executeActionsWith (fun _ hw => safe_closeAdmission hw x.decision x.writtenAtUnixMs)
    (w := x.enter w) ⟨h.frozen,h.termed,hx⟩ rfl x.decision

/-- Every signal goes to the identity on record, right after the unit manager has returned it; a `KILL`
comes after a successful `TERM` that is on record for long enough; and while a scope is frozen the
record names it. -/
theorem signals_identity_bound (ms : Run) (h : ∀ x : Execution, .start x ∈ ms → x.Timely) :
    AllSteps (Host.step World.exec enter prog) (fun s m => ∀ a, m = .answer a →
      ∀ verb unit, s.next = some (.run verb unit) →
        ∃ v, s.world.asked = some v ∧ v.unit=unit ∧ s.world.recorded verb = some v ∧
          (verb=.kill → s.world.GraceOver v)) ⟨World.new,none⟩ ms ∧
    ∀ v, unthawed v (after ms).world.log = true →
      (after ms).world.frozen.map FrozenTargetRecord.victim = some v := by
  obtain ⟨hsound,hall⟩ := Host.run_safe (fun x w hx hw => safe_prog x hx hw) World.sound_new h
  refine ⟨?_,hsound.frozen⟩
  exact AllSteps.of_invariant _ (P := fun _ => True) (fun _ _ _ _ => trivial)
    (fun s m _ hm a ha verb unit he => hm a ha (.run verb unit) he) trivial hall

def sampleVictim : VictimIdentity :=
  ⟨"ramshared-batch-1.scope","aaaaaaaaaaaaaaaaaaaaaaaaaaaaaaaa"⟩

def sampleReservation : Reservation :=
  ⟨"1",⟨"b",7,9,"1"⟩,.batch,2^30,sampleVictim.unit,some sampleVictim.invocationId,1⟩

def fine : Answer := ⟨none,true,sampleVictim.invocationId,[sampleReservation]⟩

/-- The supervisor stops after a freeze, before it is recorded as applied; the next one sends `TERM`,
and `KILL` five seconds later. -/
def stoppedThenKilled : Run :=
  [.start ⟨⟨.critical,[.freezeDiscardable],0⟩,⟨none,some 1000⟩,1000⟩]++List.replicate 5 (.answer fine) ++
  [.start ⟨⟨.emergency,[.terminateDiscardable],0⟩,⟨none,some 2000⟩,2000⟩] ++
    List.replicate 6 (.answer fine) ++
  [.start ⟨⟨.emergency,[.killDiscardable],0⟩,⟨none,some 7000⟩,7000⟩]++List.replicate 5 (.answer fine)

theorem signals_identity_bound_stoppedThenKilled :
    (after stoppedThenKilled).world.log = [⟨.freeze,some sampleVictim,true,some 1000⟩,
      ⟨.term,some sampleVictim,true,some 2000⟩,⟨.kill,some sampleVictim,true,some 7000⟩] ∧
    (after stoppedThenKilled).world.frozen.map FrozenTargetRecord.victim = some sampleVictim := by
  have hlog : (after stoppedThenKilled).world.log = [⟨.freeze,some sampleVictim,true,some 1000⟩,
      ⟨.term,some sampleVictim,true,some 2000⟩,⟨.kill,some sampleVictim,true,some 7000⟩] := by
    decide +kernel
  refine ⟨hlog,(signals_identity_bound stoppedThenKilled ?_).2 sampleVictim (by rw [hlog]; rfl)⟩
  intro x hx
  simp [stoppedThenKilled] at hx
  obtain rfl | rfl | rfl := hx <;> simp [Timely]

end Execution
end RamShared.Pressure

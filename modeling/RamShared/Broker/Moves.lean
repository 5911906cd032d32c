import RamShared.Broker.Core

/-! How an event may move the slices. Everything but a confirmed zeroing and a failed mount
uses the legal transitions other than `release`, so a draining slice stays as it is. -/
namespace RamShared.Broker
open Lib

inductive CellMove : Slice → Slice → Prop
  | assign {x : Slice} (t : TenantId) (h : x.state=.free) :
      CellMove x {x with state := .active, tenant := some t}
  | drain {x : Slice} (h : x.state=.active) : CellMove x {x with state := .draining}
  | lease {x : Slice} (h : x.state=.free) : CellMove x {x with state := .leased}
  | unlease {x : Slice} (h : x.state=.leased) : CellMove x {x with state := .free}

lemma CellMove.not_draining {x y : Slice} (h : CellMove x y) : x.state≠.draining := by
  cases h <;> simp_all

lemma CellMove.draining_iff {x y : Slice} (h : CellMove x y) : y.state=.draining ↔ x.state=.active := by
  cases h <;> simp_all

lemma CellMove.of_active {x y : Slice} (h : CellMove x y) (hx : x.state=.active) :
    y = {x with state := .draining} := by
  cases h <;> simp_all

variable {s : SliceId}

namespace SliceMap

def In (m : SliceMap) (s : SliceId) (state : SliceState) : Prop :=
  ∃ x, m.get s=some x ∧ x.state=state

variable {m m' : SliceMap} {l : List SliceId}

lemma In.unique {a b : SliceState} (ha : m.In s a) (hb : m.In s b) : a=b := by
  obtain ⟨x,hx,rfl⟩ := ha
  obtain ⟨y,hy,rfl⟩ := hb
  rw [hx] at hy
  cases hy
  rfl

lemma release_of_draining (h : m.In s .draining) : m.release s=.ok (m.put s .free none) := by
  obtain ⟨x,hx,hs⟩ := h
  simp [release,transition,hx,hs]

lemma assign_of_free (h : m.In s .free) (t : TenantId) : m.assign s t=.ok (m.put s .active (some t)) := by
  obtain ⟨x,hx,hs⟩ := h
  simp [assign,transition,hx,hs]

/-- One transition other than `release`, with the slice that it drains. -/
inductive Move : SliceMap → Option SliceId → SliceMap → Prop
  | assign {m m' : SliceMap} {id : SliceId} {tenant : TenantId} (h : m.assign id tenant=.ok m') :
      Move m none m'
  | drain {m m' : SliceMap} {id : SliceId} (h : m.drain id=.ok m') : Move m (some id) m'
  | lease {m m' : SliceMap} {id : SliceId} (h : m.lease id=.ok m') : Move m none m'
  | unlease {m m' : SliceMap} {id : SliceId} (h : m.unlease id=.ok m') : Move m none m'

/-- A chain of such transitions, with the slices drained on the way. -/
inductive Moves : SliceMap → List SliceId → SliceMap → Prop
  | refl (m : SliceMap) : Moves m [] m
  | step {m m₁ m₂ : SliceMap} {d : Option SliceId} {l : List SliceId} (h : Move m d m₁)
      (t : Moves m₁ l m₂) : Moves m (d.toList++l) m₂

lemma Move.moves {d : Option SliceId} (h : Move m d m') : Moves m d.toList m' := by
  have := Moves.step h (.refl m')
  rwa [List.append_nil] at this

lemma Moves.trans {m₁ m₂ m₃ : SliceMap} {l' : List SliceId} (h : Moves m₁ l m₂)
    (h' : Moves m₂ l' m₃) : Moves m₁ (l++l') m₃ := by
  induction h with
  | refl => exact h'
  | step h _ ih =>
    rw [List.append_assoc]
    exact .step h (ih h')

/-- Any chain of legal transitions. -/
inductive Reworked : SliceMap → SliceMap → Prop
  | refl (m : SliceMap) : Reworked m m
  | move {m m₁ m₂ : SliceMap} {d : Option SliceId} (h : Move m d m₁) (t : Reworked m₁ m₂) :
      Reworked m m₂
  | release {m m₁ m₂ : SliceMap} {s : SliceId} (h : m.release s=.ok m₁) (t : Reworked m₁ m₂) :
      Reworked m m₂

lemma Moves.reworked {l : List SliceId} (h : Moves m l m') : Reworked m m' := by
  induction h with
  | refl => exact .refl _
  | step h _ ih => exact .move h ih

lemma get_transition {id : SliceId} {source target : SliceState} {refuse : SliceState → SliceError}
    {owner : Option TenantId → Option TenantId}
    (h : m.transition id source target refuse owner=.ok m') (s : SliceId) :
    (s≠id ∧ m'.get s = m.get s) ∨ s=id ∧ ∃ x, m.get s=some x ∧ x.state=source ∧
      m'.get s=some {x with state := target, tenant := owner x.tenant} := by
  obtain ⟨x,hx,hs,rfl⟩ := transition_eq_ok h
  rw [get_put]
  by_cases hi : s=id
  · subst hi
    rw [if_pos rfl,hx]
    exact .inr ⟨rfl,x,rfl,hs,rfl⟩
  · exact .inl ⟨hi,if_neg hi⟩

lemma in_of_transition {id : SliceId} {source target : SliceState}
    {refuse : SliceState → SliceError} {owner : Option TenantId → Option TenantId}
    (h : m.transition id source target refuse owner=.ok m') : m.In id source ∧ m'.In id target := by
  rcases get_transition h id with ⟨hne,-⟩ | ⟨-,x,hx,hs,hg⟩
  · exact absurd rfl hne
  · exact ⟨⟨x,hx,hs⟩,_,hg,rfl⟩

lemma Move.cell {d : Option SliceId} (h : Move m d m') (s : SliceId) : (d≠some s ∧ m'.get s = m.get s) ∨
      ∃ x y, m.get s=some x ∧ m'.get s=some y ∧ CellMove x y ∧
        (d=some s ↔ x.state=.active) := by
  cases h with
  | assign h =>
    rcases get_transition h s with ⟨-,hg⟩ | ⟨rfl,x,hx,hs,hg⟩
    · exact .inl ⟨by simp,hg⟩
    · exact .inr ⟨x,_,hx,hg,.assign _ hs,by simp [hs]⟩
  | drain h =>
    rcases get_transition h s with ⟨hi,hg⟩ | ⟨rfl,x,hx,hs,hg⟩
    · exact .inl ⟨by simpa using Ne.symm hi,hg⟩
    · exact .inr ⟨x,_,hx,hg,.drain hs,by simp [hs]⟩
  | lease h =>
    rcases get_transition h s with ⟨-,hg⟩ | ⟨rfl,x,hx,hs,hg⟩
    · exact .inl ⟨by simp,hg⟩
    · exact .inr ⟨x,_,hx,hg,.lease hs,by simp [hs]⟩
  | unlease h =>
    rcases get_transition h s with ⟨-,hg⟩ | ⟨rfl,x,hx,hs,hg⟩
    · exact .inl ⟨by simp,hg⟩
    · exact .inr ⟨x,_,hx,hg,.unlease hs,by simp [hs]⟩

variable (h : Moves m l m')
include h

lemma Moves.get_draining {x : Slice} (hx : m.get s=some x) (hd : x.state=.draining) : m'.get s=some x := by
  induction h with
  | refl => exact hx
  | step h _ ih =>
    rcases h.cell s with ⟨-,hg⟩ | ⟨y,_,hy,-,hc,-⟩
    · exact ih (hg.trans hx)
    · rw [hx] at hy
      cases hy
      exact absurd hd hc.not_draining

lemma Moves.get_active {x : Slice} (hx : m.get s=some x) (ha : x.state=.active) :
    m'.get s=some x ∨ m'.get s=some {x with state := .draining} := by
  induction h with
  | refl => exact .inl hx
  | step h t ih =>
    rcases h.cell s with ⟨-,hg⟩ | ⟨y,z,hy,hz,hc,-⟩
    · exact ih (hg.trans hx)
    · rw [hx] at hy
      cases hy
      obtain rfl := hc.of_active ha
      exact .inr (t.get_draining hz rfl)

lemma Moves.drained : l.Nodup ∧ (∀ s∈l, ¬m.In s .draining ∧ m'.In s .draining) ∧
      ∀ s, s∉l → (m'.In s .draining ↔ m.In s .draining) := by
  induction h with
  | refl => exact ⟨List.nodup_nil,fun s hs => absurd hs (by simp),fun s _ => Iff.rfl⟩
  | @step m m₁ m₂ d l h t ih =>
    obtain ⟨hn,hin,hout⟩ := ih
    -- The drained slice of the first step drains from then on.
    have hfirst : ∀ s, d=some s → ¬m.In s .draining ∧ m₁.In s .draining := by
      intro s hd
      rcases h.cell s with ⟨hne,-⟩ | ⟨x,y,hx,hy,hc,hact⟩
      · exact absurd hd hne
      · exact ⟨fun hs => hc.not_draining (hs.unique ⟨x,hx,rfl⟩).symm,
          y,hy,hc.draining_iff.mpr (hact.mp hd)⟩
    have hother : ∀ s, d≠some s → (m₁.In s .draining ↔ m.In s .draining) := by
      intro s hd
      rcases h.cell s with ⟨-,hg⟩ | ⟨x,y,hx,hy,hc,hact⟩
      · unfold In
        rw [hg]
      · unfold In
        rw [hx,hy]
        have h₁ := hc.draining_iff.not.mpr (hact.not.mp hd)
        have h₂ := hc.not_draining
        simp [h₁,h₂]
    have hlast : ∀ s, d=some s → s∉l := fun s hd hs => (hin s hs).1 (hfirst s hd).2
    refine ⟨?_,fun s hs => ?_,fun s hs => ?_⟩
    · rw [List.nodup_append]
      refine ⟨by cases d <;> simp,hn,fun a ha b hb hab => ?_⟩
      subst hab
      exact hlast a (by simpa using ha) hb
    · rcases List.mem_append.mp hs with hs | hs
      · have hd : d=some s := by simpa using hs
        exact ⟨(hfirst s hd).1,(hout s (hlast s hd)).mpr (hfirst s hd).2⟩
      · refine ⟨fun hm => (hin s hs).1 ?_,(hin s hs).2⟩
        exact (hother s fun hd => hlast s hd hs).mpr hm
    · rw [List.mem_append,not_or] at hs
      exact (hout s hs.2).trans (hother s (by simpa using hs.1))

end SliceMap
end RamShared.Broker

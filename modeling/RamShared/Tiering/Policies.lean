import Mathlib.Data.List.DropRight
import RamShared.Lib.Run

/-! The policy that paces the VRAM tier: the headroom governor with its settle time. -/
namespace RamShared.Tiering
open Lib

inductive HeadroomZone
  | green
  | yellow
  | red
  deriving DecidableEq, Repr

/-- A governor; durations and instants are nanoseconds. -/
structure DynamicHeadroomGovernor where
  lowWatermarkBytes : ℕ
  highWatermarkBytes : ℕ
  settleDuration : ℕ
  currentZone : HeadroomZone
  lastGreenCandidate : Option ℕ

structure Sample where
  freeBytes : ℕ
  now : ℕ

namespace DynamicHeadroomGovernor

def new (lowWatermarkBytes highWatermarkBytes settleDuration : ℕ) : DynamicHeadroomGovernor :=
  ⟨lowWatermarkBytes,highWatermarkBytes,settleDuration,.green,none⟩

def sample (g : DynamicHeadroomGovernor) (s : Sample) : (HeadroomZone × Bool) × DynamicHeadroomGovernor :=
  let g' :=
    if s.freeBytes<g.lowWatermarkBytes then
      {g with currentZone := .red, lastGreenCandidate := none}
    else if s.freeBytes<g.highWatermarkBytes then
      { g with
        currentZone := if g.currentZone=.green then .yellow else g.currentZone
        lastGreenCandidate := none}
    else if g.currentZone=.green then {g with lastGreenCandidate := none}
    else
      let candidate := g.lastGreenCandidate.getD s.now
      if s.now-candidate ≥ g.settleDuration then
        {g with currentZone := .green, lastGreenCandidate := none}
      else {g with lastGreenCandidate := some candidate}
  ((g'.currentZone,decide (g'.currentZone≠g.currentZone)),g')

def step (g : DynamicHeadroomGovernor) (s : Sample) : DynamicHeadroomGovernor := (g.sample s).2

/-- The first sample since the last one below the high watermark. -/
def firstHigh (high : ℕ) (samples : List Sample) : Option Sample :=
  (samples.rtakeWhile fun s => high ≤ s.freeBytes).head?

variable {low high settle : ℕ} {samples : List Sample} {s : Sample} {g : DynamicHeadroomGovernor}

lemma firstHigh_concat : firstHigh high (samples++[s]) =
    if high ≤ s.freeBytes then some ((firstHigh high samples).getD s) else none := by
  unfold firstHigh
  rw [List.rtakeWhile_concat]
  cases samples.rtakeWhile _ <;> split_ifs <;> simp_all

/-- After the samples, a governor outside the green zone remembers the first high one. -/
structure Tracks (low high settle : ℕ) (samples : List Sample) (g : DynamicHeadroomGovernor) : Prop where
  low_eq : g.lowWatermarkBytes=low
  high_eq : g.highWatermarkBytes=high
  settle_eq : g.settleDuration=settle
  candidate_eq : g.currentZone≠.green →
    g.lastGreenCandidate = (firstHigh high samples).map Sample.now

lemma Tracks.step (h : Tracks low high settle samples g) (hle : low≤high) (s : Sample) :
    Tracks low high settle (samples++[s]) (g.step s) := by
  obtain ⟨rfl,rfl,rfl,hc⟩ := h
  unfold DynamicHeadroomGovernor.step sample
  dsimp only
  by_cases hlow : s.freeBytes<g.lowWatermarkBytes
  · rw [if_pos hlow]
    exact ⟨rfl,rfl,rfl,fun _ => by simp [firstHigh_concat,(hlow.trans_le hle).not_ge]⟩
  rw [if_neg hlow]
  split_ifs with hhigh _ hgreen hsettle
  · exact ⟨rfl,rfl,rfl,fun _ => by simp [firstHigh_concat,hhigh.not_ge]⟩
  · exact ⟨rfl,rfl,rfl,fun _ => by simp [firstHigh_concat,hhigh.not_ge]⟩
  · exact ⟨rfl,rfl,rfl,fun h => absurd hgreen h⟩
  · exact ⟨rfl,rfl,rfl,fun h => absurd rfl h⟩
  · refine ⟨rfl,rfl,rfl,fun _ => ?_⟩
    rw [firstHigh_concat,if_pos (not_lt.mp hhigh),hc hgreen]
    cases firstHigh g.highWatermarkBytes samples <;> rfl

lemma tracks_run (hle : low≤high) (samples : List Sample) :
    Tracks low high settle samples (run DynamicHeadroomGovernor.step (new low high settle) samples) := by
  induction samples using List.reverseRecOn with
  | nil => exact ⟨rfl,rfl,rfl,fun h => absurd rfl h⟩
  | append_singleton samples s ih =>
    rw [run_append]
    exact ih.step hle s

lemma firstHigh_mem {first : Sample} (h : firstHigh high samples=some first) : first∈samples :=
  (List.rtakeWhile_suffix _ _).mem (List.mem_of_head? h)

/-- A sample below the low watermark is red at once, and none below the high one is green. Outside the
green zone, it is entered exactly when the samples have been high for the settle time; and red is left
for green only. -/
theorem governor_settles (low high settle : ℕ) (hle : low≤high) (samples : List Sample) (s : Sample)
    (ht : (samples++[s]).Pairwise fun a b => a.now≤b.now) :
    let g := run DynamicHeadroomGovernor.step (new low high settle) samples
    let zone := (g.sample s).1.1
    (s.freeBytes<low → zone=.red) ∧
    (low ≤ s.freeBytes → s.freeBytes<high → zone≠.green) ∧
    (g.currentZone≠.green → (zone=.green ↔
      ∃ first, firstHigh high (samples++[s]) = some first ∧ first.now+settle ≤ s.now)) ∧
    (g.currentZone=.red → zone=.red ∨ zone=.green) := by
  intro g zone
  have hg : Tracks low high settle samples g := tracks_run hle samples
  obtain ⟨hlow,hhigh,hsettle,hc⟩ := hg
  have hzone : zone = (g.sample s).1.1 := rfl
  unfold sample at hzone
  simp only [hlow,hhigh,hsettle] at hzone
  refine ⟨fun h => ?_,fun h₁ h₂ => ?_,fun hne => ?_,fun hr => ?_⟩
  · simp [hzone,h]
  · rw [hzone,if_neg h₁.not_gt,if_pos h₂]
    dsimp only
    split_ifs with hgreen
    · simp
    · exact hgreen
  · rw [hzone,firstHigh_concat]
    by_cases hs : s.freeBytes<high
    · by_cases hl : s.freeBytes < low <;> simp [hl,hs,hs.not_ge,hne]
    · have hfirst : ((firstHigh high samples).getD s).now ≤ s.now := by
        cases hf : firstHigh high samples with
        | none => exact le_rfl
        | some first => exact (List.pairwise_append.mp ht).2.2 first (firstHigh_mem hf) s (by simp)
      have hcandidate : g.lastGreenCandidate.getD s.now = ((firstHigh high samples).getD s).now := by
        rw [hc hne]
        cases firstHigh high samples <;> rfl
      rw [if_neg fun h => hs (h.trans_le hle),if_neg hs,if_neg hne,if_pos (not_lt.mp hs),hcandidate]
      split_ifs with hsettled
      · simp
        omega
      · simp [hne]
        omega
  · rw [hzone]
    split_ifs <;> simp_all

theorem governor_settles_recovery :
    let g := run DynamicHeadroomGovernor.step (new 2 4 3) [⟨1,0⟩,⟨5,1⟩]
    g.currentZone = .red ∧ (g.sample ⟨5,4⟩).1 = (.green,true) ∧
      ∃ first, firstHigh 4 ([⟨1,0⟩,⟨5,1⟩]++[⟨5,4⟩]) = some first ∧ first.now+3 ≤ 4 := by
  obtain ⟨-,-,h,-⟩ := governor_settles 2 4 3 (by decide) [⟨1,0⟩,⟨5,1⟩] ⟨5,4⟩ (by decide)
  exact ⟨rfl,rfl,(h (by decide)).mp rfl⟩

end DynamicHeadroomGovernor
end RamShared.Tiering

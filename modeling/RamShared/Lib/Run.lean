import Mathlib.Data.Nat.Find
import Mathlib.Tactic

/-! Runs of a deterministic transition function over a finite list of inputs. The
nondeterminism of an environment is part of the input (or of the state it is read from),
so a statement about all input lists is a statement about all behaviours. -/
namespace RamShared.Lib
variable {S I : Type*} (step : S → I → S)

def run (s : S) (is : List I) : S := is.foldl step s

@[simp] lemma run_nil (s : S) : run step s []=s := rfl

@[simp] lemma run_cons (s : S) (i : I) (is : List I) : run step s (i::is) = run step (step s i) is := rfl

lemma run_append (s : S) (is js : List I) : run step s (is++js) = run step (run step s is) js := by
  simp [run]

def outputs {O : Type*} (out : S → I → List O) : S → List I → List O
  | _, [] => []
  | s, i::is => out s i++outputs out (step s i) is

lemma outputs_append {O : Type*} (out : S → I → List O) (s : S) (is js : List I) :
    outputs step out s (is++js) = outputs step out s is++outputs step out (run step s is) js := by
  induction is generalizing s with
  | nil => rfl
  | cons i is ih => simp [outputs,ih]

variable {P : S → Prop} {s : S} {Q : S → I → Prop} {is : List I}

/-- A property kept by every step is kept by every run. -/
theorem run_induction (hstep : ∀ s i, P s → P (step s i)) (hs : P s) (is : List I) : P (run step s is) := by
  induction is generalizing s with
  | nil => exact hs
  | cons i is ih => exact ih (hstep s i hs)

/-- Every step of the run, seen from the state before it, satisfies `Q`. -/
def AllSteps (Q : S → I → Prop) : S → List I → Prop
  | _, [] => True
  | s, i::is => Q s i ∧ AllSteps Q (step s i) is

instance AllSteps.decidable {Q : S → I → Prop} [∀ s i, Decidable (Q s i)] :
    ∀ s is, Decidable (AllSteps step Q s is)
  | _, [] => inferInstanceAs (Decidable True)
  | s, i::is =>
    have := AllSteps.decidable (Q := Q) (step s i) is
    inferInstanceAs (Decidable (Q s i ∧ AllSteps step Q (step s i) is))

variable {R : S → I → Prop}

lemma AllSteps.and_iff :
    AllSteps step (fun s i => Q s i ∧ R s i) s is ↔ AllSteps step Q s is ∧ AllSteps step R s is := by
  induction is generalizing s with
  | nil => simp [AllSteps]
  | cons i is ih =>
    simp only [AllSteps,ih]
    tauto

section
variable (hstep : ∀ s i, P s → Q s i → P (step s i))
include hstep

/-- A property kept by the steps that satisfy `Q` holds at the end of every run of such steps. -/
theorem AllSteps.invariant (hs : P s) (h : AllSteps step Q s is) : P (run step s is) := by
  induction is generalizing s with
  | nil => exact hs
  | cons i is ih => exact ih (hstep s i hs h.1) h.2

/-- What one step guarantees under the invariant, every step of the run guarantees. -/
theorem AllSteps.of_invariant (hR : ∀ s i, P s → Q s i → R s i) (hs : P s) (h : AllSteps step Q s is) :
    AllSteps step R s is := by
  induction is generalizing s with
  | nil => trivial
  | cons i is ih => exact ⟨hR s i hs h.1,ih (hstep s i hs h.1) h.2⟩

/-- Two step properties that agree under an invariant hold of the same runs. -/
theorem AllSteps.iff_of_invariant (hQR : ∀ s i, P s → (Q s i ↔ R s i)) (hs : P s) (is : List I) :
    AllSteps step Q s is ↔ AllSteps step R s is :=
  ⟨AllSteps.of_invariant step hstep (fun s i hp => (hQR s i hp).mp) hs,
    AllSteps.of_invariant step (fun s i hp hr => hstep s i hp ((hQR s i hp).mpr hr))
      (fun s i hp => (hQR s i hp).mpr) hs⟩

end

def stateAt (s : S) (is : List I) (k : ℕ) : S := run step s (is.take k)

@[simp] lemma stateAt_zero (s : S) (is : List I) : stateAt step s is 0=s := by
  simp [stateAt]

lemma stateAt_succ (s : S) (is : List I) {k : ℕ} {i : I} (h : is[k]?=some i) :
    stateAt step s is (k+1) = step (stateAt step s is k) i := by
  have ht : is.take (k+1) = is.take k++[i] := by
    rw [List.take_add_one,h]
    rfl
  rw [stateAt,ht,run_append]
  rfl

/-- The step of a run at an index. -/
theorem AllSteps.get (h : AllSteps step Q s is) {k : ℕ} {i : I} (hk : is[k]?=some i) :
    Q (stateAt step s is k) i := by
  induction is generalizing s k with
  | nil => simp at hk
  | cons j is ih =>
    cases k with
    | zero =>
      obtain rfl := by simpa using hk
      exact h.1
    | succ k => exact ih h.2 (by simpa using hk)

/-- An initial segment of a run. -/
theorem AllSteps.take (h : AllSteps step Q s is) (k : ℕ) : AllSteps step Q s (is.take k) := by
  induction is generalizing s k with
  | nil => simp [AllSteps]
  | cons j is ih =>
    cases k with
    | zero => simp [AllSteps]
    | succ k => exact ⟨h.1,ih h.2 k⟩

/-- The last index below `j`, not before `i`, at which a property held at `i` still holds. -/
theorem exists_last {P : ℕ → Prop} {i j : ℕ} (hij : i≤j) (hi : P i) (hj : ¬P j) :
    ∃ m, i ≤ m ∧ m<j ∧ P m ∧ ∀ n, m<n → n≤j → ¬P n := by
  classical
  induction j, hij using Nat.le_induction with
  | base => exact absurd hi hj
  | succ j hij ih =>
    by_cases hp : P j
    · refine ⟨j,hij,Nat.lt_succ_self j,hp,fun n h₁ h₂ => ?_⟩
      rwa [Nat.le_antisymm h₂ h₁]
    · obtain ⟨m,h₁,h₂,h₃,h₄⟩ := ih hp
      refine ⟨m,h₁,by omega,h₃,fun n hn hnj => ?_⟩
      rcases Nat.lt_or_eq_of_le hnj with h | rfl
      · exact h₄ n hn (by omega)
      · exact hj

/-- The last step of a run, between `i` and `j`, that starts in a state with the property. -/
theorem exists_last_step {i j : ℕ} (hij : i≤j) (hi : P (stateAt step s is i)) (hj : ¬P (stateAt step s is j)) :
    ∃ n a, i≤n ∧ n<j ∧ is[n]?=some a ∧ P (stateAt step s is n) ∧
      stateAt step s is (n+1) = step (stateAt step s is n) a ∧
      ∀ k, n<k → k≤j → ¬P (stateAt step s is k) := by
  obtain ⟨n,hin,hnj,hn,hlast⟩ := exists_last hij (P := fun k => P (stateAt step s is k)) hi hj
  rcases ha : is[n]? with _ | a
  · rw [List.getElem?_eq_none_iff] at ha
    refine absurd ?_ (hlast (n+1) (Nat.lt_succ_self n) hnj)
    rwa [stateAt,List.take_of_length_le (by omega),←List.take_of_length_le ha]
  · exact ⟨n,a,hin,hnj,ha,hn,stateAt_succ step s is ha,hlast⟩

end RamShared.Lib

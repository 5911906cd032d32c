import Mathlib.Tactic

/-! Arithmetic of `w`-bit words on natural numbers. -/
namespace RamShared.Lib

variable (w a b : ℕ)

def checkedAdd : Option ℕ := if a+b<2^w then some (a+b) else none

def checkedMul : Option ℕ := if a*b<2^w then some (a*b) else none

def saturatingAdd : ℕ := min (a+b) (2^w-1)

def saturatingMul : ℕ := min (a*b) (2^w-1)

def wrappingAdd : ℕ := (a+b)%2^w

def wrappingMul : ℕ := a*b%2^w

def divCeil (a b : ℕ) : ℕ := a/b+if 0<a%b then 1 else 0

lemma checkedAdd_eq_some {w a b c : ℕ} : checkedAdd w a b=some c ↔ a+b<2^w ∧ a+b=c := by
  unfold checkedAdd
  split_ifs with h <;> simp [h]

lemma checkedMul_eq_some {w a b c : ℕ} : checkedMul w a b=some c ↔ a*b<2^w ∧ a*b=c := by
  unfold checkedMul
  split_ifs with h <;> simp [h]

lemma le_divCeil_mul {b : ℕ} (hb : 0<b) (a : ℕ) : a≤divCeil a b*b := by
  have hd := Nat.div_add_mod a b
  have hm := Nat.mod_lt a hb
  unfold divCeil
  split_ifs with h
  · rw [Nat.add_mul,Nat.one_mul,Nat.mul_comm]
    omega
  · rw [Nat.add_zero,Nat.mul_comm]
    omega

lemma mul_lt_of_lt_divCeil {a b k : ℕ} (hb : 0<b) (h : k<divCeil a b) : k*b<a := by
  have hd := Nat.div_add_mod a b
  unfold divCeil at h
  split_ifs at h with hm
  · have := Nat.mul_le_mul_right b (Nat.lt_succ_iff.mp h)
    rw [Nat.mul_comm (a/b)] at this
    omega
  · have := Nat.mul_lt_mul_of_pos_right h hb
    rw [Nat.add_zero,Nat.mul_comm (a/b)] at this
    omega

/-- A position below `a` falls into one of the `divCeil a b` cells of width `b`. -/
lemma div_lt_divCeil {a b x : ℕ} (hb : 0<b) (hx : x<a) : x/b<divCeil a b := by
  rw [Nat.div_lt_iff_lt_mul hb]
  exact hx.trans_le (le_divCeil_mul hb a)

end RamShared.Lib

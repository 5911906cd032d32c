import Mathlib.Data.Nat.Digits.Defs
import Mathlib.Tactic

/-! Compact JSON text, as bytes. Control characters in a string are escaped, so no text holds a
raw newline. -/
namespace RamShared.Lib

def hexDigit (n : ℕ) : UInt8 := UInt8.ofNat (if n<10 then 48+n else 87+n)

def jsonChar (c : Char) : List UInt8 :=
  if c.toNat=34 then [92,34]
  else if c.toNat=92 then [92,92]
  else if c.toNat=8 then [92,98]
  else if c.toNat=9 then [92,116]
  else if c.toNat=10 then [92,110]
  else if c.toNat=12 then [92,102]
  else if c.toNat=13 then [92,114]
  else if c.toNat<32 then [92,117,48,48,hexDigit (c.toNat/16),hexDigit (c.toNat%16)]
  else String.utf8EncodeChar c

def jsonStr (s : String) : List UInt8 := 34::s.toList.flatMap jsonChar++[34]

def jsonNull : List UInt8 := [110,117,108,108]

def jsonBool : Bool → List UInt8
  | true => [116,114,117,101]
  | false => [102,97,108,115,101]

def jsonNat (n : ℕ) : List UInt8 :=
  if n=0 then [48] else (Nat.digits 10 n).reverse.map fun d => UInt8.ofNat (48+d)

def jsonInt (z : ℤ) : List UInt8 := if z<0 then 45::jsonNat z.natAbs else jsonNat z.natAbs

def jsonOption {α : Type*} (json : α → List UInt8) : Option α → List UInt8
  | none => jsonNull
  | some a => json a

def commas : List (List UInt8) → List UInt8
  | [] => []
  | [x] => x
  | x::y::xs => x++44::commas (y::xs)

def jsonArray {α : Type*} (json : α → List UInt8) (xs : List α) : List UInt8 :=
  91::commas (xs.map json)++[93]

def jsonObject (fields : List (String × List UInt8)) : List UInt8 :=
  123::commas (fields.map fun f => jsonStr f.1++58::f.2)++[125]

section
variable {α : Type*} {json : α → List UInt8}

lemma ofNat_ne_ten {k : ℕ} (h : k%256≠10) : 10 ≠ UInt8.ofNat k := by
  intro he
  have hk := congrArg UInt8.toNat he
  rw [UInt8.toNat_ofNat] at hk
  exact h hk.symm

lemma newline_not_mem_utf8 {c : Char} (h : 32 ≤ c.toNat) : 10∉String.utf8EncodeChar c := by
  have h' : 32 ≤ c.val.toNat := h
  simp only [String.utf8EncodeChar]
  split_ifs <;> simp only [List.mem_cons,List.not_mem_nil,or_false,not_or] <;>
    (repeat' constructor) <;> exact ofNat_ne_ten (by omega)

@[simp] lemma newline_not_mem_jsonChar (c : Char) : 10∉jsonChar c := by
  unfold jsonChar
  split_ifs with h₁ h₂ h₃ h₄ h₅ h₆ h₇ h₈
  any_goals decide
  · have hhex (n : ℕ) (hn : n<16) : 10 ≠ hexDigit n := by
      unfold hexDigit
      split_ifs <;> exact ofNat_ne_ten (by omega)
    have hhi := hhex (c.toNat/16) (by omega)
    have hlo := hhex (c.toNat%16) (by omega)
    simp [hhi,hlo]
  · exact newline_not_mem_utf8 (by omega)

@[simp] lemma newline_not_mem_jsonStr (s : String) : 10∉jsonStr s := by
  simp [jsonStr]

@[simp] lemma newline_not_mem_jsonBool (b : Bool) : 10∉jsonBool b := by
  cases b <;> decide

@[simp] lemma newline_not_mem_jsonNat (n : ℕ) : 10∉jsonNat n := by
  unfold jsonNat
  split_ifs
  · decide
  · simp only [List.mem_map,List.mem_reverse,not_exists,not_and]
    intro d hd
    have hlt := Nat.digits_lt_base (by decide) hd
    exact Ne.symm (ofNat_ne_ten (by omega))

@[simp] lemma newline_not_mem_jsonInt (z : ℤ) : 10∉jsonInt z := by
  unfold jsonInt
  split_ifs <;> simp

lemma newline_not_mem_jsonOption {o : Option α} (h : ∀ a∈o, 10∉json a) : 10∉jsonOption json o := by
  cases o with
  | none => simp [jsonOption,jsonNull]
  | some a => exact h a rfl

lemma newline_not_mem_commas {xs : List (List UInt8)} (h : ∀ x∈xs, 10∉x) : 10∉commas xs := by
  induction xs with
  | nil => simp [commas]
  | cons x xs ih =>
    cases xs with
    | nil => exact h x (by simp)
    | cons y ys =>
      have hrest := ih fun z hz => h z (List.mem_cons_of_mem x hz)
      simp [commas,h x (by simp),hrest]

lemma newline_not_mem_jsonArray {xs : List α} (h : ∀ a∈xs, 10∉json a) : 10∉jsonArray json xs := by
  have hc : 10∉commas (xs.map json) := newline_not_mem_commas (by simpa using h)
  simp [jsonArray,hc]

lemma newline_not_mem_jsonObject {fields : List (String × List UInt8)}
    (h : ∀ f∈fields, 10∉f.2) : 10∉jsonObject fields := by
  have hc : 10∉commas (fields.map fun f => jsonStr f.1++58::f.2) := by
    refine newline_not_mem_commas fun x hx => ?_
    obtain ⟨f,hf,rfl⟩ := List.mem_map.mp hx
    simp [h f hf]
  simp [jsonObject,hc]

end
end RamShared.Lib

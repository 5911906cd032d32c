import Mathlib.Tactic
import RamShared.Lib.Run

/-! The FNV-1a checksums of blocks. A step of the hash is injective in the state and in the byte, so
two blocks of one length that differ in one byte have different checksums. -/
namespace RamShared.Integrity
open Lib

def fnvOffset : UInt64 := 0xcbf29ce484222325
def fnvPrime : UInt64 := 0x00000100000001b3

def fnvStep (h : UInt64) (b : UInt8) : UInt64 := (h^^^b.toUInt64)*fnvPrime

variable (data : List UInt8)

def blockHash : UInt64 := data.foldl fnvStep fnvOffset

def isPowerOfTwo (n : ℕ) : Bool := n ≠ 0 && n&&&(n-1)=0

structure ChecksumTable where
  sums : List (Option UInt64)

variable (t : ChecksumTable)

namespace ChecksumTable

def new (nBlocks : ℕ) : ChecksumTable := ⟨List.replicate nBlocks none⟩

def badLength : Bool :=
  data.isEmpty || data.length<512 || !isPowerOfTwo data.length

def record (idx : ℕ) (data : List UInt8) : Bool × ChecksumTable :=
  if badLength data then (false,t)
  else if idx<t.sums.length then (true,⟨t.sums.set idx (some (blockHash data))⟩)
  else (false,t)

def verify (idx : ℕ) (data : List UInt8) : Option Bool :=
  if badLength data then some false
  else match t.sums[idx]? with
    | none => some false
    | some none => none
    | some (some expected) => some (expected = blockHash data)

end ChecksumTable

lemma mul_fnvPrime_injective : Function.Injective fun h : UInt64 => h*fnvPrime := by
  intro h h' he
  have hinv : fnvPrime*0xce965057aff6957b=1 := by decide
  rw [←UInt64.mul_one h,←UInt64.mul_one h',←hinv,←UInt64.mul_assoc,←UInt64.mul_assoc]
  exact congrArg (fun x : UInt64 => x*0xce965057aff6957b) he

lemma fnvStep_state_injective (b : UInt8) : Function.Injective (fnvStep · b) := by
  intro h h' he
  exact (UInt64.xor_left_inj _).mp (mul_fnvPrime_injective he)

lemma fnvStep_byte_injective (h : UInt64) : Function.Injective (fnvStep h) := by
  intro b b' he
  exact UInt8.toUInt64_inj.mp ((UInt64.xor_right_inj _).mp (mul_fnvPrime_injective he))

lemma foldl_fnvStep_injective : Function.Injective fun h => data.foldl fnvStep h := by
  induction data with
  | nil => exact Function.injective_id
  | cons b data ih => exact ih.comp (fnvStep_state_injective b)

lemma foldl_fnvStep_ne {d d' : List UInt8} (hlen : d'.length=d.length)
    (hone : ∃! k : ℕ, d'[k]? ≠ d[k]?) (h : UInt64) : d'.foldl fnvStep h ≠ d.foldl fnvStep h := by
  induction d generalizing d' h with
  | nil =>
    obtain ⟨k,hk,-⟩ := hone
    simp [List.length_eq_zero_iff.mp hlen] at hk
  | cons b d ih =>
    obtain ⟨b',d',rfl⟩ := List.exists_cons_of_length_eq_add_one hlen
    obtain ⟨k,hk,hall⟩ := hone
    cases k with
    | zero =>
      -- The tails agree, and carry two different states to the end.
      obtain rfl : d'=d := List.ext_getElem? fun j => by
        by_contra hne
        cases hall (j+1) (by simpa using hne)
      intro he
      have hb : b'=b := fnvStep_byte_injective h (foldl_fnvStep_injective d' he)
      simp [hb] at hk
    | succ k =>
      obtain rfl : b'=b := by
        by_contra hne
        cases hall 0 (by simpa using hne)
      refine ih (by simpa using hlen) ⟨k,by simpa using hk,fun j hj => ?_⟩ (fnvStep h b')
      exact Nat.succ.inj (hall (j+1) (by simpa using hj))

namespace ChecksumTable

def step (r : ℕ × List UInt8) : ChecksumTable := (t.record r.1 r.2).2

variable {t : ChecksumTable} {i : ℕ}

lemma record_true {d : List UInt8} (h : (t.record i d).1=true) :
    badLength d=false ∧ (t.record i d).2.sums[i]?=some (some (blockHash d)) := by
  unfold record at h ⊢
  split_ifs at h ⊢ with hlen hlt
  exact ⟨by simpa using hlen,List.getElem?_set_self hlt⟩

lemma step_other {r : ℕ × List UInt8} (hr : r.1≠i) : (t.step r).sums[i]? = t.sums[i]? := by
  unfold step record
  split_ifs
  · rfl
  · exact List.getElem?_set_ne hr
  · rfl

/-- What was recorded for a block verifies, whatever is recorded for other blocks later; and a block
of the same length that differs in one byte does not. -/
theorem verify_detects (t : ChecksumTable) (i : ℕ) (d : List UInt8) (h : (t.record i d).1 = true)
    (later : List (ℕ × List UInt8)) (hlater : ∀ r ∈ later, r.1 ≠ i) :
    (run step (t.record i d).2 later).verify i d = some true ∧
    ∀ d', d'.length = d.length → (∃! k : ℕ, d'[k]? ≠ d[k]?) →
      (run step (t.record i d).2 later).verify i d' = some false := by
  obtain ⟨hlen,hsum⟩ := record_true h
  have hkept : (run step (t.record i d).2 later).sums[i]? = some (some (blockHash d)) := by
    generalize (t.record i d).2 = t' at hsum ⊢
    induction later generalizing t' with
    | nil => exact hsum
    | cons r later ih =>
      refine ih (fun x hx => hlater x (List.mem_cons_of_mem r hx)) (t'.step r) ?_
      rw [step_other (hlater r List.mem_cons_self),hsum]
  refine ⟨by simp [verify,hlen,hkept],fun d' hd hone => ?_⟩
  have hne : blockHash d' ≠ blockHash d := foldl_fnvStep_ne hd hone fnvOffset
  unfold verify
  split_ifs
  · rfl
  · simp [hkept,Ne.symm hne]

theorem verify_detects_flip :
    (run step ((new 2).record 1 (List.replicate 512 7)).2 [(0,List.replicate 512 9)]).verify 1
      (9::List.replicate 511 7) = some false := by
  refine (verify_detects (new 2) 1 (List.replicate 512 7) (by decide +kernel) [(0,List.replicate 512 9)]
    (List.forall_mem_singleton.mpr Nat.zero_ne_one)).2 _ rfl ⟨0,by decide +kernel,fun k hk => ?_⟩
  cases k with
  | zero => rfl
  | succ k => exact absurd rfl hk

end ChecksumTable
end RamShared.Integrity

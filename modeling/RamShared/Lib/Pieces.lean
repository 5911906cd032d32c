import RamShared.Lib.Image

/-! Splitting a range of addresses at the boundaries of fixed-size chunks.
A loop that serves a request chunk by chunk visits exactly these pieces, in this order. -/
namespace RamShared.Lib

structure Piece where
  index : ℕ
  relative : ℕ
  count : ℕ
  deriving DecidableEq, Repr

variable (chunk off len : ℕ)

/-- How far a request of `len` cells starting at `off` reaches into its first chunk. -/
def firstCount : ℕ := min len (chunk-off%chunk)

/-- The walk with an explicit bound on the number of pieces. -/
def walk (chunk : ℕ) : ℕ → ℕ → ℕ → List Piece
  | 0, _, _ => []
  | fuel+1, off, len =>
    if len=0 then []
    else
      let count := firstCount chunk off len
      ⟨off/chunk,off%chunk,count⟩::walk chunk fuel (off+count) (len-count)

/-- Every piece holds at least one cell, so `len` pieces always suffice. -/
def pieces : List Piece := walk chunk len off len

lemma firstCount_le : firstCount chunk off len≤len := min_le_left _ _

variable {chunk len a : ℕ}

lemma firstCount_pos (hc : 0<chunk) (off : ℕ) (hl : 0<len) : 0<firstCount chunk off len := by
  have := Nat.mod_lt off hc
  unfold firstCount
  omega

lemma mod_add_firstCount_le (hc : 0<chunk) (off len : ℕ) : off%chunk+firstCount chunk off len ≤ chunk := by
  have := Nat.mod_lt off hc
  unfold firstCount
  omega

/-- Addresses inside the first piece lie in the chunk of its first address. -/
lemma div_of_mem_firstPiece {off : ℕ} (hc : 0<chunk) (h₁ : off≤a) (h₂ : a<off+firstCount chunk off len) :
    a/chunk = off/chunk ∧ a%chunk = off%chunk+(a-off) := by
  have hm := mod_add_firstCount_le hc off len
  have hd := Nat.div_add_mod off chunk
  have he : a = off%chunk+(a-off)+chunk*(off/chunk) := by omega
  have hlt : off%chunk+(a-off)<chunk := by omega
  constructor
  · conv_lhs => rw [he]
    rw [Nat.add_mul_div_left _ _ hc,Nat.div_eq_of_lt hlt,Nat.zero_add]
  · conv_lhs => rw [he]
    rw [Nat.add_mul_mod_self_left,Nat.mod_eq_of_lt hlt]

/-- Inside one chunk, a range of relative positions is a range of addresses. -/
lemma relative_mem_iff {off : ℕ} (n : ℕ) (h : off/chunk = a/chunk) :
    off%chunk≤a%chunk ∧ a%chunk<off%chunk+n ↔ off≤a ∧ a<off+n := by
  have ha := Nat.div_add_mod a chunk
  have ho := Nat.div_add_mod off chunk
  rw [h] at ho
  omega

lemma walk_mono (hc : 0<chunk) :
    ∀ fuel off len, len≤fuel → walk chunk fuel off len = walk chunk len off len := by
  intro fuel
  induction fuel using Nat.strong_induction_on with
  | _ fuel ih =>
    intro off len hl
    cases fuel with
    | zero => rw [Nat.le_zero.mp hl]
    | succ fuel =>
      cases len with
      | zero => simp [walk]
      | succ len =>
        have hp := firstCount_pos hc off (by omega : 0<len+1)
        have hle := firstCount_le chunk off (len+1)
        simp only [walk,Nat.add_one_ne_zero,if_false,List.cons.injEq,true_and]
        rw [ih fuel (by omega) _ _ (by omega),ih len (by omega) _ _ (by omega)]

lemma pieces_cons (hc : 0<chunk) (off : ℕ) (hl : 0<len) : pieces chunk off len =
      ⟨off/chunk,off%chunk,firstCount chunk off len⟩ ::
        pieces chunk (off+firstCount chunk off len) (len-firstCount chunk off len) := by
  obtain ⟨n,rfl⟩ := Nat.exists_eq_succ_of_ne_zero hl.ne'
  have hp := firstCount_pos hc off hl
  simp only [pieces,walk,Nat.add_one_ne_zero,if_false,List.cons.injEq,true_and]
  exact walk_mono hc _ _ _ (by omega)

/-- Induction along the walk: the remaining range is again a request. -/
theorem pieces_induction (hc : 0<chunk) {P : ℕ → ℕ → List Piece → Prop} (nil : ∀ off, P off 0 [])
    (cons : ∀ off len, 0<len → P (off+firstCount chunk off len) (len-firstCount chunk off len)
        (pieces chunk (off+firstCount chunk off len) (len-firstCount chunk off len)) →
      P off len (⟨off/chunk,off%chunk,firstCount chunk off len⟩ ::
        pieces chunk (off+firstCount chunk off len) (len-firstCount chunk off len)))
    (off len : ℕ) : P off len (pieces chunk off len) := by
  induction len using Nat.strong_induction_on generalizing off with
  | _ len ih =>
    rcases Nat.eq_zero_or_pos len with rfl | hl
    · exact nil off
    · rw [pieces_cons hc off hl]
      have hp := firstCount_pos hc off hl
      exact cons off len hl (ih _ (by omega) _)

lemma exists_piece (hc : 0<chunk) (off len : ℕ) (h₁ : off≤a) (h₂ : a<off+len) : ∃ p∈pieces chunk off len,
      p.index = a/chunk ∧ p.relative≤a%chunk ∧ a%chunk<p.relative+p.count := by
  revert h₁ h₂
  refine pieces_induction hc
    (P := fun off len ps => off≤a → a<off+len → ∃ p∈ps,
      p.index = a/chunk ∧ p.relative≤a%chunk ∧ a%chunk<p.relative+p.count)
    (fun off h₁ h₂ => by omega) (fun off len hl ih h₁ h₂ => ?_) off len
  by_cases ha : a<off+firstCount chunk off len
  · obtain ⟨hd,hm⟩ := div_of_mem_firstPiece hc h₁ ha
    exact ⟨_,List.mem_cons_self,hd.symm,by simp only; omega,by simp only; omega⟩
  · have hle := firstCount_le chunk off len
    obtain ⟨p,hp,hx⟩ := ih (by omega) (by omega)
    exact ⟨p,List.mem_cons_of_mem _ hp,hx⟩

end RamShared.Lib

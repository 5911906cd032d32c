import Mathlib.Data.List.TakeWhile
import Mathlib.Tactic

/-! Texts as lists: the blanks around them, their first word, and the replacement of a pattern. -/
namespace RamShared.Lib.Text
variable {α : Type} (blank : α → Bool)

def trim (s : List α) : List α := ((s.dropWhile blank).reverse.dropWhile blank).reverse

def firstWord (s : List α) : Option (List α) :=
  match s.dropWhile blank with
  | [] => none
  | x::t => some ((x::t).takeWhile fun y => !blank y)

/-- Every occurrence of `pat` is replaced, from the left; `skip` elements belong to the last one. -/
def replaceFrom [BEq α] (pat new : List α) : ℕ → List α → List α
  | _, [] => []
  | skip+1, _::s => replaceFrom pat new skip s
  | 0, x::s =>
    if pat.isPrefixOf (x::s) then new++replaceFrom pat new (pat.length-1) s
    else x::replaceFrom pat new 0 s

def replace [BEq α] (pat new s : List α) : List α := replaceFrom pat new 0 s

variable {blank}

lemma dropWhile_append_of_all {a : List α} (ha : ∀ x∈a, blank x) (s : List α) :
    (a++s).dropWhile blank = s.dropWhile blank := by
  induction a with
  | nil => rfl
  | cons x a ih =>
    rw [List.forall_mem_cons] at ha
    rw [List.cons_append,List.dropWhile_cons_of_pos ha.1,ih ha.2]

variable (blank) in
lemma exists_trim (s : List α) : ∃ a b, s = a++trim blank s++b ∧ (∀ x∈a, blank x) ∧ ∀ x∈b, blank x := by
  refine ⟨s.takeWhile blank,((s.dropWhile blank).reverse.takeWhile blank).reverse,?_,
    fun x hx => List.mem_takeWhile_imp hx,fun x hx => List.mem_takeWhile_imp (List.mem_reverse.mp hx)⟩
  rw [trim,List.append_assoc,←List.reverse_append,List.takeWhile_append_dropWhile,
    List.reverse_reverse,List.takeWhile_append_dropWhile]

lemma firstWord_of_not_blank {x : α} {s : List α} (hs : ∀ y∈x::s, blank y=false) :
    firstWord blank (x::s)=some (x::s) := by
  have hx : ¬blank x=true := by simp [hs x (List.mem_cons_self ..)]
  rw [firstWord,List.dropWhile_cons_of_neg hx]
  have htake := List.takeWhile_eq_self_iff (l := x::s) (p := fun y => !blank y)
  exact congrArg some (htake.mpr fun y hy => by simp [hs y hy])

lemma firstWord_pad {a b : List α} (ha : ∀ x∈a, blank x) (hb : ∀ x∈b, blank x) (s : List α) :
    firstWord blank (a++s++b) = firstWord blank s := by
  have hdrop : (a++s++b).dropWhile blank =
      if s.dropWhile blank=[] then [] else s.dropWhile blank++b := by
    rw [List.append_assoc,dropWhile_append_of_all ha,List.dropWhile_append]
    split_ifs with h₁ h₂ h₂
    · simpa using dropWhile_append_of_all hb []
    · exact absurd (List.isEmpty_iff.mp h₁) h₂
    · exact absurd (List.isEmpty_iff.mpr h₂) h₁
    · rfl
  rw [firstWord,firstWord,hdrop]
  cases hs : s.dropWhile blank with
  | nil => rfl
  | cons x t =>
    have hword : (x::t++b).takeWhile (fun y => !blank y) = (x::t).takeWhile fun y => !blank y := by
      have hb' : b.takeWhile (fun y => !blank y)=[] := by
        cases b with
        | nil => rfl
        | cons y b => exact List.takeWhile_cons_of_neg (by simp [hb y (List.mem_cons_self ..)])
      rw [List.takeWhile_append]
      split_ifs with h
      · have hall := List.takeWhile_prefix (l := x::t) fun y => !blank y
        rw [hb',List.append_nil,hall.eq_of_length h]
      · rfl
    simp only [reduceCtorEq,if_false,List.cons_append]
    exact congrArg some hword

section Replace
variable [BEq α] [LawfulBEq α] {pat new : List α}

/-- A text that lacks an element of the pattern is left as it is. -/
lemma replace_of_notMem {p : α} (hp : p∈pat) {s : List α} (hs : p∉s) : replace pat new s=s := by
  rw [replace]
  induction s with
  | nil => rfl
  | cons x s ih =>
    have hx : ¬pat.isPrefixOf (x::s)=true := fun h => hs ((List.isPrefixOf_iff_prefix.mp h).subset hp)
    rw [replaceFrom,if_neg hx,ih fun h => hs (List.mem_cons_of_mem x h)]

lemma isPrefixOf_append {b : List α} (hb : ∀ x∈b, x∉pat) (s : List α) :
    pat.isPrefixOf (s++b) = pat.isPrefixOf s := by
  rw [Bool.eq_iff_iff,List.isPrefixOf_iff_prefix,List.isPrefixOf_iff_prefix]
  refine ⟨fun h => ?_,fun h => h.trans (List.prefix_append s b)⟩
  rcases le_total pat.length s.length with hle | hle
  · exact List.prefix_of_prefix_length_le h (List.prefix_append s b) hle
  -- The pattern would reach into `b`.
  · obtain ⟨t,rfl⟩ := List.prefix_of_prefix_length_le (List.prefix_append s b) h hle
    have ht : t <+: b := (List.prefix_append_right_inj s).mp h
    cases t with
    | nil => simp
    | cons x t =>
      have hx : x∈s++x::t := by simp
      exact absurd hx (hb x (ht.subset (List.mem_cons_self ..)))

/-- What shares no element with the pattern is kept at both ends. -/
lemma replace_pad (hpat : pat≠[]) {a b : List α} (ha : ∀ x∈a, x∉pat) (hb : ∀ x∈b, x∉pat)
    (s : List α) : replace pat new (a++s++b) = a++replace pat new s++b := by
  obtain ⟨p,pat,rfl⟩ := List.exists_cons_of_ne_nil hpat
  have hback : ∀ s : List α, ∀ skip ≤ s.length,
      replaceFrom (p::pat) new skip (s++b) = replaceFrom (p::pat) new skip s++b := by
    intro s
    induction s with
    | nil =>
      intro skip hskip
      obtain rfl := Nat.le_zero.mp hskip
      exact replace_of_notMem (List.mem_cons_self ..) fun hp => hb p hp (List.mem_cons_self ..)
    | cons x s ih =>
      intro skip hskip
      cases skip with
      | succ skip => exact ih skip (by simpa using hskip)
      | zero =>
        have hmatch := isPrefixOf_append hb (x::s)
        rw [List.cons_append] at hmatch
        simp only [List.cons_append,replaceFrom,hmatch]
        split_ifs with h
        · have hle := (List.isPrefixOf_iff_prefix.mp h).length_le
          rw [ih _ (by simpa using hle),List.append_assoc]
        · rw [ih 0 (Nat.zero_le _),List.cons_append]
  rw [replace,replace,hback (a++s) 0 (Nat.zero_le _)]
  congr 1
  induction a with
  | nil => rfl
  | cons x a ih =>
    rw [List.forall_mem_cons] at ha
    have hne : p≠x := fun h => ha.1 (h ▸ List.mem_cons_self ..)
    have hx : (p::pat).isPrefixOf (x::(a++s))=false := by simp [List.isPrefixOf,hne]
    simp only [List.cons_append,replaceFrom,hx,Bool.false_eq_true,if_false,ih ha.2]

end Replace
end RamShared.Lib.Text

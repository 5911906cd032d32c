import Mathlib.Data.List.Basic
import Mathlib.Tactic

/-! Histories: who had the first `t` turns, how many successes stand at the end, and rules about an
entry and what came before it. -/
namespace RamShared.Lib

section
variable {α : Type*} (l : List α)

def turns (t : ℕ) : List α := (List.range t).filterMap fun k => l[k%l.length]?

@[simp] lemma turns_zero : turns l 0=[] := rfl

lemma turns_add (t k : ℕ) : turns l (t+k) = turns l t++(List.range' t k).filterMap fun j => l[j%l.length]? := by
  rw [turns,List.range_eq_range',←List.range'_append_1,List.filterMap_append,Nat.zero_add,
    ← List.range_eq_range',turns]

lemma turns_le {l : List α} {t : ℕ} (h : t≤l.length) : turns l t = l.take t := by
  induction t with
  | zero => rfl
  | succ t ih =>
    have ht : t<l.length := h
    rw [turns_add,ih ht.le,List.take_add_one]
    simp [Nat.mod_eq_of_lt ht,ht]

lemma turns_round (t : ℕ) : turns l (l.length+t) = l++turns l t := by
  rw [turns_add,turns_le le_rfl,List.take_length,turns,List.range'_eq_map_range,
    List.filterMap_map]
  simp

lemma turns_rounds (q r : ℕ) : turns l (q*l.length+r) = (List.replicate q l).flatten++turns l r := by
  induction q with
  | zero => simp
  | succ q ih =>
    rw [Nat.add_mul,one_mul,Nat.add_comm (q*_),Nat.add_assoc,turns_round,ih,List.replicate_succ,
      List.flatten_cons,List.append_assoc]

/-- Two entries that stand once in the list have had the same number of turns, up to one. -/
theorem count_turns_le [DecidableEq α] {l : List α} {x y : α} (hx : l.count x=1)
    (hy : l.count y=1) (t : ℕ) : (turns l t).count x≤(turns l t).count y+1 := by
  have hlen : 0<l.length := List.length_pos_of_mem (List.count_pos_iff.mp (hx ▸ one_pos))
  have hr : t%l.length≤l.length := (Nat.mod_lt t hlen).le
  have hfirst : (l.take (t%l.length)).count x≤1 := hx ▸ (List.take_sublist _ _).count_le x
  rw [←Nat.div_add_mod' t l.length,turns_rounds,turns_le hr,List.count_append,List.count_append,
    List.count_flatten,List.count_flatten]
  simp only [List.map_replicate,hx,hy]
  omega

end

/-- The number of `true` after the last `false`. -/
def streak (history : List Bool) : ℕ := history.foldl (fun n ok => if ok then n+1 else 0) 0

@[simp] lemma streak_nil : streak []=0 := rfl

@[simp] lemma streak_concat (history : List Bool) (ok : Bool) :
    streak (history++[ok]) = if ok then streak history+1 else 0 := by
  simp [streak]

theorem replicate_suffix_iff {k : ℕ} {history : List Bool} :
    List.replicate k true <:+ history ↔ k ≤ streak history := by
  induction history using List.reverseRecOn generalizing k with
  | nil => simp
  | append_singleton history ok ih =>
    cases k with
    | zero => simp
    | succ k =>
      rw [List.replicate_succ',streak_concat,List.suffix_concat_iff]
      cases ok with
      | true => simp [ih]
      | false => simp

variable {α : Type*}

/-- The entries that a streak counts. -/
theorem exists_suffix_of_le_streak {f : α → Bool} {l : List α} {k : ℕ}
    (h : k ≤ streak (l.map f)) : ∃ recent, recent <:+ l ∧ recent.length=k ∧ ∀ a∈recent, f a := by
  obtain ⟨front,hsplit⟩ := replicate_suffix_iff.mpr h
  obtain ⟨front',recent,rfl,-,hmap⟩ := List.map_eq_append_iff.mp hsplit.symm
  obtain ⟨hlen,hall⟩ := List.eq_replicate_iff.mp hmap
  refine ⟨recent,List.suffix_append _ _,by simpa using hlen,fun a ha => ?_⟩
  exact hall (f a) (List.mem_map_of_mem ha)

/-- Every entry of the history is allowed by what came before it. -/
def Allowed (ok : List α → α → Prop) (history : List α) : Prop :=
  ∀ before a after, history = before++a::after → ok before a

lemma allowed_nil (ok : List α → α → Prop) : Allowed ok [] := by
  intro before a after h
  simp at h

lemma Allowed.concat {ok : List α → α → Prop} {history : List α} {a : α}
    (h : Allowed ok history) (ha : ok history a) : Allowed ok (history++[a]) := by
  intro before b after hsplit
  rcases List.eq_nil_or_concat after with rfl | ⟨after,c,rfl⟩
  · obtain ⟨rfl,hb⟩ := List.append_inj' hsplit rfl
    cases hb
    exact ha
  · rw [List.concat_eq_append,←List.cons_append,←List.append_assoc] at hsplit
    exact h before b after (List.append_inj' hsplit rfl).1

end RamShared.Lib

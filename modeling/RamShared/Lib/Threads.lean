import RamShared.Lib.Run

/-! Threads that take turns on a shared state. A turn of one thread changes the shared state and the
thread itself; the other threads see the change of the shared state only. -/
namespace RamShared.Lib

/-- Replacing one element changes a sum by the difference of the two. -/
lemma sum_map_set {α : Type*} (f : α → ℕ) {l : List α} {n : ℕ} {a : α} (h : l[n]?=some a) (b : α) :
    ((l.set n b).map f).sum+f a = (l.map f).sum+f b := by
  induction l generalizing n with
  | nil => simp at h
  | cons x l ih =>
    cases n with
    | zero =>
      obtain rfl : x=a := by simpa using h
      simp only [List.set_cons_zero,List.map_cons,List.sum_cons]
      omega
    | succ n =>
      have := ih (n := n) (by simpa using h)
      simp only [List.set_cons_succ,List.map_cons,List.sum_cons]
      omega

lemma add_le_sum_map {α : Type*} (f : α → ℕ) {l : List α} {n m : ℕ} {a b : α} (hmn : m≠n)
    (h : l[n]?=some a) (hm : l[m]?=some b) : f a+f b≤(l.map f).sum := by
  have hle {k : ℕ} {l : List α} {x : α} (hx : l[k]?=some x) : f x≤(l.map f).sum :=
    List.single_le_sum (fun _ _ => Nat.zero_le _) _ (List.mem_map_of_mem (List.mem_of_getElem? hx))
  induction l generalizing n m with
  | nil => simp at h
  | cons x l ih =>
    rw [List.map_cons,List.sum_cons]
    cases n with
    | zero =>
      obtain ⟨m,rfl⟩ := Nat.exists_eq_succ_of_ne_zero hmn
      obtain rfl : x=a := by simpa using h
      have := hle (by simpa using hm)
      omega
    | succ n =>
      cases m with
      | zero =>
        obtain rfl : x=b := by simpa using hm
        have := hle (by simpa using h)
        omega
      | succ m =>
        have := ih (n := n) (m := m) (by omega) (by simpa using h) (by simpa using hm)
        omega

structure Threads (S T : Type*) where
  shared : S
  threads : List T

namespace Threads
variable {S T : Type*}

def spawn (w : Threads S T) (t : T) : Threads S T := ⟨w.shared,w.threads++[t]⟩

def turn (act : ℕ → S → T → S × T) (w : Threads S T) (n : ℕ) : Threads S T :=
  match w.threads[n]? with
  | none => w
  | some t => ⟨(act n w.shared t).1,w.threads.set n (act n w.shared t).2⟩

def total (f : T → ℕ) (w : Threads S T) : ℕ := (w.threads.map f).sum

/-- Every thread satisfies the property, seen with the shared state. -/
def Each (P : S → ℕ → T → Prop) (w : Threads S T) : Prop :=
  ∀ n t, w.threads[n]?=some t → P w.shared n t

variable {w : Threads S T} {act : ℕ → S → T → S × T} {n : ℕ} {t : T}

lemma turn_of_get (h : w.threads[n]?=some t) :
    w.turn act n = ⟨(act n w.shared t).1,w.threads.set n (act n w.shared t).2⟩ := by
  simp [turn,h]

lemma shared_turn (h : w.threads[n]?=some t) : (w.turn act n).shared = (act n w.shared t).1 := by
  rw [turn_of_get h]

variable {m : ℕ} {u : T} (f : T → ℕ)

/-- After a turn, a thread is the one whose turn it was, or is as it was. -/
lemma get_turn (h : w.threads[n]?=some t) : (w.turn act n).threads[m]?=some u ↔
      m=n ∧ (act n w.shared t).2=u ∨ m≠n ∧ w.threads[m]?=some u := by
  rw [turn_of_get h]
  by_cases hmn : m=n
  · subst hmn
    simp [List.getElem?_set_self (List.getElem?_eq_some_iff.mp h).1]
  · simp [List.getElem?_set_ne (Ne.symm hmn),hmn]

lemma get_spawn : (w.spawn t).threads[m]?=some u ↔ w.threads[m]?=some u ∨ m=w.threads.length ∧ t=u := by
  by_cases hlt : m<w.threads.length
  · simp [spawn,List.getElem?_append_left hlt,hlt.ne]
  · rw [spawn,List.getElem?_append_right (by omega),List.getElem?_eq_none (by omega : _ ≤ m)]
    by_cases hm : m=w.threads.length
    · simp [hm]
    · simp [hm,List.getElem?_singleton,Nat.sub_eq_zero_iff_le]
      omega

lemma total_spawn (t : T) : (w.spawn t).total f = w.total f+f t := by
  simp [total,spawn]

variable (act) in
lemma total_turn (h : w.threads[n]?=some t) :
    (w.turn act n).total f+f t = w.total f+f (act n w.shared t).2 := by
  rw [turn_of_get h]
  exact sum_map_set f h _

lemma le_total (h : w.threads[n]?=some t) : f t≤w.total f :=
  List.single_le_sum (fun _ _ => Nat.zero_le _) _ (List.mem_map_of_mem (List.mem_of_getElem? h))

lemma total_eq_zero {f : T → ℕ} (h : ∀ (n : ℕ) t, w.threads[n]?=some t → f t=0) : w.total f=0 := by
  refine List.sum_eq_zero fun x hx => ?_
  obtain ⟨t,ht,rfl⟩ := List.mem_map.mp hx
  obtain ⟨n,hn⟩ := List.mem_iff_getElem?.mp ht
  exact h n t hn

lemma total_eq (h : w.threads[n]?=some t)
    (ho : ∀ (m : ℕ) u, w.threads[m]?=some u → m≠n → f u=0) : w.total f = f t := by
  obtain ⟨hlt,rfl⟩ := List.getElem?_eq_some_iff.mp h
  have hsplit : w.total f = ((w.threads.take n).map f).sum+((w.threads.drop n).map f).sum := by
    rw [total,←List.sum_append,←List.map_append,List.take_append_drop]
  have hdrop : w.threads.drop n = w.threads[n]::w.threads.drop (n+1) := List.drop_eq_getElem_cons hlt
  have htake : ((w.threads.take n).map f).sum=0 := by
    refine List.sum_eq_zero fun x hx => ?_
    obtain ⟨u,hu,rfl⟩ := List.mem_map.mp hx
    obtain ⟨m,hm⟩ := List.mem_iff_getElem?.mp hu
    rw [List.getElem?_take] at hm
    split_ifs at hm with hmn
    exact ho m u hm (by omega)
  have hrest : ((w.threads.drop (n+1)).map f).sum=0 := by
    refine List.sum_eq_zero fun x hx => ?_
    obtain ⟨u,hu,rfl⟩ := List.mem_map.mp hx
    obtain ⟨m,hm⟩ := List.mem_iff_getElem?.mp hu
    rw [List.getElem?_drop] at hm
    exact ho _ u hm (by omega)
  rw [hsplit,hdrop,List.map_cons,List.sum_cons,htake,hrest]
  omega

lemma add_le_total (hmn : m≠n) (h : w.threads[n]?=some t) (hm : w.threads[m]?=some u) : f t+f u≤w.total f :=
  add_le_sum_map f hmn h hm

namespace Each
variable {P : S → ℕ → T → Prop}

lemma spawn (h : w.Each P) (ht : P w.shared w.threads.length t) : (w.spawn t).Each P := by
  intro m u hm
  obtain hm | ⟨rfl,rfl⟩ := get_spawn.mp hm
  · exact h m u hm
  · exact ht

/-- The thread whose turn it is keeps its property, and the others keep theirs under its turn. -/
lemma turn (h : w.Each P) (own : ∀ t, w.threads[n]?=some t → P (act n w.shared t).1 n (act n w.shared t).2)
    (others : ∀ t m u, w.threads[n]?=some t → m≠n → w.threads[m]?=some u →
      P (act n w.shared t).1 m u) : (w.turn act n).Each P := by
  cases hn : w.threads[n]? with
  | none => simpa [Threads.turn,hn] using h
  | some t =>
    intro m u hm
    rw [shared_turn hn]
    obtain ⟨rfl,rfl⟩ | ⟨hmn,hm⟩ := (get_turn hn).mp hm
    · exact own t hn
    · exact others t m u hn hmn hm

end Each
end Threads
end RamShared.Lib

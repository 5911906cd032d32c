import Mathlib.Tactic

/-! What a fallible computation that returned has gone through. -/
namespace RamShared.Lib

lemma bind_ok {ε α β : Type} {x : Except ε α} {f : α → Except ε β} {b : β} :
    (x >>= f)=.ok b ↔ ∃ a, x=.ok a ∧ f a=.ok b := by
  cases x with
  | error e => simp [bind,Except.bind]
  | ok a => simp [bind,Except.bind]

lemma ite_throw_ok {ε α β : Type} {p : Prop} [Decidable p] {e : ε} {f : β → Except ε α}
    {x : Except ε α} {b : α} : (if p then throw e >>= f else x)=.ok b ↔ ¬p ∧ x=.ok b := by
  split_ifs with h
  · exact iff_of_false nofun fun hb => hb.1 h
  · exact (and_iff_right h).symm

lemma forM_ok {ε α : Type} {f : α → Except ε Unit} {l : List α} : l.forM f=.ok () ↔ ∀ x∈l, f x=.ok () := by
  induction l with
  | nil => exact iff_of_true rfl (List.forall_mem_nil _)
  | cons x l ih =>
    change (f x >>= fun _ => l.forM f)=.ok () ↔ _
    rw [bind_ok,List.forall_mem_cons,←ih]
    exact ⟨fun ⟨_,hx,hl⟩ => ⟨hx,hl⟩,fun ⟨hx,hl⟩ => ⟨(),hx,hl⟩⟩

end RamShared.Lib

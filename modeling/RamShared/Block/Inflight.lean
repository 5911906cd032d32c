import RamShared.Lib.Run
import RamShared.Lib.Word

/-! The map of ranges in flight. The end of a range saturates, so a range that begins at the last
address is stored as an empty one; no other range loses its first byte. -/
namespace RamShared.Block
open Lib

structure Inflight where
  ranges : List (ℕ × ℕ)

/-- `Vec::swap_remove`. -/
def swapRemove {α : Type*} (l : List α) (i : ℕ) : List α :=
  match l.getLast? with
  | none => l
  | some x => (l.set i x).dropLast

variable (f : Inflight)

namespace Inflight

def new : Inflight := ⟨[]⟩

def conflicts (off len : ℕ) : Bool :=
  f.ranges.any fun r => off < r.2 && r.1<saturatingAdd 64 off len

def tryInsert (off len : ℕ) : Bool × Inflight :=
  if f.conflicts off len then (false,f)
  else (true,⟨f.ranges++[(off,saturatingAdd 64 off len)]⟩)

def remove (off len : ℕ) : Inflight :=
  match f.ranges.findIdx? fun r => r = (off,saturatingAdd 64 off len) with
  | none => f
  | some i => ⟨swapRemove f.ranges i⟩

def isEmpty : Bool := f.ranges.isEmpty

end Inflight

lemma perm_swapRemove {α : Type*} (a : List α) (x : α) (b : List α) :
    (a++x::b).Perm (x::swapRemove (a++x::b) a.length) := by
  obtain rfl | ⟨b,y,rfl⟩ := b.eq_nil_or_concat'
  · simp [swapRemove]
  · have hlast : (a++x::(b++[y])).getLast?=some y := by
      rw [←List.cons_append,←List.append_assoc,List.getLast?_concat]
    have hset : (a++x::(b++[y])).set a.length y = a++y::b++[y] := by simp
    rw [swapRemove,hlast]
    dsimp only
    rw [hset,List.dropLast_concat]
    exact List.perm_middle.trans ((List.perm_append_singleton y b).append_left a |>.cons x)

inductive Call
  | tryInsert (off len : ℕ)
  | remove (off len : ℕ)
  deriving DecidableEq, Repr

def Call.off : Call → ℕ
  | .tryInsert off _ | .remove off _ => off

/-- The map, and the operations that were inserted and not yet removed. -/
structure Serializer where
  inflight : Inflight
  ops : List (ℕ × ℕ)

/-- Two ranges `(off,len)` share a byte. -/
def Share (r r' : ℕ × ℕ) : Prop := ∃ a, (r.1≤a ∧ a < r.1+r.2) ∧ r'.1≤a ∧ a < r'.1+r'.2

namespace Serializer

def new : Serializer := ⟨.new,[]⟩

def step (w : Serializer) : Call → Serializer
  | .tryInsert off len =>
    let (ok,f) := w.inflight.tryInsert off len
    ⟨f,if ok then (off,len)::w.ops else w.ops⟩
  | .remove off len => ⟨w.inflight.remove off len,w.ops.erase (off,len)⟩

/-- What a caller keeps to: no empty ranges, and every removal ends an insertion. -/
def Matched (w : Serializer) : Call → Prop
  | .tryInsert off len => off<2^64 ∧ 0<len
  | .remove off len => (off,len)∈w.ops

def stored (r : ℕ × ℕ) : ℕ × ℕ := (r.1,saturatingAdd 64 r.1 r.2)

structure Tracked (w : Serializer) : Prop where
  ranges : w.inflight.ranges.Perm (w.ops.map stored)
  valid : ∀ r∈w.ops, r.1<2^64-1 ∧ 0 < r.2
  disjoint : w.ops.Pairwise fun r r' => ¬Share r r'

variable {w : Serializer}

lemma overlap_iff {r r' : ℕ × ℕ} (h : r.1<2^64-1 ∧ 0 < r.2) (h' : r'.1<2^64-1 ∧ 0 < r'.2) :
    r.1<(stored r').2 ∧ (stored r').1<(stored r).2 ↔ Share r r' := by
  simp only [stored,saturatingAdd]
  constructor
  · intro hlt
    exact ⟨max r.1 r'.1,by omega,by omega⟩
  · rintro ⟨a,ha,ha'⟩
    omega

section
variable (h : w.Tracked)
include h

lemma Tracked.conflicts_iff {off len : ℕ} (hnew : off<2^64-1 ∧ 0<len) :
    w.inflight.conflicts off len=true ↔ ∃ r∈w.ops, Share (off,len) r := by
  simp only [Inflight.conflicts,List.any_eq_true,h.ranges.mem_iff,List.mem_map,Bool.and_eq_true,
    decide_eq_true_eq]
  constructor
  · rintro ⟨_,⟨r,hr,rfl⟩,hlt⟩
    exact ⟨r,hr,(overlap_iff hnew (h.valid r hr)).mp hlt⟩
  · rintro ⟨r,hr,hshare⟩
    exact ⟨_,⟨r,hr,rfl⟩,(overlap_iff hnew (h.valid r hr)).mpr hshare⟩

lemma Tracked.tryInsert {off len : ℕ} (hnew : off<2^64-1 ∧ 0<len) : (w.step (.tryInsert off len)).Tracked := by
  have hiff := h.conflicts_iff hnew
  by_cases hc : w.inflight.conflicts off len=true
  · rw [Serializer.step,Inflight.tryInsert,if_pos hc]
    exact h
  · rw [Serializer.step,Inflight.tryInsert,if_neg hc]
    refine ⟨?_,?_,List.pairwise_cons.mpr ⟨fun r hr hs => hc (hiff.mpr ⟨r,hr,hs⟩),h.disjoint⟩⟩
    · exact List.perm_append_comm.trans (h.ranges.cons _)
    · exact List.forall_mem_cons.mpr ⟨hnew,h.valid⟩

lemma Tracked.remove {off len : ℕ} (hmem : (off,len)∈w.ops) : (w.step (.remove off len)).Tracked := by
  refine ⟨?_,fun r hr => h.valid r (List.mem_of_mem_erase hr),h.disjoint.sublist List.erase_sublist⟩
  have hops := h.ranges.trans ((List.perm_cons_erase hmem).map stored)
  have hin : stored (off,len)∈w.inflight.ranges := hops.mem_iff.mpr List.mem_cons_self
  simp only [step,Inflight.remove]
  cases hi : w.inflight.ranges.findIdx? fun r => r = (off,saturatingAdd 64 off len) with
  | none =>
    have := List.findIdx?_eq_none_iff.mp hi _ hin
    simp [stored] at this
  | some i =>
    obtain ⟨hlt,hx,-⟩ := List.findIdx?_eq_some_iff_getElem.mp hi
    have hsplit := (List.take_append_drop i w.inflight.ranges).symm
    rw [←List.getElem_cons_drop hlt,of_decide_eq_true hx] at hsplit
    have hperm := perm_swapRemove (w.inflight.ranges.take i) (off,saturatingAdd 64 off len)
      (w.inflight.ranges.drop (i+1))
    rw [←hsplit,List.length_take,min_eq_left hlt.le] at hperm
    exact (hperm.symm.trans hops).cons_inv

lemma Tracked.step {c : Call} (hc : w.Matched c) (hlast : c.off ≠ 2^64-1) : (w.step c).Tracked := by
  cases c with
  | tryInsert off len =>
    have hoff : off<2^64-1 := lt_of_le_of_ne (Nat.le_sub_one_of_lt hc.1) hlast
    exact h.tryInsert ⟨hoff,hc.2⟩
  | remove off len => exact h.remove hc

lemma Tracked.run {calls : List Call} (hc : AllSteps Serializer.step Matched w calls)
    (hlast : ∀ c∈calls, c.off ≠ 2^64-1) : (Lib.run Serializer.step w calls).Tracked := by
  induction calls generalizing w with
  | nil => exact h
  | cons c calls ih =>
    obtain ⟨hfirst,hrest⟩ := List.forall_mem_cons.mp hlast
    exact ih (h.step hc.1 hfirst) hc.2 hrest

end

/-- As long as no range begins at the last address, the ranges in flight share no byte, a range is
refused exactly if it shares one with them, and the map is empty when all of them are removed. -/
theorem inflight_serialized (calls : List Call) (hc : AllSteps step Matched new calls)
    (hlast : ∀ c ∈ calls, c.off ≠ 2^64-1) :
    (run step new calls).ops.Pairwise (fun r r' => ¬Share r r') ∧
    (∀ off len, off < 2^64-1 → 0<len →
      (((run step new calls).inflight.tryInsert off len).1 = false ↔
        ∃ r ∈ (run step new calls).ops, Share (off,len) r)) ∧
    ((run step new calls).ops = [] → (run step new calls).inflight.isEmpty = true) := by
  have h : (run step new calls).Tracked :=
    Tracked.run ⟨.refl _,List.forall_mem_nil _,List.Pairwise.nil⟩ hc hlast
  refine ⟨h.disjoint,fun off len hoff hlen => ?_,fun hops => ?_⟩
  · rw [← h.conflicts_iff ⟨hoff,hlen⟩,Inflight.tryInsert]
    split_ifs with hconf <;> simp [hconf]
  · have hranges := h.ranges
    rw [hops,List.map_nil,List.perm_nil] at hranges
    rw [Inflight.isEmpty,hranges]
    rfl

theorem inflight_serialized_reuse : (run step new [.tryInsert 0 8,.remove 0 8,.tryInsert 4 8]).ops = [(4,8)] ∧
    ((run step new [.tryInsert 0 8,.remove 0 8,.tryInsert 4 8]).inflight.tryInsert 11 1).1 = false := by
  refine ⟨by decide,((inflight_serialized [.tryInsert 0 8,.remove 0 8,.tryInsert 4 8] ?_ (by decide)).2.1 11 1
    (by decide) (by decide)).mpr ⟨(4,8),by decide,11,by decide⟩⟩
  simp [AllSteps,Matched,Serializer.step,new,Inflight.tryInsert,Inflight.new,Inflight.conflicts]

/-- Two ranges that begin at the last address are both let in. -/
theorem lastAddress_shared :
    ((run step new [.tryInsert (2^64-1) 1]).inflight.tryInsert (2^64-1) 1).1 = true ∧
    (run step new [.tryInsert (2^64-1) 1,.tryInsert (2^64-1) 1]).ops = [(2^64-1,1),(2^64-1,1)] ∧
    Share (2^64-1,1) (2^64-1,1) :=
  ⟨by decide,by decide,2^64-1,by decide⟩

end Serializer
end RamShared.Block

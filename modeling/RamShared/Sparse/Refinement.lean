import RamShared.Sparse.Rounds
import RamShared.Lib.Run

/-! The sparse backend refines a flat byte array that starts out as zeros. -/
namespace RamShared.Sparse
open Lib Block

namespace SparseVramBackend
variable {P G : Type} [VramProvider P] [LawfulVram P]

section
variable [ContainedVram P] [CommitBudgetGate G]

omit [ContainedVram P] [CommitBudgetGate G] in
lemma readAt_spec {b : SparseVramBackend P G} (hpos : 0<b.chunkBytes) (off len : ℕ) :
    Frame b (b.readAt off len).2 ∧ ∀ bytes, (b.readAt off len).1=.ok bytes →
      bytes = b.flat.load off len ∧ (len=0 ∨ off+len≤b.capacity) := by
  unfold readAt
  split_ifs with hl
  · subst hl
    refine ⟨Frame.refl b,fun bytes h => ?_⟩
    cases h
    exact ⟨rfl,.inl rfl⟩
  split
  · exact ⟨Frame.refl b,fun _ h => absurd h (by simp)⟩
  · rename_i stop hs
    obtain ⟨hadd,hcap⟩ := Option.filter_eq_some_iff.mp hs
    obtain ⟨-,rfl⟩ := checkedAdd_eq_some.mp hadd
    have hle : off+len≤b.capacity := by simpa using hcap
    obtain ⟨hf,hok⟩ := readLoop_spec len hpos le_rfl hle
    exact ⟨hf,fun bytes h => ⟨hok bytes h,.inr hle⟩⟩

lemma writeAt_spec {b : SparseVramBackend P G} (hpos : 0<b.chunkBytes) (now off : ℕ) (data : List UInt8) :
    ((b.writeAt now off data).2.2.capacity=b.capacity ∧
      (b.writeAt now off data).2.2.chunkBytes=b.chunkBytes) ∧
    FlatWrite b.chunkBytes b.flat off data (b.writeAt now off data).1
      (b.writeAt now off data).2.1 (b.writeAt now off data).2.2.flat ∧
    ((b.writeAt now off data).1=.ok () → data=[] ∨ off+data.length≤b.capacity) := by
  unfold writeAt
  split_ifs with hd
  · subst hd
    exact ⟨⟨rfl,rfl⟩,FlatWrite.nil _ _ _,fun _ => .inl rfl⟩
  split
  · exact ⟨⟨rfl,rfl⟩,FlatWrite.fail hpos _ fun _ _ => rfl,fun h => absurd h (by simp)⟩
  · rename_i stop hs
    obtain ⟨hadd,hcap⟩ := Option.filter_eq_some_iff.mp hs
    obtain ⟨-,rfl⟩ := checkedAdd_eq_some.mp hadd
    have hle : off+data.length≤b.capacity := by simpa using hcap
    obtain ⟨hg,hw⟩ := writeLoop_spec now data.length hpos le_rfl hle
    exact ⟨hg,hw,fun _ => .inr hle⟩

end

section
omit [LawfulVram P]

lemma freeLoop_mem (chunkBytes : ℕ) (cs : List (Chunk (VramProvider.Mem P))) (freed frees : ℕ) :
    ∀ c∈(freeLoop chunkBytes cs freed frees).2.2, c.mem=none := by
  induction cs generalizing freed frees with
  | nil => exact fun c hc => absurd hc (by simp [freeLoop])
  | cons d cs ih =>
    rw [freeLoop]
    split_ifs with hm
    · intro c hc
      rcases List.mem_cons.mp hc with rfl | hc
      · rfl
      · exact ih _ _ c hc
    · intro c hc
      rcases List.mem_cons.mp hc with rfl | hc
      · simpa using hm
      · exact ih _ _ c hc

lemma freeLoop_eq_zero {chunkBytes : ℕ} (hpos : 0<chunkBytes)
    {cs : List (Chunk (VramProvider.Mem P))} {freed frees : ℕ}
    (h : (freeLoop chunkBytes cs freed frees).1=0) : freed=0 ∧ ∀ c∈cs, c.mem=none := by
  induction cs generalizing freed frees with
  | nil => exact ⟨h,fun c hc => absurd hc (by simp)⟩
  | cons d cs ih =>
    rw [freeLoop] at h
    split_ifs at h with hm
    · have := (ih h).1
      unfold saturatingAdd at this
      omega
    · obtain ⟨hz,hcs⟩ := ih h
      refine ⟨hz,fun c hc => ?_⟩
      rcases List.mem_cons.mp hc with rfl | hc
      · simpa using hm
      · exact hcs c hc

end

lemma flat_eq_zero {b : SparseVramBackend P G} (h : ∀ c∈b.chunks, c.mem=none) : b.flat = fun _ => 0 := by
  funext a
  unfold flat
  split_ifs
  · rcases hc : b.chunks[a/b.chunkBytes]? with _ | c
    · rfl
    · simp only [chunkByte,Option.bind_some,h c (List.mem_of_getElem? hc),Option.elim_none]
  · rfl

lemma freeAllLive_flat (b : SparseVramBackend P G) : b.freeAllLive.2.flat = fun _ => 0 :=
  flat_eq_zero (freeLoop_mem b.chunkBytes b.chunks 0 b.reclaimFrees)

lemma tryReclaim_flatStep {b : SparseVramBackend P G} (hpos : 0<b.chunkBytes)
    (now nbdUsedKb : ℕ) (freeVramBytes : Option ℕ) (freeFloorBytes idle : ℕ) :
    ((b.tryReclaim now nbdUsedKb freeVramBytes freeFloorBytes idle).2.capacity=b.capacity ∧
      (b.tryReclaim now nbdUsedKb freeVramBytes freeFloorBytes idle).2.chunkBytes = b.chunkBytes) ∧
    FlatStep b.capacity b.chunkBytes b.flat (.tryReclaim now nbdUsedKb freeVramBytes freeFloorBytes idle)
      (.freed (b.tryReclaim now nbdUsedKb freeVramBytes freeFloorBytes idle).1)
      (b.tryReclaim now nbdUsedKb freeVramBytes freeFloorBytes idle).2.flat := by
  unfold tryReclaim
  dsimp only
  split_ifs with hu hc
  · exact ⟨⟨rfl,rfl⟩,.keep⟩
  · refine ⟨⟨rfl,rfl⟩,?_⟩
    obtain rfl : nbdUsedKb=0 := by omega
    rw [b.freeAllLive_flat]
    rcases Nat.eq_zero_or_pos b.freeAllLive.1 with hz | hz
    · rw [hz,←flat_eq_zero (freeLoop_eq_zero hpos hz).2]
      exact .keep
    · exact .reclaim hz
  · exact ⟨⟨rfl,rfl⟩,.keep⟩

variable [ContainedVram P] [CommitBudgetGate G]

lemma perform_flatStep {b : SparseVramBackend P G} (hpos : 0<b.chunkBytes) (op : Op) :
    ((b.perform op).2.capacity=b.capacity ∧ (b.perform op).2.chunkBytes=b.chunkBytes) ∧
      FlatStep b.capacity b.chunkBytes b.flat op (b.perform op).1 (b.perform op).2.flat := by
  cases op with
  | readAt off len =>
    obtain ⟨hf,hok⟩ := readAt_spec hpos off len
    refine ⟨⟨hf.capacity_eq,hf.chunkBytes_eq⟩,?_⟩
    have hs := hf.sameFlat.flat_eq
    show FlatStep _ _ _ _ (.read (b.readAt off len).1) (b.readAt off len).2.flat
    generalize b.readAt off len = x at hf hok hs
    rcases x with ⟨e | bytes,b'⟩
    · dsimp only at hs ⊢
      rw [hs]
      exact .readError
    · obtain ⟨rfl,hr⟩ := hok bytes rfl
      dsimp only at hs ⊢
      rw [hs]
      exact .read hr
  | writeAt now off data =>
    obtain ⟨hg,hw,hr⟩ := writeAt_spec hpos now off data
    exact ⟨hg,.write hr hw⟩
  | tryReclaim now nbdUsedKb freeVramBytes freeFloorBytes idle =>
    exact tryReclaim_flatStep hpos now nbdUsedKb freeVramBytes freeFloorBytes idle
  | freeAllLive =>
    refine ⟨⟨rfl,rfl⟩,?_⟩
    show FlatStep _ _ _ _ (.freed b.freeAllLive.1) b.freeAllLive.2.flat
    rw [b.freeAllLive_flat]
    exact .free

/-- From a new backend on, every operation of every run answers and changes the contents as the
flat array of `capacity` zeros does. -/
theorem refines_flat (provider : P) (config : SparseVramConfig G) (capMib : Option ℕ)
    {b : SparseVramBackend P G} (hb : newWithConfig provider config capMib = .ok b) :
    b.flat = (fun _ => 0) ∧
    ∀ (ops : List Op) (op : Op),
      FlatStep config.capacity config.chunkBytes (run (fun b op => (b.perform op).2) b ops).flat
        op ((run (fun b op => (b.perform op).2) b ops).perform op).1
        ((run (fun b op => (b.perform op).2) b ops).perform op).2.flat := by
  have hinit : (b.flat = fun _ => 0) ∧ b.capacity=config.capacity ∧
      b.chunkBytes = config.chunkBytes ∧ 0<b.chunkBytes := by
    unfold newWithConfig at hb
    dsimp only at hb
    split_ifs at hb with h₁ h₂ h₃
    cases hb
    push Not at h₂
    refine ⟨flat_eq_zero fun c hc => ?_,rfl,rfl,Nat.pos_of_ne_zero h₂.1⟩
    rw [List.eq_of_mem_replicate hc]
  refine ⟨hinit.1,fun ops op => ?_⟩
  have hrun := run_induction (fun b op => (b.perform op).2)
    (P := fun b : SparseVramBackend P G => b.capacity=config.capacity ∧
      b.chunkBytes = config.chunkBytes ∧ 0<b.chunkBytes)
    (fun b op h => by
      obtain ⟨hg,-⟩ := perform_flatStep h.2.2 op
      rw [hg.1,hg.2]
      exact h) hinit.2 ops
  rw [← hrun.1,← hrun.2.1]
  exact (perform_flatStep hrun.2.2 op).2

/-- Four bytes in two chunks; the second allocation will be refused. -/
def smallDisk : SparseVramBackend VramScript GateScript :=
  (newWithConfig (⟨[{},{},{},{},{},{ok := false}]⟩ : VramScript)
    ⟨4,2,1,0,none,some ⟨[]⟩⟩ none).toOption.get (by decide)

/-- A write over both chunks that fails in the second one. -/
theorem refines_flat_smallDisk :
    FlatStep 4 2 smallDisk.flat (.writeAt 0 1 [7,8,9]) (smallDisk.perform (.writeAt 0 1 [7,8,9])).1
      (smallDisk.perform (.writeAt 0 1 [7,8,9])).2.flat := by
  have hb : newWithConfig (⟨[{},{},{},{},{},{ ok := false }]⟩ : VramScript)
    (⟨4,2,1,0,none,some ⟨[]⟩⟩ : SparseVramConfig GateScript) none = .ok smallDisk := rfl
  exact (refines_flat _ _ none hb).2 [] (.writeAt 0 1 [7,8,9])

end SparseVramBackend
end RamShared.Sparse

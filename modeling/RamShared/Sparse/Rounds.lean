import RamShared.Sparse.Backend
import RamShared.Lib.Pieces
import Mathlib.Logic.Relation

/-! The abstract device: a flat byte array, and what each operation may answer and do to it. -/
namespace RamShared.Sparse
open Lib Block
open VramProvider (Mem)

section
open SparseVramBackend

/-- A write to the flat array: it stores the data, or fails with the first `done` bytes stored,
with no byte outside of the range touched, and none in a chunk behind the one it failed in. -/
structure FlatWrite (chunk : ℕ) (img : Image UInt8) (off : ℕ) (data : List UInt8)
    (result : Except IoError Unit) (done : ℕ) (img' : Image UInt8) : Prop where
  ok : result=.ok () → img' = img.store off data
  outside : ∀ a, a<off ∨ off+data.length≤a → img' a = img a
  stored : ∀ a, off≤a → a<off+done → some (img' a) = data[a-off]?
  unreached : ∀ e, result=.error e → ∀ a, (off+done)/chunk<a/chunk → img' a = img a

namespace FlatWrite
variable {chunk off : ℕ} {img img' : Image UInt8} {data : List UInt8}

lemma nil (chunk : ℕ) (img : Image UInt8) (off : ℕ) : FlatWrite chunk img off [] (.ok ()) 0 img :=
  ⟨fun _ => (img.store_nil off).symm,fun _ _ => rfl,fun a h₁ h₂ => by omega,
    fun _ h => absurd h (by simp)⟩

lemma fail (hpos : 0<chunk) (e : IoError)
    (h : ∀ a, a<off ∨ off+firstCount chunk off data.length≤a → img' a = img a) :
    FlatWrite chunk img off data (.error e) 0 img' := by
  have hfc := firstCount_le chunk off data.length
  refine ⟨fun hr => absurd hr (by simp),fun a ha => h a (by omega),fun a h₁ h₂ => by omega,
    fun _ _ a ha => h a ?_⟩
  by_contra hin
  push Not at hin
  rw [(div_of_mem_firstPiece hpos hin.1 hin.2).1] at ha
  exact lt_irrefl _ ha

lemma cons {n done : ℕ} {result : Except IoError Unit} (hn : n≤data.length)
    (h : FlatWrite chunk (img.store off (data.take n)) (off+n) (data.drop n) result done img') :
    FlatWrite chunk img off data result (n+done) img' := by
  have hlen : (data.take n).length=n := by rw [List.length_take,Nat.min_eq_left hn]
  have hdrop : (data.drop n).length = data.length-n := List.length_drop
  refine ⟨fun hr => ?_,fun a ha => ?_,fun a h₁ h₂ => ?_,fun e hr a ha => ?_⟩
  · have hs := img.store_append off (data.take n) (data.drop n)
    rw [List.take_append_drop,hlen] at hs
    rw [h.ok hr,hs]
  · rw [h.outside a (by omega),Image.store_outside _ _ (by omega)]
  · by_cases hb : a<off+n
    · rw [h.outside a (.inl hb),Image.store_of_mem _ _ h₁ (by omega),
        List.getElem?_take_of_lt (by omega)]
    · rw [h.stored a (by omega) (by omega),List.getElem?_drop]
      congr 1
      omega
  · rw [←Nat.add_assoc] at ha
    have hlt := Nat.lt_of_div_lt_div ha
    rw [h.unreached e hr a ha,Image.store_outside _ _ (by omega)]

end FlatWrite

/-- What the flat array allows an operation to answer, and what it becomes. -/
inductive FlatStep (capacity chunk : ℕ) (img : Image UInt8) : Op → Reply → Image UInt8 → Prop
  | read {off len : ℕ} (h : len=0 ∨ off+len ≤ capacity) :
      FlatStep capacity chunk img (.readAt off len) (.read (.ok (img.load off len))) img
  | readError {off len : ℕ} {e : IoError} :
      FlatStep capacity chunk img (.readAt off len) (.read (.error e)) img
  | write {now off : ℕ} {data : List UInt8} {result : Except IoError Unit} {done : ℕ}
      {img' : Image UInt8} (hr : result=.ok () → data=[] ∨ off+data.length ≤ capacity)
      (h : FlatWrite chunk img off data result done img') :
      FlatStep capacity chunk img (.writeAt now off data) (.written result done) img'
  | keep {now nbdUsedKb : ℕ} {freeVramBytes : Option ℕ} {freeFloorBytes idle : ℕ} :
      FlatStep capacity chunk img (.tryReclaim now nbdUsedKb freeVramBytes freeFloorBytes idle)
        (.freed 0) img
  | reclaim {now : ℕ} {freeVramBytes : Option ℕ} {freeFloorBytes idle freed : ℕ}
      (h : 0<freed) :
      FlatStep capacity chunk img (.tryReclaim now 0 freeVramBytes freeFloorBytes idle)
        (.freed freed) fun _ => 0
  | free {freed : ℕ} : FlatStep capacity chunk img .freeAllLive (.freed freed) fun _ => 0

end

/-! A round stays inside one chunk, and making a chunk live changes no byte of the flat array. -/

variable {data : List UInt8} {remaining : ℕ}

namespace SparseVramBackend
variable {P G : Type} [VramProvider P] [LawfulVram P]

/-- The byte that a chunk holds; an absent chunk reads as zeros. -/
def chunkByte (c : Option (Chunk (Mem P))) (r : ℕ) : UInt8 :=
  (c.bind Chunk.mem).elim 0 fun m => LawfulVram.contents m r

def flat (b : SparseVramBackend P G) : Image UInt8 := fun a =>
  if a<b.capacity then chunkByte b.chunks[a/b.chunkBytes]? (a%b.chunkBytes) else 0

/-- Nothing that the flat array depends on differs. -/
structure Frame (b b' : SparseVramBackend P G) : Prop where
  capacity_eq : b'.capacity=b.capacity
  chunkBytes_eq : b'.chunkBytes=b.chunkBytes
  chunks_eq : b'.chunks=b.chunks

/-- The same device with the same contents. -/
structure SameFlat (b b' : SparseVramBackend P G) : Prop where
  capacity_eq : b'.capacity=b.capacity
  chunkBytes_eq : b'.chunkBytes=b.chunkBytes
  flat_eq : b'.flat=b.flat

omit [LawfulVram P] in
lemma Frame.refl (b : SparseVramBackend P G) : Frame b b := ⟨rfl,rfl,rfl⟩

omit [LawfulVram P] in
lemma Frame.trans {b₁ b₂ b₃ : SparseVramBackend P G} (h : Frame b₁ b₂) (h' : Frame b₂ b₃) : Frame b₁ b₃ :=
  ⟨h'.capacity_eq.trans h.capacity_eq,h'.chunkBytes_eq.trans h.chunkBytes_eq,
    h'.chunks_eq.trans h.chunks_eq⟩

variable {b : SparseVramBackend P G} {idx abs : ℕ} {chunk : Chunk (Mem P)}

lemma Frame.sameFlat {b' : SparseVramBackend P G} (h : Frame b b') : SameFlat b b' := by
  refine ⟨h.capacity_eq,h.chunkBytes_eq,?_⟩
  unfold flat
  rw [h.capacity_eq,h.chunkBytes_eq,h.chunks_eq]

lemma SameFlat.refl (b : SparseVramBackend P G) : SameFlat b b := ⟨rfl,rfl,rfl⟩

lemma flat_setChunk (b : SparseVramBackend P G) {old : Chunk (Mem P)}
    (h : b.chunks[idx]?=some old) (c : Chunk (Mem P)) (a : ℕ) : (b.setChunk idx c).flat a =
      if a<b.capacity ∧ idx = a/b.chunkBytes then chunkByte (some c) (a%b.chunkBytes) else b.flat a := by
  have hlt : idx<b.chunks.length := (List.getElem?_eq_some_iff.mp h).1
  simp only [flat,setChunk,List.getElem?_set]
  by_cases ha : a<b.capacity
  · by_cases hi : idx = a/b.chunkBytes
    · rw [if_pos ha,if_pos hi,if_pos hlt,if_pos ⟨ha,hi⟩]
    · rw [if_pos ha,if_neg hi,if_neg fun hc => hi hc.2,if_pos ha]
  · rw [if_neg ha,if_neg fun hc => ha hc.1,if_neg ha]

section
omit [LawfulVram P]

lemma askGate_frame [CommitBudgetGate G] (b : SparseVramBackend P G) : Frame b b.askGate.2 := by
  unfold askGate
  split <;> exact ⟨rfl,rfl,rfl⟩

lemma checkFloor_frame (b : SparseVramBackend P G) : Frame b b.checkFloor.2 := by
  unfold checkFloor
  rcases VramProvider.memInfo b.provider with ⟨e | ⟨free,total⟩,provider⟩
  · exact ⟨rfl,rfl,rfl⟩
  · dsimp only
    split_ifs <;> exact ⟨rfl,rfl,rfl⟩

lemma allocZeroed_frame (b : SparseVramBackend P G) (idx : ℕ) : Frame b (b.allocZeroed idx).2 := by
  unfold allocZeroed
  rcases VramProvider.alloc b.provider b.chunkBytes with ⟨e | m,provider⟩
  · exact ⟨rfl,rfl,rfl⟩
  · dsimp only
    rcases VramProvider.zero provider m with ⟨e | ⟨⟩,m',provider'⟩ <;> exact ⟨rfl,rfl,rfl⟩

end

lemma allocZeroed_ok {m : Mem P} (h : (b.allocZeroed idx).1=.ok m) : LawfulVram.contents m = fun _ => 0 := by
  unfold allocZeroed at h
  generalize VramProvider.alloc b.provider b.chunkBytes = x at h
  rcases x with ⟨e | m₀,provider⟩
  · cases h
  · dsimp only at h
    have hz := LawfulVram.zero_ok provider m₀
    generalize VramProvider.zero provider m₀ = y at h hz
    rcases y with ⟨e | ⟨⟩,m',provider'⟩
    · cases h
    · cases h
      exact hz rfl

lemma setChunk_zero {b' : SparseVramBackend P G} (hf : Frame b b')
    (hc : b.chunks[idx]?=some chunk) (hm : chunk.mem=none) {m : Mem P}
    (hz : LawfulVram.contents m = fun _ => 0) : SameFlat b (b'.setChunk idx {chunk with mem := some m}) := by
  have hc' : b'.chunks[idx]?=some chunk := by rw [hf.chunks_eq,hc]
  refine ⟨hf.capacity_eq,hf.chunkBytes_eq,funext fun a => ?_⟩
  rw [flat_setChunk b' hc',hf.sameFlat.flat_eq]
  split_ifs with ha
  · obtain ⟨ha,hi⟩ := ha
    rw [hf.capacity_eq] at ha
    rw [hf.chunkBytes_eq] at hi
    simp only [flat,if_pos ha,←hi,hc,chunkByte,Option.bind_some,hm,Option.elim_some,
      Option.elim_none,hz]
  · rfl

lemma commitChunk_sameFlat [CommitBudgetGate G] (hc : b.chunks[idx]?=some chunk)
    (hm : chunk.mem=none) : SameFlat b (b.commitChunk idx chunk).2 := by
  unfold commitChunk
  have h₁ := b.askGate_frame
  generalize b.askGate = x at h₁
  rcases x with ⟨e | ⟨⟩,b₁⟩
  · exact Frame.sameFlat ⟨h₁.capacity_eq,h₁.chunkBytes_eq,h₁.chunks_eq⟩
  dsimp only at h₁ ⊢
  split_ifs
  · exact Frame.sameFlat ⟨h₁.capacity_eq,h₁.chunkBytes_eq,h₁.chunks_eq⟩
  have h₂ := h₁.trans b₁.checkFloor_frame
  generalize b₁.checkFloor = x at h₂
  rcases x with ⟨e | ⟨⟩,b₂⟩
  · exact h₂.sameFlat
  have h₃ := h₂.trans (b₂.allocZeroed_frame idx)
  have hz := @allocZeroed_ok P G _ _ b₂ idx
  dsimp only
  generalize b₂.allocZeroed idx = x at h₃ hz
  rcases x with ⟨e | m,b₃⟩
  · exact h₃.sameFlat
  · exact setChunk_zero h₃ hc hm (hz rfl)

lemma ensureLive_sameFlat [CommitBudgetGate G] (b : SparseVramBackend P G) (idx : ℕ) :
    SameFlat b (b.ensureLive idx).2 := by
  unfold ensureLive
  rcases hc : b.chunks[idx]? with _ | chunk
  · exact SameFlat.refl b
  · dsimp only
    split_ifs with hm
    · exact SameFlat.refl b
    · exact commitChunk_sameFlat hc (by simpa using hm)

omit [LawfulVram P] in
lemma pieceLen_eq (b : SparseVramBackend P G) (abs remaining : ℕ) :
    b.pieceLen (abs/b.chunkBytes) abs remaining = firstCount b.chunkBytes abs remaining ∧
      abs-abs/b.chunkBytes*b.chunkBytes = abs%b.chunkBytes := by
  have hr : abs-abs/b.chunkBytes*b.chunkBytes = abs%b.chunkBytes := by
    rw [Nat.mod_eq_sub_div_mul]
  unfold pieceLen firstCount
  rw [hr]
  exact ⟨rfl,rfl⟩

section
omit [LawfulVram P]

/-- The provider was read from. -/
def ReadOnce (p q : P) : Prop := ∃ m off n, (VramProvider.readAt p m off n).2=q

-- A read touches nothing but the provider, and asks it for nothing but reads.
lemma readChunk_reads (b : SparseVramBackend P G) (abs remaining : ℕ) :
    ∃ p, Relation.ReflTransGen ReadOnce b.provider p ∧
      (b.readChunk abs remaining).2 = {b with provider := p} := by
  unfold readChunk
  rcases b.chunkIndex abs with e | idx
  · exact ⟨_,.refl,rfl⟩
  dsimp only
  rcases b.chunks[idx]? with _ | chunk
  · exact ⟨_,.refl,rfl⟩
  dsimp only
  rcases chunk.mem with _ | m
  · exact ⟨_,.refl,rfl⟩
  refine ⟨_,.single ⟨m,abs-idx*b.chunkBytes,b.pieceLen idx abs remaining,rfl⟩,?_⟩
  dsimp only
  rcases VramProvider.readAt b.provider m (abs-idx*b.chunkBytes) (b.pieceLen idx abs remaining) with
    ⟨e | bytes,p⟩ <;> rfl

lemma readLoop_reads (fuel : ℕ) (b : SparseVramBackend P G) (abs remaining : ℕ) :
    ∃ p, Relation.ReflTransGen ReadOnce b.provider p ∧
      (readLoop fuel b abs remaining).2 = {b with provider := p} := by
  induction fuel generalizing b abs remaining with
  | zero => exact ⟨_,.refl,rfl⟩
  | succ fuel ih =>
    rw [readLoop]
    split_ifs
    · exact ⟨_,.refl,rfl⟩
    · obtain ⟨p,hp,hb⟩ := b.readChunk_reads abs remaining
      generalize b.readChunk abs remaining = x at hb
      obtain ⟨e | bytes,b'⟩ := x
      · exact ⟨p,hp,hb⟩
      · obtain rfl : b' = {b with provider := p} := hb
        obtain ⟨q,hq,hb'⟩ := ih {b with provider := p} (abs+bytes.length) (remaining-bytes.length)
        exact ⟨q,hp.trans hq,hb'⟩

lemma readAt_reads (b : SparseVramBackend P G) (off len : ℕ) :
    ∃ p, Relation.ReflTransGen ReadOnce b.provider p ∧
      (b.readAt off len).2 = {b with provider := p} := by
  unfold readAt
  split_ifs
  · exact ⟨_,.refl,rfl⟩
  · split
    · exact ⟨_,.refl,rfl⟩
    · exact readLoop_reads len b off len

end

lemma flat_load_piece (hpos : 0<b.chunkBytes) (hle : abs+remaining≤b.capacity)
    (hc : b.chunks[abs/b.chunkBytes]?=some chunk) : b.flat.load abs (firstCount b.chunkBytes abs remaining) =
      Image.load (chunkByte (some chunk)) (abs%b.chunkBytes) (firstCount b.chunkBytes abs remaining) := by
  refine Image.load_congr fun i hi => ?_
  have hfc := firstCount_le b.chunkBytes abs remaining
  have hlt : abs+i<abs+firstCount b.chunkBytes abs remaining := Nat.add_lt_add_left hi abs
  obtain ⟨hd,hm⟩ := div_of_mem_firstPiece hpos (Nat.le_add_right abs i) hlt
  unfold flat
  rw [if_pos (by omega),hd,hc,hm,Nat.add_sub_cancel_left]

lemma readChunk_spec (hpos : 0<b.chunkBytes) (hle : abs+remaining≤b.capacity) :
    Frame b (b.readChunk abs remaining).2 ∧ ∀ bytes, (b.readChunk abs remaining).1=.ok bytes →
        bytes = b.flat.load abs (firstCount b.chunkBytes abs remaining) := by
  unfold readChunk chunkIndex
  split_ifs with habs
  · exact ⟨Frame.refl b,fun _ h => absurd h (by simp)⟩
  obtain ⟨hn,hr⟩ := b.pieceLen_eq abs remaining
  dsimp only
  rcases hc : b.chunks[abs/b.chunkBytes]? with _ | chunk
  · exact ⟨Frame.refl b,fun _ h => absurd h (by simp)⟩
  rw [flat_load_piece hpos hle hc,hn,hr]
  dsimp only
  rcases hm : chunk.mem with _ | m
  · refine ⟨Frame.refl b,fun bytes h => ?_⟩
    cases h
    refine List.ext_getElem? fun i => ?_
    rw [List.getElem?_replicate,Image.getElem?_load]
    simp only [chunkByte,Option.bind_some,hm,Option.elim_none]
  · have hok := LawfulVram.readAt_ok b.provider m (abs%b.chunkBytes)
      (firstCount b.chunkBytes abs remaining)
    dsimp only
    generalize VramProvider.readAt b.provider m (abs%b.chunkBytes)
      (firstCount b.chunkBytes abs remaining) = x at hok
    rcases x with ⟨e | bytes',provider⟩
    · exact ⟨⟨rfl,rfl,rfl⟩,fun _ h => absurd h (by simp)⟩
    · refine ⟨⟨rfl,rfl,rfl⟩,fun bytes h => ?_⟩
      cases h
      rw [(hok bytes' rfl).2]
      refine Image.load_congr fun i _ => ?_
      simp only [chunkByte,Option.bind_some,hm]
      rfl

lemma readLoop_spec (fuel : ℕ) (hpos : 0<b.chunkBytes) (hfuel : remaining≤fuel)
    (hle : abs+remaining≤b.capacity) : Frame b (readLoop fuel b abs remaining).2 ∧
      ∀ bytes, (readLoop fuel b abs remaining).1=.ok bytes → bytes = b.flat.load abs remaining := by
  induction fuel generalizing b abs remaining with
  | zero =>
    obtain rfl := Nat.le_zero.mp hfuel
    refine ⟨Frame.refl b,fun bytes h => ?_⟩
    cases h
    rfl
  | succ fuel ih =>
    rw [readLoop]
    split_ifs with hz
    · subst hz
      refine ⟨Frame.refl b,fun bytes h => ?_⟩
      cases h
      rfl
    · obtain ⟨hf,hok⟩ := readChunk_spec hpos hle
      generalize b.readChunk abs remaining = x at hf hok
      rcases x with ⟨e | bytes₁,b₁⟩
      · exact ⟨hf,fun _ h => absurd h (by simp)⟩
      have hb := hok bytes₁ rfl
      have hl : bytes₁.length = firstCount b.chunkBytes abs remaining := by
        rw [hb,Image.length_load]
      have hp := firstCount_pos hpos abs (Nat.pos_of_ne_zero hz)
      have hfc := firstCount_le b.chunkBytes abs remaining
      obtain ⟨hf',hok'⟩ := ih (b := b₁) (by rwa [hf.chunkBytes_eq])
        (show remaining-bytes₁.length≤fuel by omega)
        (show abs+bytes₁.length+_≤_ by rw [hf.capacity_eq]; omega)
      dsimp only
      generalize readLoop fuel b₁ (abs+bytes₁.length) (remaining-bytes₁.length) = x at hf' hok'
      rcases x with ⟨e | bytes₂,b₂⟩
      · exact ⟨hf.trans hf',fun _ h => absurd h (by simp [Except.map])⟩
      · refine ⟨hf.trans hf',fun bytes h => ?_⟩
        cases h
        have hb₂ := hok' bytes₂ rfl
        rw [hf.sameFlat.flat_eq] at hb₂
        show bytes₁++bytes₂=_
        rw [hb₂,hl,hb,←Image.load_add,Nat.add_sub_cancel' hfc]

lemma flat_setChunk_outside {n : ℕ} {c : Chunk (Mem P)} (hc : b.chunks[abs/b.chunkBytes]?=some chunk)
    (h : ∀ r, r<abs%b.chunkBytes ∨ abs%b.chunkBytes+n ≤ r →
      chunkByte (some c) r = chunkByte (some chunk) r) {a : ℕ} (ha : a<abs ∨ abs+n≤a) :
    (b.setChunk (abs/b.chunkBytes) c).flat a = b.flat a := by
  rw [flat_setChunk b hc]
  split_ifs with hin
  · obtain ⟨hcap,hi⟩ := hin
    have hrel := relative_mem_iff n hi
    rw [h _ (by omega)]
    unfold flat
    rw [if_pos hcap,←hi,hc]
  · rfl

lemma flat_setChunk_store (hpos : 0<b.chunkBytes)
    (hle : abs+data.length≤b.capacity) (hfit : abs%b.chunkBytes+data.length≤b.chunkBytes)
    {c : Chunk (Mem P)} (hc : b.chunks[abs/b.chunkBytes]?=some chunk) (h : chunkByte (some c) =
      Image.store (chunkByte (some chunk)) (abs%b.chunkBytes) data) :
    (b.setChunk (abs/b.chunkBytes) c).flat = b.flat.store abs data := by
  funext a
  by_cases ha : abs≤a ∧ a<abs+data.length
  · have hfirst : firstCount b.chunkBytes abs data.length=data.length := by
      unfold firstCount
      omega
    obtain ⟨hd,hm⟩ := div_of_mem_firstPiece hpos ha.1 (hfirst ▸ ha.2)
    rw [flat_setChunk b hc,if_pos ⟨by omega,hd.symm⟩,h,hm]
    refine Option.some.inj ((Image.store_of_mem _ _ (Nat.le_add_right _ _) (by omega)).trans ?_)
    rw [Image.store_of_mem _ _ ha.1 ha.2,Nat.add_sub_cancel_left]
  · rw [Image.store_outside _ _ (by omega)]
    refine flat_setChunk_outside (n := data.length) hc (fun r hr => ?_) (by omega)
    rw [h,Image.store_outside _ _ hr]

section
variable [ContainedVram P] [CommitBudgetGate G]

omit [CommitBudgetGate G] in
/-- One transfer into a resident chunk: it stays inside its range of the flat array, and a
successful one stores the data there. -/
lemma flat_transfer {b : SparseVramBackend P G} (hpos : 0<b.chunkBytes) {abs : ℕ} (hle : abs+data.length≤b.capacity)
    (hfit : abs%b.chunkBytes+data.length≤b.chunkBytes) {chunk : Chunk (Mem P)}
    (hc : b.chunks[abs/b.chunkBytes]?=some chunk) {m : Mem P}
    (hm : chunk.mem=some m) {r : Except VramError Unit} {m' : Mem P} {provider : P}
    (hw : VramProvider.writeAt b.provider m (abs%b.chunkBytes) data = (r,m',provider))
    {c : Chunk (Mem P)} (hcm : c.mem=some m') : (∀ a, a<abs ∨ abs+data.length≤a →
      (b.setChunk (abs/b.chunkBytes) c).flat a = b.flat a) ∧
    (r=.ok () → (b.setChunk (abs/b.chunkBytes) c).flat = b.flat.store abs data) := by
  have hok := LawfulVram.writeAt_ok b.provider m (abs%b.chunkBytes) data
  have hout := ContainedVram.writeAt_outside b.provider m (abs%b.chunkBytes) data
  rw [hw] at hok hout
  have hbyte (x : Chunk (Mem P)) {mem : Mem P} (hx : x.mem=some mem) :
      chunkByte (some x) = LawfulVram.contents mem := by
    funext r
    simp only [chunkByte,Option.bind_some,hx,Option.elim_some]
  constructor
  · refine fun a ha => flat_setChunk_outside hc (fun r hr => ?_) ha
    rw [hbyte chunk hm,hbyte c hcm]
    exact hout r hr
  · intro hr
    refine flat_setChunk_store hpos hle hfit hc ?_
    rw [hbyte chunk hm,hbyte c hcm]
    exact (hok hr).2

lemma writeChunk_spec {b : SparseVramBackend P G} (hpos : 0<b.chunkBytes) (now : ℕ) {abs : ℕ} (hle : abs+data.length≤b.capacity) :
    ((b.writeChunk now abs data).2.capacity=b.capacity ∧
      (b.writeChunk now abs data).2.chunkBytes=b.chunkBytes) ∧
    (∀ n, (b.writeChunk now abs data).1=.ok n → n = firstCount b.chunkBytes abs data.length ∧
        (b.writeChunk now abs data).2.flat = b.flat.store abs (data.take n)) ∧
    ∀ a, a<abs ∨ abs+firstCount b.chunkBytes abs data.length≤a →
      (b.writeChunk now abs data).2.flat a = b.flat a := by
  unfold writeChunk chunkIndex
  split_ifs with habs
  · exact ⟨⟨rfl,rfl⟩,fun _ h => absurd h (by simp),fun _ _ => rfl⟩
  dsimp only
  have hs := b.ensureLive_sameFlat (abs/b.chunkBytes)
  generalize b.ensureLive (abs/b.chunkBytes) = x at hs
  rcases x with ⟨e | ⟨⟩,b₁⟩
  · refine ⟨⟨hs.capacity_eq,hs.chunkBytes_eq⟩,fun _ h => absurd h (by simp),fun a _ => ?_⟩
    exact congrFun hs.flat_eq a
  obtain ⟨hn,hr⟩ := b₁.pieceLen_eq abs data.length
  rw [←hs.chunkBytes_eq,hn,hr]
  rw [←hs.chunkBytes_eq] at hpos
  rw [←hs.capacity_eq] at hle
  rw [←hs.capacity_eq,←hs.flat_eq]
  rcases hc : b₁.chunks[abs/b₁.chunkBytes]? with _ | chunk
  · exact ⟨⟨rfl,rfl⟩,fun _ h => absurd h (by simp),fun _ _ => rfl⟩
  dsimp only
  rcases hm : chunk.mem with _ | m
  · exact ⟨⟨rfl,rfl⟩,fun _ h => absurd h (by simp),fun _ _ => rfl⟩
  have hfc := firstCount_le b₁.chunkBytes abs data.length
  have hfit := mod_add_firstCount_le hpos abs data.length
  have hlen : (data.take (firstCount b₁.chunkBytes abs data.length)).length =
      firstCount b₁.chunkBytes abs data.length := by
    rw [List.length_take,Nat.min_eq_left hfc]
  rw [←hlen] at hfit
  have hle' := (Nat.add_le_add_left hfc abs).trans hle
  rw [←hlen] at hle'
  dsimp only
  rcases hw : VramProvider.writeAt b₁.provider m (abs%b₁.chunkBytes)
    (data.take (firstCount b₁.chunkBytes abs data.length)) with ⟨e | ⟨⟩,m',provider⟩
  · have hf := flat_transfer hpos hle' hfit hc hm hw (c := {chunk with mem := some m'}) rfl
    refine ⟨⟨rfl,rfl⟩,fun _ h => absurd h (by simp),fun a ha => ?_⟩
    rw [←hlen] at ha
    exact hf.1 a ha
  · have hf := flat_transfer hpos hle' hfit hc hm hw (c := ⟨some m',true,some now⟩) rfl
    refine ⟨⟨rfl,rfl⟩,fun n h => ?_,fun a ha => ?_⟩
    · cases h
      exact ⟨rfl,hf.2 rfl⟩
    · rw [←hlen] at ha
      exact hf.1 a ha

lemma writeLoop_spec (now fuel : ℕ) {b : SparseVramBackend P G} (hpos : 0<b.chunkBytes)
    {abs : ℕ} {data : List UInt8} (hfuel : data.length≤fuel) (hle : abs+data.length≤b.capacity) :
    ((writeLoop now fuel b abs data).2.2.capacity=b.capacity ∧
      (writeLoop now fuel b abs data).2.2.chunkBytes=b.chunkBytes) ∧
    FlatWrite b.chunkBytes b.flat abs data (writeLoop now fuel b abs data).1
      (writeLoop now fuel b abs data).2.1 (writeLoop now fuel b abs data).2.2.flat := by
  induction fuel generalizing b abs data with
  | zero =>
    obtain rfl := List.eq_nil_of_length_eq_zero (Nat.le_zero.mp hfuel)
    exact ⟨⟨rfl,rfl⟩,FlatWrite.nil _ _ _⟩
  | succ fuel ih =>
    rw [writeLoop]
    split_ifs with hz
    · subst hz
      exact ⟨⟨rfl,rfl⟩,FlatWrite.nil _ _ _⟩
    · obtain ⟨hg,hok,hout⟩ := writeChunk_spec hpos now hle
      generalize b.writeChunk now abs data = x at hg hok hout
      rcases x with ⟨e | n,b₁⟩
      · exact ⟨hg,FlatWrite.fail hpos e hout⟩
      obtain ⟨rfl,hst⟩ := hok n rfl
      have hp := firstCount_pos hpos abs (List.length_pos_of_ne_nil hz)
      have hfc := firstCount_le b.chunkBytes abs data.length
      dsimp only at hg hst ⊢
      have hrest : (data.drop (firstCount b.chunkBytes abs data.length)).length =
          data.length-firstCount b.chunkBytes abs data.length := List.length_drop
      obtain ⟨hg',hw⟩ := @ih b₁ (by rwa [hg.2]) (abs+firstCount b.chunkBytes abs data.length)
        (data.drop (firstCount b.chunkBytes abs data.length)) (by omega) (by omega)
      rw [hg.1,hg.2] at hg'
      rw [hg.2,hst] at hw
      exact ⟨hg',hw.cons hfc⟩

end
end SparseVramBackend

end RamShared.Sparse

import RamShared.Sparse.Capacity
import RamShared.Block.Recorder

/-! When the sparse backend commits memory. The provider keeps a record of the calls made to it, so
that every allocation of a run can be pointed at and its surroundings inspected. -/
namespace RamShared.Sparse
open Lib Block

variable {calls : List VramCall}

namespace SparseVramBackend
variable {P G : Type} [VramProvider P]

/-- What a backend keeps from its construction on: the chunks in use, without the wrap-around of
`committed_bytes`, stay within the cap. -/
structure Bounded (b : SparseVramBackend (Recorder P) G) : Prop where
  capacity_lt : b.capacity<2^64
  chunkBytes_pos : 0<b.chunkBytes
  length_eq : b.chunks.length = divCeil b.capacity b.chunkBytes
  committed_le : saturatingMul 64 b.chunksLive b.chunkBytes≤b.commitCapBytes

structure Kept (b b' : SparseVramBackend (Recorder P) G) : Prop where
  limits : Limits b b'
  chunks_eq : b'.chunks=b.chunks

/-- What must hold before the memory of a chunk is asked for. -/
structure Admitted [CommitBudgetGate G] (b : SparseVramBackend (Recorder P) G) (idx : ℕ) : Prop where
  absent : ∃ chunk, b.chunks[idx]?=some chunk ∧ chunk.mem=none
  gate : ∀ gate, b.budgetGate=some gate →
    (CommitBudgetGate.allowCommit gate b.committedBytes b.chunkBytes).1=.ok ()
  cap : saturatingAdd 64 b.committedBytes b.chunkBytes≤b.commitCapBytes

lemma Kept.refl (b : SparseVramBackend (Recorder P) G) : Kept b b := ⟨.refl b,rfl⟩

lemma Kept.trans {b₁ b₂ b₃ : SparseVramBackend (Recorder P) G} (h : Kept b₁ b₂) (h' : Kept b₂ b₃) :
    Kept b₁ b₃ := ⟨h.limits.trans h'.limits,h'.chunks_eq.trans h.chunks_eq⟩

variable {b b' : SparseVramBackend (Recorder P) G} {idx : ℕ}

lemma Bounded.committedBytes_le (h : b.Bounded) : b.committedBytes≤b.commitCapBytes := by
  have hle := h.committed_le
  have hmod := Nat.mod_le (b.chunksLive*b.chunkBytes) (2^64)
  have hlt := Nat.mod_lt (b.chunksLive*b.chunkBytes) (show 0<2^64 by decide)
  unfold saturatingMul at hle
  unfold committedBytes wrappingMul
  omega

lemma Bounded.kept (h : b.Bounded) (hk : Kept b b') : b'.Bounded := by
  obtain ⟨⟨hcapacity,hchunk,-,hcap⟩,hchunks⟩ := hk
  refine ⟨hcapacity ▸ h.capacity_lt,hchunk ▸ h.chunkBytes_pos,?_,?_⟩
  · rw [hchunks,hcapacity,hchunk]
    exact h.length_eq
  · rw [chunksLive,hchunks,hchunk,hcap]
    exact h.committed_le

lemma Bounded.setChunk (h : b.Bounded) {old c : Chunk (VramProvider.Mem (Recorder P))}
    (ho : b.chunks[idx]?=some old)
    (hcap : old.mem=none → saturatingAdd 64 b.committedBytes b.chunkBytes≤b.commitCapBytes) :
    (b.setChunk idx c).Bounded := by
  refine ⟨h.capacity_lt,h.chunkBytes_pos,by simpa [SparseVramBackend.setChunk] using h.length_eq,
    committed_setChunk ho c h.committed_le fun hm => ?_⟩
  rw [←(committed_next ho hm h.capacity_lt h.chunkBytes_pos h.length_eq).2]
  exact hcap hm

lemma checkFloor_calls (b : SparseVramBackend (Recorder P) G) :
    ∃ answer, b.checkFloor.2.provider.log = b.provider.log++[.memInfo answer] ∧
      Kept b b.checkFloor.2 ∧ (b.checkFloor.1=.ok () → ∃ free total, answer=.ok (free,total) ∧
        saturatingAdd 64 b.reserveFloorBytes b.chunkBytes≤free) := by
  refine ⟨(VramProvider.memInfo b.provider.provider).1,?_⟩
  have hinfo : VramProvider.memInfo b.provider = ((VramProvider.memInfo b.provider.provider).1,
    ⟨(VramProvider.memInfo b.provider.provider).2,b.provider.log ++
      [.memInfo (VramProvider.memInfo b.provider.provider).1]⟩) := rfl
  rw [checkFloor,hinfo]
  rcases VramProvider.memInfo b.provider.provider with ⟨e | ⟨free,total⟩,p⟩
  · exact ⟨rfl,⟨⟨rfl,rfl,rfl,rfl⟩,rfl⟩,fun h => by cases h⟩
  · dsimp only
    split_ifs with hfree
    · exact ⟨rfl,⟨⟨rfl,rfl,rfl,rfl⟩,rfl⟩,fun h => by cases h⟩
    · exact ⟨rfl,⟨⟨rfl,rfl,rfl,rfl⟩,rfl⟩,fun _ => ⟨free,total,rfl,not_lt.mp hfree⟩⟩

lemma allocZeroed_calls (b : SparseVramBackend (Recorder P) G) (idx : ℕ) : Kept b (b.allocZeroed idx).2 ∧
      ((∃ e, (b.allocZeroed idx).1=.error e ∧
          ((b.allocZeroed idx).2.provider.log = b.provider.log++[.alloc b.chunkBytes false] ∨
            (b.allocZeroed idx).2.provider.log = b.provider.log++[.alloc b.chunkBytes true,.zero false])) ∨
        ∃ m, (b.allocZeroed idx).1=.ok m ∧ (b.allocZeroed idx).2.provider.log =
          b.provider.log++[.alloc b.chunkBytes true,.zero true]) := by
  have halloc : VramProvider.alloc b.provider b.chunkBytes =
    ((VramProvider.alloc b.provider.provider b.chunkBytes).1,
      ⟨(VramProvider.alloc b.provider.provider b.chunkBytes).2,b.provider.log ++
        [.alloc b.chunkBytes (VramProvider.alloc b.provider.provider b.chunkBytes).1.isOk]⟩) := rfl
  rw [allocZeroed,halloc]
  rcases VramProvider.alloc b.provider.provider b.chunkBytes with ⟨e | m,p⟩
  · exact ⟨⟨⟨rfl,rfl,rfl,rfl⟩,rfl⟩,.inl ⟨_,rfl,.inl rfl⟩⟩
  · have hzero : VramProvider.zero (⟨p,b.provider.log++[.alloc b.chunkBytes true]⟩ : Recorder P) m =
      ((VramProvider.zero p m).1,(VramProvider.zero p m).2.1,⟨(VramProvider.zero p m).2.2,
        (b.provider.log++[.alloc b.chunkBytes true])++[.zero (VramProvider.zero p m).1.isOk]⟩) := rfl
    dsimp only [Except.isOk,Except.toBool]
    rw [hzero]
    rcases VramProvider.zero p m with ⟨e | ⟨⟩,m',p'⟩
    · exact ⟨⟨⟨rfl,rfl,rfl,rfl⟩,rfl⟩,.inl ⟨_,rfl,.inr (by simp [Except.isOk,Except.toBool])⟩⟩
    · exact ⟨⟨⟨rfl,rfl,rfl,rfl⟩,rfl⟩,.inr ⟨m',rfl,by simp [Except.isOk,Except.toBool]⟩⟩

lemma reads_calls {p q : Recorder P} (h : Relation.ReflTransGen ReadOnce p q) :
    ∃ calls, q.log = p.log++calls ∧ ∀ call∈calls, call.isAlloc=false := by
  induction h with
  | refl => exact ⟨[],(List.append_nil _).symm,List.forall_mem_nil _⟩
  | tail _ hread ih =>
    obtain ⟨calls,hlog,hquiet⟩ := ih
    obtain ⟨m,off,n,rfl⟩ := hread
    refine ⟨calls++[_],(congrArg (· ++ [_]) hlog).trans (List.append_assoc ..),?_⟩
    simpa [or_imp,forall_and] using ⟨hquiet,rfl⟩

lemma Bounded.freeAllLive (h : b.Bounded) : b.freeAllLive.2.Bounded := by
  refine ⟨h.capacity_lt,h.chunkBytes_pos,(length_freeLoop ..).trans h.length_eq,?_⟩
  rw [chunksLive_freeAllLive]
  simp [saturatingMul]

variable [CommitBudgetGate G]

lemma askGate_calls (b : SparseVramBackend (Recorder P) G) :
    b.askGate.2.provider=b.provider ∧ Kept b b.askGate.2 ∧ (b.askGate.1=.ok () →
      ∀ gate, b.budgetGate=some gate →
        (CommitBudgetGate.allowCommit gate b.committedBytes b.chunkBytes).1=.ok ()) := by
  unfold askGate
  cases hgate : b.budgetGate with
  | none => exact ⟨rfl,.refl b,fun _ => nofun⟩
  | some gate =>
    refine ⟨rfl,⟨⟨rfl,rfl,rfl,rfl⟩,rfl⟩,fun hok => ?_⟩
    rintro _ ⟨⟩
    exact hok

/-- The calls that make a chunk live, and what comes of them. -/
inductive Ensured (b : SparseVramBackend (Recorder P) G) (idx : ℕ) :
    List VramCall → Except IoError Unit → SparseVramBackend (Recorder P) G → Prop
  | present {chunk} (hchunk : b.chunks[idx]?=some chunk) (hlive : chunk.mem.isSome) :
      Ensured b idx [] (.ok ()) b
  | refused {calls e b'} (hcalls : ∀ call∈calls, ∃ answer, call=.memInfo answer) (hkept : Kept b b') :
      Ensured b idx calls (.error e) b'
  | failed {free total calls e b'} (hadmitted : b.Admitted idx)
      (hfree : saturatingAdd 64 b.reserveFloorBytes b.chunkBytes≤free)
      (hcalls : calls = [.memInfo (.ok (free,total)),.alloc b.chunkBytes false] ∨
        calls = [.memInfo (.ok (free,total)),.alloc b.chunkBytes true,.zero false])
      (hkept : Kept b b') : Ensured b idx calls (.error e) b'
  | committed {free total chunk m b'} (hadmitted : b.Admitted idx)
      (hfree : saturatingAdd 64 b.reserveFloorBytes b.chunkBytes≤free)
      (hchunk : b.chunks[idx]?=some chunk) (hkept : Kept b b') :
      Ensured b idx [.memInfo (.ok (free,total)),.alloc b.chunkBytes true,.zero true] (.ok ())
        (b'.setChunk idx {chunk with mem := some m})

lemma commitChunk_ensured {chunk : Chunk (VramProvider.Mem (Recorder P))}
    (hchunk : b.chunks[idx]?=some chunk) (hmem : chunk.mem=none) :
    ∃ calls, (b.commitChunk idx chunk).2.provider.log = b.provider.log++calls ∧
      Ensured b idx calls (b.commitChunk idx chunk).1 (b.commitChunk idx chunk).2 := by
  obtain ⟨hprovider,hkept₁,hgate⟩ := b.askGate_calls
  unfold commitChunk
  generalize b.askGate = x at hprovider hkept₁ hgate ⊢
  obtain ⟨e | ⟨⟩,b₁⟩ := x
  · refine ⟨[],by simpa using congrArg Recorder.log hprovider,.refused (List.forall_mem_nil _) ?_⟩
    exact ⟨⟨hkept₁.limits.1,hkept₁.limits.2,hkept₁.limits.3,hkept₁.limits.4⟩,hkept₁.chunks_eq⟩
  dsimp only at hprovider hkept₁ ⊢
  split_ifs with hcap
  · refine ⟨[],by simpa using congrArg Recorder.log hprovider,.refused (List.forall_mem_nil _) ?_⟩
    exact ⟨⟨hkept₁.limits.1,hkept₁.limits.2,hkept₁.limits.3,hkept₁.limits.4⟩,hkept₁.chunks_eq⟩
  rw [hkept₁.limits.cap_eq] at hcap
  have hadmitted : b.Admitted idx := ⟨⟨chunk,hchunk,hmem⟩,hgate rfl,not_lt.mp hcap⟩
  obtain ⟨answer,hlog₂,hkept₂,hfree⟩ := b₁.checkFloor_calls
  rw [hprovider] at hlog₂
  rw [hkept₁.limits.reserve_eq,hkept₁.limits.chunkBytes_eq] at hfree
  generalize b₁.checkFloor = x at hlog₂ hkept₂ hfree ⊢
  obtain ⟨e | ⟨⟩,b₂⟩ := x
  · exact ⟨_,hlog₂,.refused (by simp) (hkept₁.trans hkept₂)⟩
  obtain ⟨free,total,rfl,hneed⟩ := hfree rfl
  dsimp only at hlog₂ hkept₂ ⊢
  have hkept := hkept₁.trans hkept₂
  obtain ⟨hkept₃,hcalls⟩ := b₂.allocZeroed_calls idx
  rw [hlog₂,hkept.limits.chunkBytes_eq] at hcalls
  generalize b₂.allocZeroed idx = x at hkept₃ hcalls ⊢
  obtain ⟨r,b₃⟩ := x
  obtain ⟨e,rfl,hlog₃⟩ | ⟨m,rfl,hlog₃⟩ := hcalls
  · obtain hlog₃ | hlog₃ := hlog₃
    · exact ⟨_,hlog₃.trans (List.append_assoc ..),.failed hadmitted hneed (.inl rfl)
        (hkept.trans hkept₃)⟩
    · exact ⟨_,hlog₃.trans (List.append_assoc ..),.failed hadmitted hneed (.inr rfl)
        (hkept.trans hkept₃)⟩
  · exact ⟨_,hlog₃.trans (List.append_assoc ..),.committed hadmitted hneed hchunk
      (hkept.trans hkept₃)⟩

lemma ensureLive_ensured (b : SparseVramBackend (Recorder P) G) (idx : ℕ) :
    ∃ calls, (b.ensureLive idx).2.provider.log = b.provider.log++calls ∧
      Ensured b idx calls (b.ensureLive idx).1 (b.ensureLive idx).2 := by
  unfold ensureLive
  cases hchunk : b.chunks[idx]? with
  | none => exact ⟨[],(List.append_nil _).symm,.refused (List.forall_mem_nil _) (.refl b)⟩
  | some chunk =>
    dsimp only
    split_ifs with hmem
    · exact ⟨[],(List.append_nil _).symm,.present hchunk hmem⟩
    · exact commitChunk_ensured hchunk (by simpa using hmem)

lemma Ensured.bounded {r : Except IoError Unit}
    (h : Ensured b idx calls r b') (hb : b.Bounded) : b'.Bounded := by
  cases h with
  | present => exact hb
  | refused _ hkept => exact hb.kept hkept
  | failed _ _ _ hkept => exact hb.kept hkept
  | committed hadmitted _ hchunk hkept =>
    refine (hb.kept hkept).setChunk (by rw [hkept.chunks_eq]; exact hchunk) fun _ => ?_
    rw [committedBytes,chunksLive,hkept.chunks_eq,hkept.limits.chunkBytes_eq,hkept.limits.cap_eq]
    exact hadmitted.cap

/-- One round of a write: the backend before it, its chunk, the calls it made to the provider, whether
it succeeded, and the backend after it. -/
structure Round (P G : Type) [VramProvider P] where
  start : SparseVramBackend (Recorder P) G
  idx : ℕ
  calls : List VramCall
  ok : Bool
  finish : SparseVramBackend (Recorder P) G

/-- What is guaranteed of a round. -/
structure Round.Safe (r : Round P G) : Prop where
  committed_le : r.start.committedBytes ≤ r.start.commitCapBytes ∧
    r.finish.committedBytes ≤ r.finish.commitCapBytes
  /-- At most one allocation, for an absent chunk that the gate and the cap let in, right after a
  sample with enough free memory. -/
  alloc : (∃ call∈r.calls, call.isAlloc) → r.start.Admitted r.idx ∧ ∃ free total ok rest,
    r.calls=.memInfo (.ok (free,total))::.alloc r.start.chunkBytes ok::rest ∧
    saturatingAdd 64 r.start.reserveFloorBytes r.start.chunkBytes≤free ∧
    ∀ call∈rest, call.isAlloc=false
  zeroFailed : .zero false∈r.calls →
    (∃ chunk, r.finish.chunks[r.idx]?=some chunk ∧ chunk.mem=none) ∧
      r.finish.committedBytes=r.start.committedBytes
  /-- A round that succeeds met no failure, and found its chunk live or was let allocate it. -/
  succeeded : r.ok → (∀ call∈r.calls, call.isOk) ∧
    ((∃ chunk, r.start.chunks[r.idx]?=some chunk ∧ chunk.mem.isSome) ∨ ∃ call∈r.calls, call.isAlloc)

def writeRounds (now : ℕ) : ℕ → SparseVramBackend (Recorder P) G → ℕ → List UInt8 → List (Round P G)
  | 0, _, _, _ => []
  | fuel+1, b, abs, data =>
    if data=[] then []
    else
      let (result,b') := b.writeChunk now abs data
      ⟨b,abs/b.chunkBytes,b'.provider.log.drop b.provider.log.length,result.isOk,b'⟩ ::
        match result with
        | .error _ => []
        | .ok n => writeRounds now fuel b' (abs+n) (data.drop n)

/-- The rounds of an operation; only a write within the capacity has any. -/
def rounds (b : SparseVramBackend (Recorder P) G) : Op → List (Round P G)
  | .writeAt now off data =>
    match (checkedAdd 64 off data.length).filter fun stop => stop≤b.capacity with
    | none => []
    | some _ => writeRounds now data.length b off data
  | _ => []

lemma Ensured.safe {b'' : SparseVramBackend (Recorder P) G} {tail : List VramCall}
    {r : Except IoError Unit} {ok : Bool} (h : Ensured b idx calls r b') (hb : b.Bounded)
    (hb' : b''.Bounded) (htail : ∀ call∈tail, call=.writeAt ok) (herr : r≠.ok () → b''=b')
    (hok : ok → r=.ok ()) : Round.Safe ⟨b,idx,calls++tail,ok,b''⟩ := by
  have hquiet : ∀ call∈tail, call.isAlloc=false := by
    intro call hcall
    rw [htail call hcall]
    rfl
  have hzero : VramCall.zero false∉tail := by
    intro hmem
    cases htail _ hmem
  refine ⟨⟨hb.committedBytes_le,hb'.committedBytes_le⟩,?_,?_,?_⟩
  · rintro ⟨call,hcall,halloc⟩
    have hmem := List.mem_append.mp hcall
    have hin : call∈calls := hmem.resolve_right fun ht => by simp [hquiet call ht] at halloc
    cases h with
    | present => cases hin
    | refused hcalls =>
      obtain ⟨_,rfl⟩ := hcalls call hin
      cases halloc
    | failed hadmitted hfree hcalls =>
      obtain rfl | rfl := hcalls
      · exact ⟨hadmitted,_,_,_,tail,rfl,hfree,hquiet⟩
      · exact ⟨hadmitted,_,_,_,_,rfl,hfree,List.forall_mem_cons.mpr ⟨rfl,hquiet⟩⟩
    | committed hadmitted hfree =>
      exact ⟨hadmitted,_,_,_,_,rfl,hfree,List.forall_mem_cons.mpr ⟨rfl,hquiet⟩⟩
  · intro hmem
    have hin := (List.mem_append.mp hmem).resolve_right hzero
    cases h with
    | present => cases hin
    | refused hcalls =>
      obtain ⟨_,h⟩ := hcalls _ hin
      cases h
    | failed hadmitted hfree hcalls hkept =>
      obtain rfl := herr (by simp)
      obtain ⟨chunk,hchunk,hnone⟩ := hadmitted.absent
      refine ⟨⟨chunk,by rw [hkept.chunks_eq]; exact hchunk,hnone⟩,?_⟩
      rw [committedBytes,committedBytes,chunksLive,chunksLive,hkept.chunks_eq,
        hkept.limits.chunkBytes_eq]
    | committed => simp at hin
  · intro (hdone : ok=true)
    have hwritten : ∀ call∈tail, call.isOk := by
      intro call hcall
      rw [htail call hcall,hdone]
      rfl
    cases h with
    | present hchunk hlive => exact ⟨hwritten,.inl ⟨_,hchunk,hlive⟩⟩
    | refused => cases hok hdone
    | failed => cases hok hdone
    | committed =>
      refine ⟨?_,.inr ⟨.alloc b.chunkBytes true,by simp,rfl⟩⟩
      intro call hcall
      obtain hcall | hcall := List.mem_append.mp hcall
      · simp only [List.mem_cons,List.not_mem_nil,or_false] at hcall
        obtain rfl | rfl | rfl := hcall <;> rfl
      · exact hwritten call hcall

lemma writeChunk_safe (hb : b.Bounded) (now abs : ℕ) (data : List UInt8) :
    ∃ calls, (b.writeChunk now abs data).2.provider.log = b.provider.log++calls ∧
      (b.writeChunk now abs data).2.Bounded ∧
      Round.Safe ⟨b,abs/b.chunkBytes,calls,(b.writeChunk now abs data).1.isOk,
        (b.writeChunk now abs data).2⟩ := by
  unfold writeChunk
  unfold chunkIndex
  split_ifs
  · have hrefused : Ensured b (abs/b.chunkBytes) [] (.error ⟨""⟩) b :=
      .refused (List.forall_mem_nil _) (.refl b)
    exact ⟨[],(List.append_nil _).symm,hb,
      hrefused.safe hb hb (List.forall_mem_nil _) (fun _ => rfl) Bool.false_ne_true.elim⟩
  dsimp only
  obtain ⟨calls,hlog,hensured⟩ := b.ensureLive_ensured (abs/b.chunkBytes)
  generalize b.ensureLive (abs/b.chunkBytes) = x at hlog hensured ⊢
  obtain ⟨r,b₁⟩ := x
  have hb₁ : b₁.Bounded := hensured.bounded hb
  have hstopped : Round.Safe ⟨b,abs/b.chunkBytes,calls,false,b₁⟩ := by
    have hsafe : Round.Safe ⟨b,abs/b.chunkBytes,calls++[],false,b₁⟩ :=
      hensured.safe hb hb₁ (List.forall_mem_nil _) (fun _ => rfl) Bool.false_ne_true.elim
    rwa [List.append_nil] at hsafe
  cases r with
  | error e => exact ⟨calls,hlog,hb₁,hstopped⟩
  | ok u =>
    dsimp only at hlog hensured ⊢
    cases hchunk : b₁.chunks[abs/b.chunkBytes]? with
    | none => exact ⟨calls,hlog,hb₁,hstopped⟩
    | some chunk =>
      dsimp only
      cases hmem : chunk.mem with
      | none => exact ⟨calls,hlog,hb₁,hstopped⟩
      | some m =>
        dsimp only
        generalize abs-abs/b.chunkBytes*b₁.chunkBytes=off
        generalize data.take (b₁.pieceLen (abs/b.chunkBytes) abs data.length)=bytes
        have hwrite : VramProvider.writeAt b₁.provider m off bytes =
          ((VramProvider.writeAt b₁.provider.provider m off bytes).1,
            (VramProvider.writeAt b₁.provider.provider m off bytes).2.1,
            ⟨(VramProvider.writeAt b₁.provider.provider m off bytes).2.2,b₁.provider.log ++
              [.writeAt (VramProvider.writeAt b₁.provider.provider m off bytes).1.isOk]⟩) := rfl
        have hset (p : Recorder P) (c : Chunk (VramProvider.Mem (Recorder P))) :
            (({b₁ with provider := p} : SparseVramBackend (Recorder P) G).setChunk
              (abs/b.chunkBytes) c).Bounded := by
          have hmid : ({b₁ with provider := p} : SparseVramBackend (Recorder P) G).Bounded :=
            hb₁.kept ⟨⟨rfl,rfl,rfl,rfl⟩,rfl⟩
          exact hmid.setChunk hchunk fun hnone => by simp [hmem] at hnone
        rw [hwrite]
        rcases VramProvider.writeAt b₁.provider.provider m off bytes with ⟨e | ⟨⟩,m',p'⟩
        · refine ⟨calls++[.writeAt false],?_,hset _ _,?_⟩
          · simp [SparseVramBackend.setChunk,hlog,Except.isOk,Except.toBool]
          · exact hensured.safe hb (hset _ _) (by simp [Except.isOk,Except.toBool])
              (fun h => absurd rfl h) Bool.false_ne_true.elim
        · refine ⟨calls++[.writeAt true],?_,hset _ _,?_⟩
          · simp [SparseVramBackend.setChunk,hlog,Except.isOk,Except.toBool]
          · exact hensured.safe hb (hset _ _) (by simp [Except.isOk,Except.toBool])
              (fun h => absurd rfl h) (fun _ => rfl)

/-- What a backend is after some rounds: the rounds made all the calls in between, each of them is
safe, and there is none after one that failed. -/
structure Went (b b' : SparseVramBackend (Recorder P) G) (rs : List (Round P G)) : Prop where
  bounded : b'.Bounded
  log_eq : b'.provider.log = b.provider.log++rs.flatMap Round.calls
  safe : ∀ r∈rs, r.Safe
  last : ∀ before r after, rs = before++r::after → r.ok=false → after=[]

lemma Went.refl (hb : b.Bounded) : Went b b [] :=
  ⟨hb,by simp,List.forall_mem_nil _,by simp⟩

lemma Went.cons {b₁ b₂ : SparseVramBackend (Recorder P) G} {r : Round P G} {rs : List (Round P G)}
    (h : Went b₁ b₂ rs) (hlog : b₁.provider.log = b.provider.log++r.calls) (hr : r.Safe)
    (hlast : r.ok=false → rs=[]) : Went b b₂ (r::rs) := by
  refine ⟨h.bounded,?_,List.forall_mem_cons.mpr ⟨hr,h.safe⟩,?_⟩
  · rw [h.log_eq,hlog,List.append_assoc,List.flatMap_cons]
  · rintro (_ | ⟨r',before⟩) r'' after heq hfail
    · obtain ⟨rfl,rfl⟩ := List.cons.inj heq
      exact hlast hfail
    · exact h.last before r'' after (List.cons.inj heq).2 hfail

lemma writeLoop_went (hb : b.Bounded) (now fuel abs : ℕ) (data : List UInt8) :
    Went b (writeLoop now fuel b abs data).2.2 (writeRounds now fuel b abs data) := by
  induction fuel generalizing b abs data with
  | zero => exact .refl hb
  | succ fuel ih =>
    rw [writeLoop,writeRounds]
    split_ifs
    · exact .refl hb
    obtain ⟨calls,hlog,hb₁,hsafe⟩ := writeChunk_safe hb now abs data
    generalize b.writeChunk now abs data = x at hlog hb₁ hsafe ⊢
    obtain ⟨r,b₁⟩ := x
    have hcalls : b₁.provider.log.drop b.provider.log.length=calls := by
      rw [hlog,List.drop_left]
    dsimp only at hlog hb₁ hsafe ⊢
    rw [hcalls]
    cases r with
    | error e => exact (Went.refl hb₁).cons hlog hsafe fun _ => rfl
    | ok n => exact (ih hb₁ (abs+n) (data.drop n)).cons hlog hsafe Bool.noConfusion

/-- The calls of an operation: those of its rounds, and others that allocate nothing. -/
structure Performed (b b' : SparseVramBackend (Recorder P) G) (rs : List (Round P G)) : Prop where
  log_eq : ∃ rest, b'.provider.log = b.provider.log++rs.flatMap Round.calls++rest ∧
    ∀ call∈rest, call.isAlloc=false
  safe : ∀ r∈rs, r.Safe
  last : ∀ before r after, rs = before++r::after → r.ok=false → after=[]

lemma Went.performed {rs : List (Round P G)} (h : Went b b' rs) : Performed b b' rs :=
  ⟨⟨[],by rw [h.log_eq,List.append_nil],List.forall_mem_nil _⟩,h.safe,h.last⟩

lemma Performed.quiet (hlog : b'.provider.log = b.provider.log++calls)
    (hcalls : ∀ call∈calls, call.isAlloc=false) : Performed b b' [] :=
  ⟨⟨calls,by simpa using hlog,hcalls⟩,List.forall_mem_nil _,by simp⟩

lemma perform_performed (hb : b.Bounded) (op : Op) :
    (b.perform op).2.Bounded ∧ Performed b (b.perform op).2 (b.rounds op) := by
  have hsame : Performed b b [] := .quiet (List.append_nil _).symm (List.forall_mem_nil _)
  have hfreed : Performed b b.freeAllLive.2 [] := .quiet (List.append_nil _).symm (List.forall_mem_nil _)
  cases op with
  | readAt off len =>
    show (b.readAt off len).2.Bounded ∧ Performed b (b.readAt off len).2 []
    obtain ⟨p,hreads,heq⟩ := b.readAt_reads off len
    obtain ⟨calls,hlog,hquiet⟩ := reads_calls hreads
    rw [heq]
    exact ⟨hb.kept ⟨⟨rfl,rfl,rfl,rfl⟩,rfl⟩,.quiet hlog hquiet⟩
  | writeAt now off data =>
    show (b.writeAt now off data).2.2.Bounded ∧ Performed b (b.writeAt now off data).2.2
      (b.rounds (.writeAt now off data))
    unfold SparseVramBackend.writeAt rounds
    dsimp only
    cases (checkedAdd 64 off data.length).filter fun stop => stop≤b.capacity with
    | none =>
      split_ifs
      · exact ⟨hb,hsame⟩
      · exact ⟨hb,hsame⟩
    | some stop =>
      have hwent := writeLoop_went hb now data.length off data
      split_ifs with hdata
      · subst hdata
        exact ⟨hb,hsame⟩
      · exact ⟨hwent.bounded,hwent.performed⟩
  | tryReclaim now used free floor idle =>
    show (b.tryReclaim now used free floor idle).2.Bounded ∧
      Performed b (b.tryReclaim now used free floor idle).2 []
    unfold tryReclaim
    dsimp only
    split_ifs
    · exact ⟨hb,hsame⟩
    · exact ⟨hb.freeAllLive,hfreed⟩
    · exact ⟨hb,hsame⟩
  | freeAllLive => exact ⟨hb.freeAllLive,hfreed⟩

omit [CommitBudgetGate G] in
lemma newWithConfig_bounded {provider : Recorder P} {config : SparseVramConfig G}
    {capMib : Option ℕ} (h : newWithConfig provider config capMib=.ok b)
    (hcapacity : config.capacity<2^64) : b.Bounded := by
  unfold newWithConfig at h
  dsimp only at h
  split_ifs at h with hzero hchunk hmany
  obtain rfl := Except.ok.inj h
  have hpos : 0<config.chunkBytes := Nat.pos_of_ne_zero fun h => hchunk (.inl h)
  refine ⟨hcapacity,hpos,List.length_replicate,?_⟩
  simp [chunksLive,saturatingMul,List.countP_replicate]

/-- The backend never holds more than its cap. Every allocation belongs to a round of a write whose
chunk was absent, comes after the gate accepted the total so far and right after a sample that showed
the reserve and the chunk free (the sum stops at the top of the word); a chunk that could not be zeroed
is not held; and a round that failed is the last of its write. -/
theorem commit_safety {provider : P} {config : SparseVramConfig G} {capMib : Option ℕ}
    {b : SparseVramBackend (Recorder P) G} (h : newWithConfig ⟨provider,[]⟩ config capMib = .ok b)
    (hcapacity : config.capacity < 2^64) (ops : List Op) :
    (run (fun b op => (b.perform op).2) b ops).committedBytes ≤
      (run (fun b op => (b.perform op).2) b ops).commitCapBytes ∧
    ∀ op, Performed (run (fun b op => (b.perform op).2) b ops)
      ((run (fun b op => (b.perform op).2) b ops).perform op).2
      ((run (fun b op => (b.perform op).2) b ops).rounds op) := by
  have hb : (run (fun b op => (b.perform op).2) b ops).Bounded :=
    run_induction (P := Bounded) _ (fun b op hb => (perform_performed hb op).1)
      (newWithConfig_bounded h hcapacity) ops
  exact ⟨hb.committedBytes_le,fun op => (perform_performed hb op).2⟩

/-- Two chunks of four bytes and a gate that accepts once. -/
def gatedConfig : SparseVramConfig GateScript :=
  ⟨8,4,4,16,none,some ⟨[.ok (),.error "host low"]⟩⟩

theorem commit_safety_gatedConfig :
    ∃ b : SparseVramBackend (Recorder VramScript) GateScript,
      newWithConfig ⟨⟨[]⟩,[]⟩ gatedConfig none = .ok b ∧
      ((b.rounds (.writeAt 0 2 [1,2,3,4])).map Round.ok) = [true,false] ∧
      ∀ ops, (run (fun b op => (b.perform op).2) b ops).committedBytes ≤
        (run (fun b op => (b.perform op).2) b ops).commitCapBytes := by
  obtain ⟨b,hb,hrounds⟩ : ∃ b : SparseVramBackend (Recorder VramScript) GateScript,
    newWithConfig ⟨⟨[]⟩,[]⟩ gatedConfig none = .ok b ∧
      ((b.rounds (.writeAt 0 2 [1,2,3,4])).map Round.ok) = [true,false] := ⟨_,rfl,by decide +kernel⟩
  exact ⟨b,hb,hrounds,fun ops => (commit_safety hb (by decide) ops).1⟩

/-- A reserve that leaves no room for a chunk below the top of the word. -/
def wholeReserve : SparseVramConfig GateScript := ⟨4,4,4,2^64-1,none,none⟩

/-- The reserve and the chunk are more than what is free, and yet the chunk is allocated. -/
theorem saturated_reserve_allocates :
    ∃ b : SparseVramBackend (Recorder VramScript) GateScript,
      newWithConfig ⟨⟨[]⟩,[]⟩ wholeReserve none = .ok b ∧
      (b.perform (.writeAt 0 0 [7])).2.provider.log = [.memInfo (.ok (2^64-1,2^64-1)),.alloc 4 true,
        .zero true,.writeAt true] ∧
      2^64-1 < b.reserveFloorBytes+b.chunkBytes :=
  ⟨_,rfl,rfl,by decide⟩

end SparseVramBackend
end RamShared.Sparse

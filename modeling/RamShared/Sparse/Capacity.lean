import RamShared.Sparse.Refinement

/-! Whether the advertised capacity can be used. Chunks are committed whole, so the last one
may reach past the capacity that the commit cap was cut down to. -/
namespace RamShared.Sparse
open Lib Block
open VramProvider (Mem)

/-- Provider states from which no allocation, no clearing and no transfer inside a region ever
fails, and from which at least `need` bytes are always reported free. -/
structure Healthy {P : Type} [VramProvider P] (need : ℕ) (Ok : P → Prop) : Prop where
  alloc : ∀ p n, Ok p →
    (∃ m, (VramProvider.alloc p n).1=.ok m) ∧ Ok (VramProvider.alloc p n).2
  memInfo : ∀ p, Ok p →
    (∃ free total, (VramProvider.memInfo p).1=.ok (free,total) ∧ need≤free) ∧
      Ok (VramProvider.memInfo p).2
  zero : ∀ p m, Ok p → (VramProvider.zero p m).1=.ok () ∧ Ok (VramProvider.zero p m).2.2
  readAt : ∀ p m off n, Ok p → Ok (VramProvider.readAt p m off n).2
  writeAt : ∀ p m off data, Ok p →
    (off+data.length≤VramProvider.len m → (VramProvider.writeAt p m off data).1=.ok ()) ∧
      Ok (VramProvider.writeAt p m off data).2.2

namespace SparseVramBackend
variable {P G : Type} [VramProvider P] {Ok : P → Prop} (b : SparseVramBackend P G)

def Live (i : ℕ) : Prop :=
  ∃ c m, b.chunks[i]?=some c ∧ c.mem=some m

/-- What a backend without a gate keeps from its construction on. -/
structure Sized (Ok : P → Prop) (b : SparseVramBackend P G) : Prop where
  provider_ok : Ok b.provider
  capacity_lt : b.capacity<2^64
  chunkBytes_pos : 0<b.chunkBytes
  gate_none : b.budgetGate=none
  length_eq : b.chunks.length = divCeil b.capacity b.chunkBytes
  region_len : ∀ c∈b.chunks, ∀ m, c.mem=some m → VramProvider.len m=b.chunkBytes
  committed_le : saturatingMul 64 b.chunksLive b.chunkBytes≤b.commitCapBytes

/-- The limits are those of the construction. -/
structure Limits (b b' : SparseVramBackend P G) : Prop where
  capacity_eq : b'.capacity=b.capacity
  chunkBytes_eq : b'.chunkBytes=b.chunkBytes
  reserve_eq : b'.reserveFloorBytes=b.reserveFloorBytes
  cap_eq : b'.commitCapBytes=b.commitCapBytes

def Roomy : Prop :=
  saturatingMul 64 (divCeil b.capacity b.chunkBytes) b.chunkBytes≤b.commitCapBytes

/-- A step of a write: the limits stay, and no chunk is given back. -/
structure Advance (Ok : P → Prop) (b b' : SparseVramBackend P G) : Prop where
  sized : Sized Ok b'
  limits : Limits b b'
  live : ∀ i, b.Live i → b'.Live i

lemma Limits.refl : Limits b b := ⟨rfl,rfl,rfl,rfl⟩

lemma Limits.trans {b₁ b₂ b₃ : SparseVramBackend P G} (h : Limits b₁ b₂) (h' : Limits b₂ b₃) : Limits b₁ b₃ :=
  ⟨h'.capacity_eq.trans h.capacity_eq,h'.chunkBytes_eq.trans h.chunkBytes_eq,
    h'.reserve_eq.trans h.reserve_eq,h'.cap_eq.trans h.cap_eq⟩

variable {b : SparseVramBackend P G} {need : ℕ}

lemma Limits.roomy {b' : SparseVramBackend P G} (h : Limits b b') (hr : b.Roomy) : b'.Roomy := by
  unfold Roomy at hr ⊢
  rwa [h.capacity_eq,h.chunkBytes_eq,h.cap_eq]

lemma Advance.refl (h : Sized Ok b) : Advance Ok b b :=
  ⟨h,.refl b,fun _ hi => hi⟩

lemma Advance.trans {b₁ b₂ b₃ : SparseVramBackend P G} (h : Advance Ok b₁ b₂)
    (h' : Advance Ok b₂ b₃) : Advance Ok b₁ b₃ :=
  ⟨h'.sized,h.limits.trans h'.limits,fun i hi => h'.live i (h.live i hi)⟩

lemma Sized.withProvider (h : Sized Ok b) {p : P} (hp : Ok p) : Sized Ok {b with provider := p} :=
  ⟨hp,h.capacity_lt,h.chunkBytes_pos,h.gate_none,h.length_eq,h.region_len,h.committed_le⟩

section
variable {idx : ℕ} {old : Chunk (Mem P)} (ho : b.chunks[idx]?=some old)
include ho

lemma committed_setChunk (c : Chunk (Mem P)) (hle : saturatingMul 64 b.chunksLive b.chunkBytes≤b.commitCapBytes)
    (hcap : old.mem=none → saturatingMul 64 (b.chunksLive+1) b.chunkBytes≤b.commitCapBytes) :
    saturatingMul 64 (b.setChunk idx c).chunksLive b.chunkBytes≤b.commitCapBytes := by
  obtain ⟨hlt,hget⟩ := List.getElem?_eq_some_iff.mp ho
  have hlive : (b.setChunk idx c).chunksLive=_ := List.countP_set hlt
  have hmono {k l : ℕ} (hk : k≤l) (hl : saturatingMul 64 l b.chunkBytes≤b.commitCapBytes) :
      saturatingMul 64 k b.chunkBytes≤b.commitCapBytes :=
    (min_le_min_right _ (Nat.mul_le_mul_right _ hk)).trans hl
  rw [hget] at hlive
  cases hm : old.mem with
  | some m =>
    have hpos : 0<b.chunks.countP fun c => c.mem.isSome :=
      List.countP_pos_iff.mpr ⟨old,List.mem_of_getElem? ho,by simp [hm]⟩
    refine hmono ?_ hle
    rw [hlive,chunksLive]
    simp only [hm,Option.isSome_some,if_true]
    split_ifs <;> omega
  | none =>
    refine hmono ?_ (hcap hm)
    rw [hlive,chunksLive]
    simp only [hm,Option.isSome_none,Bool.false_eq_true,if_false,Nat.sub_zero]
    split_ifs <;> omega

-- An absent chunk leaves fewer than all live, so the committed bytes have not wrapped around.
lemma committed_next (hm : old.mem=none) (hcapacity : b.capacity<2^64) (hpos : 0<b.chunkBytes)
    (hlen : b.chunks.length = divCeil b.capacity b.chunkBytes) : b.chunksLive<divCeil b.capacity b.chunkBytes ∧
      saturatingAdd 64 b.committedBytes b.chunkBytes = saturatingMul 64 (b.chunksLive+1) b.chunkBytes := by
  have hlt : b.chunksLive<divCeil b.capacity b.chunkBytes := by
    rw [←hlen]
    refine lt_of_le_of_ne List.countP_le_length fun he => ?_
    have := List.countP_eq_length.mp he old (List.mem_of_getElem? ho)
    simp [hm] at this
  refine ⟨hlt,?_⟩
  have hw := (mul_lt_of_lt_divCeil hpos hlt).trans hcapacity
  rw [saturatingMul,saturatingAdd,committedBytes,wrappingMul,Nat.mod_eq_of_lt hw,Nat.add_mul,
    Nat.one_mul]

end

lemma Sized.setChunk (h : Sized Ok b) {idx : ℕ} {old c : Chunk (Mem P)}
    (ho : b.chunks[idx]?=some old) {m : Mem P} (hm : c.mem=some m) (hl : VramProvider.len m=b.chunkBytes)
    (hcap : old.mem=none → saturatingMul 64 (b.chunksLive+1) b.chunkBytes≤b.commitCapBytes) :
    Advance Ok b (b.setChunk idx c) ∧ (b.setChunk idx c).Live idx := by
  obtain ⟨hlt,-⟩ := List.getElem?_eq_some_iff.mp ho
  have hlive : (b.setChunk idx c).Live idx :=
    ⟨c,m,by simp [SparseVramBackend.setChunk,hlt],hm⟩
  refine ⟨⟨⟨h.provider_ok,h.capacity_lt,h.chunkBytes_pos,h.gate_none,?_,?_,
    committed_setChunk ho c h.committed_le hcap⟩,⟨rfl,rfl,rfl,rfl⟩,?_⟩,hlive⟩
  · simp [SparseVramBackend.setChunk,h.length_eq]
  · intro d hd m' hm'
    rcases List.mem_or_eq_of_mem_set hd with hd | rfl
    · exact h.region_len d hd m' hm'
    · rw [hm] at hm'
      cases hm'
      exact hl
  · rintro i ⟨d,m',hd,hm'⟩
    by_cases hi : idx=i
    · exact hi ▸ hlive
    · exact ⟨d,m',by simp [SparseVramBackend.setChunk,hi,hd],hm'⟩

section

lemma checkFloor_healthy (h : Healthy (b.reserveFloorBytes+b.chunkBytes) Ok) (hp : Ok b.provider) :
    ∃ p, Ok p ∧ b.checkFloor = (.ok (),{b with provider := p}) := by
  obtain ⟨⟨free,total,hi,hfree⟩,hp'⟩ := h.memInfo b.provider hp
  unfold checkFloor
  generalize VramProvider.memInfo b.provider = x at hi hp'
  obtain ⟨r,p⟩ := x
  cases hi
  refine ⟨p,hp',?_⟩
  have hneed : ¬free<saturatingAdd 64 b.reserveFloorBytes b.chunkBytes := by
    unfold saturatingAdd
    omega
  dsimp only
  rw [if_neg hneed]

variable [LawfulVram P]

lemma allocZeroed_healthy {need : ℕ} (h : Healthy need Ok) (hp : Ok b.provider) (idx : ℕ) :
    ∃ m p, Ok p ∧ VramProvider.len m=b.chunkBytes ∧
      b.allocZeroed idx = (.ok m,{b with provider := p}) := by
  obtain ⟨⟨m,hm⟩,hp₁⟩ := h.alloc b.provider b.chunkBytes hp
  have hlen := LawfulVram.alloc_len b.provider b.chunkBytes m hm
  unfold allocZeroed
  generalize VramProvider.alloc b.provider b.chunkBytes = x at hm hp₁
  obtain ⟨r,p₁⟩ := x
  cases hm
  obtain ⟨hz,hp₂⟩ := h.zero p₁ m hp₁
  have hzl := LawfulVram.zero_len p₁ m
  dsimp only
  generalize VramProvider.zero p₁ m = x at hz hp₂ hzl
  obtain ⟨r,m',p₂⟩ := x
  cases hz
  exact ⟨m',p₂,hp₂,hzl.trans hlen,rfl⟩

variable [CommitBudgetGate G]

lemma commitChunk_healthy (hs : Sized Ok b) (h : Healthy (b.reserveFloorBytes+b.chunkBytes) Ok)
    {idx : ℕ} {chunk : Chunk (Mem P)} (hc : b.chunks[idx]?=some chunk) (hm : chunk.mem=none) :
    Advance Ok b (b.commitChunk idx chunk).2 ∧
      ((b.commitChunk idx chunk).1=.ok () → (b.commitChunk idx chunk).2.Live idx) ∧
      (b.Roomy → (b.commitChunk idx chunk).1=.ok ()) := by
  obtain ⟨hlt,hnext⟩ := committed_next hc hm hs.capacity_lt hs.chunkBytes_pos hs.length_eq
  have hgate : b.askGate = (.ok (),b) := by
    simp [askGate,hs.gate_none]
  simp only [commitChunk,hgate,hnext]
  split_ifs with hcap
  · refine ⟨⟨⟨hs.provider_ok,hs.capacity_lt,hs.chunkBytes_pos,hs.gate_none,hs.length_eq,
      hs.region_len,hs.committed_le⟩,⟨rfl,rfl,rfl,rfl⟩,fun _ hi => hi⟩,
      fun h => absurd h (by simp),fun hr => ?_⟩
    have hmul : (b.chunksLive+1)*b.chunkBytes≤divCeil b.capacity b.chunkBytes*b.chunkBytes :=
      Nat.mul_le_mul_right _ hlt
    unfold Roomy saturatingMul at hr
    unfold saturatingMul at hcap
    omega
  · obtain ⟨p₁,hp₁,hfloor⟩ := checkFloor_healthy h hs.provider_ok
    obtain ⟨m,p₂,hp₂,hlen,halloc⟩ :=
      allocZeroed_healthy (b := {b with provider := p₁}) h hp₁ idx
    simp only [hfloor,halloc]
    have hset := (hs.withProvider hp₂).setChunk (c := {chunk with mem := some m}) hc rfl hlen
      fun _ => not_lt.mp hcap
    obtain ⟨⟨hsz,hlim,hlv⟩,hlive⟩ := hset
    exact ⟨⟨hsz,⟨hlim.1,hlim.2,hlim.3,hlim.4⟩,hlv⟩,fun _ => hlive,fun _ => trivial⟩

lemma ensureLive_healthy (hs : Sized Ok b) (h : Healthy (b.reserveFloorBytes+b.chunkBytes) Ok)
    {idx : ℕ} (hidx : idx<divCeil b.capacity b.chunkBytes) : Advance Ok b (b.ensureLive idx).2 ∧
      ((b.ensureLive idx).1=.ok () → (b.ensureLive idx).2.Live idx) ∧
      (b.Roomy → (b.ensureLive idx).1=.ok ()) := by
  rw [←hs.length_eq] at hidx
  have hc := List.getElem?_eq_getElem hidx
  generalize b.chunks[idx] = chunk at hc
  simp only [ensureLive,hc]
  split_ifs with hm
  · obtain ⟨m,hm⟩ := Option.isSome_iff_exists.mp hm
    exact ⟨.refl hs,fun _ => ⟨chunk,m,hc,hm⟩,fun _ => rfl⟩
  · exact commitChunk_healthy hs h hc (by simpa using hm)

lemma writeChunk_healthy (hs : Sized Ok b) (h : Healthy (b.reserveFloorBytes+b.chunkBytes) Ok)
    (now : ℕ) {abs : ℕ} {data : List UInt8} (hd : data≠[]) (hle : abs+data.length≤b.capacity) :
    Advance Ok b (b.writeChunk now abs data).2 ∧
      (∀ n, (b.writeChunk now abs data).1=.ok n → n = firstCount b.chunkBytes abs data.length ∧
          (b.writeChunk now abs data).2.Live (abs/b.chunkBytes)) ∧
      (b.Roomy → ∃ n, (b.writeChunk now abs data).1=.ok n) := by
  have hpos := List.length_pos_of_ne_nil hd
  have hidx := div_lt_divCeil hs.chunkBytes_pos (show abs<b.capacity by omega)
  obtain ⟨ha,hlive,hok⟩ := ensureLive_healthy hs h hidx
  simp only [writeChunk,chunkIndex,if_neg (show ¬b.capacity≤abs by omega)]
  generalize b.ensureLive (abs/b.chunkBytes) = x at ha hlive hok
  obtain ⟨e | ⟨⟩,b₁⟩ := x
  · exact ⟨ha,fun _ h => absurd h (by simp),fun hr => absurd (hok hr) (by simp)⟩
  obtain ⟨c,m,hc,hm⟩ := hlive rfl
  dsimp only at ha hc ⊢
  obtain ⟨hn,-⟩ := b₁.pieceLen_eq abs data.length
  rw [ha.limits.chunkBytes_eq] at hn
  have hr : abs-abs/b.chunkBytes*b₁.chunkBytes = abs%b.chunkBytes := by
    rw [ha.limits.chunkBytes_eq,Nat.mod_eq_sub_div_mul]
  simp only [hc,hm,hn,hr]
  have hlen := (ha.sized.region_len c (List.mem_of_getElem? hc) m hm).trans ha.limits.chunkBytes_eq
  have hfit : abs%b.chunkBytes +
      (data.take (firstCount b.chunkBytes abs data.length)).length≤VramProvider.len m := by
    rw [List.length_take,Nat.min_eq_left (firstCount_le ..),hlen]
    exact mod_add_firstCount_le hs.chunkBytes_pos abs data.length
  obtain ⟨hw,hp⟩ := h.writeAt b₁.provider m (abs%b.chunkBytes)
    (data.take (firstCount b.chunkBytes abs data.length)) ha.sized.provider_ok
  have hwl := LawfulVram.writeAt_len b₁.provider m (abs%b.chunkBytes)
    (data.take (firstCount b.chunkBytes abs data.length))
  have hw := hw hfit
  generalize VramProvider.writeAt b₁.provider m (abs%b.chunkBytes)
    (data.take (firstCount b.chunkBytes abs data.length)) = y at hw hp hwl
  obtain ⟨r,m',p⟩ := y
  cases hw
  obtain ⟨hadv,hl⟩ := (ha.sized.withProvider hp).setChunk (c := ⟨some m',true,some now⟩) hc rfl
    (hwl.trans (hlen.trans ha.limits.chunkBytes_eq.symm))
    fun hn => absurd (hm.symm.trans hn) (by simp)
  obtain ⟨hsz,hlim,hlv⟩ := hadv
  refine ⟨ha.trans ⟨hsz,⟨hlim.1,hlim.2,hlim.3,hlim.4⟩,hlv⟩,fun n hn => ?_,fun _ => ⟨_,rfl⟩⟩
  cases hn
  exact ⟨rfl,hl⟩

lemma writeLoop_healthy (now fuel : ℕ) (hs : Sized Ok b)
    (h : Healthy (b.reserveFloorBytes+b.chunkBytes) Ok) {abs : ℕ} {data : List UInt8}
    (hfuel : data.length≤fuel) (hle : abs+data.length≤b.capacity) :
    Advance Ok b (writeLoop now fuel b abs data).2.2 ∧
      ((writeLoop now fuel b abs data).1=.ok () → ∀ a, abs≤a → a<abs+data.length →
        (writeLoop now fuel b abs data).2.2.Live (a/b.chunkBytes)) ∧
      (b.Roomy → (writeLoop now fuel b abs data).1=.ok ()) := by
  induction fuel generalizing b abs data with
  | zero =>
    obtain rfl := List.eq_nil_of_length_eq_zero (Nat.le_zero.mp hfuel)
    exact ⟨.refl hs,fun _ a h₁ h₂ => absurd h₂ (not_lt.mpr h₁),fun _ => rfl⟩
  | succ fuel ih =>
    rw [writeLoop]
    split_ifs with hd
    · subst hd
      exact ⟨.refl hs,fun _ a h₁ h₂ => absurd h₂ (not_lt.mpr h₁),fun _ => rfl⟩
    · obtain ⟨ha,hlive,hok⟩ := writeChunk_healthy hs h now hd hle
      generalize b.writeChunk now abs data = x at ha hlive hok
      obtain ⟨e | n,b₁⟩ := x
      · exact ⟨ha,fun h => absurd h (by simp),fun hr => absurd (hok hr) (by simp)⟩
      obtain ⟨rfl,hl⟩ := hlive n rfl
      dsimp only at ha hl ⊢
      have hp := firstCount_pos hs.chunkBytes_pos abs (List.length_pos_of_ne_nil hd)
      have hfc := firstCount_le b.chunkBytes abs data.length
      have hdrop : (data.drop (firstCount b.chunkBytes abs data.length)).length =
          data.length-firstCount b.chunkBytes abs data.length := List.length_drop
      obtain ⟨ha',hlive',hok'⟩ := @ih b₁ ha.sized
        (by rw [ha.limits.reserve_eq,ha.limits.chunkBytes_eq]; exact h)
        (abs+firstCount b.chunkBytes abs data.length)
        (data.drop (firstCount b.chunkBytes abs data.length)) (by omega)
        (by rw [ha.limits.capacity_eq]; omega)
      refine ⟨ha.trans ha',fun hr a h₁ h₂ => ?_,fun hr => hok' (ha.limits.roomy hr)⟩
      by_cases hin : a<abs+firstCount b.chunkBytes abs data.length
      · rw [(div_of_mem_firstPiece hs.chunkBytes_pos h₁ hin).1]
        exact ha'.live _ hl
      · have := hlive' hr a (by omega) (by omega)
        rwa [ha.limits.chunkBytes_eq] at this

lemma writeAt_healthy (hs : Sized Ok b) (h : Healthy (b.reserveFloorBytes+b.chunkBytes) Ok)
    (now off : ℕ) (data : List UInt8) : Advance Ok b (b.writeAt now off data).2.2 ∧
      (off+data.length≤b.capacity → (b.writeAt now off data).1=.ok () → ∀ a, off≤a → a<off+data.length →
          (b.writeAt now off data).2.2.Live (a/b.chunkBytes)) ∧
      (b.Roomy → off+data.length≤b.capacity → (b.writeAt now off data).1=.ok ()) := by
  unfold writeAt
  split_ifs with hd
  · subst hd
    exact ⟨.refl hs,fun _ _ a h₁ h₂ => absurd h₂ (not_lt.mpr h₁),fun _ _ => rfl⟩
  by_cases hle : off+data.length≤b.capacity
  · have hadd : (checkedAdd 64 off data.length).filter (fun stop => stop≤b.capacity) =
        some (off+data.length) := by
      have hlt := hs.capacity_lt
      rw [checkedAdd,if_pos (by omega)]
      simp [hle]
    rw [hadd]
    obtain ⟨ha,hlive,hok⟩ := writeLoop_healthy now data.length hs h le_rfl hle
    exact ⟨ha,fun _ => hlive,fun hr _ => hok hr⟩
  · split
    · exact ⟨.refl hs,fun h => absurd h hle,fun _ h => absurd h hle⟩
    · rename_i stop hstop
      obtain ⟨hadd,hcap⟩ := Option.filter_eq_some_iff.mp hstop
      obtain ⟨-,rfl⟩ := checkedAdd_eq_some.mp hadd
      exact absurd (by simpa using hcap) hle

end

lemma readAt_healthy (h : Healthy need Ok) (hp : Ok b.provider) (off len : ℕ) :
    ∃ p, Ok p ∧ (b.readAt off len).2 = {b with provider := p} := by
  obtain ⟨p,hreads,hb⟩ := b.readAt_reads off len
  refine ⟨p,?_,hb⟩
  clear hb
  induction hreads with
  | refl => exact hp
  | tail _ hread ih =>
    obtain ⟨m,off,n,rfl⟩ := hread
    exact h.readAt _ m off n ih

lemma length_freeLoop {M : Type} (chunkBytes : ℕ) (cs : List (Chunk M)) (freed frees : ℕ) :
    (freeLoop chunkBytes cs freed frees).2.2.length=cs.length := by
  induction cs generalizing freed frees with
  | nil => rfl
  | cons c cs ih =>
    rw [freeLoop]
    split_ifs <;> simp [ih]

lemma chunksLive_freeAllLive (b : SparseVramBackend P G) : b.freeAllLive.2.chunksLive=0 :=
  List.countP_eq_zero.mpr fun c hc => by
    simp [freeLoop_mem b.chunkBytes b.chunks 0 b.reclaimFrees c hc]

lemma Sized.freeAllLive (h : Sized Ok b) : Sized Ok b.freeAllLive.2 := by
  refine ⟨h.provider_ok,h.capacity_lt,h.chunkBytes_pos,h.gate_none,?_,?_,?_⟩
  · exact (length_freeLoop ..).trans h.length_eq
  · intro c hc m hm
    rw [freeLoop_mem b.chunkBytes b.chunks 0 b.reclaimFrees c hc] at hm
    cases hm
  · rw [chunksLive_freeAllLive,saturatingMul,Nat.zero_mul]
    exact Nat.zero_le _

section
variable [LawfulVram P] [CommitBudgetGate G]

lemma perform_healthy {b : SparseVramBackend P G} (hs : Sized Ok b)
    (h : Healthy (b.reserveFloorBytes+b.chunkBytes) Ok) (op : Op) :
    Sized Ok (b.perform op).2 ∧ Limits b (b.perform op).2 := by
  cases op with
  | readAt off len =>
    obtain ⟨p,hp,hb⟩ := readAt_healthy h hs.provider_ok off len
    show Sized Ok (b.readAt off len).2 ∧ Limits b (b.readAt off len).2
    rw [hb]
    exact ⟨hs.withProvider hp,rfl,rfl,rfl,rfl⟩
  | writeAt now off data =>
    have ha := (writeAt_healthy hs h now off data).1
    exact ⟨ha.sized,ha.limits⟩
  | tryReclaim now nbdUsedKb freeVramBytes freeFloorBytes idle =>
    simp only [perform,tryReclaim]
    split_ifs
    · exact ⟨hs,.refl b⟩
    · exact ⟨hs.freeAllLive,rfl,rfl,rfl,rfl⟩
    · exact ⟨hs,.refl b⟩
  | freeAllLive => exact ⟨hs.freeAllLive,rfl,rfl,rfl,rfl⟩

lemma run_healthy {b : SparseVramBackend P G} (hs : Sized Ok b)
    (h : Healthy (b.reserveFloorBytes+b.chunkBytes) Ok) (ops : List Op) :
    Sized Ok (run (fun b op => (b.perform op).2) b ops) ∧
      Limits b (run (fun b op => (b.perform op).2) b ops) := by
  refine run_induction (fun b op => (b.perform op).2) (P := fun b' => Sized Ok b' ∧ Limits b b')
    (fun b' op hb => ?_) ⟨hs,.refl b⟩ ops
  obtain ⟨hs',hl⟩ := hb
  obtain ⟨hs'',hl'⟩ := perform_healthy hs' (by rwa [hl.reserve_eq,hl.chunkBytes_eq]) op
  exact ⟨hs'',hl.trans hl'⟩

/-- Every in-range write of every run succeeds just when all the chunks fit under the cap: a
write of the whole capacity commits them all. -/
lemma usable_iff_roomy {b : SparseVramBackend P G} (hs : Sized Ok b)
    (h : Healthy (b.reserveFloorBytes+b.chunkBytes) Ok) :
    (∀ ops now off (data : List UInt8), off+data.length≤b.capacity →
      ((run (fun b op => (b.perform op).2) b ops).writeAt now off data).1=.ok ()) ↔ b.Roomy := by
  constructor
  · intro hall
    have hlen : 0+(List.replicate b.capacity (0 : UInt8)).length≤b.capacity := by simp
    obtain ⟨ha,hlive,-⟩ := writeAt_healthy hs h 0 0 (List.replicate b.capacity 0)
    have hl := hlive hlen (hall [] 0 0 _ hlen)
    generalize (b.writeAt 0 0 (List.replicate b.capacity 0)).2.2 = b' at ha hl
    have hcount : b'.chunksLive=b'.chunks.length := by
      refine List.countP_eq_length.mpr fun c hc => ?_
      obtain ⟨i,hi,rfl⟩ := List.mem_iff_getElem.mp hc
      rw [ha.sized.length_eq,ha.limits.capacity_eq,ha.limits.chunkBytes_eq] at hi
      have hlt := mul_lt_of_lt_divCeil hs.chunkBytes_pos hi
      obtain ⟨c,m,hc,hm⟩ := hl (i*b.chunkBytes) (Nat.zero_le _) (by simpa using hlt)
      rw [Nat.mul_div_cancel _ hs.chunkBytes_pos] at hc
      obtain ⟨_,rfl⟩ := List.getElem?_eq_some_iff.mp hc
      simp [hm]
    have hle := ha.sized.committed_le
    rwa [hcount,ha.sized.length_eq,ha.limits.capacity_eq,ha.limits.chunkBytes_eq,
      ha.limits.cap_eq] at hle
  · intro hr ops now off data hle
    obtain ⟨hs',hl⟩ := run_healthy hs h ops
    refine (writeAt_healthy hs' ?_ now off data).2.2 (hl.roomy hr) ?_
    · rwa [hl.reserve_eq,hl.chunkBytes_eq]
    · rwa [hl.capacity_eq]

end

lemma cap_holds_chunks_iff {capacity chunkBytes c : ℕ} (hcap : capacity<2^64) (hchunk : 0<chunkBytes) :
    saturatingMul 64 (divCeil capacity chunkBytes) chunkBytes ≤ max (min c capacity) chunkBytes ↔
      capacity ≤ chunkBytes ∨ (chunkBytes ∣ capacity ∨ capacity = 2^64-1) ∧ capacity ≤ c := by
  have hle := le_divCeil_mul hchunk capacity
  have hsat (h : divCeil capacity chunkBytes*chunkBytes ≤ capacity) :
      chunkBytes ∣ capacity := ⟨_,by rw [Nat.mul_comm]; exact le_antisymm hle h⟩
  unfold saturatingMul
  constructor
  · intro h
    by_cases hone : capacity ≤ chunkBytes
    · exact .inl hone
    · refine .inr ⟨?_,by omega⟩
      by_cases hmax : capacity = 2^64-1
      · exact .inr hmax
      · exact .inl (hsat (by omega))
  · rintro (hone | ⟨hdvd | hmax,hc⟩)
    · have hn : divCeil capacity chunkBytes≤1 := by
        by_contra hn
        have := mul_lt_of_lt_divCeil hchunk (not_le.mp hn)
        omega
      have := Nat.mul_le_mul_right chunkBytes hn
      omega
    · obtain ⟨k,hk⟩ := hdvd
      have hn : divCeil capacity chunkBytes≤k := by
        by_contra hn
        have := mul_lt_of_lt_divCeil hchunk (not_le.mp hn)
        rw [Nat.mul_comm] at this
        omega
      have := Nat.mul_le_mul_right chunkBytes hn
      rw [Nat.mul_comm k] at this
      omega
    · omega

lemma newWithConfig_sized {provider : P} {config : SparseVramConfig G} {capMib : Option ℕ}
    (hb : newWithConfig provider config capMib=.ok b) (hp : Ok provider)
    (hcap : config.capacity<2^64) (hgate : config.budgetGate=none) :
    Sized Ok b ∧ b.capacity=config.capacity ∧ b.chunkBytes=config.chunkBytes ∧
      b.reserveFloorBytes=config.reserveFloorBytes ∧
      b.commitCapBytes = max (min (config.commitCapBytes.getD (commitCapBytesFromEnv capMib)) config.capacity)
          config.chunkBytes := by
  unfold newWithConfig at hb
  dsimp only at hb
  split_ifs at hb with h₁ h₂ h₃
  cases hb
  push Not at h₂
  refine ⟨⟨hp,hcap,Nat.pos_of_ne_zero h₂.1,hgate,List.length_replicate,?_,?_⟩,rfl,rfl,rfl,rfl⟩
  · intro c hc m hm
    rw [List.eq_of_mem_replicate hc] at hm
    cases hm
  · have hz : (List.replicate (divCeil config.capacity config.chunkBytes)
        ({} : Chunk (Mem P))).countP (fun c => c.mem.isSome)=0 :=
      List.countP_eq_zero.mpr fun c hc => by simp [List.eq_of_mem_replicate hc]
    simp only [chunksLive,hz,saturatingMul,Nat.zero_mul]
    exact Nat.zero_le _

/-- With a cap of at least the capacity, no gate and a provider that never fails, the whole
capacity is usable just when it is no more than one chunk, or ends with a chunk (or with the
word) and the cap in force reaches it. -/
theorem capacity_usable_iff [LawfulVram P] [CommitBudgetGate G] {provider : P}
    {config : SparseVramConfig G} {capMib : Option ℕ} {b : SparseVramBackend P G}
    (hb : newWithConfig provider config capMib = .ok b) (hcap : config.capacity < 2^64)
    (hc : ∀ c, config.commitCapBytes = some c → config.capacity ≤ c)
    (hgate : config.budgetGate=none)
    (hok : Healthy (config.reserveFloorBytes+config.chunkBytes) Ok) (hp : Ok provider) :
    (∀ ops now off (data : List UInt8), off+data.length ≤ b.capacity →
      ((run (fun b op => (b.perform op).2) b ops).writeAt now off data).1 = .ok ()) ↔
    config.capacity ≤ config.chunkBytes ∨
      (config.chunkBytes ∣ config.capacity ∨ config.capacity = 2^64-1) ∧
        (config.commitCapBytes=none → config.capacity ≤ commitCapBytesFromEnv capMib) := by
  obtain ⟨hs,hcapacity,hchunk,hreserve,hlimit⟩ := newWithConfig_sized hb hp hcap hgate
  rw [← hreserve,← hchunk] at hok
  have hpos := hs.chunkBytes_pos
  rw [hchunk] at hpos
  rw [usable_iff_roomy hs hok,Roomy,hcapacity,hchunk,hlimit,cap_holds_chunks_iff hcap hpos]
  refine or_congr_right (and_congr_right fun _ => ?_)
  rcases hcc : config.commitCapBytes with _ | c
  · simp
  · simp [hc c hcc]

lemma healthy_script (h : need<2^64) :
    Healthy need fun p : VramScript => p.replies = [] where
  alloc := by
    rintro ⟨_⟩ n rfl
    exact ⟨⟨_,rfl⟩,rfl⟩
  memInfo := by
    rintro ⟨_⟩ rfl
    exact ⟨⟨_,_,rfl,Nat.le_sub_one_of_lt h⟩,rfl⟩
  zero := by
    rintro ⟨_⟩ m rfl
    exact ⟨rfl,rfl⟩
  readAt := by
    rintro ⟨_⟩ m off n rfl
    rfl
  writeAt := by
    rintro ⟨_⟩ m off data rfl
    refine ⟨fun h => ?_,rfl⟩
    show (VramScript.writeRegion _ m off data).1=.ok ()
    rw [VramScript.writeRegion,if_pos (show off+data.length ≤ m.len from h)]
    rfl

/-- Two chunks of 128 MiB, all of them allowed by the cap. -/
def wholeChunks : SparseVramConfig GateScript :=
  ⟨256*2^20,128*2^20,4096,2^29,some (256*2^20),none⟩

theorem capacity_usable_wholeChunks :
    ∃ b : SparseVramBackend VramScript GateScript,
      newWithConfig ⟨[]⟩ wholeChunks none = .ok b ∧
      ∀ ops now off (data : List UInt8), off+data.length ≤ b.capacity →
        ((run (fun b op => (b.perform op).2) b ops).writeAt now off data).1 = .ok () := by
  obtain ⟨b,hb⟩ : ∃ b : SparseVramBackend VramScript GateScript,
    newWithConfig ⟨[]⟩ wholeChunks none = .ok b := ⟨_,rfl⟩
  refine ⟨b,hb,(capacity_usable_iff hb (by decide) ?_ rfl (healthy_script (by decide)) rfl).mpr ?_⟩
  · rintro c ⟨⟩
    exact le_rfl
  · exact .inr ⟨.inl ⟨2,rfl⟩,fun h => nomatch h⟩

/-- A chunk and a half, all of it allowed by the cap. -/
def halfChunk : SparseVramConfig GateScript :=
  ⟨192*2^20,128*2^20,4096,2^29,some (192*2^20),none⟩

/-- The half chunk at the end can never be committed beside the first chunk. -/
theorem lastChunk_refused :
    Healthy (halfChunk.reserveFloorBytes+halfChunk.chunkBytes)
      (fun p : VramScript => p.replies = []) ∧
    ∃ b : SparseVramBackend VramScript GateScript,
      newWithConfig ⟨[]⟩ halfChunk none = .ok b ∧
      128*2^20+[(7 : UInt8)].length ≤ b.capacity ∧
      ((run (fun b op => (b.perform op).2) b [.writeAt 0 0 [7]]).writeAt 1 (128*2^20) [7]).1 =
        .error ⟨"sparse commit_cap: committed would be 256 MiB > cap 192 MiB " ++
          "(capacity 192 MiB); refusing the write because swap fallback is not guaranteed"⟩ :=
  ⟨healthy_script (by decide),_,rfl,by decide,by decide +kernel⟩

end SparseVramBackend
end RamShared.Sparse

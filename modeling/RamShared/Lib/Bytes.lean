import Mathlib.Tactic

/-! Numbers as bytes in network order, and the chunks of a byte string between two cursors. -/
namespace RamShared.Lib

def toBeBytes (n v : ℕ) : List UInt8 :=
  (List.range n).reverse.map fun i => UInt8.ofNat (v/256^i%256)

variable (bytes : List UInt8)

def fromBeBytes : ℕ := bytes.foldl (fun v b => v*256+b.toNat) 0

lemma toBeBytes_succ (n v : ℕ) : toBeBytes (n+1) v = UInt8.ofNat (v/256^n%256)::toBeBytes n v := by
  simp [toBeBytes,List.range_succ]

@[simp] lemma length_toBeBytes (n v : ℕ) : (toBeBytes n v).length=n := by
  simp [toBeBytes]

lemma fromBeBytes_cons (b : UInt8) (bytes : List UInt8) :
    fromBeBytes (b::bytes) = b.toNat*256^bytes.length+fromBeBytes bytes := by
  have acc : ∀ (bs : List UInt8) (v : ℕ), bs.foldl (fun v b => v*256+b.toNat) v =
      v*256^bs.length+fromBeBytes bs := by
    intro bs
    induction bs with
    | nil => simp [fromBeBytes]
    | cons c cs ih =>
      intro v
      rw [fromBeBytes,List.foldl_cons,List.foldl_cons,ih,ih,List.length_cons,pow_succ]
      ring
  have hb := acc bytes (0*256+b.toNat)
  simpa [fromBeBytes] using hb

lemma fromBeBytes_toBeBytes {n v : ℕ} (hv : v<256^n) : fromBeBytes (toBeBytes n v)=v := by
  have low : fromBeBytes (toBeBytes n v) = v%256^n := by
    clear hv
    induction n with
    | zero => simp [toBeBytes,fromBeBytes,Nat.mod_one]
    | succ n ih =>
      rw [toBeBytes_succ,fromBeBytes_cons,length_toBeBytes,ih,pow_succ,Nat.mod_mul]
      simp
      ring
  rw [low,Nat.mod_eq_of_lt hv]

lemma toBeBytes_inj {n v w : ℕ} (hv : v<256^n) (hw : w<256^n) : toBeBytes n v = toBeBytes n w ↔ v=w := by
  refine ⟨fun h => ?_,fun h => h ▸ rfl⟩
  rw [←fromBeBytes_toBeBytes hv,h,fromBeBytes_toBeBytes hw]

lemma fromBeBytes_lt : fromBeBytes bytes<256^bytes.length := by
  induction bytes with
  | nil => simp [fromBeBytes]
  | cons b bs ih =>
    have hb : b.toNat<256 := b.toNat_lt
    rw [fromBeBytes_cons,List.length_cons,pow_succ]
    nlinarith

lemma toBeBytes_fromBeBytes : toBeBytes bytes.length (fromBeBytes bytes)=bytes := by
  have low : ∀ (n a v : ℕ), toBeBytes n (a*256^n+v) = toBeBytes n v := by
    intro n a v
    unfold toBeBytes
    apply List.map_congr_left
    intro i hi
    rw [List.mem_reverse,List.mem_range] at hi
    have hdiv : (a*256^n+v)/256^i%256 = v/256^i%256 := by
      obtain ⟨k,rfl⟩ := Nat.exists_eq_add_of_lt hi
      rw [show a*256^(i+k+1)+v = v+256^i*(256*(a*256^k)) by ring,
        Nat.add_mul_div_left _ _ (by positivity)]
      omega
    rw [hdiv]
  induction bytes with
  | nil => rfl
  | cons b bs ih =>
    have hlt := fromBeBytes_lt bs
    have hdiv : (b.toNat*256^bs.length+fromBeBytes bs)/256^bs.length=b.toNat := by
      rw [Nat.add_comm,Nat.add_mul_div_right _ _ (by positivity),Nat.div_eq_of_lt hlt,Nat.zero_add]
    rw [List.length_cons,toBeBytes_succ,fromBeBytes_cons,low,ih,hdiv,
      Nat.mod_eq_of_lt b.toNat_lt,UInt8.ofNat_toNat]

/-- `chunk` stands in `bytes` between the two cursors. -/
def Chunk {α : Type*} (bytes : List α) (cursor : ℕ) (chunk : List α) (stop : ℕ) : Prop :=
  bytes.drop cursor = chunk++bytes.drop stop ∧ stop = cursor+chunk.length ∧
    stop≤bytes.length

namespace Chunk
variable {α : Type*} {bytes chunk chunk' : List α} {cursor stop : ℕ}

lemma nil_iff : Chunk bytes cursor [] stop ↔ stop=cursor ∧ cursor≤bytes.length := by
  unfold Chunk
  constructor
  · rintro ⟨-,rfl,h⟩
    exact ⟨rfl,h⟩
  · rintro ⟨rfl,h⟩
    exact ⟨rfl,rfl,h⟩

lemma append_iff : Chunk bytes cursor (chunk++chunk') stop ↔
    ∃ mid, Chunk bytes cursor chunk mid ∧ Chunk bytes mid chunk' stop := by
  unfold Chunk
  rw [List.length_append]
  constructor
  · rintro ⟨hb,rfl,hl⟩
    have hmid : bytes.drop (cursor+chunk.length) =
        chunk'++bytes.drop (cursor+(chunk.length+chunk'.length)) := by
      rw [←List.drop_drop,hb,List.append_assoc,List.drop_left]
    refine ⟨_,⟨?_,rfl,by omega⟩,hmid,by omega,hl⟩
    rw [hb,hmid,List.append_assoc]
  · rintro ⟨mid,⟨hb,rfl,-⟩,hb',rfl,hl⟩
    refine ⟨?_,by omega,hl⟩
    rw [hb,hb',List.append_assoc]

lemma whole_iff : Chunk bytes 0 chunk bytes.length ↔ chunk=bytes := by
  unfold Chunk
  constructor
  · rintro ⟨h,-,-⟩
    simpa using h.symm
  · rintro rfl
    simp

lemma iff_take : Chunk bytes cursor chunk stop ↔ cursor+chunk.length≤bytes.length ∧ stop = cursor+chunk.length ∧
      (bytes.drop cursor).take chunk.length=chunk := by
  constructor
  · rintro ⟨hb,rfl,hl⟩
    exact ⟨hl,rfl,by rw [hb,List.take_left]⟩
  · rintro ⟨hl,rfl,hc⟩
    have hsplit := List.take_append_drop chunk.length (bytes.drop cursor)
    rw [hc,List.drop_drop] at hsplit
    exact ⟨hsplit.symm,rfl,hl⟩

end Chunk
end RamShared.Lib

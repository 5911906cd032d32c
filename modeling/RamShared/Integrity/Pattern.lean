import Mathlib.Tactic

/-! The test patterns of blocks. One pass over a block finds out whether it holds its pattern, whether a
single bit of it has flipped, or where it first goes wrong. Random blocks of different indices differ
within 64 bytes, since the low bits of that many steps determine the state of the generator. -/
namespace RamShared.Integrity

inductive Pattern
  | zero
  | sequential
  | random
  deriving DecidableEq, Repr

inductive IntegrityError
  | corruptedMemory (offset : ℕ) (bitFlipMask : UInt8)
  | singleBitError (offset : ℕ) (bitIndex : UInt8)
  | invalidStride (stride pageSize : ℕ)
  deriving DecidableEq, Repr

def xorshift (s : UInt64) : UInt64 :=
  let s := s^^^s<<<13
  let s := s^^^s>>>7
  s^^^s<<<17

def multiplier : UInt64 := 0x9e3779b97f4a7c15

def seed (idx : UInt64) : UInt64 := idx*multiplier|||1

def fillRandom : UInt64 → List UInt8 → List UInt8
  | _, [] => []
  | s, _::buf => (xorshift s&&&0xff).toUInt8::fillRandom (xorshift s) buf

def fillBlock (buf : List UInt8) (idx : UInt64) : Pattern → List UInt8
  | .zero => buf.map fun _ => 0
  | .sequential => buf.mapIdx fun i _ => ((idx+UInt64.ofNat i)&&&0xff).toUInt8
  | .random => fillRandom (seed idx) buf

def ones (d : UInt8) : Finset ℕ := (Finset.range 8).filter fun i => d.toNat.testBit i

def countOnes (d : UInt8) : ℕ := (ones d).card

def trailingZeros (d : UInt8) : UInt8 := UInt8.ofNat ((ones d).min.untopD 8)

/-- The pass over the block, with the first difference if it is of one bit. -/
def scan : ℕ → Option (ℕ × UInt8 × UInt8) → List (UInt8 × UInt8) → Except IntegrityError Unit
  | _, none, [] => .ok ()
  | _, some (offset,_,bitIndex), [] => .error (.singleBitError offset bitIndex)
  | offset, first, (actual,exp)::rest =>
    if actual≠exp then
      let diff := actual^^^exp
      if countOnes diff=1 then
        match first with
        | some (firstOffset,firstDiff,_) => .error (.corruptedMemory firstOffset firstDiff)
        | none => scan (offset+1) (some (offset,diff,trailingZeros diff)) rest
      else
        match first with
        | some (firstOffset,firstDiff,_) => .error (.corruptedMemory firstOffset firstDiff)
        | none => .error (.corruptedMemory offset diff)
    else scan (offset+1) first rest

def verifyBlock (buf : List UInt8) (idx : UInt64) (kind : Pattern) : Except IntegrityError Unit :=
  if buf.length=0 ∨ 4096%buf.length≠0 then .error (.invalidStride buf.length 4096)
  else scan 0 none (buf.zip (fillBlock (List.replicate buf.length 0) idx kind))

/-- The byte at an offset goes wrong in a bit. -/
def Differs (buf e : List UInt8) (o b : ℕ) : Prop :=
  (buf.getD o 0).toNat.testBit b ≠ (e.getD o 0).toNat.testBit b

/-- What each answer says of a block and the pattern it should hold. -/
def Classifies (buf e : List UInt8) : Except IntegrityError Unit → Prop
  | .ok () => buf=e
  | .error (.singleBitError offset bitIndex) =>
    ∀ o b, Differs buf e o b ↔ o=offset ∧ b=bitIndex.toNat
  | .error (.corruptedMemory offset mask) =>
    (∀ i<offset, buf[i]? = e[i]?) ∧ buf[offset]? ≠ e[offset]? ∧
      mask = buf.getD offset 0^^^e.getD offset 0 ∧ ¬∃ offset bit, ∀ o b, Differs buf e o b ↔ o=offset ∧ b=bit
  | .error (.invalidStride _ _) => False

variable {a b p s t : List UInt8} {d x y : UInt8} {first : Option (ℕ × UInt8 × UInt8)}

lemma fillBlock_spec (h : a.length=b.length) (idx : UInt64) (kind : Pattern) :
    fillBlock a idx kind = fillBlock b idx kind ∧ (fillBlock a idx kind).length=a.length := by
  cases kind with
  | zero => simp [fillBlock,List.map_const',h]
  | sequential =>
    exact ⟨List.ext_getElem (by simp [fillBlock,h]) fun i _ _ => by simp [fillBlock],by simp [fillBlock]⟩
  | random =>
    change fillRandom (seed idx) a = fillRandom (seed idx) b ∧ (fillRandom (seed idx) a).length=_
    generalize seed idx=s
    induction a generalizing b s with
    | nil => simp [List.length_eq_zero_iff.mp h.symm,fillRandom]
    | cons x a ih =>
      obtain ⟨y,b,rfl⟩ := List.exists_cons_of_length_eq_add_one h.symm
      obtain ⟨heq,hlen⟩ := ih (Nat.succ.inj h) (xorshift s)
      rw [fillRandom,fillRandom,heq,List.length_cons,←heq,hlen]
      exact ⟨rfl,rfl⟩

lemma differs_middle {k : ℕ} : Differs (p++x::s) (p++y::t) p.length k ↔ (x^^^y).toNat.testBit k=true := by
  simp [Differs,UInt8.toNat_xor,Nat.testBit_xor]

lemma exists_differs (hab : a.length=b.length) (h : x≠y) : ∃ k, Differs (a++x::s) (b++y::t) a.length k := by
  by_contra hn
  refine h (UInt8.toNat_inj.mp (Nat.eq_of_testBit_eq fun k => ?_))
  simpa [Differs,hab] using not_exists.mp hn k

lemma mem_ones {i : ℕ} : i∈ones d ↔ d.toNat.testBit i=true := by
  rw [ones,Finset.mem_filter,Finset.mem_range,and_iff_right_iff_imp]
  exact fun h => (Nat.pow_lt_pow_iff_right (by decide)).mp ((Nat.ge_two_pow_of_testBit h).trans_lt d.toNat_lt)

lemma trailingZeros_spec (h : countOnes d=1) (i : ℕ) :
    d.toNat.testBit i=true ↔ i = (trailingZeros d).toNat := by
  obtain ⟨k,hk⟩ := Finset.card_eq_one.mp h
  have hlt : k∈Finset.range 8 := Finset.mem_of_mem_filter k (hk ▸ Finset.mem_singleton_self k)
  rw [←mem_ones,trailingZeros,hk,Finset.mem_singleton,Finset.min_singleton,WithTop.untopD_coe,
    UInt8.toNat_ofNat_of_lt' ((Finset.mem_range.mp hlt).trans (by decide))]

lemma Classifies.corrupted (h : x≠y)
    (hn : ¬∃ offset bit, ∀ o b, Differs (p++x::s) (p++y::t) o b ↔ o=offset ∧ b=bit) :
    Classifies (p++x::s) (p++y::t) (.error (.corruptedMemory p.length (x^^^y))) := by
  refine ⟨fun i hi => ?_,by simpa using h,by simp,hn⟩
  rw [List.getElem?_append_left hi,List.getElem?_append_left hi]

/-- What the pass has seen of the block: no difference, or one in a single bit. -/
inductive Seen : List UInt8 → List UInt8 → Option (ℕ × UInt8 × UInt8) → Prop
  | none (a : List UInt8) : Seen a a none
  | some (p s : List UInt8) {x y : UInt8} (h : x≠y) (hone : countOnes (x^^^y)=1) :
      Seen (p++x::s) (p++y::s) (some (p.length,x^^^y,trailingZeros (x^^^y)))

lemma Seen.concat (h : Seen a b first) (x : UInt8) :
    Seen (a++[x]) (b++[x]) first := by
  cases h with
  | none => exact .none _
  | some p s h hone => simpa using Seen.some p (s++[x]) h hone

lemma classifies_scan (h : Seen a b first) (hst : s.length=t.length) :
    Classifies (a++s) (b++t) (scan a.length first (s.zip t)) := by
  induction s generalizing a b t first with
  | nil =>
    obtain rfl := List.length_eq_zero_iff.mp hst.symm
    rw [List.append_nil,List.append_nil]
    cases h with
    | none => rfl
    | @some p s x y h hone =>
      intro o k
      by_cases ho : o=p.length
      · rw [ho,differs_middle,trailingZeros_spec hone]
        simp
      · refine iff_of_false (fun hd => hd ?_) fun hd => ho hd.1
        simp only [List.getD,List.getElem?_append,List.getElem?_cons]
        split_ifs <;> first | rfl | omega
  | cons x s ih =>
    obtain ⟨y,t,rfl⟩ := List.exists_cons_of_length_eq_add_one hst.symm
    have hnext {a b : List UInt8} {first} (h : Seen (a++[x]) (b++[y]) first) := ih h (by simpa using hst)
    simp only [List.append_assoc,List.singleton_append,List.length_append,List.length_singleton] at hnext
    rw [List.zip_cons_cons,scan]
    by_cases hxy : x=y
    · subst hxy
      rw [if_neg (not_not.mpr rfl)]
      exact hnext (h.concat x)
    rw [if_pos hxy]
    cases h with
    | none =>
      dsimp only
      split_ifs with hone
      · exact hnext (.some a [] hxy hone)
      · refine .corrupted hxy fun ⟨o,k,hd⟩ => hone (Finset.card_eq_one.mpr ⟨k,Finset.ext fun i => ?_⟩)
        obtain ⟨j,hj⟩ := exists_differs (s := s) (t := t) (rfl : a.length=a.length) hxy
        rw [mem_ones,←differs_middle (p := a) (s := s) (t := t),hd,and_iff_right ((hd _ j).mp hj).1,
          Finset.mem_singleton]
    | @some p s' x' y' h' =>
      -- The block goes wrong at two offsets.
      rw [ite_self,List.append_assoc,List.append_assoc]
      refine .corrupted h' fun ⟨o,k,hd⟩ => ?_
      obtain ⟨i,hi⟩ := exists_differs (s := s'++x::s) (t := s'++y::t) (rfl : p.length=p.length) h'
      obtain ⟨j,hj⟩ := exists_differs (a := p++x'::s') (b := p++y'::s') (s := s) (t := t) (by simp) hxy
      rw [List.append_assoc,List.append_assoc] at hj
      have hsame := ((hd _ i).mp hi).1.trans ((hd _ j).mp hj).1.symm
      simp at hsame

lemma Classifies.ne {e : IntegrityError} (h : Classifies a b (.error e)) : a≠b := by
  rintro rfl
  cases e with
  | corruptedMemory o m => exact h.2.1 rfl
  | singleBitError o k => exact (h o k.toNat).mpr ⟨rfl,rfl⟩ rfl
  | invalidStride => exact h

lemma Classifies.unique : ∀ {r r' : Except IntegrityError Unit}, Classifies a b r → Classifies a b r' → r=r'
  | .ok (),.ok (),_,_ => rfl
  | .ok (),.error _,h,h' => absurd h h'.ne
  | .error _,.ok (),h,h' => absurd h' h.ne
  | .error (.singleBitError ..),.error (.corruptedMemory ..),h,h' => absurd ⟨_,_,h⟩ h'.2.2.2
  | .error (.corruptedMemory ..),.error (.singleBitError ..),h,h' => absurd ⟨_,_,h'⟩ h.2.2.2
  | .error (.singleBitError o k),.error (.singleBitError o' k'),h,h' => by
    obtain ⟨rfl,hk⟩ := (h' o k.toNat).mp ((h o k.toNat).mpr ⟨rfl,rfl⟩)
    rw [UInt8.toNat_inj.mp hk]
  | .error (.corruptedMemory o m),.error (.corruptedMemory o' m'),⟨hlt,hne,hm,_⟩,⟨hlt',hne',hm',_⟩ => by
    obtain ho | rfl | ho := lt_trichotomy o o'
    · exact absurd (hlt' o ho) hne
    · rw [hm,hm']
    · exact absurd (hlt o' ho) hne'

lemma classifies_verifyBlock (idx : UInt64) (kind : Pattern) (hpos : a≠[]) (hdvd : a.length ∣ 4096) :
    Classifies a (fillBlock a idx kind) (verifyBlock a idx kind) := by
  have hlen : ¬(a.length=0 ∨ 4096%a.length≠0) := by
    simp [hpos,Nat.mod_eq_zero_of_dvd hdvd]
  rw [verifyBlock,if_neg hlen,(fillBlock_spec (List.length_replicate ..) idx kind).1]
  exact classifies_scan (.none []) (fillBlock_spec rfl idx kind).2.symm

/-- Every answer says exactly what it should. -/
theorem verifyBlock_classifies (buf : List UInt8) (idx : UInt64) (kind : Pattern) (hpos : buf ≠ [])
    (hdvd : buf.length ∣ 4096) (r : Except IntegrityError Unit) :
    verifyBlock buf idx kind = r ↔ Classifies buf (fillBlock buf idx kind) r := by
  have hc := classifies_verifyBlock idx kind hpos hdvd
  exact ⟨fun h => h ▸ hc,hc.unique⟩

theorem verifyBlock_classifies_flip : Classifies [4,5,6,5] [4,5,6,7] (.error (.singleBitError 3 1)) :=
  (verifyBlock_classifies [4,5,6,5] 4 .sequential (by decide) (by decide) _).mp (by decide)

lemma xorshift_xor (s t : UInt64) : xorshift (s^^^t) = xorshift s^^^xorshift t := by
  have hleft (k s t : UInt64) : (s^^^t)^^^(s^^^t)<<<k = (s^^^s<<<k)^^^(t^^^t<<<k) := by
    rw [UInt64.shiftLeft_xor]
    ac_rfl
  have hright (k s t : UInt64) : (s^^^t)^^^(s^^^t)>>>k = (s^^^s>>>k)^^^(t^^^t>>>k) := by
    rw [UInt64.shiftRight_xor]
    ac_rfl
  unfold xorshift
  dsimp only
  rw [hleft 13,hright 7,hleft 17]

/-- A map of words that respects xor and fixes the powers of two fixes every word. -/
lemma eq_self_of_xor {f : UInt64 → UInt64} (hf : ∀ s t, f (s^^^t) = f s^^^f t)
    (h : ∀ i<64, f (UInt64.ofNat (2^i)) = UInt64.ofNat (2^i)) (s : UInt64) : f s=s := by
  have hall (n m : ℕ) (hn : n≤64) (hm : ∀ i, n ≤ i → m.testBit i=false) :
      f (UInt64.ofNat m) = UInt64.ofNat m := by
    induction n generalizing m with
    | zero =>
      obtain rfl : m=0 := Nat.eq_of_testBit_eq fun i => by simp [hm i]
      simpa using hf 0 0
    | succ n ih =>
      cases hbit : m.testBit n with
      | false => exact ih m (by omega) fun i hi => hi.eq_or_lt.elim (· ▸ hbit) (hm i)
      | true =>
        have hlow (i : ℕ) (hi : n ≤ i) : (m^^^2^n).testBit i=false := by
          obtain rfl | hi := hi.eq_or_lt
          · simp [hbit]
          · simp [hm i hi,hi.ne]
        have hsplit : m = (m^^^2^n)^^^2^n := by simp [Nat.xor_assoc]
        rw [hsplit,UInt64.ofNat_xor,hf,ih _ (by omega) hlow,h n (by omega)]
  simpa using hall 64 s.toNat le_rfl fun i hi =>
    Nat.testBit_lt_two_pow (s.toNat_lt.trans_le (Nat.pow_le_pow_right two_pos hi))

/-- The state whose low bits in 64 steps are all clear but for the last. -/
def lastDual : UInt64 := 0xa9e96af87499adb

/-- For each of 64 steps, the state of which it alone has the low bit set. -/
def duals : List UInt64 :=
  (List.range 63).foldl (fun ws k => (xorshift (ws.headD 0) ^^^
    if Nat.testBit 0x13ed4a358913200 (63-k) then lastDual else 0)::ws) [lastDual]

/-- The state that has the low bits of the steps of a state. -/
def recover : List UInt64 → UInt64 → UInt64
  | [], _ => 0
  | w::ws, s => (if (xorshift s).toNat.testBit 0 then w else 0)^^^recover ws (xorshift s)

lemma recover_xor (ws : List UInt64) (s t : UInt64) : recover ws (s^^^t) = recover ws s^^^recover ws t := by
  induction ws generalizing s t with
  | nil => simp [recover]
  | cons w ws ih =>
    have hpick (p q : Bool) : (if p ^^ q then w else 0) = (if p then w else 0)^^^if q then w else 0 := by
      cases p <;> cases q <;> simp
    rw [recover,recover,recover,xorshift_xor,ih,UInt64.toNat_xor,Nat.testBit_xor,hpick]
    ac_rfl

lemma recover_duals (s : UInt64) : recover duals s=s :=
  eq_self_of_xor (recover_xor duals) (by decide +kernel) s

lemma recover_congr {ws : List UInt64} {s t : UInt64} (h : fillRandom s a = fillRandom t a)
    (hlen : ws.length≤a.length) : recover ws s = recover ws t := by
  induction ws generalizing a s t with
  | nil => rfl
  | cons w ws ih =>
    obtain _ | ⟨x,a⟩ := a
    · cases hlen
    obtain ⟨hbyte,htail⟩ := List.cons.inj h
    have hbit (s : UInt64) : (s&&&0xff).toUInt8.toNat.testBit 0 = s.toNat.testBit 0 := by simp
    rw [recover,recover,ih htail (Nat.le_of_succ_le_succ hlen),←hbit,hbyte,hbit]

lemma fillRandom_injective (ha : 64≤a.length) : Function.Injective (fillRandom · a) := by
  intro s t h
  have hlen : duals.length≤a.length := ha
  rw [←recover_duals s,←recover_duals t,recover_congr h hlen]

lemma seed_injective {i j : UInt64} (hi : i.toNat<2^52) (hj : j.toNat<2^52) (h : seed i = seed j) : i=j := by
  -- Products that differ by one are of indices that differ by the inverse of the multiplier.
  have hfar {i j : UInt64} (hi : i.toNat<2^52) (hj : j.toNat<2^52) :
      i*multiplier ≠ j*multiplier+1 := by
    intro h
    have hij : i = j+0xf1de83e19937733d := by
      unfold multiplier at h
      grind
    have hnat := congrArg UInt64.toNat hij
    simp at hnat
    omega
  have hhalf := congrArg (·.toNat/2) h
  simp only [seed,UInt64.toNat_or,UInt64.toNat_one,Nat.or_div_two,Nat.reduceDiv,Nat.or_zero] at hhalf
  obtain h | h | h : i*multiplier = j*multiplier ∨ i*multiplier = j*multiplier+1 ∨
      j*multiplier = i*multiplier+1 := by
    have hlt := (i*multiplier).toNat_lt
    have hlt' := (j*multiplier).toNat_lt
    simp only [←UInt64.toNat_inj,UInt64.toNat_add,UInt64.toNat_one]
    omega
  · unfold multiplier at h
    grind
  · exact absurd h (hfar hi hj)
  · exact absurd h (hfar hj hi)

lemma verifyBlock_filled (hpos : a≠[]) (hdvd : a.length ∣ 4096) (i j : UInt64) (kind : Pattern) :
    verifyBlock (fillBlock a i kind) j kind=.ok () ↔ fillBlock a i kind = fillBlock a j kind := by
  have hlen := (fillBlock_spec (rfl : a.length=a.length) i kind).2
  rw [←(fillBlock_spec hlen j kind).1]
  have hne : fillBlock a i kind≠[] := by
    rwa [←List.length_pos_iff,hlen,List.length_pos_iff]
  have hc := classifies_verifyBlock j kind hne (hlen ▸ hdvd)
  exact ⟨fun h => by rwa [h] at hc,fun h => hc.unique h⟩

/-- A block that holds the random pattern of another index never passes. -/
theorem misplaced_block_detected (i j : UInt64) (hi : i.toNat < 2^52) (hj : j.toNat < 2^52) (hij : i ≠ j)
    (buf : List UInt8) (hlow : 64 ≤ buf.length) (hdvd : buf.length ∣ 4096) :
    ∃ e, verifyBlock (fillBlock buf i .random) j .random = .error e := by
  have hpos : buf≠[] := List.ne_nil_of_length_pos (by omega)
  cases hr : verifyBlock (fillBlock buf i .random) j .random with
  | error e => exact ⟨e,rfl⟩
  | ok u =>
    have he := (verifyBlock_filled hpos hdvd i j .random).mp hr
    exact absurd (seed_injective hi hj (fillRandom_injective hlow he)) hij

theorem misplaced_block_detected_64 :
    ∃ e, verifyBlock (fillBlock (List.replicate 64 0) 3 .random) 5 .random = .error e :=
  misplaced_block_detected 3 5 (by decide) (by decide) (by decide) _ (by decide) (by decide)

/-- Sequential patterns tell apart just the indices that differ in their low byte. -/
theorem sequential_passes_iff (i j : UInt64) (buf : List UInt8) (hpos : buf ≠ [])
    (hdvd : buf.length ∣ 4096) :
    verifyBlock (fillBlock buf i .sequential) j .sequential = .ok () ↔ i.toUInt8 = j.toUInt8 := by
  have hbyte (s k : UInt64) : ((s+k)&&&0xff).toUInt8 = s.toUInt8+k.toUInt8 := by
    rw [UInt64.toUInt8_and,UInt64.toUInt8_add]
    exact UInt8.and_neg_one
  rw [verifyBlock_filled hpos hdvd]
  obtain ⟨x,buf,rfl⟩ := List.exists_cons_of_ne_nil hpos
  simp only [fillBlock,hbyte]
  exact ⟨fun h => by simpa using congrArg List.head? h,fun h => by rw [h]⟩

theorem sequential_passes_256 : verifyBlock (fillBlock [0] 0 .sequential) 256 .sequential = .ok () :=
  (sequential_passes_iff 0 256 [0] (by decide) (by decide)).mpr rfl

end RamShared.Integrity

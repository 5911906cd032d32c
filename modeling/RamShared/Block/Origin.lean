import RamShared.Lib.Word
import RamShared.Lib.Image

/-! The durable origin: positional reads and writes that may transfer fewer bytes than asked for,
and the two loops that insist on the whole range. -/
namespace RamShared.Block
open Lib

inductive OriginState
  | off
  | ready
  | degraded
  | failed
  deriving DecidableEq, Repr

inductive CacheState
  | off
  | active
  | restricted
  | unavailable
  | stuck
  deriving DecidableEq, Repr

/-- `CacheTelemetry`. The source's `valid_blocks` is computed on request, never stored. -/
structure CacheTelemetry where
  originWrittenBytes : ℕ := 0
  originSyncs : ℕ := 0
  batchedWrites : ℕ := 0
  cacheReadBytes : ℕ := 0
  fallbackReads : ℕ := 0
  invalidations : ℕ := 0
  promotionRefusals : ℕ := 0
  releases : ℕ := 0
  allocationFailures : ℕ := 0
  cacheReadFailures : ℕ := 0
  cacheWriteFailures : ℕ := 0
  deriving DecidableEq, Repr

def bump (n : ℕ) : ℕ := saturatingAdd 64 n 1

structure WriteOptions where
  fua : Bool := false
  deriving DecidableEq, Repr

structure IoError where
  message : String
  deriving DecidableEq, Repr

/-- `OriginStorage`. A read reports how many bytes it placed at the start of the buffer and
returns the buffer; a write reports how many bytes it took. -/
class OriginStorage (O : Type) where
  readAt : O → ℕ → ℕ → Except IoError (ℕ × List UInt8) × O
  writeAt : O → ℕ → List UInt8 → Except IoError ℕ × O
  syncData : O → Except IoError Unit × O

/-- The loop of `read_exact_at`. Each round shrinks the buffer, so the fuel `len` is never
used up. -/
def readExactLoop {O : Type} [OriginStorage O] :
    ℕ → O → ℕ → ℕ → Except IoError (List UInt8) × O
  | _, o, _, 0 => (.ok [],o)
  | 0, o, _, _+1 => (.error ⟨"origin read made no progress"⟩,o)
  | fuel+1, o, off, len+1 =>
    match OriginStorage.readAt o off (len+1) with
    | (.error e,o) => (.error e,o)
    | (.ok (read,bytes),o) =>
      if read=0 then (.error ⟨"origin read made no progress"⟩,o)
      else if read > len+1 then (.error ⟨"origin read exceeded requested length"⟩,o)
      else match checkedAdd 64 off read with
        | none => (.error ⟨"origin read offset overflow"⟩,o)
        | some off =>
          match readExactLoop fuel o off (len+1-read) with
          | (.error e,o) => (.error e,o)
          | (.ok rest,o) => (.ok (bytes.take read++rest),o)

def readExactAt {O : Type} [OriginStorage O] (o : O) (off len : ℕ) :
    Except IoError (List UInt8) × O := readExactLoop len o off len

def writeAllLoop {O : Type} [OriginStorage O] :
    ℕ → O → ℕ → List UInt8 → Except IoError Unit × O
  | _, o, _, [] => (.ok (),o)
  | 0, o, _, _::_ => (.error ⟨"origin write made no progress"⟩,o)
  | fuel+1, o, off, d::ds =>
    match OriginStorage.writeAt o off (d::ds) with
    | (.error e,o) => (.error e,o)
    | (.ok written,o) =>
      if written=0 then (.error ⟨"origin write made no progress"⟩,o)
      else if written > (d::ds).length then (.error ⟨"origin write exceeded requested length"⟩,o)
      else match checkedAdd 64 off written with
        | none => (.error ⟨"origin write offset overflow"⟩,o)
        | some off => writeAllLoop fuel o off ((d::ds).drop written)

def writeAllAt {O : Type} [OriginStorage O] (o : O) (off : ℕ) (data : List UInt8) :
    Except IoError Unit × O := writeAllLoop data.length o off data

/-- The counts that the loops go on after. -/
def Proper (off len n : ℕ) : Prop := 0<n ∧ n≤len ∧ off+n<2^64

section
variable {O : Type} [OriginStorage O]

/-- What holds of an empty read and of every way to end or to go on after a call holds of
`read_exact_at`. -/
theorem readExactAt_rule {P : O → ℕ → ℕ → Except IoError (List UInt8) × O → Prop}
    (done : ∀ o off, P o off 0 (.ok [],o))
    (failed : ∀ {o off len e o'}, 0<len → OriginStorage.readAt o off len = (.error e,o') →
      P o off len (.error e,o')) (refused : ∀ {o off len n bytes o'} e, 0<len →
      OriginStorage.readAt o off len = (.ok (n,bytes),o') → ¬Proper off len n → P o off len (.error e,o'))
    (next : ∀ {o off len n bytes o' x}, OriginStorage.readAt o off len = (.ok (n,bytes),o') →
      Proper off len n → P o' (off+n) (len-n) x → P o off len (x.1.map (bytes.take n ++ ·),x.2))
    (o : O) (off len : ℕ) : P o off len (readExactAt o off len) := by
  suffices h : ∀ fuel o off len, len≤fuel → P o off len (readExactLoop fuel o off len) from
    h len o off len le_rfl
  intro fuel
  induction fuel with
  | zero =>
    intro o off len hf
    obtain rfl : len=0 := by omega
    exact done o off
  | succ fuel ih =>
    intro o off len hf
    cases len with
    | zero => exact done o off
    | succ len =>
      rw [readExactLoop]
      rcases hcall : OriginStorage.readAt o off (len+1) with ⟨e | ⟨n,bytes⟩,o'⟩
      · exact failed (Nat.succ_pos len) hcall
      dsimp only
      split_ifs with hzero hmany
      · exact refused _ (Nat.succ_pos len) hcall fun hn => hn.1.ne' hzero
      · exact refused _ (Nat.succ_pos len) hcall fun hn => hmany.not_ge hn.2.1
      cases hadd : checkedAdd 64 off n with
      | none =>
        refine refused _ (Nat.succ_pos len) hcall fun hn => ?_
        rw [checkedAdd,if_pos hn.2.2] at hadd
        cases hadd
      | some off' =>
        obtain ⟨hlt,rfl⟩ := checkedAdd_eq_some.mp hadd
        have hnext := next hcall ⟨by omega,by omega,hlt⟩ (ih o' (off+n) (len+1-n) (by omega))
        dsimp only
        generalize readExactLoop fuel o' (off+n) (len+1-n) = x at hnext ⊢
        obtain ⟨e | rest,o''⟩ := x <;> exact hnext

lemma readExactAt_view {α : Type*} {view : O → α}
    (hv : ∀ o off len, view (OriginStorage.readAt o off len).2 = view o) (o : O) (off len : ℕ) :
    view (readExactAt o off len).2 = view o := by
  refine readExactAt_rule (P := fun o _ _ x => view x.2 = view o) (fun _ _ => rfl) ?_ ?_ ?_ o off len
  · intro o off len e o' _ hcall
    rw [←hv o off len,hcall]
  · intro o off len n bytes o' e _ hcall _
    rw [←hv o off len,hcall]
  · intro o off len n bytes o' x hcall _ ih
    rw [←hv o off len,hcall]
    exact ih

theorem writeAllAt_rule {P : O → ℕ → List UInt8 → Except IoError Unit × O → Prop}
    (done : ∀ o off, P o off [] (.ok (),o)) (failed : ∀ {o off data e o'}, 0<data.length →
      OriginStorage.writeAt o off data = (.error e,o') → P o off data (.error e,o'))
    (refused : ∀ {o off data n o'} e, 0<data.length →
      OriginStorage.writeAt o off data = (.ok n,o') → ¬Proper off data.length n → P o off data (.error e,o'))
    (next : ∀ {o off data n o' x}, OriginStorage.writeAt o off data = (.ok n,o') →
      Proper off data.length n → P o' (off+n) (data.drop n) x → P o off data x)
    (o : O) (off : ℕ) (data : List UInt8) : P o off data (writeAllAt o off data) := by
  suffices h : ∀ fuel o off data, data.length≤fuel → P o off data (writeAllLoop fuel o off data) from
    h data.length o off data le_rfl
  intro fuel
  induction fuel with
  | zero =>
    intro o off data hf
    obtain rfl : data=[] := List.length_eq_zero_iff.mp (by omega)
    exact done o off
  | succ fuel ih =>
    intro o off data hf
    cases data with
    | nil => exact done o off
    | cons d ds =>
      have hl : 0<(d::ds).length := Nat.succ_pos ds.length
      rw [writeAllLoop]
      rcases hcall : OriginStorage.writeAt o off (d::ds) with ⟨e | n,o'⟩
      · exact failed hl hcall
      dsimp only
      split_ifs with hzero hmany
      · exact refused _ hl hcall fun hn => hn.1.ne' hzero
      · exact refused _ hl hcall fun hn => hmany.not_ge hn.2.1
      cases hadd : checkedAdd 64 off n with
      | none =>
        refine refused _ hl hcall fun hn => ?_
        rw [checkedAdd,if_pos hn.2.2] at hadd
        cases hadd
      | some off' =>
        obtain ⟨hlt,rfl⟩ := checkedAdd_eq_some.mp hadd
        refine next hcall ⟨by omega,by omega,hlt⟩ (ih o' (off+n) _ ?_)
        rw [List.length_drop]
        omega

end

/-- An origin with the image its reads return and the image that survives a crash. A write
that fails, or claims to have taken too much, leaves anything in its range; nothing is
promised about the durable image before a successful sync. -/
class LawfulOrigin (O : Type) [OriginStorage O] where
  volatile : O → Image UInt8
  durable : O → Image UInt8
  readAt_volatile : ∀ (o : O) off len, volatile (OriginStorage.readAt o off len).2 = volatile o
  readAt_durable : ∀ (o : O) off len, durable (OriginStorage.readAt o off len).2 = durable o
  readAt_ok : ∀ (o : O) off len n bytes,
    (OriginStorage.readAt o off len).1=.ok (n,bytes) → n≤len →
      bytes.take n = (volatile o).load off n
  writeAt_ok : ∀ (o : O) off data n, (OriginStorage.writeAt o off data).1=.ok n →
    n≤data.length →
      volatile (OriginStorage.writeAt o off data).2 = (volatile o).store off (data.take n)
  writeAt_outside : ∀ (o : O) off data a, a<off ∨ off+data.length≤a →
    volatile (OriginStorage.writeAt o off data).2 a = volatile o a
  syncData_volatile : ∀ o : O, volatile (OriginStorage.syncData o).2 = volatile o
  syncData_ok : ∀ o : O, (OriginStorage.syncData o).1=.ok () →
    durable (OriginStorage.syncData o).2 = volatile o

section
variable {O : Type} [OriginStorage O] [LawfulOrigin O]
open LawfulOrigin

lemma readExactAt_volatile (o : O) (off len : ℕ) :
    volatile (readExactAt o off len).2 = volatile o := readExactAt_view readAt_volatile o off len

lemma readExactAt_durable (o : O) (off len : ℕ) :
    durable (readExactAt o off len).2 = durable o := readExactAt_view readAt_durable o off len

lemma readExactAt_ok {o : O} {off len : ℕ} {bytes : List UInt8}
    (h : (readExactAt o off len).1=.ok bytes) : bytes = (volatile o).load off len := by
  refine readExactAt_rule (P := fun o off len x => ∀ bytes, x.1=.ok bytes →
    bytes = (volatile o).load off len) ?_ nofun nofun ?_ o off len bytes h
  · rintro o off _ ⟨⟩
    rfl
  · intro o off len n bytes o' x hcall hn ih
    have hv := readAt_volatile o off len
    have hb := readAt_ok o off len n bytes
    rw [hcall] at hv hb
    obtain ⟨e | rest,o''⟩ := x
    · nofun
    · rintro _ ⟨⟩
      dsimp only at hv ⊢
      rw [ih rest rfl,hb rfl hn.2.1,hv,←Image.load_add,Nat.add_sub_cancel' hn.2.1]

lemma writeAllAt_outside (o : O) (off : ℕ) (data : List UInt8) {a : ℕ}
    (ha : a<off ∨ off+data.length≤a) : volatile (writeAllAt o off data).2 a = volatile o a := by
  refine writeAllAt_rule (P := fun o off data x => a<off ∨ off+data.length≤a →
    volatile x.2 a = volatile o a) (fun _ _ _ => rfl) ?_ ?_ ?_ o off data ha
  · intro o off data e o' _ hcall ha
    rw [←writeAt_outside o off data a ha,hcall]
  · intro o off data n o' e _ hcall _ ha
    rw [←writeAt_outside o off data a ha,hcall]
  · intro o off data n o' x hcall hn ih ha
    have hle := hn.2.1
    rw [←writeAt_outside o off data a ha,hcall]
    refine ih ?_
    rw [List.length_drop]
    omega

lemma writeAllAt_ok {o : O} {off : ℕ} {data : List UInt8} (h : (writeAllAt o off data).1=.ok ()) :
    volatile (writeAllAt o off data).2 = (volatile o).store off data := by
  refine writeAllAt_rule (P := fun o off data x => x.1=.ok () →
    volatile x.2 = (volatile o).store off data) ?_ nofun nofun ?_ o off data h
  · intro o off _
    simp
  · intro o off data n o' x hcall hn ih hx
    have hw := writeAt_ok o off data n
    rw [hcall] at hw
    rw [ih hx,hw rfl hn.2.1]
    conv_rhs => rw [←List.take_append_drop n data,Image.store_append]
    simp [hn.2.1]

end

/-- How a scripted origin treats one call: the verdict, a transfer count other than the whole
range, and the bytes a failure leaves in the two images. -/
structure OriginReply where
  ok : Bool := true
  count : Option ℕ := none
  junk : Image UInt8 := fun _ => 0
  durableJunk : Image UInt8 := fun _ => 0

/-- An origin that answers its calls from a script and succeeds once the script is used up. -/
structure OriginScript where
  volatile : Image UInt8
  durable : Image UInt8
  replies : List OriginReply

namespace OriginScript

def reply (o : OriginScript) : OriginReply := o.replies.headD {}
def rest (o : OriginScript) : OriginScript := {o with replies := o.replies.tail}

instance : OriginStorage OriginScript where
  readAt o off len :=
    if o.reply.ok then (.ok (o.reply.count.getD len,o.volatile.load off len),o.rest)
    else (.error ⟨"origin read"⟩,o.rest)
  writeAt o off data :=
    if o.reply.ok then
      let n := o.reply.count.getD data.length
      (.ok n,{o.rest with volatile := o.volatile.store off (data.take n)})
    else (.error ⟨"origin write"⟩,
      { o.rest with
        volatile := o.volatile.store off (o.reply.junk.load off data.length)
        durable := o.durable.store off (o.reply.durableJunk.load off data.length)})
  syncData o :=
    if o.reply.ok then (.ok (),{o.rest with durable := o.volatile})
    else (.error ⟨"origin sync"⟩,{o.rest with durable := o.reply.durableJunk})

instance : LawfulOrigin OriginScript where
  volatile := volatile
  durable := durable
  readAt_volatile := by
    intro o off len
    simp only [OriginStorage.readAt]
    split_ifs <;> rfl
  readAt_durable := by
    intro o off len
    simp only [OriginStorage.readAt]
    split_ifs <;> rfl
  readAt_ok := by
    intro o off len n bytes h hn
    simp only [OriginStorage.readAt] at h
    split_ifs at h
    cases h
    exact Image.take_load _ _ _ _ hn
  writeAt_ok := by
    intro o off data n h _
    simp only [OriginStorage.writeAt] at h ⊢
    split_ifs at h ⊢
    cases h
    rfl
  writeAt_outside := by
    intro o off data a ha
    simp only [OriginStorage.writeAt]
    split_ifs
    · refine Image.store_outside _ _ ?_
      simp only [List.length_take]
      omega
    · exact Image.store_outside _ _ (by simpa using ha)
  syncData_volatile := by
    intro o
    simp only [OriginStorage.syncData]
    split_ifs <;> rfl
  syncData_ok := by
    intro o h
    simp only [OriginStorage.syncData] at h ⊢
    split_ifs at h ⊢
    rfl

end OriginScript

end RamShared.Block

import RamShared.Block.Backend

/-! The window through which the worker serves one export, its zeroing chunk by chunk, and the
volatile disk. -/
namespace RamShared.Nbd
open Lib Block

section

def zeroChunk : ℕ := 2^20

variable {B : Type} [BlockBackend B]

/-- One turn of the loop: write zeros at `off` and say where the next chunk begins. -/
def writeZeros (base len off : ℕ) (backend : B) : Except IoError ℕ × B :=
  let n := min (len-off) (min zeroChunk len)
  let (result,backend) :=
    BlockBackend.writeAt backend (wrappingAdd 64 base off) (List.replicate n 0)
  match result with
  | .error e => (.error e,backend)
  | .ok () => (.ok (off+n),backend)

variable {base len off : ℕ} {b b' : B}

end

structure SliceView (B : Type) where
  inner : B
  base : ℕ
  len : ℕ

namespace SliceView
variable {B : Type} [BlockBackend B]

/-- The condition that `SliceView::new` asserts in debug builds. -/
def Fits (inner : B) (base len : ℕ) : Prop :=
  ∃ stop, checkedAdd 64 base len=some stop ∧ stop≤BlockBackend.sizeBytes inner

/-- Translate the offset and run the call on the inner backend. -/
def translate {α : Type} (v : SliceView B) (message : String) (off : ℕ)
    (call : ℕ → B → Except IoError α × B) : Except IoError α × SliceView B :=
  match checkedAdd 64 v.base off with
  | none => (.error ⟨message⟩,v)
  | some abs =>
    let (result,inner) := call abs v.inner
    (result,{v with inner := inner})

variable (v : SliceView B)

def readAt (off len : ℕ) : Except IoError (List UInt8) × SliceView B :=
  v.translate "SliceView read offset overflow" off fun abs b => BlockBackend.readAt b abs len

def writeAt (off : ℕ) (data : List UInt8) : Except IoError Unit × SliceView B :=
  v.translate "SliceView write offset overflow" off fun abs b => BlockBackend.writeAt b abs data

def writeAtWithOptions (off : ℕ) (data : List UInt8) (options : WriteOptions) :
    Except IoError Unit × SliceView B :=
  v.translate "SliceView write offset overflow" off fun abs b =>
    BlockBackend.writeAtWithOptions b abs data options

def flush : Except IoError Unit × SliceView B :=
  let (result,inner) := BlockBackend.flush v.inner
  (result,{v with inner := inner})

/-- The window is never read-only, whatever the inner backend says. -/
instance : BlockBackend (SliceView B) where
  sizeBytes v := v.len
  blockSize v := BlockBackend.blockSize v.inner
  readAt := readAt
  writeAt := writeAt
  flush := flush
  writeAtWithOptions := writeAtWithOptions

instance [FillsBuffer B] : FillsBuffer (SliceView B) where
  length_readAt v off len data h := by
    change (v.translate _ off fun abs b => BlockBackend.readAt b abs len).1 = _ at h
    unfold translate at h
    split at h
    · cases h
    · exact FillsBuffer.length_readAt _ _ len data h

end SliceView

structure RamBackend where
  data : List UInt8
  blockSize : ℕ

variable {b : RamBackend}

namespace RamBackend

def new (size : ℕ) : RamBackend := ⟨List.replicate size 0,512⟩

def range (b : RamBackend) (off len : ℕ) : Option (ℕ × ℕ) :=
  (checkedAdd 64 off len).bind fun stop => if stop≤b.data.length then some (off,stop) else none

def readAt (b : RamBackend) (off len : ℕ) : Except IoError (List UInt8) × RamBackend :=
  match b.range off len with
  | none => (.error ⟨"RamBackend read out of range"⟩,b)
  | some (start,stop) => (.ok ((b.data.take stop).drop start),b)

def writeAt (b : RamBackend) (off : ℕ) (data : List UInt8) : Except IoError Unit × RamBackend :=
  match b.range off data.length with
  | none => (.error ⟨"RamBackend write out of range"⟩,b)
  | some (start,stop) => (.ok (),{b with data := b.data.take start++data++b.data.drop stop})

instance : BlockBackend RamBackend where
  sizeBytes b := b.data.length
  blockSize b := b.blockSize
  readAt := readAt
  writeAt := writeAt
  flush b := (.ok (),b)

lemma range_eq_some {off len : ℕ} {r : ℕ × ℕ} (h : b.range off len=some r) :
    r = (off,off+len) ∧ off+len≤b.data.length := by
  obtain ⟨stop,hs,h⟩ := Option.bind_eq_some_iff.mp h
  obtain ⟨-,rfl⟩ := checkedAdd_eq_some.mp hs
  split_ifs at h with hle
  exact ⟨(Option.some.inj h).symm,hle⟩

instance : FillsBuffer RamBackend where
  length_readAt b off len data h := by
    change (b.readAt off len).1 = _ at h
    unfold readAt at h
    split at h
    · cases h
    · rename_i start stop hr
      obtain ⟨hrange,hle⟩ := range_eq_some hr
      cases hrange
      cases h
      simp
      omega

lemma range_congr {b' : RamBackend} (h : b.data.length=b'.data.length) (off len : ℕ) :
    b.range off len = b'.range off len := by
  unfold range
  rw [h]

/-- The disk as an image; there is nothing behind its end. -/
def view : CellView RamBackend (ℕ × ℕ) UInt8 where
  config b := (b.data.length,b.blockSize)
  cells b a := b.data.getD a 0

lemma take_drop_eq_load {off len : ℕ} (h : off+len≤b.data.length) :
    (b.data.take (off+len)).drop off = (view.cells b).load off len := by
  refine List.ext_getElem? fun i => ?_
  rw [List.getElem?_drop,List.getElem?_take,Image.getElem?_load]
  by_cases hi : i<len
  · rw [if_pos (by omega),if_pos hi,List.getElem?_eq_getElem (by omega)]
    simp only [view,List.getD_eq_getElem?_getD]
    rw [List.getElem?_eq_getElem (by omega)]
    rfl
  · rw [if_neg (by omega),if_neg hi]

lemma cells_splice {off : ℕ} {data : List UInt8} (h : off+data.length≤b.data.length) :
    view.cells {b with data := b.data.take off++data++b.data.drop (off+data.length)} =
      (view.cells b).store off data := by
  funext a
  simp only [view,List.getD_eq_getElem?_getD,List.append_assoc]
  rcases Nat.lt_or_ge a off with ha | ha
  · rw [Image.store_of_lt _ _ ha,List.getElem?_append_left (by simp; omega),
      List.getElem?_take_of_lt ha]
  rw [List.getElem?_append_right (by simp; omega),List.length_take,Nat.min_eq_left (by omega)]
  rcases Nat.lt_or_ge a (off+data.length) with hb | hb
  · rw [List.getElem?_append_left (by omega),←Image.store_of_mem _ _ ha hb,Option.getD_some]
  · rw [Image.store_of_ge _ _ hb,List.getElem?_append_right (by omega),List.getElem?_drop]
    congr 2
    omega

lemma readAt_confined (off len : ℕ) : view.Confined off (off+len) fun b => b.readAt off len := by
  have hs : ∀ b : RamBackend, (b.readAt off len).2=b := by
    intro b
    unfold readAt
    split <;> rfl
  refine ⟨fun b => by rw [hs],fun b a _ => by rw [hs],fun {b b'} h => ?_,
    fun {b b'} h a h₁ h₂ => ?_⟩
  · unfold readAt
    rw [range_congr (congrArg Prod.fst h.config_eq)]
    rcases hr : b'.range off len with _ | r
    · rfl
    · obtain ⟨rfl,hle⟩ := range_eq_some hr
      have hlen : b.data.length=b'.data.length := congrArg Prod.fst h.config_eq
      dsimp only
      rw [take_drop_eq_load hle,take_drop_eq_load (hlen ▸ hle)]
      exact congrArg Except.ok ((Image.load_eq_load_iff _ _ _ _).mpr h.cells_eq)
  · rw [hs,hs]
    exact h.cells_eq a h₁ h₂

lemma writeAt_confined (off : ℕ) (data : List UInt8) :
    view.Confined off (off+data.length) fun b => b.writeAt off data := by
  have hs : ∀ b : RamBackend, view.config (b.writeAt off data).2 = view.config b ∧
      (view.cells (b.writeAt off data).2 = if (b.range off data.length).isSome then
        (view.cells b).store off data else view.cells b) := by
    intro b
    unfold writeAt
    rcases hr : b.range off data.length with _ | r
    · exact ⟨rfl,rfl⟩
    · obtain ⟨rfl,hle⟩ := range_eq_some hr
      refine ⟨?_,cells_splice hle⟩
      simp only [view,Prod.mk.injEq,List.length_append,List.length_take,List.length_drop,
        and_true]
      omega
  refine ⟨fun b => (hs b).1,fun b a ha => ?_,fun {b b'} h => ?_,fun {b b'} h a h₁ h₂ => ?_⟩
  · rw [(hs b).2]
    split_ifs
    · exact Image.store_outside _ _ ha
    · rfl
  · unfold writeAt
    rw [range_congr (congrArg Prod.fst h.config_eq)]
    rcases b'.range off data.length with _ | r <;> rfl
  · rw [(hs b).2,(hs b').2,range_congr (congrArg Prod.fst h.config_eq)]
    split_ifs
    · exact Option.some.inj ((Image.store_of_mem _ _ h₁ h₂).trans
        (Image.store_of_mem _ _ h₁ h₂).symm)
    · exact h.cells_eq a h₁ h₂

instance : LocalBackend RamBackend where
  Config := ℕ × ℕ
  view := view
  sizeBytes_eq _ _ h := congrArg Prod.fst h
  blockSize_eq _ _ h := congrArg Prod.snd h
  readAt_confined := readAt_confined
  writeAtWithOptions_confined off data options :=
    confined_writeThenFlush (writeAt_confined off data)
      (CellView.confined_pure fun _ _ _ => rfl) options
  flush_confined _ := CellView.confined_pure fun _ _ _ => rfl

end RamBackend

end RamShared.Nbd

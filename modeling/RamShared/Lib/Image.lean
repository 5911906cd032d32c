import Mathlib.Data.List.Range
import Mathlib.Tactic

/-! Flat images: a cell at every address, read and overwritten by contiguous ranges.
Overwriting is total, so a range that runs past the interesting part of an image
needs no side condition; only the lemmas that compare two ranges ask for bounds. -/
namespace RamShared.Lib

section

abbrev Image (α : Type*) := ℕ → α

namespace Image
variable {α : Type*}

/-- The cells at `off, …, off+len-1`, in order. -/
def load (m : Image α) (off len : ℕ) : List α := (List.range' off len).map m

/-- Overwrite the cells from `off` on with `data`. -/
def store (m : Image α) (off : ℕ) (data : List α) : Image α :=
  fun a => if off≤a then (data[a-off]?).getD (m a) else m a

variable {a : ℕ} (m : Image α) (off len : ℕ) (data : List α)

@[simp] lemma length_load : (m.load off len).length=len := by
  simp [load]

lemma load_add (a b : ℕ) : m.load off (a+b) = m.load off a++m.load (off+a) b := by
  simp [load,←List.range'_append_1]

lemma getElem?_load (i : ℕ) : (m.load off len)[i]? = if i<len then some (m (off+i)) else none := by
  split_ifs with h
  · simp [load,h]
  · exact List.getElem?_eq_none_iff.mpr (by simpa using h)

lemma load_congr {m m' : Image α} {off off' len : ℕ} (h : ∀ i<len, m (off+i) = m' (off'+i)) :
    m.load off len = m'.load off' len := by
  refine List.ext_getElem? fun i => ?_
  rw [getElem?_load,getElem?_load]
  split_ifs with hi
  · rw [h i hi]
  · rfl

/-- Two ranges of equal length agree exactly when their cells do. -/
lemma load_eq_load_iff (m' : Image α) (off len : ℕ) :
    m.load off len = m'.load off len ↔ ∀ a, off≤a → a<off+len → m a = m' a := by
  simp only [load,List.map_inj_left,List.mem_range'_1]
  exact ⟨fun h a h₁ h₂ => h a ⟨h₁,h₂⟩,fun h a ha => h a ha.1 ha.2⟩

lemma store_of_lt {off : ℕ} (h : a<off) : m.store off data a = m a := by
  simp [store,Nat.not_le.mpr h]

lemma store_of_ge {off : ℕ} (h : off+data.length≤a) : m.store off data a = m a := by
  have hn : data[a-off]?=none := List.getElem?_eq_none_iff.mpr (by omega)
  simp [store,hn]

lemma store_of_mem {off : ℕ} (h₁ : off≤a) (h₂ : a<off+data.length) :
    some (m.store off data a) = data[a-off]? := by
  have hi : a-off<data.length := by omega
  simp [store,h₁,hi]

/-- A range copied from another image carries that image's cells. -/
lemma store_load_apply (img : Image α) {r off n i : ℕ} (h : i<n) :
    m.store r (img.load off n) (r+i) = img (off+i) := by
  have hs := m.store_of_mem (img.load off n) (Nat.le_add_right r i) (by simpa using h)
  rw [getElem?_load,Nat.add_sub_cancel_left,if_pos h] at hs
  exact Option.some.inj hs

lemma store_outside {off : ℕ} (h : a<off ∨ off+data.length≤a) : m.store off data a = m a := by
  rcases h with h | h
  · exact m.store_of_lt data h
  · exact m.store_of_ge data h

@[simp] lemma store_nil : m.store off []=m := by
  funext a
  exact m.store_outside [] (by simp; omega)

lemma store_append (xs ys : List α) : m.store off (xs++ys) = (m.store off xs).store (off+xs.length) ys := by
  funext a
  by_cases hx : a<off+xs.length
  · rw [store_of_lt _ _ hx]
    unfold store
    split_ifs with ha
    · rw [List.getElem?_append_left (by omega)]
    · rfl
  · have ha : off≤a := by omega
    have hy : off+xs.length≤a := by omega
    have hs : a-off-xs.length = a-(off+xs.length) := by omega
    unfold store
    rw [if_pos ha,if_pos hy,if_pos ha,List.getElem?_append_right (by omega),hs,
      List.getElem?_eq_none_iff.mpr (by omega : xs.length≤a-off)]
    rfl

lemma load_store_self : (m.store off data).load off data.length=data := by
  apply List.ext_getElem?
  intro i
  rw [getElem?_load]
  split_ifs with hi
  · rw [store_of_mem m data (by omega) (by omega)]
    congr 1
    omega
  · exact (List.getElem?_eq_none_iff.mpr (by omega)).symm

lemma take_load (n : ℕ) (h : n≤len) : (m.load off len).take n = m.load off n := by
  obtain ⟨k,rfl⟩ := Nat.exists_eq_add_of_le h
  simp [load_add]

lemma drop_load (n : ℕ) (h : n≤len) : (m.load off len).drop n = m.load (off+n) (len-n) := by
  obtain ⟨k,rfl⟩ := Nat.exists_eq_add_of_le h
  simp [load_add]

end Image

/-! Operations that see and change a range only. The rest of the state is a configuration that none
of them changes. -/

variable {S C α R T : Type*}

/-- How a state is looked at: its configuration and its cells. -/
structure CellView (S C α : Type*) where
  config : S → C
  cells : S → Image α

namespace CellView
variable (v : CellView S C α)

/-- Two states that an observer of `[lo, hi)` cannot tell apart. -/
structure Same (lo hi : ℕ) (s s' : S) : Prop where
  config_eq : v.config s = v.config s'
  cells_eq : ∀ a, lo≤a → a<hi → v.cells s a = v.cells s' a

/-- The operation depends on the configuration and the cells of `[lo, hi)`, and it changes no
other cell. -/
structure Confined (lo hi : ℕ) (op : S → R × S) : Prop where
  config_eq : ∀ s, v.config (op s).2 = v.config s
  outside : ∀ s a, a<lo ∨ hi≤a → v.cells (op s).2 a = v.cells s a
  result : ∀ {s s'}, v.Same lo hi s s' → (op s).1 = (op s').1
  inside : ∀ {s s'}, v.Same lo hi s s' →
    ∀ a, lo≤a → a<hi → v.cells (op s).2 a = v.cells (op s').2 a

variable {v} {lo hi lo' hi' : ℕ} {s s' : S}

lemma Same.refl (lo hi : ℕ) (s : S) : v.Same lo hi s s := ⟨rfl,fun _ _ _ => rfl⟩

lemma Same.mono (h : v.Same lo hi s s') (hlo : lo≤lo') (hhi : hi'≤hi) : v.Same lo' hi' s s' :=
  ⟨h.config_eq,fun a h₁ h₂ => h.cells_eq a (hlo.trans h₁) (h₂.trans_le hhi)⟩

variable {op : S → R × S}

lemma Confined.same (h : v.Confined lo hi op) (hs : v.Same lo hi s s') : v.Same lo hi (op s).2 (op s').2 :=
  ⟨by rw [h.config_eq,h.config_eq,hs.config_eq],h.inside hs⟩

lemma Confined.same_of_disjoint (h : v.Confined lo' hi' op)
    (hd : hi'≤lo ∨ hi≤lo') (hs : v.Same lo hi s s') : v.Same lo hi (op s).2 s' := by
  refine ⟨by rw [h.config_eq,hs.config_eq],fun a h₁ h₂ => ?_⟩
  rw [h.outside s a (by omega)]
  exact hs.cells_eq a h₁ h₂

lemma Confined.mono (h : v.Confined lo' hi' op) (hlo : lo≤lo') (hhi : hi'≤hi) : v.Confined lo hi op := by
  refine ⟨h.config_eq,fun s a ha => h.outside s a (by omega),fun hs => h.result (hs.mono hlo hhi),
    fun {s s'} hs a h₁ h₂ => ?_⟩
  by_cases ha : lo'≤a ∧ a<hi'
  · exact h.inside (hs.mono hlo hhi) a ha.1 ha.2
  · rw [h.outside s a (by omega),h.outside s' a (by omega)]
    exact hs.cells_eq a h₁ h₂

lemma confined_pure {f : S → R} (hf : ∀ s s', v.config s = v.config s' → f s = f s') :
    v.Confined lo hi fun s => (f s,s) :=
  ⟨fun _ => rfl,fun _ _ _ => rfl,fun hs => hf _ _ hs.config_eq,
    fun hs a h₁ h₂ => hs.cells_eq a h₁ h₂⟩

/-- One operation after the other, the second chosen by the result of the first. -/
lemma Confined.bind {k : R → S → T × S} (h : v.Confined lo hi op)
    (hk : ∀ s, v.Confined lo hi (k (op s).1)) : v.Confined lo hi fun s => k (op s).1 (op s).2 where
  config_eq s := ((hk s).config_eq _).trans (h.config_eq s)
  outside s a ha := ((hk s).outside _ a ha).trans (h.outside s a ha)
  result {s s'} hs := by
    rw [←h.result hs]
    exact (hk s).result (h.same hs)
  inside {s s'} hs := by
    rw [←h.result hs]
    exact (hk s).inside (h.same hs)

end CellView

/-! What one observer sees of a sequence of labelled inputs. -/
section
variable {A O : Type*} (step : S → A → O × S) (mine : A → Bool)

/-- The outputs for the inputs that the observer made. -/
def observe : S → List A → List O
  | _, [] => []
  | s, a::as =>
    if mine a then (step s a).1::observe (step s a).2 as else observe (step s a).2 as

/-- If the observer's inputs respect a relation and all others are invisible to it, the outputs
are those of the observer's inputs alone. -/
theorem observe_eq_filter {E : S → S → Prop} {V : A → Prop} (hmine : ∀ {s s'} a, V a → mine a=true → E s s' →
      (step s a).1 = (step s' a).1 ∧ E (step s a).2 (step s' a).2)
    (hother : ∀ {s s'} a, V a → mine a=false → E s s' → E (step s a).2 s')
    {s s' : S} (hs : E s s') {as : List A} (has : ∀ a∈as, V a) :
    observe step mine s as = observe step mine s' (as.filter mine) := by
  induction as generalizing s s' with
  | nil => rfl
  | cons a as ih =>
    have ha := has a List.mem_cons_self
    have has' := fun b hb => has b (List.mem_cons_of_mem _ hb)
    by_cases hm : mine a=true
    · obtain ⟨ho,he⟩ := hmine a ha hm hs
      rw [List.filter_cons_of_pos hm,observe,observe,if_pos hm,if_pos hm,ho,ih he has']
    · rw [List.filter_cons_of_neg hm,observe,if_neg hm]
      exact ih (hother a ha (by simpa using hm) hs) has'

end

end

/-! Partial copies. A cache may forget cells, or take over a range that the image has just received.
-/

variable {α : Type*}

abbrev Copy (α : Type*) := ℕ → Option α

/-- Every held cell outside `[lo, hi)` agrees with the image. -/
def CoherentOutside (img : Image α) (copy : Copy α) (lo hi : ℕ) : Prop :=
  ∀ a v, copy a=some v → a<lo ∨ hi≤a → v = img a

def Coherent (img : Image α) (copy : Copy α) : Prop := ∀ a v, copy a=some v → v = img a

/-- `copy'` holds no cell that `copy` does not hold with the same value. -/
def Forgets (copy copy' : Copy α) : Prop := ∀ a v, copy' a=some v → copy a=some v

lemma Forgets.refl (copy : Copy α) : Forgets copy copy := fun _ _ h => h

lemma Forgets.trans {c₁ c₂ c₃ : Copy α} (h : Forgets c₁ c₂) (h' : Forgets c₂ c₃) :
    Forgets c₁ c₃ := fun a v ha => h a v (h' a v ha)

variable {c c' : Copy α} {img : Image α} {lo hi : ℕ}

lemma Forgets.none (h : Forgets c c') {a : ℕ} (ha : c a=none) : c' a=none := by
  rcases hx : c' a with _ | v
  · rfl
  · rw [h a v hx] at ha
    cases ha

lemma Coherent.forget (h : Coherent img c) (hf : Forgets c c') :
    Coherent img c' := fun a v ha => h a v (hf a v ha)

lemma Coherent.outside (h : Coherent img c) (lo hi : ℕ) :
    CoherentOutside img c lo hi := fun a v ha _ => h a v ha

lemma CoherentOutside.forget (h : CoherentOutside img c lo hi) (hf : Forgets c c') :
    CoherentOutside img c' lo hi :=
  fun a v ha => h a v (hf a v ha)

lemma CoherentOutside.coherent (h : CoherentOutside img c lo hi) (hle : hi≤lo) : Coherent img c := by
  intro a v ha
  exact h a v ha (by omega)

/-- An image that changes only inside a range leaves the copy coherent outside of it. -/
lemma Coherent.of_change {img' : Image α} (h : Coherent img c)
    (hch : ∀ a, a<lo ∨ hi≤a → img' a = img a) : CoherentOutside img' c lo hi := by
  intro a v ha ho
  rw [hch a ho]
  exact h a v ha

/-- Dropping every cell of the exception range restores coherence. -/
lemma CoherentOutside.drop (h : CoherentOutside img c lo hi) (hf : Forgets c c')
    (hd : ∀ a, lo≤a → a<hi → c' a=none) : Coherent img c' := by
  intro a v ha
  by_cases hin : lo≤a ∧ a<hi
  · rw [hd a hin.1 hin.2] at ha
    cases ha
  · exact h a v (hf a v ha) (by omega)

def Copy.write (copy : Copy α) (off : ℕ) (data : List α) : Copy α :=
  fun a => if off≤a ∧ a<off+data.length then data[a-off]? else copy a

def Copy.lookup (copy : Copy α) (off len : ℕ) : Option (List α) :=
  (List.range' off len).mapM copy

lemma Forgets.write (h : Forgets c c') (off : ℕ) (data : List α) :
    Forgets (c.write off data) (c'.write off data) := by
  intro a v ha
  unfold Copy.write at ha ⊢
  split_ifs at ha ⊢
  · exact ha
  · exact h a v ha

/-- Taking over exactly the exception range ends the exception. -/
lemma CoherentOutside.write {off len : ℕ} (h : CoherentOutside img c off (off+len)) :
    Coherent img (c.write off (img.load off len)) := by
  intro a v ha
  unfold Copy.write at ha
  rw [Image.length_load] at ha
  split_ifs at ha with hin
  · rw [Image.getElem?_load,if_pos (by omega),Nat.add_sub_cancel' hin.1] at ha
    exact (Option.some.inj ha).symm
  · exact h a v ha (by omega)

lemma Coherent.lookup (h : Coherent img c) {off len : ℕ} {data : List α}
    (hd : c.lookup off len=some data) : data = img.load off len := by
  unfold Copy.lookup at hd
  induction len generalizing off data with
  | zero =>
    cases hd
    rfl
  | succ len ih =>
    rw [List.range'_succ,List.mapM_cons] at hd
    obtain ⟨v,hv,hd⟩ := Option.bind_eq_some_iff.mp hd
    obtain ⟨rest,hr,hd⟩ := Option.bind_eq_some_iff.mp hd
    cases hd
    rw [ih hr,h off v hv]
    rfl

end RamShared.Lib

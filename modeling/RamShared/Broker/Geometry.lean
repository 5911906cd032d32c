import RamShared.Broker.Slices
import RamShared.Lib.Fallible

/-! The geometry of the broker: how large a slice may be next to the reserve of the host, and what a
layout of slices must be. -/
namespace RamShared.Broker
open Lib

/-! The clamp. -/

def minRealGpuBytes : ℕ := 2048*1024*1024
def minHostReserveBytes : ℕ := 1536*1024*1024
def hostReservePercent : ℕ := 20
def runtimeFreeHeadroomBytes : ℕ := 768*1024*1024
def sliceAlignmentBytes : ℕ := 128*1024*1024

def maxSafeTotal (totalVram freeVram : ℕ) : ℕ :=
  let floorPct := saturatingMul 64 totalVram hostReservePercent/100
  let hostFloor := max minHostReserveBytes floorPct
  let maxSafeTotal := totalVram-hostFloor
  if 0<freeVram then min maxSafeTotal (freeVram-runtimeFreeHeadroomBytes) else maxSafeTotal

/-- Rounded down to the alignment, unless nothing is left then. -/
def finalSafeSlice (maxSafePerSlice : ℕ) : ℕ :=
  let alignedSlice := maxSafePerSlice/sliceAlignmentBytes*sliceAlignmentBytes
  if 0<alignedSlice then alignedSlice else maxSafePerSlice

def calculateSafeVramSlice (requestedSliceBytes slices totalVram freeVram : ℕ) : ℕ × Bool :=
  if slices=0 ∨ requestedSliceBytes=0 ∨ totalVram < minRealGpuBytes then (requestedSliceBytes,false)
  else
    match checkedMul 64 slices requestedSliceBytes with
    | none => (requestedSliceBytes,false)
    | some totalRequested =>
      if totalRequested ≤ maxSafeTotal totalVram freeVram then (requestedSliceBytes,false)
      else (finalSafeSlice (maxSafeTotal totalVram freeVram/slices),true)

/-! The layout check. -/

inductive ErrorKind
  | invalidInput
  | invalidData
  deriving DecidableEq, Repr

structure LayoutError where
  kind : ErrorKind
  msg : String
  deriving DecidableEq, Repr

variable {maxCapacity : ℕ}

namespace Slice

def validate (maxCapacity : ℕ) (s : Slice) : Except LayoutError Unit :=
  if s.len=0 then .error ⟨.invalidInput,"Slice length cannot be zero"⟩
  else if s.offset%4096≠0 then .error ⟨.invalidInput,"Slice offset not 4096-byte aligned"⟩
  else if s.len%4096≠0 then .error ⟨.invalidInput,"Slice length not 4096-byte aligned"⟩
  else
    match checkedAdd 64 s.offset s.len with
    | none => .error ⟨.invalidData,"Slice offset and length overflow"⟩
    | some last =>
      if maxCapacity<last then .error ⟨.invalidData,"Slice exceeds physical VRAM capacity"⟩ else .ok ()

def validatePairs : List Slice → Except LayoutError Unit
  | previous::s::rest =>
    let previousEnd := previous.offset+previous.len
    if s.offset<previousEnd then .error ⟨.invalidInput,"Slices overlap"⟩
    else if previousEnd≠s.offset then .error ⟨.invalidInput,"Slices are not contiguous"⟩
    else validatePairs (s::rest)
  | _ => .ok ()

def validateLayout (slices : List Slice) (maxCapacity : ℕ) : Except LayoutError Unit := do
  slices.forM (validate maxCapacity)
  if slices.isEmpty then .ok ()
  else validatePairs (slices.mergeSort fun s t => s.offset≤t.offset)

lemma validate_eq_ok_iff {s : Slice} : s.validate maxCapacity=.ok () ↔
    0<s.len ∧ 4096 ∣ s.offset ∧ 4096 ∣ s.len ∧ s.offset+s.len<2^64 ∧ s.offset+s.len ≤ maxCapacity := by
  unfold validate
  split_ifs with hlen hoffset haligned
  · exact iff_of_false nofun fun h => h.1.ne' hlen
  · exact iff_of_false nofun fun h => hoffset (Nat.mod_eq_zero_of_dvd h.2.1)
  · exact iff_of_false nofun fun h => haligned (Nat.mod_eq_zero_of_dvd h.2.2.1)
  · have hoffset' := Nat.dvd_of_mod_eq_zero (not_not.mp hoffset)
    have haligned' := Nat.dvd_of_mod_eq_zero (not_not.mp haligned)
    cases hadd : checkedAdd 64 s.offset s.len with
    | none =>
      refine iff_of_false nofun fun h => ?_
      have hsum := checkedAdd_eq_some.mpr ⟨h.2.2.2.1,rfl⟩
      cases hadd.symm.trans hsum
    | some last =>
      obtain ⟨hlt,rfl⟩ := checkedAdd_eq_some.mp hadd
      dsimp only
      split_ifs with hcapacity
      · exact iff_of_false nofun fun h => absurd h.2.2.2.2 hcapacity.not_ge
      · exact iff_of_true rfl ⟨Nat.pos_of_ne_zero hlen,hoffset',haligned',hlt,not_lt.mp hcapacity⟩

def cell (sliceBytes i : ℕ) : Slice := ⟨i,i*sliceBytes,sliceBytes,none,.free⟩

section Tiling
variable {l : List Slice}

lemma validatePairs_eq_ok_iff : validatePairs l=.ok () ↔ l.IsChain fun s t => s.offset+s.len=t.offset := by
  fun_induction validatePairs l with
  | case1 previous s rest previousEnd hover =>
    exact iff_of_false nofun fun h => hover.ne' (List.isChain_cons_cons.mp h).1
  | case2 previous s rest previousEnd _ hgap =>
    exact iff_of_false nofun fun h => hgap (List.isChain_cons_cons.mp h).1
  | case3 previous s rest previousEnd _ hnext ih =>
    rw [ih,List.isChain_cons_cons]
    exact (and_iff_right (not_not.mp hnext)).symm
  | case4 l hshort =>
    refine iff_of_true rfl ?_
    rcases l with _ | ⟨s,_ | ⟨t,rest⟩⟩
    · exact .nil
    · exact .singleton s
    · exact (hshort s t rest rfl).elim

def extent (s : Slice) : Set ℕ := Set.Ico s.offset (s.offset+s.len)

/-- No two extents meet, and together they are one interval. -/
def Tiled (l : List Slice) : Prop :=
  l.Pairwise (fun s t => ∀ x∈s.extent, x∉t.extent) ∧ ∃ lo hi, ⋃ s∈l, s.extent = Set.Ico lo hi

lemma Tiled.perm {l' : List Slice} (h : Tiled l) (hperm : l.Perm l') : Tiled l' := by
  obtain ⟨hdisj,lo,hi,hcover⟩ := h
  refine ⟨(hperm.pairwise_iff fun h x ht hs => h x hs ht).mp hdisj,lo,hi,?_⟩
  simpa only [hperm.mem_iff] using hcover

lemma cover_cons (s : Slice) : ⋃ t∈s::l, t.extent = s.extent ∪ ⋃ t∈l, t.extent := by
  simp only [List.mem_cons,Set.iUnion_iUnion_eq_or_left]

lemma cover_of_isChain {s : Slice} (h : (s::l).IsChain fun s t => s.offset+s.len=t.offset) :
    ∃ hi, s.offset+s.len≤hi ∧ ⋃ t∈s::l, t.extent = Set.Ico s.offset hi := by
  induction l generalizing s with
  | nil => exact ⟨_,le_rfl,by simp [extent]⟩
  | cons t l ih =>
    obtain ⟨hnext,hrest⟩ := List.isChain_cons_cons.mp h
    obtain ⟨hi,hle,hcover⟩ := ih hrest
    refine ⟨hi,by omega,?_⟩
    have hunion : s.extent ∪ Set.Ico t.offset hi = Set.Ico s.offset hi := by
      rw [←hnext]
      exact Set.Ico_union_Ico_eq_Ico (Nat.le_add_right ..) (by omega)
    rw [cover_cons,hcover,hunion]

lemma isChain_of_cover (hsorted : l.Pairwise fun s t => s.offset≤t.offset) (hpos : ∀ s∈l, 0<s.len)
    (hdisj : l.Pairwise fun s t => ∀ x∈s.extent, x∉t.extent)
    (hcover : (⋃ s∈l, s.extent).OrdConnected) : l.IsChain fun s t => s.offset+s.len=t.offset := by
  induction l with
  | nil => exact .nil
  | cons s l ih =>
    cases l with
    | nil => exact .singleton s
    | cons t l =>
      rw [cover_cons] at hcover
      obtain ⟨hs,hsorted⟩ := List.pairwise_cons.mp hsorted
      obtain ⟨hdisj_s,hdisj⟩ := List.pairwise_cons.mp hdisj
      obtain ⟨hpos_s,hpos⟩ := List.forall_mem_cons.mp hpos
      have hle : ∀ u∈t::l, t.offset≤u.offset := by
        intro u hu
        rcases List.mem_cons.mp hu with rfl | hu
        · exact le_rfl
        · exact (List.pairwise_cons.mp hsorted).1 u hu
      have hpos_t := hpos t List.mem_cons_self
      have hbefore : s.offset+s.len≤t.offset := by
        by_contra hlt
        exact hdisj_s t List.mem_cons_self t.offset ⟨hs t List.mem_cons_self,by omega⟩
          ⟨le_rfl,by omega⟩
      -- the byte after the first extent lies between two covered ones
      have hnext : s.offset+s.len=t.offset := by
        obtain hmem | hmem := hcover.out (x := s.offset) (y := t.offset) (.inl ⟨le_rfl,by omega⟩)
          (.inr (Set.mem_biUnion List.mem_cons_self ⟨le_rfl,by omega⟩)) ⟨Nat.le_add_right ..,hbefore⟩
        · exact absurd hmem.2 (lt_irrefl _)
        · obtain ⟨u,hu,hmem⟩ := Set.mem_iUnion₂.mp hmem
          exact hbefore.antisymm ((hle u hu).trans hmem.1)
      refine List.isChain_cons_cons.mpr ⟨hnext,ih hsorted hpos hdisj ⟨fun a ha b hb x hx => ?_⟩⟩
      obtain hmem | hmem := hcover.out (.inr ha) (.inr hb) hx
      · obtain ⟨v,hv,hmem_v⟩ := Set.mem_iUnion₂.mp ha
        have h₁ := hle v hv
        have h₂ := hmem.2
        have h₃ := hmem_v.1
        have h₄ := hx.1
        omega
      · exact hmem

lemma isChain_iff_tiled (hsorted : l.Pairwise fun s t => s.offset≤t.offset) (hpos : ∀ s∈l, 0<s.len) :
    (l.IsChain fun s t => s.offset+s.len=t.offset) ↔ Tiled l := by
  constructor
  · intro h
    have hbefore : l.Pairwise fun s t => s.offset+s.len≤t.offset := by
      have htrans : IsTrans Slice fun s t => s.offset+s.len≤t.offset := ⟨fun s t u hst htu => by omega⟩
      exact (h.imp fun _ _ => le_of_eq).pairwise
    refine ⟨hbefore.imp fun hst x hs ht => absurd (hst.trans ht.1) (not_le.mpr hs.2),?_⟩
    cases l with
    | nil => exact ⟨0,0,by simp⟩
    | cons s l =>
      obtain ⟨hi,-,hcover⟩ := cover_of_isChain h
      exact ⟨_,hi,hcover⟩
  · rintro ⟨hdisj,lo,hi,hcover⟩
    exact isChain_of_cover hsorted hpos hdisj (hcover ▸ Set.ordConnected_Ico)

lemma validateLayout_iff_of_sorted {sorted : List Slice} (hperm : sorted.Perm l)
    (hsorted : sorted.Pairwise fun s t => s.offset≤t.offset) :
    l.forM (validate maxCapacity)=.ok () ∧ validatePairs sorted=.ok () ↔
      (∀ s∈l, s.validate maxCapacity=.ok ()) ∧ Tiled l := by
  rw [forM_ok,validatePairs_eq_ok_iff]
  refine and_congr_right fun hvalid => ?_
  rw [isChain_iff_tiled hsorted fun s hs => (validate_eq_ok_iff.mp (hvalid s (hperm.mem_iff.mp hs))).1]
  exact ⟨fun h => h.perm hperm,fun h => h.perm hperm.symm⟩

lemma validateLayout_eq_ok_iff : validateLayout l maxCapacity=.ok () ↔
    (∀ s∈l, s.validate maxCapacity=.ok ()) ∧ Tiled l := by
  have hsorted : (l.mergeSort fun s t => s.offset≤t.offset).Pairwise fun s t => s.offset≤t.offset := by
    refine (List.pairwise_mergeSort ?_ ?_ l).imp of_decide_eq_true <;> simp <;> omega
  rw [←validateLayout_iff_of_sorted (List.mergeSort_perm ..) hsorted,validateLayout,bind_ok]
  cases l with
  | nil => exact iff_of_true ⟨(),rfl,rfl⟩ ⟨rfl,by simp [validatePairs]⟩
  | cons s l =>
    constructor
    · rintro ⟨_,hall,hpairs⟩
      exact ⟨hall,hpairs⟩
    · rintro ⟨hall,hpairs⟩
      exact ⟨(),hall,hpairs⟩

/-- The answer of the check depends neither on the order of the list nor on how the unstable sort
arranges it. -/
theorem validateLayout_ok_iff_tiled (slices : List Slice) (maxCapacity : ℕ) :
    (validateLayout slices maxCapacity = .ok () ↔
      (∀ s ∈ slices, s.len ≠ 0 ∧ 4096 ∣ s.len ∧ 4096 ∣ s.offset ∧ s.offset+s.len < 2^64 ∧
        s.offset+s.len ≤ maxCapacity) ∧
      slices.Pairwise (fun s t => ∀ x ∈ s.extent, x ∉ t.extent) ∧
      (slices = [] ∨ ∃ lo hi, ⋃ s ∈ slices, s.extent = Set.Ico lo hi)) ∧
    (∀ sorted, sorted.Perm slices → sorted.Pairwise (fun s t => s.offset≤t.offset) →
      (validateLayout slices maxCapacity = .ok () ↔
        slices.forM (validate maxCapacity) = .ok () ∧ validatePairs sorted = .ok ())) ∧
    ∀ slices', slices'.Perm slices →
      (validateLayout slices' maxCapacity = .ok () ↔ validateLayout slices maxCapacity = .ok ()) := by
  refine ⟨?_,fun sorted hperm hsorted => ?_,fun slices' hperm => ?_⟩
  · have hcover : (slices = [] ∨ ∃ lo hi, ⋃ s ∈ slices, s.extent = Set.Ico lo hi) ↔
        ∃ lo hi, ⋃ s ∈ slices, s.extent = Set.Ico lo hi := by
      refine or_iff_right_of_imp ?_
      rintro rfl
      exact ⟨0,0,by simp⟩
    rw [validateLayout_eq_ok_iff,hcover]
    refine and_congr (forall₂_congr fun s _ => ?_) Iff.rfl
    rw [validate_eq_ok_iff,Nat.pos_iff_ne_zero]
    tauto
  · rw [validateLayout_eq_ok_iff,validateLayout_iff_of_sorted hperm hsorted]
  · rw [validateLayout_eq_ok_iff,validateLayout_eq_ok_iff]
    refine and_congr (by simp only [hperm.mem_iff]) ?_
    exact ⟨fun h => h.perm hperm,fun h => h.perm hperm.symm⟩

end Tiling

lemma validatePairs_cells (sliceBytes start k : ℕ) :
    validatePairs ((List.range' start k).map (cell sliceBytes))=.ok () := by
  rw [validatePairs_eq_ok_iff,List.isChain_map]
  refine (List.isChain_range' start k 1).imp fun i j hij => ?_
  rw [hij]
  exact (Nat.succ_mul i sliceBytes).symm

lemma validateLayout_cells_iff {sliceBytes k : ℕ} (hk : 0<k) (hfits : k*sliceBytes<2^64) :
    validateLayout ((List.range k).map (cell sliceBytes)) (k*sliceBytes)=.ok () ↔
      0<sliceBytes ∧ 4096 ∣ sliceBytes := by
  have hsorted : ((List.range k).map (cell sliceBytes)).Pairwise
      fun s t => decide (s.offset≤t.offset)=true := by
    rw [List.pairwise_map]
    refine List.pairwise_lt_range.imp fun hlt => ?_
    exact decide_eq_true (Nat.mul_le_mul_right sliceBytes hlt.le)
  unfold validateLayout
  rw [bind_ok]
  constructor
  · rintro ⟨_,hall,-⟩
    have hfirst := forM_ok.mp hall (cell sliceBytes 0) (List.mem_map_of_mem (List.mem_range.mpr hk))
    obtain ⟨hpos,-,hdvd,-⟩ := validate_eq_ok_iff.mp hfirst
    exact ⟨hpos,hdvd⟩
  · rintro ⟨hpos,hdvd⟩
    refine ⟨(),forM_ok.mpr (List.forall_mem_map.mpr fun i hi => validate_eq_ok_iff.mpr ?_),?_⟩
    · have hend : i*sliceBytes+sliceBytes≤k*sliceBytes := by
        rw [←Nat.succ_mul]
        exact Nat.mul_le_mul_right sliceBytes (List.mem_range.mp hi)
      exact ⟨hpos,dvd_mul_of_dvd_right hdvd i,hdvd,hend.trans_lt hfits,hend⟩
    · split_ifs
      · rfl
      · rw [List.mergeSort_of_pairwise hsorted,List.range_eq_range']
        exact validatePairs_cells sliceBytes 0 k

end Slice

lemma SliceMap.exists_new {k sliceBytes : ℕ} (hk : k ≤ maxSlices) (hfits : k*sliceBytes<2^64) :
    ∃ m, SliceMap.new k sliceBytes (k*sliceBytes)=.ok m ∧
      m.slices = (List.range k).map (Slice.cell sliceBytes) := by
  unfold SliceMap.new
  rw [if_neg hk.not_gt,checkedMul_eq_some.mpr ⟨hfits,rfl⟩]
  dsimp only
  rw [if_neg (lt_irrefl _)]
  refine ⟨_,rfl,List.map_congr_left fun i hi => ?_⟩
  have hlt : i*sliceBytes<2^64 :=
    (Nat.mul_le_mul_right sliceBytes (List.mem_range.mp hi).le).trans_lt hfits
  rw [wrappingMul,Nat.mod_eq_of_lt hlt]
  rfl

/-! What the clamp answers. -/

section
variable {requested slices total free : ℕ}

lemma calculateSafeVramSlice_eq (hslices : 1 ≤ slices) (hrequested : 0 < requested)
    (htotal : minRealGpuBytes≤total) (hfits : slices*requested<2^64) :
    calculateSafeVramSlice requested slices total free =
      if slices*requested ≤ maxSafeTotal total free then (requested,false)
      else (finalSafeSlice (maxSafeTotal total free/slices),true) := by
  unfold calculateSafeVramSlice
  rw [if_neg (by omega),checkedMul_eq_some.mpr ⟨hfits,rfl⟩]

lemma eq_of_clamped {b : ℕ} (h : calculateSafeVramSlice requested slices total free = (b,true)) :
    0<slices ∧ b = finalSafeSlice (maxSafeTotal total free/slices) ∧
      maxSafeTotal total free<slices*requested ∧ slices*requested<2^64 := by
  unfold calculateSafeVramSlice at h
  split_ifs at h with hnone
  · cases h
  · cases hmul : checkedMul 64 slices requested with
    | none => simp [hmul] at h
    | some t =>
      obtain ⟨hfits,rfl⟩ := checkedMul_eq_some.mp hmul
      simp only [hmul] at h
      split_ifs at h with hle
      · cases h
      · obtain ⟨hb,-⟩ := Prod.mk.inj h
        exact ⟨by omega,hb.symm,not_le.mp hle,hfits⟩

lemma finalSafeSlice_le (q : ℕ) : finalSafeSlice q≤q := by
  unfold finalSafeSlice
  dsimp only
  split_ifs
  · exact Nat.div_mul_le_self q sliceAlignmentBytes
  · exact le_rfl

lemma aligned_pos_iff {q : ℕ} : 0<q/sliceAlignmentBytes*sliceAlignmentBytes ↔ sliceAlignmentBytes≤q := by
  rw [Nat.mul_pos_iff_of_pos_right (by decide),Nat.div_pos_iff]
  exact and_iff_right (by decide)

lemma finalSafeSlice_valid_iff {q : ℕ} : 0<finalSafeSlice q ∧ 4096 ∣ finalSafeSlice q ↔
    sliceAlignmentBytes≤q ∨ 0<q ∧ 4096 ∣ q := by
  unfold finalSafeSlice
  dsimp only
  split_ifs with h
  · refine iff_of_true ⟨h,?_⟩ (.inl (aligned_pos_iff.mp h))
    exact dvd_mul_of_dvd_right (by decide) _
  · rw [or_iff_right (aligned_pos_iff.not.mp h)]

/-- A clamped geometry is a valid layout exactly when a whole unit of the alignment fits into each slice,
or what fits happens to be aligned to pages. -/
theorem clamped_layout_iff {b : ℕ} (hmax : slices≤256)
    (hclamped : calculateSafeVramSlice requested slices total free = (b,true)) :
    (∃ m, SliceMap.new slices b (slices*b) = .ok m ∧ Slice.validateLayout m.slices (slices*b) = .ok ()) ↔
      sliceAlignmentBytes ≤ maxSafeTotal total free/slices ∨
        0 < maxSafeTotal total free/slices ∧ 4096 ∣ maxSafeTotal total free/slices := by
  obtain ⟨hslices,rfl,hlt,hfits⟩ := eq_of_clamped hclamped
  have hsafe : slices*finalSafeSlice (maxSafeTotal total free/slices) ≤ maxSafeTotal total free :=
    (Nat.mul_le_mul_left slices (finalSafeSlice_le _)).trans (Nat.mul_div_le _ slices)
  have hfits' := (hsafe.trans_lt hlt).trans hfits
  obtain ⟨m,hm,hcells⟩ := SliceMap.exists_new hmax hfits'
  rw [← finalSafeSlice_valid_iff,← Slice.validateLayout_cells_iff hslices hfits',← hcells]
  constructor
  · rintro ⟨m',hm',hlayout⟩
    cases hm.symm.trans hm'
    exact hlayout
  · exact fun hlayout => ⟨m,hm,hlayout⟩

/-- A card of 6144 MiB is asked for 5120 MiB. -/
theorem clamped_layout_iff_overRequest :
    calculateSafeVramSlice (5120*2^20) 1 (6144*2^20) (6144*2^20) = (4608*2^20,true) ∧
    ∃ m, SliceMap.new 1 (4608*2^20) (1*(4608*2^20)) = .ok m ∧
      Slice.validateLayout m.slices (1*(4608*2^20)) = .ok () := by
  have hclamped : calculateSafeVramSlice (5120*2^20) 1 (6144*2^20) (6144*2^20) = (4608*2^20,true) := by
    decide
  exact ⟨hclamped,(clamped_layout_iff (by decide) hclamped).mpr (.inl (by decide))⟩

/-- A card of 2048 MiB is asked for five slices of 1024 MiB: a fifth of the 512 MiB that are left is
less than the alignment, and no whole number of pages. -/
theorem clamped_layout_fiveSlices : 4096 ∣ 2^30 ∧
    calculateSafeVramSlice (2^30) 5 (2^31) 0 = (107374182,true) ∧
    ¬∃ m, SliceMap.new 5 107374182 (5*107374182) = .ok m ∧
      Slice.validateLayout m.slices (5*107374182) = .ok () := by
  refine ⟨by decide,by decide,?_⟩
  rintro ⟨m,hm,hlayout⟩
  have hfits : 5*107374182 < 2^64 := by decide
  obtain ⟨m',hm',hcells⟩ := SliceMap.exists_new (by decide) hfits
  cases hm.symm.trans hm'
  rw [hcells,Slice.validateLayout_cells_iff (by decide) hfits] at hlayout
  exact absurd hlayout.2 (by decide)

/-! The reserve of the host. -/

/-- Slices of this size leave the host its reserve, and the headroom in what is free. -/
def LeavesReserve (slices total free sliceBytes : ℕ) : Prop :=
  slices*sliceBytes≤total-max (1536*2^20) (min (20*total) (2^64-1)/100) ∧
    (0<free → slices*sliceBytes≤free-768*2^20)

lemma leavesReserve_iff {b : ℕ} : LeavesReserve slices total free b ↔ slices*b ≤ maxSafeTotal total free := by
  have hfloor : max minHostReserveBytes (saturatingMul 64 total hostReservePercent/100) =
      max (1536*2^20) (min (20*total) (2^64-1)/100) := by
    rw [saturatingMul,Nat.mul_comm total]
    rfl
  unfold LeavesReserve maxSafeTotal
  dsimp only
  rw [hfloor]
  split_ifs with hfree
  · rw [le_min_iff]
    exact and_congr_right fun _ => forall_prop_of_true hfree
  · exact and_iff_left fun h => absurd h hfree

lemma leavesReserve_iff_le (hslices : 1 ≤ slices) {b : ℕ} :
    LeavesReserve slices total free b ↔ b ≤ maxSafeTotal total free/slices := by
  rw [leavesReserve_iff,Nat.le_div_iff_mul_le hslices,Nat.mul_comm]

lemma isGreatest_aligned (hslices : 1 ≤ slices) :
    IsGreatest {b | 128*2^20 ∣ b ∧ LeavesReserve slices total free b}
      (maxSafeTotal total free/slices/sliceAlignmentBytes*sliceAlignmentBytes) := by
  constructor
  · exact ⟨dvd_mul_left ..,(leavesReserve_iff_le hslices).mpr (Nat.div_mul_le_self ..)⟩
  · rintro _ ⟨⟨k,rfl⟩,hb⟩
    rw [leavesReserve_iff_le hslices] at hb
    change sliceAlignmentBytes*k≤_ at hb
    change sliceAlignmentBytes*k≤_
    rw [Nat.mul_comm] at hb ⊢
    exact Nat.mul_le_mul_right _ ((Nat.le_div_iff_mul_le (by decide)).mpr hb)

/-- The slices that are granted leave the host its reserve, are not larger than requested, and when they
are smaller they are the largest that the alignment allows, or the largest at all. -/
theorem host_reserve (hslices : 1 ≤ slices) (htotal : 2*2^30 ≤ total) (hrequested : 0 < requested)
    (hfits : slices*requested < 2^64) :
    let r := calculateSafeVramSlice requested slices total free
    LeavesReserve slices total free r.1 ∧ r.1 ≤ requested ∧ (r.2=true ↔ r.1≠requested) ∧
      (r.2=true → ∃ aligned, IsGreatest {b | 128*2^20 ∣ b ∧ LeavesReserve slices total free b} aligned ∧
        (aligned≠0 → r.1=aligned) ∧
        (aligned=0 → IsGreatest {b | LeavesReserve slices total free b} r.1)) := by
  dsimp only
  rw [calculateSafeVramSlice_eq hslices hrequested htotal hfits]
  split_ifs with hle
  · exact ⟨leavesReserve_iff.mpr hle,le_rfl,by simp,nofun⟩
  · have hle' := finalSafeSlice_le (maxSafeTotal total free/slices)
    have hlt := hle'.trans_lt (Nat.div_lt_of_lt_mul (not_le.mp hle))
    refine ⟨(leavesReserve_iff_le hslices).mpr hle',hlt.le,iff_of_true rfl hlt.ne,
      fun _ => ⟨_,isGreatest_aligned hslices,fun haligned => ?_,fun haligned => ?_⟩⟩
    · exact if_pos (Nat.pos_of_ne_zero haligned)
    · have hfinal : finalSafeSlice (maxSafeTotal total free/slices) = maxSafeTotal total free/slices :=
        if_neg haligned.not_gt
      dsimp only
      rw [hfinal]
      exact ⟨(leavesReserve_iff_le hslices).mpr le_rfl,fun b hb => (leavesReserve_iff_le hslices).mp hb⟩

/-- The five slices of 1024 MiB on a card of 2048 MiB. -/
theorem host_reserve_fiveSlices :
    calculateSafeVramSlice (2^30) 5 (2^31) 0 = (107374182,true) ∧
    LeavesReserve 5 (2^31) 0 (calculateSafeVramSlice (2^30) 5 (2^31) 0).1 :=
  ⟨by decide,(host_reserve (by decide) (by decide) (by decide) (by decide)).1⟩

end

end RamShared.Broker

import RamShared.OriginCache.Holdings
import RamShared.Block.Recorder
import RamShared.Lib.Streak

/-! When the cache grows and shrinks. The counters of `observe_gpu` are replaced by the history of its
calls: which of them were restricted, which of them asked for memory, and when. -/
namespace RamShared.OriginCache
open Lib Block

structure Observation where
  restricted : Bool
  attempted : Bool
  now : ℕ

namespace WriteThroughCacheBackend
variable {P O : Type} [VramProvider P] (b : WriteThroughCacheBackend P O)

/-- No sample, or a target below what is cached or below one chunk. -/
def restricted (sample : Option GpuSample) : Bool :=
  sample.isNone || decide (physicalTargetBytes b.physicalCapBytes sample<b.cachedBytes) ||
    decide (physicalTargetBytes b.physicalCapBytes sample<b.chunkBytes)

@[simp] lemma watchExcess_policyView (target now : ℕ) : (b.watchExcess target now).policyView=b.policyView := by
  unfold watchExcess
  split_ifs <;> rfl

@[simp] lemma watchExcess_provider (target now : ℕ) : (b.watchExcess target now).provider=b.provider := by
  unfold watchExcess
  split_ifs <;> rfl

variable {b : WriteThroughCacheBackend P O} {history : List Observation} {target : ℕ}
variable {sample : Option GpuSample}

lemma observeGpu_restricted (h : b.restricted sample=true) (now : ℕ) :
    (b.observeGpu sample now).2 = (({ b with
        targetBytes := physicalTargetBytes b.physicalCapBytes sample
        healthySamples := 0
        restrictedSamples := saturatingAdd 8 b.restrictedSamples 1
        cacheState := if sample.isNone then .unavailable else .restricted}).reclaim true
          (physicalTargetBytes b.physicalCapBytes sample)).2.watchExcess
            (physicalTargetBytes b.physicalCapBytes sample) now := by
  unfold restricted at h
  unfold observeGpu
  dsimp only
  rw [h]
  rfl

lemma observeGpu_unrestricted (h : b.restricted sample=false) (now : ℕ) :
    (b.observeGpu sample now).2 = (({ b with
        targetBytes := physicalTargetBytes b.physicalCapBytes sample
        restrictedSamples := 0
        healthySamples := saturatingAdd 8 b.healthySamples 1
        cacheState := .active}).grow false
          (physicalTargetBytes b.physicalCapBytes sample) now).2.watchExcess
            (physicalTargetBytes b.physicalCapBytes sample) now := by
  unfold restricted at h
  unfold observeGpu
  dsimp only
  rw [h]
  rfl

lemma allocateOneChunk_calls (b : WriteThroughCacheBackend (Recorder P) O) :
    ∃ calls, b.allocateOneChunk.2.provider.log = b.provider.log++calls ∧
      (calls.filter VramCall.isAlloc).length≤1 ∧
      b.allocateOneChunk.2.policyView = {b.policyView with held := b.allocateOneChunk.2.heldChunks} ∧
      (b.allocateOneChunk.2.heldChunks=b.heldChunks ∨
        (∃ call∈calls, call.isAlloc) ∧
          ∃ i∉b.heldChunks, b.allocateOneChunk.2.heldChunks = insert i b.heldChunks) := by
  unfold allocateOneChunk
  cases hfind : b.chunks.findIdx? fun chunk => chunk.mem.isNone with
  | none => exact ⟨[],(List.append_nil _).symm,by simp,rfl,.inl rfl⟩
  | some index =>
    have halloc : VramProvider.alloc b.provider b.chunkBytes =
      ((VramProvider.alloc b.provider.provider b.chunkBytes).1,
        ⟨(VramProvider.alloc b.provider.provider b.chunkBytes).2,b.provider.log ++
          [.alloc b.chunkBytes (VramProvider.alloc b.provider.provider b.chunkBytes).1.isOk]⟩) := rfl
    rw [halloc]
    rcases VramProvider.alloc b.provider.provider b.chunkBytes with ⟨e | m,p⟩
    · exact ⟨_,rfl,le_rfl,rfl,.inl rfl⟩
    · have hzero : VramProvider.zero (⟨p,b.provider.log++[.alloc b.chunkBytes true]⟩ : Recorder P) m =
        ((VramProvider.zero p m).1,(VramProvider.zero p m).2.1,⟨(VramProvider.zero p m).2.2,
          (b.provider.log++[.alloc b.chunkBytes true])++[.zero (VramProvider.zero p m).1.isOk]⟩) := rfl
      dsimp only [Except.isOk,Except.toBool]
      rw [hzero]
      rcases VramProvider.zero p m with ⟨e | ⟨⟩,m',p'⟩
      · exact ⟨_,List.append_assoc ..,le_rfl,rfl,.inl rfl⟩
      · obtain ⟨hlt,hnone,-⟩ := List.findIdx?_eq_some_iff_getElem.mp hfind
        refine ⟨_,List.append_assoc ..,le_rfl,rfl,.inr ⟨⟨.alloc b.chunkBytes true,by simp,rfl⟩,index,?_,
          heldChunks_fillChunk hlt fun _ => rfl⟩⟩
        rw [mem_heldChunks,chunkMem,List.getElem?_eq_getElem hlt]
        simpa using hnone

/-- What a call of `observe_gpu` can do, with the calls that it makes to the provider. -/
inductive Observed (b : WriteThroughCacheBackend (Recorder P) O) (target now : ℕ) :
    Bool → List VramCall → WriteThroughCacheBackend (Recorder P) O → Prop
  | waiting {b'} (hfew : saturatingAdd 8 b.restrictedSamples 1<3)
      (hview : b'.policyView = { b.policyView with
        healthySamples := 0, restrictedSamples := saturatingAdd 8 b.restrictedSamples 1}) :
      Observed b target now true [] b'
  | released {b'} (hthird : 3 ≤ saturatingAdd 8 b.restrictedSamples 1)
      (hview : b'.policyView = { b.policyView with
        healthySamples := 0, restrictedSamples := 0, held := b'.heldChunks})
      (hsubset : b'.heldChunks ⊆ b.heldChunks)
      (holdest : ∀ i∈b.heldChunks, i∉b'.heldChunks → ∀ j∈b'.heldChunks,
        b.lastAccessOf i≤b.lastAccessOf j)
      (hneeded : b'.heldChunks=b.heldChunks ∨ target<(b'.heldChunks.card+1)*b.chunkBytes)
      (henough : b'.heldChunks.card*b.chunkBytes≤target) : Observed b target now true [] b'
  | resting {b'} (hview : b'.policyView = { b.policyView with
        healthySamples := saturatingAdd 8 b.healthySamples 1, restrictedSamples := 0}) :
      Observed b target now false [] b'
  | growing {calls b'} (hhealthy : 3 ≤ saturatingAdd 8 b.healthySamples 1)
      (hroom : saturatingAdd 64 b.cachedBytes b.chunkBytes≤target)
      (hpause : ∀ t, b.lastGrowthAt=some t → growthInterval≤now-t)
      (honce : (calls.filter VramCall.isAlloc).length≤1)
      (hview : b'.policyView = { b.policyView with
        healthySamples := saturatingAdd 8 b.healthySamples 1, restrictedSamples := 0,
        lastGrowthAt := some now, held := b'.heldChunks})
      (hheld : b'.heldChunks=b.heldChunks ∨ (∃ call∈calls, call.isAlloc) ∧
        ∃ i∉b.heldChunks, b'.heldChunks = insert i b.heldChunks) :
      Observed b target now false calls b'

lemma reclaim_cases (hfits : b.heldChunks.card*b.chunkBytes<2^64) (target : ℕ) :
    (b.restrictedSamples<3 ∧ (b.reclaim true target).2=b) ∨ (3≤b.restrictedSamples ∧ ∃ b', Evicted target b b' ∧
      (b.reclaim true target).2 = {b' with restrictedSamples := 0}) := by
  unfold reclaim
  split_ifs with hcount
  · exact .inr ⟨by simpa [restrictedSamplesToReclaim] using hcount,_,releaseLruTo_evicted hfits target,rfl⟩
  · exact .inl ⟨by simpa [restrictedSamplesToReclaim] using hcount,rfl⟩

lemma grow_cases (b : WriteThroughCacheBackend (Recorder P) O) (target now : ℕ) :
    (b.grow false target now).2=b ∨ (3≤b.healthySamples ∧ saturatingAdd 64 b.cachedBytes b.chunkBytes≤target ∧
      (∀ t, b.lastGrowthAt=some t → growthInterval≤now-t) ∧
      (b.grow false target now).2.provider = ({b with lastGrowthAt := some now}).allocateOneChunk.2.provider ∧
      (b.grow false target now).2.policyView =
        ({b with lastGrowthAt := some now}).allocateOneChunk.2.policyView) := by
  unfold grow
  split_ifs with hgrow
  · simp only [Bool.not_false,Bool.true_and,Bool.and_eq_true,decide_eq_true_eq] at hgrow
    obtain ⟨⟨hhealthy,hroom⟩,hpause⟩ := hgrow
    refine .inr ⟨hhealthy,hroom,fun t ht => ?_,?_⟩
    · simpa [ht] using hpause
    · generalize allocateOneChunk (P := Recorder P) (O := O) _=x
      obtain ⟨⟨⟩ | bytes,b'⟩ := x
      · exact ⟨rfl,rfl⟩
      · exact ⟨rfl,rfl⟩
  · exact .inl rfl

lemma observeGpu_observed {b : WriteThroughCacheBackend (Recorder P) O}
    (hfits : b.heldChunks.card*b.chunkBytes<2^64) (sample : Option GpuSample) (now : ℕ) :
    ∃ calls, (b.observeGpu sample now).2.provider.log = b.provider.log++calls ∧
      Observed b (physicalTargetBytes b.physicalCapBytes sample) now (b.restricted sample) calls
        (b.observeGpu sample now).2 := by
  cases hr : b.restricted sample with
  | true =>
    rw [observeGpu_restricted hr,watchExcess_provider]
    generalize physicalTargetBytes b.physicalCapBytes sample=target
    generalize hnoted : ({ b with
      targetBytes := target
      healthySamples := 0
      restrictedSamples := saturatingAdd 8 b.restrictedSamples 1
      cacheState := if sample.isNone then .unavailable else .restricted} :
        WriteThroughCacheBackend (Recorder P) O)=b₁
    refine ⟨[],?_⟩
    rw [List.append_nil]
    obtain ⟨hfew,heq⟩ | ⟨hthird,b₂,hevicted,heq⟩ := reclaim_cases (b := b₁) (by subst hnoted; exact hfits) target
    · rw [heq]
      subst hnoted
      exact ⟨rfl,.waiting hfew (watchExcess_policyView _ target now)⟩
    · rw [heq]
      have hview := watchExcess_policyView {b₂ with restrictedSamples := 0} target now
      have hheld : (({b₂ with restrictedSamples := 0}).watchExcess target now).heldChunks =
        b₂.heldChunks := congrArg PolicyView.held hview
      subst hnoted
      refine ⟨congrArg Recorder.log hevicted.provider_eq,.released hthird ?_ ?_ ?_ ?_ ?_⟩
      · rw [hview,hheld]
        exact congrArg (fun v : PolicyView => {v with restrictedSamples := 0}) hevicted.view_eq
      · rw [hheld]
        exact hevicted.subset
      · rw [hheld]
        exact hevicted.oldest
      · rw [hheld]
        exact hevicted.needed
      · rw [hheld]
        exact hevicted.enough
  | false =>
    rw [observeGpu_unrestricted hr,watchExcess_provider]
    generalize physicalTargetBytes b.physicalCapBytes sample=target
    generalize hnoted : ({ b with
      targetBytes := target
      restrictedSamples := 0
      healthySamples := saturatingAdd 8 b.healthySamples 1
      cacheState := .active} : WriteThroughCacheBackend (Recorder P) O)=b₁
    obtain heq | ⟨hhealthy,hroom,hpause,hprovider,hview⟩ := b₁.grow_cases target now
    · rw [heq]
      subst hnoted
      exact ⟨[],(List.append_nil _).symm,.resting (watchExcess_policyView _ target now)⟩
    · obtain ⟨calls,hlog,honce,hview',hheld⟩ := ({b₁ with lastGrowthAt := some now}).allocateOneChunk_calls
      rw [hprovider]
      have hview'' := (watchExcess_policyView (b₁.grow false target now).2 target now).trans hview
      have hheld' := congrArg PolicyView.held hview''
      subst hnoted
      refine ⟨calls,hlog,.growing hhealthy hroom hpause honce ?_ ?_⟩
      · exact hview''.trans (hview'.trans (by rw [←show heldChunks _ = heldChunks _ from hheld']; rfl))
      · rw [show heldChunks _ = heldChunks _ from hheld']
        exact hheld

def Op.time : Op → Option ℕ
  | .observeGpu _ now => some now
  | _ => none

def Op.WordSized : Op → Prop
  | .observeGpu (some sample) _ => sample.budgetBytes<2^64
  | _ => True

lemma physicalTargetBytes_lt {now : ℕ}
    (h : (Op.observeGpu sample now).WordSized) (cap : ℕ) : physicalTargetBytes cap sample<2^64-1 := by
  cases sample with
  | none => exact Nat.zero_lt_of_lt (show 1<2^64-1 by decide)
  | some sample =>
    have hlt : sample.budgetBytes<2^64 := h
    have hreserve : 2*gib ≤ max (divCeil sample.totalVramBytes 5) (2*gib) := le_max_right _ _
    have hgib : 2≤2*gib := by decide
    unfold physicalTargetBytes
    dsimp only
    omega

/-- The counters of a backend, in terms of the calls so far. -/
structure Tracks (v : PolicyView) (history : List Observation) : Prop where
  fits : v.held.card*v.chunkBytes<2^64
  healthy_eq : v.healthySamples = min (streak (history.map fun o => !o.restricted)) 255
  restricted_eq : v.restrictedSamples = streak (history.map Observation.restricted)%3
  growth : ∀ o∈history, o.attempted → ∃ t, v.lastGrowthAt=some t ∧ o.now≤t

lemma Tracks.cachedBytes_eq (h : Tracks b.policyView history) :
    b.cachedBytes = b.heldChunks.card*b.chunkBytes :=
  b.cachedBytes_eq.trans (Nat.mod_eq_of_lt h.fits)

lemma Tracks.grown_le (h : Tracks b.policyView history) (htarget : target<2^64-1)
    (hroom : saturatingAdd 64 b.cachedBytes b.chunkBytes≤target) {held : Finset ℕ}
    (hheld : held.card≤b.heldChunks.card+1) : held.card*b.chunkBytes≤target := by
  have hmul : held.card*b.chunkBytes≤b.heldChunks.card*b.chunkBytes+b.chunkBytes := by
    rw [←Nat.succ_mul]
    exact Nat.mul_le_mul_right _ hheld
  rw [h.cachedBytes_eq,saturatingAdd] at hroom
  omega

lemma Tracks.observed {b b' : WriteThroughCacheBackend (Recorder P) O} {now : ℕ} {r : Bool}
    {calls : List VramCall} (h : Tracks b.policyView history)
    (hobs : Observed b target now r calls b') (htarget : target<2^64-1) (htimes : ∀ o∈history, o.now≤now) :
    Tracks b'.policyView (history++[⟨r,calls.any VramCall.isAlloc,now⟩]) := by
  have hhealthy : b.healthySamples = min (streak (history.map fun o => !o.restricted)) 255 := h.healthy_eq
  have hrestricted : b.restrictedSamples = streak (history.map Observation.restricted)%3 :=
    h.restricted_eq
  have hquiet (g : Option ℕ) (hg : g=b.lastGrowthAt) : ∀ o∈history++[⟨r,false,now⟩],
      o.attempted → ∃ t, g=some t ∧ o.now≤t := by
    intro o ho hattempted
    obtain ho | ho := List.mem_append.mp ho
    · exact hg ▸ h.growth o ho hattempted
    · rw [List.mem_singleton.mp ho] at hattempted
      cases hattempted
  cases hobs with
  | waiting hfew hview =>
    rw [hview]
    refine ⟨h.fits,by simp,?_,hquiet _ rfl⟩
    simp only [List.map_append,List.map_cons,List.map_nil,streak_concat,if_true]
    unfold saturatingAdd at hfew ⊢
    omega
  | released hthird hview hsubset =>
    rw [hview]
    refine ⟨?_,by simp,?_,hquiet _ rfl⟩
    · exact (Nat.mul_le_mul_right _ (Finset.card_le_card hsubset)).trans_lt h.fits
    · simp only [List.map_append,List.map_cons,List.map_nil,streak_concat,if_true]
      unfold saturatingAdd at hthird
      omega
  | resting hview =>
    rw [hview]
    refine ⟨h.fits,?_,by simp,hquiet _ rfl⟩
    simp only [List.map_append,List.map_cons,List.map_nil,streak_concat,Bool.not_false,if_true]
    unfold saturatingAdd
    omega
  | growing _ hroom _ _ hview hheld =>
    rw [hview]
    have hcard : b'.heldChunks.card≤b.heldChunks.card+1 := by
      obtain heq | ⟨-,i,-,heq⟩ := hheld
      · rw [heq]
        exact Nat.le_succ _
      · rw [heq]
        exact Finset.card_insert_le _ _
    refine ⟨?_,?_,by simp,fun o ho _ => ⟨now,rfl,?_⟩⟩
    · exact (h.grown_le htarget hroom hcard).trans_lt (htarget.trans (by decide))
    · simp only [List.map_append,List.map_cons,List.map_nil,streak_concat,Bool.not_false,if_true]
      unfold saturatingAdd
      omega
    · obtain ho | ho := List.mem_append.mp ho
      · exact htimes o ho
      · rw [List.mem_singleton.mp ho]

/-- What the history allows a call to do. -/
structure Disciplined (history : List Observation) (o : Observation) (target : ℕ) (calls : List VramCall)
    (b b' : WriteThroughCacheBackend P O) : Prop where
  cached_eq : b.cachedBytes = b.heldChunks.card*b.chunkBytes ∧
    b'.cachedBytes = b'.heldChunks.card*b.chunkBytes
  once : (calls.filter VramCall.isAlloc).length≤1 ∧ b'.heldChunks.card≤b.heldChunks.card+1
  /-- Memory is asked for only after two healthy calls, in time, and within the target. -/
  grown : o.attempted ∨ ¬b'.heldChunks ⊆ b.heldChunks →
    o.restricted=false ∧ [false,false] <:+ history.map Observation.restricted ∧
      (∀ e∈history, e.attempted → e.now+growthInterval≤o.now) ∧ b'.cachedBytes≤target
  kept : ¬(o.restricted ∧ 3 ∣ streak (history.map Observation.restricted++[o.restricted])) →
    b.heldChunks ⊆ b'.heldChunks
  /-- At every third restricted call in a row the chunks used longest ago go, as few as can be. -/
  released : o.restricted → 3 ∣ streak (history.map Observation.restricted++[o.restricted]) →
    b'.heldChunks ⊆ b.heldChunks ∧ b'.cachedBytes≤target ∧
      (∀ s ⊆ b.heldChunks, (b.heldChunks \ s).card*b.chunkBytes≤target →
        (b.heldChunks \ b'.heldChunks).card ≤ s.card) ∧
      ∀ i∈b.heldChunks \ b'.heldChunks, ∀ j∈b'.heldChunks, b.lastAccessOf i≤b.lastAccessOf j

lemma card_sdiff_le_of_needed {held held' : Finset ℕ} {chunk : ℕ} (hsub : held' ⊆ held)
    (hneeded : held'=held ∨ target<(held'.card+1)*chunk) {s : Finset ℕ} (hs : s ⊆ held)
    (hfits : (held \ s).card*chunk≤target) : (held \ held').card ≤ s.card := by
  obtain rfl | hneeded := hneeded
  · simp
  have hle : (held \ s).card≤held'.card :=
    Nat.le_of_lt_succ (Nat.lt_of_mul_lt_mul_right (hfits.trans_lt hneeded))
  have hcard := Finset.card_sdiff_of_subset hsub
  have hcard' := Finset.card_sdiff_of_subset hs
  omega

lemma Tracks.disciplined {b b' : WriteThroughCacheBackend (Recorder P) O} {now : ℕ} {r : Bool}
    {calls : List VramCall} (h : Tracks b.policyView history)
    (hobs : Observed b target now r calls b') (htarget : target<2^64-1) (htimes : ∀ o∈history, o.now≤now) :
    Disciplined history ⟨r,calls.any VramCall.isAlloc,now⟩ target calls b b' := by
  have hcached := (h.observed hobs htarget htimes).cachedBytes_eq
  have hrestricted : b.restrictedSamples = streak (history.map Observation.restricted)%3 :=
    h.restricted_eq
  cases hobs with
  | waiting hfew hview =>
    have hheld : b'.heldChunks=b.heldChunks := congrArg PolicyView.held hview
    have hchunk : b'.chunkBytes=b.chunkBytes := congrArg PolicyView.chunkBytes hview
    rw [hchunk] at hcached
    refine ⟨⟨h.cachedBytes_eq,hcached⟩,⟨by simp,by simp [hheld]⟩,?_,fun _ => hheld ▸ Finset.Subset.refl _,?_⟩
    · rintro (hattempted | hmore)
      · cases hattempted
      · exact absurd (hheld ▸ Finset.Subset.refl _) hmore
    · intro _ hthird
      rw [streak_concat,if_pos rfl] at hthird
      unfold saturatingAdd at hfew
      omega
  | released hthird hview hsubset holdest hneeded henough =>
    have hchunk : b'.chunkBytes=b.chunkBytes := congrArg PolicyView.chunkBytes hview
    rw [hchunk] at hcached
    refine ⟨⟨h.cachedBytes_eq,hcached⟩,⟨by simp,(Finset.card_le_card hsubset).trans (Nat.le_succ _)⟩,?_,?_,?_⟩
    · rintro (hattempted | hmore)
      · cases hattempted
      · exact absurd hsubset hmore
    · intro hnot
      refine absurd ⟨rfl,?_⟩ hnot
      rw [streak_concat,if_pos rfl]
      unfold saturatingAdd at hthird
      omega
    · intro _ _
      refine ⟨hsubset,hcached ▸ henough,fun s hs hfits => card_sdiff_le_of_needed hsubset hneeded hs hfits,?_⟩
      intro i hi j hj
      obtain ⟨hin,hout⟩ := Finset.mem_sdiff.mp hi
      exact holdest i hin hout j hj
  | resting hview =>
    have hheld : b'.heldChunks=b.heldChunks := congrArg PolicyView.held hview
    have hchunk : b'.chunkBytes=b.chunkBytes := congrArg PolicyView.chunkBytes hview
    rw [hchunk] at hcached
    refine ⟨⟨h.cachedBytes_eq,hcached⟩,⟨by simp,by simp [hheld]⟩,?_,fun _ => hheld ▸ Finset.Subset.refl _,nofun⟩
    rintro (hattempted | hmore)
    · cases hattempted
    · exact absurd (hheld ▸ Finset.Subset.refl _) hmore
  | growing hhealthy hroom hpause honce hview hheld =>
    have hchunk : b'.chunkBytes=b.chunkBytes := congrArg PolicyView.chunkBytes hview
    have hsub : b.heldChunks ⊆ b'.heldChunks := by
      obtain heq | ⟨-,i,-,heq⟩ := hheld
      · rw [heq]
      · rw [heq]
        exact Finset.subset_insert _ _
    have hcard : b'.heldChunks.card≤b.heldChunks.card+1 := by
      obtain heq | ⟨-,i,-,heq⟩ := hheld
      · rw [heq]
        exact Nat.le_succ _
      · rw [heq]
        exact Finset.card_insert_le _ _
    rw [hchunk] at hcached
    refine ⟨⟨h.cachedBytes_eq,hcached⟩,⟨honce,hcard⟩,fun _ => ⟨rfl,?_,?_,?_⟩,fun _ => hsub,nofun⟩
    · have htwo : 2 ≤ streak (history.map fun o => !o.restricted) := by
        have heq : b.healthySamples=_ := h.healthy_eq
        unfold saturatingAdd at hhealthy
        omega
      have hsuffix := (replicate_suffix_iff.mpr htwo).map (!·)
      simpa [List.map_map,Function.comp_def] using hsuffix
    · intro e he hattempted
      obtain ⟨t,ht,hle⟩ := h.growth e he hattempted
      have hwait := hpause t ht
      have hpos : 0<growthInterval := by decide
      show e.now+growthInterval≤now
      omega
    · rw [hcached]
      exact h.grown_le htarget hroom hcard

lemma withChunkBytes_tracks {provider : P} {origin : O} {size block chunkBytes : ℕ}
    (h : withChunkBytes provider origin size block chunkBytes=.ok b) : Tracks b.policyView [] := by
  unfold withChunkBytes at h
  split_ifs at h
  obtain rfl := Except.ok.inj h
  refine ⟨?_,rfl,rfl,List.forall_mem_nil _⟩
  refine lt_of_eq_of_lt (b := 0) ?_ (by decide)
  refine Nat.mul_eq_zero.mpr (.inl ((card_heldChunks _).trans ?_))
  simp [List.countP_eq_zero]

section
variable [OriginStorage O]

def observation (b : WriteThroughCacheBackend (Recorder P) O) : Op → List Observation
  | .observeGpu sample now =>
    [⟨b.restricted sample,((b.observeGpu sample now).2.provider.log.drop b.provider.log.length).any
      VramCall.isAlloc,now⟩]
  | _ => []

def observations (b : WriteThroughCacheBackend (Recorder P) O) (ops : List Op) : List Observation :=
  outputs step observation b ops

lemma observations_concat (b : WriteThroughCacheBackend (Recorder P) O) (ops : List Op) (op : Op) :
    b.observations (ops++[op]) = b.observations ops++observation (run step b ops) op := by
  simp [observations,outputs_append,outputs]

lemma observations_now (b : WriteThroughCacheBackend (Recorder P) O) (ops : List Op) :
    (b.observations ops).map Observation.now = ops.filterMap Op.time := by
  induction ops using List.reverseRecOn with
  | nil => rfl
  | append_singleton ops op ih =>
    rw [observations_concat,List.map_append,List.filterMap_append,ih]
    cases op <;> rfl

lemma Tracks.step {b : WriteThroughCacheBackend (Recorder P) O} {history : List Observation}
    (h : Tracks b.policyView history) {op : Op} (hop : op.WordSized)
    (htimes : ∀ now, op.time=some now → ∀ o∈history, o.now≤now) :
    Tracks (b.step op).policyView (history++b.observation op) := by
  have hsame {v : PolicyView} (hv : v=b.policyView) : Tracks v (history++[]) := by
    rw [hv,List.append_nil]
    exact h
  cases op with
  | readAt off len => exact hsame (b.readAt_policyView off len)
  | writeAt off data => exact hsame (b.writeAt_policyView off data)
  | writeAtWithOptions off data options => exact hsame (b.writeAtWithOptions_policyView off data options)
  | flush => exact hsame b.flush_policyView
  | setPhysicalCapBytes capBytes => exact hsame rfl
  | probeOrigin => exact hsame b.probeOrigin_policyView
  | releaseCache =>
    have hevicted := releaseLruTo_evicted h.fits 0
    show Tracks (b.releaseLruTo 0).2.policyView (history++[])
    rw [List.append_nil,hevicted.view_eq]
    refine ⟨?_,h.healthy_eq,h.restricted_eq,h.growth⟩
    exact (Nat.mul_le_mul_right _ (Finset.card_le_card hevicted.subset)).trans_lt h.fits
  | observeGpu sample now =>
    obtain ⟨calls,hlog,hobs⟩ := observeGpu_observed h.fits sample now
    have hobserved := h.observed hobs (physicalTargetBytes_lt hop _) (htimes now rfl)
    rw [observation,hlog,List.drop_left]
    exact hobserved

lemma forall_now_le (b : WriteThroughCacheBackend (Recorder P) O) {ops : List Op} {op : Op}
    (htimes : ((ops++[op]).filterMap Op.time).Pairwise (· ≤ ·)) {now : ℕ} (hnow : op.time=some now) :
    ∀ o∈b.observations ops, o.now≤now := by
  intro o ho
  rw [List.filterMap_append,List.pairwise_append] at htimes
  refine htimes.2.2 o.now ?_ now (by simp [hnow])
  rw [←b.observations_now]
  exact List.mem_map_of_mem ho

lemma run_tracks {b : WriteThroughCacheBackend (Recorder P) O} (h : Tracks b.policyView [])
    {ops : List Op} (hwords : ∀ op∈ops, op.WordSized) (htimes : (ops.filterMap Op.time).Pairwise (· ≤ ·)) :
    Tracks (run WriteThroughCacheBackend.step b ops).policyView (b.observations ops) := by
  induction ops using List.reverseRecOn with
  | nil => exact h
  | append_singleton ops op ih =>
    have hinit : (ops.filterMap Op.time).Pairwise (· ≤ ·) := by
      rw [List.filterMap_append,List.pairwise_append] at htimes
      exact htimes.1
    have hrun := ih (fun op hop => hwords op (List.mem_append_left _ hop)) hinit
    rw [observations_concat,run_append]
    exact hrun.step (hwords op (by simp)) fun now hnow => b.forall_now_le htimes hnow

/-- Over every run with times in order: a call takes at most one chunk, and only after two healthy
calls, two seconds after the last attempt and within the target; it gives chunks up only at every third
restricted call in a row, and then as few as the target asks for, those used longest ago. -/
theorem growth_policy {provider : P} {origin : O} {size block chunkBytes : ℕ}
    {b : WriteThroughCacheBackend (Recorder P) O}
    (h : withChunkBytes ⟨provider,[]⟩ origin size block chunkBytes = .ok b) (ops : List Op)
    (sample : Option GpuSample) (now : ℕ)
    (hwords : ∀ op ∈ ops++[Op.observeGpu sample now], op.WordSized)
    (htimes : ((ops++[Op.observeGpu sample now]).filterMap Op.time).Pairwise (· ≤ ·)) :
    ∃ calls,
      ((run WriteThroughCacheBackend.step b ops).observeGpu sample now).2.provider.log =
        (run WriteThroughCacheBackend.step b ops).provider.log++calls ∧
      Disciplined (b.observations ops)
        ⟨(run WriteThroughCacheBackend.step b ops).restricted sample,calls.any VramCall.isAlloc,now⟩
        (physicalTargetBytes (run WriteThroughCacheBackend.step b ops).physicalCapBytes sample) calls
        (run WriteThroughCacheBackend.step b ops)
        ((run WriteThroughCacheBackend.step b ops).observeGpu sample now).2 := by
  have hinit : (ops.filterMap Op.time).Pairwise (· ≤ ·) := by
    rw [List.filterMap_append,List.pairwise_append] at htimes
    exact htimes.1
  have htracks := run_tracks (withChunkBytes_tracks h)
    (fun op hop => hwords op (List.mem_append_left _ hop)) hinit
  obtain ⟨calls,hlog,hobs⟩ := observeGpu_observed htracks.fits sample now
  refine ⟨calls,hlog,htracks.disciplined hobs ?_ (b.forall_now_le htimes rfl)⟩
  exact physicalTargetBytes_lt (hwords (.observeGpu sample now) (by simp)) _

end

/-- Two healthy calls; the third one grows the cache. -/
def healthyOps : List Op := [.observeGpu (some ⟨4*gib,0,0⟩) 0,.observeGpu (some ⟨4*gib,0,0⟩) 1]

theorem growth_policy_healthyOps :
    ∃ b : WriteThroughCacheBackend (Recorder VramScript) OriginScript,
      withChunkBytes ⟨⟨[]⟩,[]⟩ ⟨fun _ => 0,fun _ => 0,[]⟩ 4 1 2 = .ok b ∧
      ((run WriteThroughCacheBackend.step b healthyOps).observeGpu (some ⟨4*gib,0,0⟩) 2).2.cachedBytes = 2 ∧
      ∃ calls, Disciplined (b.observations healthyOps)
        ⟨(run WriteThroughCacheBackend.step b healthyOps).restricted (some ⟨4*gib,0,0⟩),
          calls.any VramCall.isAlloc,2⟩
        (physicalTargetBytes (run WriteThroughCacheBackend.step b healthyOps).physicalCapBytes
          (some ⟨4*gib,0,0⟩)) calls (run WriteThroughCacheBackend.step b healthyOps)
        ((run WriteThroughCacheBackend.step b healthyOps).observeGpu (some ⟨4*gib,0,0⟩) 2).2 := by
  obtain ⟨b,hb,hcached⟩ : ∃ b : WriteThroughCacheBackend (Recorder VramScript) OriginScript,
      withChunkBytes ⟨⟨[]⟩,[]⟩ ⟨fun _ => 0,fun _ => 0,[]⟩ 4 1 2 = .ok b ∧
      ((run WriteThroughCacheBackend.step b healthyOps).observeGpu (some ⟨4*gib,0,0⟩) 2).2.cachedBytes = 2 :=
    ⟨_,rfl,by decide +kernel⟩
  have hwords : ∀ op ∈ healthyOps++[.observeGpu (some ⟨4*gib,0,0⟩) 2], op.WordSized := by
    simp [healthyOps,Op.WordSized,gib]
  obtain ⟨calls,-,hdisciplined⟩ :=
    growth_policy hb healthyOps (some ⟨4*gib,0,0⟩) 2 hwords (by decide)
  exact ⟨b,hb,hcached,calls,hdisciplined⟩

end WriteThroughCacheBackend
end RamShared.OriginCache

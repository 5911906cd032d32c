import RamShared.Elastic.Update

/-! The memory an elastic cache holds against its budget. The budget is checked against the chunks
in use, while a chunk given up after a failed or slow transfer keeps its memory. -/
namespace RamShared.Elastic
open Lib Block Isolated
open VramProvider (Mem)

section
variable {α : Type*} {p : α → Bool} {l : List α} {i : ℕ} {f : α → α}

lemma countP_modify {s : α} (h : l[i]?=some s) : (l.modify i f).countP p+(if p s then 1 else 0) =
      l.countP p+if p (f s) then 1 else 0 := by
  induction l generalizing i with
  | nil => simp at h
  | cons a l ih =>
    cases i with
    | zero =>
      obtain rfl : a=s := by simpa using h
      simp only [List.modify_zero_cons,List.countP_cons]
      omega
    | succ i =>
      have hl := ih (i := i) (by simpa using h)
      simp only [List.modify_succ_cons,List.countP_cons]
      omega

lemma countP_modify_of_eq (h : ∀ s, l[i]?=some s → p (f s) = p s) : (l.modify i f).countP p = l.countP p := by
  cases hs : l[i]? with
  | none => rw [List.modify_eq_set_getElem?,hs]; rfl
  | some s =>
    have hc := countP_modify (p := p) (f := f) hs
    rw [h s hs] at hc
    omega

lemma countP_modify_le (h : ∀ s, p (f s)=false) : (l.modify i f).countP p≤l.countP p := by
  cases hs : l[i]? with
  | none => rw [List.modify_eq_set_getElem?,hs]; rfl
  | some s =>
    have hc := countP_modify (p := p) (f := f) hs
    simp only [h s,Bool.false_eq_true,if_false] at hc
    omega

end

namespace ElasticVramCache
variable {P : Type} [VramProvider P] {config : ElasticCacheConfig} (c : ElasticVramCache P)

def held : ℕ := c.slots.countP fun s => s.mem.isSome

/-- The slots that hold memory and count as spilled. -/
def stranded : ℕ :=
  c.slots.countP fun s => s.mem.isSome && s.spilledToSsd

lemma held_eq : c.held = c.residentChunksCount+c.stranded := by
  unfold held residentChunksCount stranded
  induction c.slots with
  | nil => rfl
  | cons s slots ih =>
    simp only [List.countP_cons,ih]
    cases s.mem.isSome <;> cases s.spilledToSsd <;> simp <;> omega

inductive CacheOp
  | read (off len : ℕ)
  | update (off : ℕ) (data : List UInt8)
  | promote (off : ℕ) (data : List UInt8)
  | disable
  | tripWatchdog
  | resetWatchdog
  | evictColdestChunks (targetBytesToFree : ℕ)

def cacheStep : CacheOp → ElasticVramCache P
  | .read off len => (c.read off len).2.2
  | .update off data => (c.update off data).2
  | .promote off data => (c.promote off data).2
  | .disable => c.disable.2
  | .tripWatchdog => c.tripWatchdog
  | .resetWatchdog => c.resetWatchdog
  | .evictColdestChunks target => (c.evictColdestChunks target).2

/-- The memory held is within the budget, and all of it is accounted for unless the watchdog keeps
updates away. -/
structure Budgeted (config : ElasticCacheConfig) (c : ElasticVramCache P) : Prop where
  config_eq : c.config=config
  slots_fit : c.slots.length≤(2^64-1)/c.config.chunkBytes
  fits : c.held*c.config.chunkBytes ≤ c.config.maxVramBytes
  accounted : c.stranded=0 ∨ c.watchdogTripped=true

/-- What a change of slots keeps, so that the budget is kept with it. -/
structure Keeps (c c' : ElasticVramCache P) : Prop where
  config_eq : c'.config=c.config
  length_eq : c'.slots.length=c.slots.length
  held_le : c'.held ≤ c.held
  accounted : c'.watchdogTripped=true ∨
    c'.watchdogTripped=c.watchdogTripped ∧ c'.stranded ≤ c.stranded

variable {c c' : ElasticVramCache P} {index : ℕ} {s : ChunkSlot (Mem P)}

lemma Budgeted.keeps (h : Budgeted config c) (hk : Keeps c c') : Budgeted config c' := by
  refine ⟨hk.config_eq.trans h.config_eq,by rw [hk.length_eq,hk.config_eq]; exact h.slots_fit,?_,?_⟩
  · rw [hk.config_eq]
    exact (Nat.mul_le_mul_right _ hk.held_le).trans h.fits
  · obtain htripped | ⟨htripped,hstranded⟩ := hk.accounted
    · exact .inr htripped
    · rw [htripped]
      exact h.accounted.imp_left fun hzero => by omega

lemma Keeps.trans {c₁ c₂ c₃ : ElasticVramCache P} (h : Keeps c₁ c₂) (h' : Keeps c₂ c₃) : Keeps c₁ c₃ := by
  refine ⟨h'.config_eq.trans h.config_eq,h'.length_eq.trans h.length_eq,h'.held_le.trans h.held_le,?_⟩
  obtain hk | ⟨hk',hs'⟩ := h'.accounted
  · exact .inl hk
  · exact h.accounted.imp hk'.trans fun hk => ⟨hk'.trans hk.1,hs'.trans hk.2⟩

lemma Keeps.of_eq (hslots : c'.slots=c.slots) (hconfig : c'.config=c.config)
    (htripped : c'.watchdogTripped=c.watchdogTripped) : Keeps c c' :=
  ⟨hconfig,by rw [hslots],by rw [held,held,hslots],
    .inr ⟨htripped,by rw [stranded,stranded,hslots]⟩⟩

lemma Keeps.modifySlot (h : Keeps c c') {f : ChunkSlot (Mem P) → ChunkSlot (Mem P)}
    (hf : ∀ s, c'.slots[index]?=some s → (f s).mem.isSome=s.mem.isSome ∧
        ((f s).mem.isSome && (f s).spilledToSsd) = (s.mem.isSome && s.spilledToSsd)) :
    Keeps c (c'.modifySlot index f) := by
  refine h.trans ⟨rfl,List.length_modify ..,le_of_eq ?_,.inr ⟨rfl,le_of_eq ?_⟩⟩
  · exact countP_modify_of_eq fun s hs => (hf s hs).1
  · exact countP_modify_of_eq fun s hs => (hf s hs).2

lemma Keeps.giveUp (h : Keeps c c') (index : ℕ) : Keeps c (c'.giveUp index) :=
  h.trans ⟨rfl,List.length_modify ..,le_of_eq (countP_modify_of_eq fun _ _ => rfl),.inl rfl⟩

lemma keeps_readSlot (c : ElasticVramCache P) (index : ℕ) (mem : Mem P)
    (off len : ℕ) : Keeps c (c.readSlot index mem off len).2.2 := by
  unfold readSlot
  rcases VramProvider.readAt c.provider mem (off%c.config.chunkBytes) len with ⟨e | bytes,provider⟩
  · refine Keeps.giveUp ?_ index
    exact .of_eq rfl rfl rfl
  · dsimp only
    split_ifs
    · refine Keeps.giveUp ?_ index
      exact .of_eq rfl rfl rfl
    · refine Keeps.modifySlot ?_ fun s _ => ⟨rfl,rfl⟩
      exact .of_eq rfl rfl rfl

lemma keeps_read (c : ElasticVramCache P) (off len : ℕ) : Keeps c (c.read off len).2.2 := by
  unfold read
  split_ifs
  · exact .of_eq rfl rfl rfl
  · exact .of_eq rfl rfl rfl
  dsimp only
  split
  · exact .of_eq rfl rfl rfl
  · split
    · exact keeps_readSlot c _ _ off len
    · exact .of_eq rfl rfl rfl

lemma keeps_writeSlot (hslot : c.slots[index]?=some s) (hmem : s.mem.isSome)
    (mem : Mem P) (off : ℕ) (data : List UInt8) : Keeps c (c.writeSlot index mem off data).2 := by
  have hstore (provider : P) (mem' : Mem P) :
      Keeps c ((({c with provider := provider}).tick).modifySlot index fun s =>
        {s with mem := some mem'}) := by
    have hsame : Keeps c ({c with provider := provider}).tick := .of_eq rfl rfl rfl
    refine hsame.modifySlot fun s' hs' => ?_
    obtain rfl := Option.some.inj (hslot.symm.trans hs')
    simp [hmem]
  unfold writeSlot
  rcases VramProvider.writeAt c.provider mem (off%c.config.chunkBytes) data with
    ⟨e | ⟨⟩,mem',provider⟩
  · exact (hstore provider mem').giveUp index
  · dsimp only
    split_ifs
    · refine Keeps.giveUp ?_ index
      exact (hstore provider mem').trans (.of_eq rfl rfl rfl)
    · refine Keeps.modifySlot ?_ fun s _ => ⟨rfl,rfl⟩
      exact (hstore provider mem').trans (.of_eq rfl rfl rfl)

lemma Keeps.spillEmpty (h : Keeps c c') (hslot : c'.slots[index]?=some s) (hmem : s.mem=none) :
    Keeps c (c'.modifySlot index fun s => {s with spilledToSsd := true}) := by
  refine h.modifySlot fun s' hs' => ?_
  obtain rfl := Option.some.inj (hslot.symm.trans hs')
  simp [hmem]

lemma budgeted_allocated (h : Budgeted config c) (htripped : c.watchdogTripped=false)
    (hslot : c.slots[index]?=some s) (hspilled : s.spilledToSsd=false) (hmem : s.mem=none)
    (hroom : saturatingAdd 64 c.activeVramBytes c.config.chunkBytes ≤ c.config.maxVramBytes) (mem : Mem P) :
    Budgeted config (c.modifySlot index fun s => {s with mem := some mem}) := by
  have hstranded : c.stranded=0 := h.accounted.resolve_right (by simp [htripped])
  have hheld : (c.modifySlot index fun s => {s with mem := some mem}).held = c.held+1 := by
    simpa [hmem,held,modifySlot] using
      countP_modify (p := fun s : ChunkSlot (Mem P) => s.mem.isSome)
        (f := fun s => {s with mem := some mem}) hslot
  refine ⟨h.config_eq,?_,?_,.inl ?_⟩
  · simpa [modifySlot] using h.slots_fit
  · show _*c.config.chunkBytes ≤ c.config.maxVramBytes
    have hlt : c.held+1 ≤ c.slots.length := by
      rw [←hheld,held]
      exact List.countP_le_length.trans_eq (List.length_modify ..)
    have hlen := (Nat.mul_le_mul_right c.config.chunkBytes (hlt.trans h.slots_fit)).trans
      (Nat.div_mul_le_self _ _)
    have hactive : c.activeVramBytes = min (c.held*c.config.chunkBytes) (2^64-1) := by
      rw [activeVramBytes,held_eq,hstranded,Nat.add_zero]
    rw [hactive,saturatingAdd] at hroom
    rw [hheld]
    rw [Nat.add_mul,Nat.one_mul] at hlen ⊢
    omega
  · rw [←hstranded]
    refine countP_modify_of_eq fun s' hs' => ?_
    obtain rfl := Option.some.inj (hslot.symm.trans hs')
    simp [hspilled]

lemma budgeted_update (h : Budgeted config c) (off : ℕ) (data : List UInt8) :
    Budgeted config (c.update off data).2 := by
  unfold update
  split_ifs with hst hg
  · exact h
  · exact h
  push Not at hst
  dsimp only
  split
  · exact h
  rename_i s hslot
  split_ifs with hspilled
  · exact h
  rw [Bool.not_eq_true] at hspilled
  split
  · rename_i mem hmem
    exact h.keeps (keeps_writeSlot hslot (by simp [hmem]) mem off data)
  rename_i hmem
  unfold allocateSlot
  split_ifs with hroom
  · exact h.keeps ((Keeps.of_eq rfl rfl rfl).spillEmpty hslot hmem)
  rcases VramProvider.alloc c.provider c.config.chunkBytes with ⟨e | mem,provider⟩
  · refine h.keeps (Keeps.spillEmpty ?_ hslot hmem)
    exact .of_eq rfl rfl rfl
  · dsimp only
    rcases VramProvider.zero provider mem with ⟨_,mem',provider'⟩
    have hall := budgeted_allocated (c := {c with provider := provider'})
      (h.keeps (.of_eq rfl rfl rfl)) (by simpa using hst.2) hslot hspilled hmem (not_lt.mp hroom) mem'
    refine hall.keeps (keeps_writeSlot (s := {s with mem := some mem'}) ?_ rfl _ off data)
    simp [modifySlot,hslot]

lemma filterMap_indices_sublist {α : Type*} {g : α × ℕ → Option (ℕ × ℕ)}
    (hg : ∀ x y, g x=some y → y.1=x.2) (l : List (α × ℕ)) :
    ((l.filterMap g).map Prod.fst).Sublist (l.map Prod.snd) := by
  induction l with
  | nil => exact .slnil
  | cons x l ih =>
    cases h : g x with
    | none => simpa [h] using ih.cons x.2
    | some y => simpa [h,hg x y h] using ih.cons_cons x.2

lemma eligible_spec (c : ElasticVramCache P) :
    c.eligible.length=c.residentChunksCount ∧ (c.eligible.map Prod.fst).Nodup ∧
      ∀ e∈c.eligible, ∃ s, c.slots[e.1]?=some s ∧ s.mem.isSome ∧ s.spilledToSsd=false := by
  have hperm : c.eligible.Perm (c.slots.zipIdx.filterMap fun x =>
      if x.1.mem.isSome && !x.1.spilledToSsd then some (x.2,x.1.lastAccessed) else none) :=
    List.perm_insertionSort ..
  refine ⟨?_,?_,fun e he => ?_⟩
  · rw [hperm.length_eq,List.length_filterMap_eq_countP,residentChunksCount]
    conv_rhs => rw [←List.zipIdx_map_fst 0 c.slots,List.countP_map]
    refine List.countP_congr fun x _ => ?_
    dsimp only [Function.comp_apply]
    split_ifs with h <;> simp [h]
  · rw [(hperm.map Prod.fst).nodup_iff]
    refine (filterMap_indices_sublist (fun x y h => ?_) _).nodup ?_
    · split_ifs at h
      obtain rfl := Option.some.inj h
      rfl
    · rw [List.zipIdx_map_snd]
      exact List.nodup_range'
  · obtain ⟨⟨s,i⟩,hmem,h⟩ := List.mem_filterMap.mp (hperm.mem_iff.mp he)
    dsimp only at h
    split_ifs at h with hs
    obtain rfl := Option.some.inj h
    rw [List.mk_mem_zipIdx_iff_getElem?] at hmem
    exact ⟨s,hmem,by simpa using hs⟩

lemma keeps_spill (c : ElasticVramCache P) (index : ℕ) : Keeps c (c.spill index) :=
  ⟨rfl,List.length_modify ..,countP_modify_le fun _ => rfl,.inr ⟨rfl,countP_modify_le fun _ => rfl⟩⟩

lemma held_spill (hslot : c.slots[index]?=some s) (hmem : s.mem.isSome) : (c.spill index).held+1=c.held := by
  simpa [hmem,held,spill,modifySlot] using
    countP_modify (p := fun s : ChunkSlot (Mem P) => s.mem.isSome)
      (f := fun s => {s with mem := none, spilledToSsd := true}) hslot

lemma stranded_spill (hslot : c.slots[index]?=some s) (hspilled : s.spilledToSsd=false) :
    (c.spill index).stranded=c.stranded := by
  refine countP_modify_of_eq fun s' hs' => ?_
  obtain rfl := Option.some.inj (hslot.symm.trans hs')
  simp [hspilled]

/-- The loop goes on until it has freed the target, so with `j` chunks freed before it frees as many
as are missing, or all that are left. -/
lemma evictLoop_held (target : ℕ) {eligible : List (ℕ × ℕ)} (hnodup : (eligible.map Prod.fst).Nodup)
    {j freed : ℕ} (evicted : ℕ)
    (helig : ∀ e∈eligible, ∃ s, c.slots[e.1]?=some s ∧ s.mem.isSome ∧ s.spilledToSsd=false)
    (hpos : 0<c.config.chunkBytes) (hfreed : freed≤j*c.config.chunkBytes) :
    Keeps c (evictLoop target eligible freed evicted c).2 ∧
      (evictLoop target eligible freed evicted c).2.stranded=c.stranded ∧
      (evictLoop target eligible freed evicted c).2.held +
        min eligible.length (divCeil target c.config.chunkBytes-j) ≤ c.held := by
  induction eligible generalizing j freed evicted c with
  | nil => exact ⟨.of_eq rfl rfl rfl,rfl,by simp [evictLoop]⟩
  | cons e rest ih =>
    rw [evictLoop]
    split_ifs with hdone
    · refine ⟨.of_eq rfl rfl rfl,rfl,?_⟩
      have hj : divCeil target c.config.chunkBytes≤j := by
        by_contra hlt
        have := mul_lt_of_lt_divCeil hpos (not_le.mp hlt)
        omega
      simp [Nat.sub_eq_zero_of_le hj]
    · obtain ⟨s,hslot,hmem,hspilled⟩ := helig e (by simp)
      rw [List.map_cons,List.nodup_cons] at hnodup
      have hheld := held_spill hslot hmem
      have hrest : ∀ e'∈rest, ∃ s, (c.spill e.1).slots[e'.1]?=some s ∧ s.mem.isSome ∧
          s.spilledToSsd=false := by
        intro e' he'
        obtain ⟨s',hs',hm'⟩ := helig e' (by simp [he'])
        have hne : e.1≠e'.1 := fun heq => hnodup.1 (heq ▸ List.mem_map_of_mem he')
        exact ⟨s',by simpa [spill,modifySlot,hne] using hs',hm'⟩
      have hfreed' : saturatingAdd 64 freed c.config.chunkBytes≤(j+1)*c.config.chunkBytes := by
        rw [Nat.add_mul,Nat.one_mul]
        exact (min_le_left _ _).trans (Nat.add_le_add_right hfreed _)
      obtain ⟨hkeeps,hstranded,hloop⟩ := ih hnodup.2 (saturatingAdd 64 evicted 1) hrest hpos hfreed'
      refine ⟨(keeps_spill c e.1).trans hkeeps,hstranded.trans (stranded_spill hslot hspilled),?_⟩
      rw [List.length_cons]
      change _+min rest.length (divCeil target c.config.chunkBytes-(j+1))≤_ at hloop
      omega

lemma evictColdestChunks_held (h : Budgeted config c) (target : ℕ) : Keeps c (c.evictColdestChunks target).2 ∧
      (c.evictColdestChunks target).2.stranded=c.stranded ∧
      (c.evictColdestChunks target).2.held +
        min c.residentChunksCount (divCeil target c.config.chunkBytes) ≤ c.held := by
  unfold evictColdestChunks
  obtain ⟨hlen,hnodup,helig⟩ := c.eligible_spec
  split_ifs with hnone
  · refine ⟨.of_eq rfl rfl rfl,rfl,?_⟩
    obtain hzero | rfl := hnone
    · have hlen₀ : c.slots.length=0 := by simpa [hzero] using h.slots_fit
      simp [residentChunksCount,List.eq_nil_of_length_eq_zero hlen₀]
    · simp [divCeil]
  · push Not at hnone
    have hloop := evictLoop_held target hnodup 0 helig (Nat.pos_of_ne_zero hnone.1)
      (Nat.zero_le (0*_))
    rwa [hlen,Nat.sub_zero] at hloop

lemma budgeted_disable (h : Budgeted config c) : Budgeted config c.disable.2 := by
  have hheld : c.disable.2.held=0 := by simp [disable,held,List.countP_eq_zero]
  have hstranded : c.disable.2.stranded=0 := by simp [disable,stranded,List.countP_eq_zero]
  refine ⟨h.config_eq,by simpa [disable] using h.slots_fit,?_,.inl hstranded⟩
  rw [hheld,Nat.zero_mul]
  exact Nat.zero_le _

lemma budgeted_new (provider : P) (config : ElasticCacheConfig) (clock : List ℕ) :
    Budgeted config (new provider config clock) := by
  have hheld : (new provider config clock).held=0 := by
    simp [new,held,newSlots,List.countP_replicate]
  refine ⟨rfl,?_,by rw [hheld,Nat.zero_mul]; exact Nat.zero_le _,.inl ?_⟩
  · simp only [new,newSlots,List.length_replicate]
    exact Nat.div_le_div_right (min_le_right _ _)
  · simp [new,stranded,newSlots,List.countP_replicate]

/-- The eviction leaves at most what it was not asked to release exactly if no memory is stranded or
the chunks in use are enough. -/
lemma evictColdestChunks_held_le_iff (h : Budgeted config c) (target : ℕ) :
    (c.evictColdestChunks target).2.held ≤ c.held-divCeil target c.config.chunkBytes ↔
      c.stranded=0 ∨ divCeil target c.config.chunkBytes ≤ c.residentChunksCount := by
  obtain ⟨-,hstranded,hevict⟩ := evictColdestChunks_held h target
  have hbefore := c.held_eq
  have hafter := (c.evictColdestChunks target).2.held_eq
  omega

/-- No memory is stranded when the watchdog is reset. -/
def Accounted (c : ElasticVramCache P) : CacheOp → Prop
  | .resetWatchdog => c.stranded=0
  | _ => True

lemma budgeted_step (c : ElasticVramCache P) (op : CacheOp) (h : Budgeted config c)
    (hop : c.Accounted op) : Budgeted config (c.cacheStep op) := by
  cases op with
  | read off len => exact h.keeps (keeps_read c off len)
  | update off data => exact budgeted_update h off data
  | promote off data =>
    simp only [cacheStep,promote]
    split_ifs
    · exact h
    · exact budgeted_update h off data
  | disable => exact budgeted_disable h
  | tripWatchdog => exact ⟨h.config_eq,h.slots_fit,h.fits,.inr rfl⟩
  | resetWatchdog => exact ⟨h.config_eq,h.slots_fit,h.fits,.inl hop⟩
  | evictColdestChunks target => exact h.keeps (evictColdestChunks_held h target).1

/-- In a run whose resets all find no stranded memory, every state is within the budget, and an
eviction leaves at most what it was not asked to release exactly if no memory is stranded then or
the chunks in use are enough. -/
theorem vram_budget (provider : P) (config : ElasticCacheConfig) (clock : List ℕ)
    (ops : List CacheOp) (h : AllSteps cacheStep Accounted (new provider config clock) ops) :
    let c := run cacheStep (new provider config clock) ops
    c.held*config.chunkBytes ≤ config.maxVramBytes ∧
      ∀ target, (c.evictColdestChunks target).2.held ≤ c.held-divCeil target config.chunkBytes ↔
        c.stranded = 0 ∨ divCeil target config.chunkBytes ≤ c.residentChunksCount := by
  have hc := h.invariant cacheStep (P := Budgeted config) budgeted_step
    (budgeted_new provider config clock)
  have hfits := hc.fits
  rw [hc.config_eq] at hfits
  refine ⟨hfits,fun target => ?_⟩
  have hiff := evictColdestChunks_held_le_iff hc target
  rwa [hc.config_eq] at hiff

/-- Two chunks of 4 bytes, and a budget for one of them. -/
def tightConfig : ElasticCacheConfig := ⟨4,8,4,50⟩

/-- A device that fails the first transfer after it has allocated and zeroed a region. -/
def failsFirstWrite : VramScript := ⟨[{},{},{ok := false}]⟩

theorem vram_budget_tightConfig :
    let c := run cacheStep (new failsFirstWrite tightConfig [])
      [.update 0 [1],.update 4 [1],.evictColdestChunks 0]
    c.held = 1 ∧ c.held*tightConfig.chunkBytes ≤ tightConfig.maxVramBytes :=
  ⟨by decide,(vram_budget failsFirstWrite tightConfig [] [.update 0 [1],.update 4 [1],
    .evictColdestChunks 0] ⟨trivial,trivial,trivial,trivial⟩).1⟩

/-- The chunk whose transfer failed keeps its memory and is no longer counted, so that after a reset
another is allocated over the budget, and an eviction of both leaves one. -/
theorem stranded_over_budget :
    let c := run cacheStep (new failsFirstWrite tightConfig [])
      [.update 0 [1],.resetWatchdog,.update 4 [1]]
    tightConfig.maxVramBytes < c.held*tightConfig.chunkBytes ∧
      c.held-divCeil 8 tightConfig.chunkBytes < (c.evictColdestChunks 8).2.held := by
  decide

end ElasticVramCache
end RamShared.Elastic

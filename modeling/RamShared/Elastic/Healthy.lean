import RamShared.Elastic.Update

/-! An elastic cache on a device and an origin without faults. A request is sent to the chunk of its
first byte as a whole, so it is lost when it does not fit there. -/
namespace RamShared.Elastic
open Lib Block Isolated

/-- Provider states from which no allocation and no transfer inside a region ever fails. -/
structure HealthyVram {P : Type} [VramProvider P] (Ok : P → Prop) : Prop where
  alloc : ∀ p n, Ok p →
    (∃ m, (VramProvider.alloc p n).1=.ok m) ∧ Ok (VramProvider.alloc p n).2
  zero : ∀ p m, Ok p → Ok (VramProvider.zero p m).2.2
  readAt : ∀ p m off n, Ok p →
    (off+n≤VramProvider.len m → ∃ bytes, (VramProvider.readAt p m off n).1=.ok bytes) ∧
      Ok (VramProvider.readAt p m off n).2
  writeAt : ∀ p m off data, Ok p →
    (off+data.length≤VramProvider.len m → (VramProvider.writeAt p m off data).1=.ok ()) ∧
      Ok (VramProvider.writeAt p m off data).2.2

/-- Origin states from which no read and no write below `size` ever fails. -/
structure HealthyOrigin {O : Type} [OriginStorage O] (size : ℕ) (Ok : O → Prop) : Prop where
  readExactAt : ∀ o off len, Ok o → off+len ≤ size →
    (∃ buf, (readExactAt o off len).1=.ok buf ∧ buf.length=len) ∧
      Ok (readExactAt o off len).2
  writeAllAt : ∀ o off data, Ok o → off+data.length ≤ size →
    (writeAllAt o off data).1=.ok () ∧ Ok (writeAllAt o off data).2

namespace ElasticVramCache
variable {P : Type} [VramProvider P] {Ok : P → Prop} {config : ElasticCacheConfig}
variable (c : ElasticVramCache P)

def elapsed : ℕ := c.tick.now-c.now

/-- An update that starts at `off` writes into a region, which it may have to allocate. -/
def Transfers (off : ℕ) : Prop :=
  ∃ s, c.slots[off/c.config.chunkBytes]?=some s ∧ s.spilledToSsd=false ∧
    (s.mem=none → saturatingAdd 64 c.activeVramBytes c.config.chunkBytes ≤ c.config.maxVramBytes)

/-- There is a slot for the request, and the request stays inside the chunk if it is written there. -/
def Fits (off len : ℕ) : Prop :=
  0<c.config.chunkBytes ∧ off/c.config.chunkBytes<c.slots.length ∧
    (c.Transfers off → off%c.config.chunkBytes+len ≤ c.config.chunkBytes)

variable {c : ElasticVramCache P} {off : ℕ}
variable {s : ChunkSlot (VramProvider.Mem P)}

lemma fits_iff_of_slot (hpos : 0<c.config.chunkBytes)
    (hslot : c.slots[off/c.config.chunkBytes]?=some s) (len : ℕ) :
    c.Fits off len ↔ (s.spilledToSsd=false → (s.mem=none →
      saturatingAdd 64 c.activeVramBytes c.config.chunkBytes ≤ c.config.maxVramBytes) →
        off%c.config.chunkBytes+len ≤ c.config.chunkBytes) := by
  refine ⟨fun h hspilled hroom => h.2.2 ⟨s,hslot,hspilled,hroom⟩,
    fun h => ⟨hpos,(List.getElem?_eq_some_iff.mp hslot).1,?_⟩⟩
  rintro ⟨s',hs',hspilled,hroom⟩
  obtain rfl := Option.some.inj (hslot.symm.trans hs')
  exact h hspilled hroom

/-- A cache in service over a healthy device. -/
structure InService (Ok : P → Prop) (config : ElasticCacheConfig) (c : ElasticVramCache P) :
    Prop where
  provider_ok : Ok c.provider
  config_eq : c.config=config
  wellFormed : c.WellFormed
  active : c.state=.active
  untripped : c.watchdogTripped=false

variable [LawfulVram P]

variable (hv : HealthyVram Ok)
include hv

variable (h : InService Ok config c)
include h

lemma writeSlot_healthy {mem : VramProvider.Mem P}
    (hh : c.Holds (off/c.config.chunkBytes) mem) (data : List UInt8) (hprompt : c.elapsed ≤ c.config.dmaTimeout) :
    (off%c.config.chunkBytes+data.length ≤ c.config.chunkBytes →
      (c.writeSlot (off/c.config.chunkBytes) mem off data).1=.accepted ∧
        InService Ok config (c.writeSlot (off/c.config.chunkBytes) mem off data).2) ∧
    (¬off%c.config.chunkBytes+data.length ≤ c.config.chunkBytes →
      (c.writeSlot (off/c.config.chunkBytes) mem off data).1=.failed) := by
  have hlen : VramProvider.len mem=c.config.chunkBytes := by
    obtain ⟨s,hs,-,hm⟩ := hh.slot
    exact h.wellFormed.len_eq _ s mem hs hm
  obtain ⟨hok,hstill⟩ := hv.writeAt c.provider mem (off%c.config.chunkBytes) data h.provider_ok
  have hlaw := LawfulVram.writeAt_ok c.provider mem (off%c.config.chunkBytes) data
  have hwf := (writeSlot_spec h.wellFormed h.active 0 off data hh).1
  rw [hlen] at hok hlaw
  unfold writeSlot at hwf ⊢
  generalize VramProvider.writeAt c.provider mem (off%c.config.chunkBytes) data=x
    at hok hstill hlaw hwf ⊢
  obtain ⟨e | ⟨⟩,mem',provider⟩ := x
  · exact ⟨fun hfit => absurd (hok hfit) (by simp),fun _ => rfl⟩
  · dsimp only at hwf ⊢
    rw [if_neg (by exact not_lt.mpr hprompt)] at hwf ⊢
    exact ⟨fun _ => ⟨rfl,hstill,h.config_eq,hwf,h.active,h.untripped⟩,
      fun hfit => absurd (hlaw rfl).1 hfit⟩

lemma allocateSlot_healthy {index : ℕ} (hslot : c.slots[index]?=some s) (hspilled : s.spilledToSsd=false)
    (hpos : 0<c.config.chunkBytes) :
    InService Ok config (c.allocateSlot index).2 ∧ (c.allocateSlot index).2.clock=c.clock ∧
    (saturatingAdd 64 c.activeVramBytes c.config.chunkBytes ≤ c.config.maxVramBytes →
      ∃ mem, (c.allocateSlot index).1=some mem ∧ (c.allocateSlot index).2.Holds index mem) ∧
    (¬saturatingAdd 64 c.activeVramBytes c.config.chunkBytes ≤ c.config.maxVramBytes →
      (c.allocateSlot index).1=none) := by
  obtain ⟨hwf,hactive,hconfig,-,hholds⟩ :=
    allocateSlot_spec h.wellFormed h.active 0 hslot hspilled hpos
  obtain ⟨⟨mem,hmem⟩,hstill⟩ := hv.alloc c.provider c.config.chunkBytes h.provider_ok
  unfold allocateSlot at hwf hactive hconfig hholds ⊢
  split_ifs at hwf hactive hconfig hholds ⊢ with hroom
  · exact ⟨⟨h.provider_ok,h.config_eq,hwf,h.active,h.untripped⟩,rfl,
      fun hroom' => absurd hroom (not_lt.mpr hroom'),fun _ => rfl⟩
  generalize VramProvider.alloc c.provider c.config.chunkBytes=x
    at hmem hstill hwf hactive hconfig hholds ⊢
  obtain ⟨_,provider⟩ := x
  obtain rfl := hmem
  dsimp only at hstill hwf hactive hconfig hholds ⊢
  have hzero := hv.zero provider mem hstill
  generalize VramProvider.zero provider mem = y at hzero hwf hactive hconfig hholds ⊢
  obtain ⟨_,mem',provider'⟩ := y
  exact ⟨⟨hzero,h.config_eq,hwf,h.active,h.untripped⟩,rfl,fun _ => ⟨mem',rfl,(hholds mem' rfl).1⟩,
    fun hfull => absurd (not_lt.mp hroom) hfull⟩

lemma updateAbsent_healthy
    (hslot : c.slots[off/c.config.chunkBytes]?=some s) (hspilled : s.spilledToSsd=false)
    (hpos : 0<c.config.chunkBytes) (data : List UInt8)
    (hprompt : c.Transfers off → c.elapsed ≤ c.config.dmaTimeout) :
    let room := saturatingAdd 64 c.activeVramBytes c.config.chunkBytes ≤ c.config.maxVramBytes
    let fit := off%c.config.chunkBytes+data.length ≤ c.config.chunkBytes
    let out := match c.allocateSlot (off/c.config.chunkBytes) with
      | (none,c') => (CacheMutation.skipped,c')
      | (some mem,c') => c'.writeSlot (off/c.config.chunkBytes) mem off data
    ((room → fit) → out.1≠.failed ∧ InService Ok config out.2) ∧
      (room → ¬fit → out.1=.failed) := by
  intro room fit out
  obtain ⟨hservice,hclock,hroom,hfull⟩ := allocateSlot_healthy hv h hslot hspilled hpos
  by_cases hr : room
  · obtain ⟨mem,halloc,hholds⟩ := hroom hr
    dsimp only [out]
    generalize c.allocateSlot (off/c.config.chunkBytes) = x at hservice hclock halloc hholds ⊢
    obtain ⟨_,c'⟩ := x
    obtain rfl := halloc
    dsimp only at hservice hclock hholds ⊢
    have hconfig : c'.config=c.config := hservice.config_eq.trans h.config_eq.symm
    have helapsed : c'.elapsed=c.elapsed := by simp only [elapsed,now,tick,hclock]
    rw [←hconfig] at hholds
    have hwrite := writeSlot_healthy hv hservice hholds data
      (by rw [helapsed,hconfig]; exact hprompt ⟨s,hslot,hspilled,fun _ => hr⟩)
    rw [hconfig] at hwrite
    refine ⟨fun hfit => ?_,fun _ => hwrite.2⟩
    obtain ⟨haccepted,hservice'⟩ := hwrite.1 (hfit hr)
    exact ⟨by rw [haccepted]; simp,hservice'⟩
  · have hnone := hfull hr
    dsimp only [out]
    generalize c.allocateSlot (off/c.config.chunkBytes) = x at hservice hnone ⊢
    obtain ⟨_,c'⟩ := x
    obtain rfl := hnone
    exact ⟨fun _ => ⟨by simp,hservice⟩,fun hr' => absurd hr' hr⟩

lemma update_healthy (hoff : off<c.config.logicalCapacity) (data : List UInt8)
    (hprompt : c.Transfers off → c.elapsed ≤ c.config.dmaTimeout) :
    (c.Fits off data.length → (c.update off data).1≠.failed ∧
      InService Ok config (c.update off data).2) ∧
    (¬c.Fits off data.length → (c.update off data).1=.failed) := by
  unfold update
  rw [if_neg (by simp [h.active,h.untripped])]
  split_ifs with hg
  · refine ⟨fun hfit => ?_,fun _ => rfl⟩
    exact absurd hg (by rw [not_or]; exact ⟨hfit.1.ne',not_le.mpr hoff⟩)
  have hpos : 0<c.config.chunkBytes := Nat.pos_of_ne_zero fun hzero => hg (.inl hzero)
  dsimp only
  cases hslot : c.slots[off/c.config.chunkBytes]? with
  | none =>
    refine ⟨fun hfit => ?_,fun _ => rfl⟩
    exact absurd hfit.2.1 (not_lt.mpr (List.getElem?_eq_none_iff.mp hslot))
  | some s =>
    have hiff := fits_iff_of_slot hpos hslot data.length
    dsimp only
    cases hspilled : s.spilledToSsd with
    | true =>
      refine ⟨fun _ => ⟨by simp,h⟩,fun hn => absurd (hiff.mpr fun hs => ?_) hn⟩
      simp [hspilled] at hs
    | false =>
      rw [if_neg (by simp)]
      cases hmem : s.mem with
      | some mem =>
        have ht : c.Transfers off := ⟨s,hslot,hspilled,by simp [hmem]⟩
        obtain ⟨hok,hbad⟩ := writeSlot_healthy hv h ⟨⟨s,hslot,hspilled,hmem⟩,hpos⟩ data (hprompt ht)
        refine ⟨fun hfit => ?_,fun hn => hbad fun hfit => hn ⟨hpos,?_,fun _ => hfit⟩⟩
        · obtain ⟨haccepted,hservice⟩ := hok (hfit.2.2 ht)
          exact ⟨by rw [haccepted]; simp,hservice⟩
        · exact (List.getElem?_eq_some_iff.mp hslot).1
      | none =>
        obtain ⟨hok,hbad⟩ := updateAbsent_healthy hv h hslot hspilled hpos data hprompt
        refine ⟨fun hfit => hok fun hr => hiff.mp hfit hspilled fun _ => hr,fun hn => ?_⟩
        by_contra hres
        exact hn (hiff.mpr fun _ hroom => not_not.mp fun hfit => hres (hbad (hroom hmem) hfit))

/-- A read that fits hits or leaves the cache alone; one that does not fit fails, trips the watchdog,
or leaves the cache alone. -/
lemma read_healthy (hoff : off<c.config.logicalCapacity) (len : ℕ)
    (hprompt : c.Transfers off → c.elapsed ≤ c.config.dmaTimeout) :
    (c.Fits off len → ((c.read off len).1=.hit ∧ InService Ok config (c.read off len).2.2) ∨
      ((c.read off len).1=.miss ∧ (c.read off len).2.2=c)) ∧
    (¬c.Fits off len → (c.read off len).1=.failed ∨ (c.read off len).1=.miss ∧
      ((c.read off len).2.2.watchdogTripped=true ∨ (c.read off len).2.2=c)) := by
  have hwf := (read_spec h.wellFormed 0 off len).1
  unfold read at hwf ⊢
  rw [if_neg (by simp [h.active,h.untripped])] at hwf ⊢
  split_ifs at hwf ⊢ with hg
  · refine ⟨fun hfit => ?_,fun _ => .inl rfl⟩
    exact absurd hg (by rw [not_or]; exact ⟨hfit.1.ne',not_le.mpr hoff⟩)
  have hpos : 0<c.config.chunkBytes := Nat.pos_of_ne_zero fun hzero => hg (.inl hzero)
  dsimp only at hwf ⊢
  cases hslot : c.slots[off/c.config.chunkBytes]? with
  | none =>
    refine ⟨fun hfit => ?_,fun _ => .inl rfl⟩
    exact absurd hfit.2.1 (not_lt.mpr (List.getElem?_eq_none_iff.mp hslot))
  | some s =>
    rw [hslot] at hwf
    dsimp only at hwf ⊢
    cases hspilled : s.spilledToSsd with
    | true => exact ⟨fun _ => .inr ⟨rfl,rfl⟩,fun _ => .inr ⟨rfl,.inr rfl⟩⟩
    | false =>
      cases hmem : s.mem with
      | none => exact ⟨fun _ => .inr ⟨rfl,rfl⟩,fun _ => .inr ⟨rfl,.inr rfl⟩⟩
      | some mem =>
        rw [hspilled,hmem] at hwf
        dsimp only at hwf ⊢
        have ht : c.Transfers off := ⟨s,hslot,hspilled,by simp [hmem]⟩
        have hlen : VramProvider.len mem=c.config.chunkBytes := h.wellFormed.len_eq _ s mem hslot hmem
        obtain ⟨hok,hstill⟩ := hv.readAt c.provider mem (off%c.config.chunkBytes) len h.provider_ok
        have hlaw := LawfulVram.readAt_ok c.provider mem (off%c.config.chunkBytes) len
        rw [hlen] at hok hlaw
        unfold readSlot at hwf ⊢
        generalize VramProvider.readAt c.provider mem (off%c.config.chunkBytes) len=x
          at hok hstill hlaw hwf ⊢
        obtain ⟨e | bytes,provider⟩ := x
        · refine ⟨fun hfit => ?_,fun _ => .inr ⟨rfl,.inl rfl⟩⟩
          obtain ⟨_,hbytes⟩ := hok (hfit.2.2 ht)
          cases hbytes
        · have hslow := not_lt.mpr (hprompt ht)
          dsimp only at hwf ⊢
          rw [if_neg (by exact hslow)] at hwf ⊢
          refine ⟨fun _ => .inl ⟨rfl,hstill,h.config_eq,hwf,h.active,h.untripped⟩,fun hn => ?_⟩
          exact absurd ⟨hpos,(List.getElem?_eq_some_iff.mp hslot).1,fun _ => (hlaw bytes rfl).1⟩ hn

end ElasticVramCache

section
variable {O P : Type} [VramProvider P] {OkV : P → Prop} {OkO : O → Prop}
  {config : ElasticCacheConfig} {size : ℕ}
open AuthoritativeOriginBackend ElasticVramCache

variable (b : AuthoritativeOriginBackend O (ElasticVramCache P))

/-- The cache is active, its watchdog has not tripped, and none of its operations has failed so far. -/
def Lively : Prop :=
  b.cacheState=.active ∧ b.cache.watchdogTripped=false ∧ b.telemetry.cacheReadFailures=0 ∧
    b.telemetry.cacheWriteFailures=0 ∧ b.telemetry.promotionRefusals=0

/-- A request within the device and the capacity of the cache, whose transfer is in time. -/
def InTime (off len : ℕ) : Prop :=
  off+len ≤ min b.size b.cache.config.logicalCapacity ∧
    (len≠0 → b.cache.Transfers off → b.cache.elapsed≤b.cache.config.dmaTimeout)

def Served : Op → Prop
  | .readAt off len => InTime b off len
  | .writeAt off data => InTime b off data.length
  | _ => False

/-- A request that is not empty fits into the slot it is sent to. -/
def RequestFits : Op → Prop
  | .readAt off len => len≠0 → b.cache.Fits off len
  | .writeAt off data => data≠[] → b.cache.Fits off data.length
  | _ => True

/-- A backend in service over a healthy device and a healthy origin. -/
structure Steady (OkV : P → Prop) (OkO : O → Prop) (config : ElasticCacheConfig) (size : ℕ)
    (b : AuthoritativeOriginBackend O (ElasticVramCache P)) : Prop where
  cache : InService OkV config b.cache
  origin_ok : OkO b.origin
  size_eq : b.size=size
  ready : b.originState=.ready
  unfailed : b.telemetry.cacheReadFailures=0 ∧ b.telemetry.cacheWriteFailures=0 ∧
    b.telemetry.promotionRefusals=0

variable {b : AuthoritativeOriginBackend O (ElasticVramCache P)} {off : ℕ}

lemma Steady.lively (h : Steady OkV OkO config size b) : Lively b :=
  ⟨h.cache.active,h.cache.untripped,h.unfailed⟩

lemma not_lively_revokeCache (b : AuthoritativeOriginBackend O (ElasticVramCache P)) :
    ¬Lively b.revokeCache.2 := by
  rintro ⟨h,-⟩
  cases h

lemma not_lively_promote (h : b.cache.state≠.active ∨ b.cache.watchdogTripped=true) (off : ℕ)
    (data : List UInt8) : ¬Lively (b.promote off data) := by
  have hp : BestEffortCache.promote b.cache off data = (.skipped,b.cache) := if_pos h
  rw [AuthoritativeOriginBackend.promote,hp]
  rintro ⟨hactive,huntripped,-⟩
  obtain hs | ht := h
  · exact hs hactive
  · have hf : b.cache.watchdogTripped=false := huntripped
    simp [ht] at hf

lemma checkRange_eq_ok {len : ℕ} (hsize : b.size<2^64) (h : off+len≤b.size) : b.checkRange off len=.ok () := by
  have hadd : checkedAdd 64 off len=some (off+len) := checkedAdd_eq_some.mpr ⟨by omega,rfl⟩
  rw [checkRange,hadd,Option.filter_some,if_pos (by simpa using h)]


section
variable [OriginStorage O]

lemma readFromOrigin_eq (ho : HealthyOrigin size OkO)
    {b : AuthoritativeOriginBackend O (ElasticVramCache P)} (hok : OkO b.origin) {off len : ℕ}
    (hrange : off+len ≤ size) : ∃ buf origin, buf.length=len ∧ OkO origin ∧
      (b.readFromOrigin off len).2 = ({ b with
        origin := origin
        telemetry := { b.telemetry with
          fallbackReads := bump b.telemetry.fallbackReads}}).promote off buf := by
  obtain ⟨⟨buf,hbuf,hlen⟩,hstill⟩ := ho.readExactAt b.origin off len hok hrange
  rw [readFromOrigin]
  generalize readExactAt b.origin off len = x at hbuf hstill ⊢
  obtain ⟨_,origin⟩ := x
  obtain rfl := hbuf
  exact ⟨buf,origin,hlen,hstill,rfl⟩

end

variable [LawfulVram P]

section
variable (hv : HealthyVram OkV) (h : Steady OkV OkO config size b)
  (hoff : off<b.cache.config.logicalCapacity) (data : List UInt8)
  (hprompt : b.cache.Transfers off → b.cache.elapsed≤b.cache.config.dmaTimeout)
include hv h hoff hprompt

lemma steady_of_update {b' : AuthoritativeOriginBackend O (ElasticVramCache P)}
    (hcases : ((b.cache.update off data).1=.failed ∧
        ∃ d : AuthoritativeOriginBackend O (ElasticVramCache P), b'=d.revokeCache.2) ∨
      (b.cache.update off data).1≠.failed ∧
        b' = {b with cache := (b.cache.update off data).2}) :
    (b.cache.Fits off data.length → Steady OkV OkO config size b') ∧
    (¬b.cache.Fits off data.length → ¬Lively b') := by
  obtain ⟨hok,hbad⟩ := update_healthy hv h.cache hoff data hprompt
  obtain ⟨hfailed,d,rfl⟩ | ⟨hkept,rfl⟩ := hcases
  · exact ⟨fun hfit => absurd hfailed (hok hfit).1,fun _ => not_lively_revokeCache d⟩
  · refine ⟨fun hfit => ?_,fun hn => absurd (hbad hn) hkept⟩
    exact ⟨(hok hfit).2,h.origin_ok,h.size_eq,h.ready,h.unfailed⟩

lemma updateCache_steady :
    (b.cache.Fits off data.length → Steady OkV OkO config size (b.updateCache off data)) ∧
    (¬b.cache.Fits off data.length → ¬Lively (b.updateCache off data)) := by
  refine steady_of_update hv h hoff data hprompt ?_
  rw [AuthoritativeOriginBackend.updateCache,
    show BestEffortCache.update b.cache off data = b.cache.update off data from rfl]
  rcases b.cache.update off data with ⟨_ | _ | _,cache⟩
  · exact .inr ⟨by simp,rfl⟩
  · exact .inr ⟨by simp,rfl⟩
  · exact .inl ⟨rfl,_,rfl⟩

lemma promote_steady : (b.cache.Fits off data.length → Steady OkV OkO config size (b.promote off data)) ∧
    (¬b.cache.Fits off data.length → ¬Lively (b.promote off data)) := by
  have hp : BestEffortCache.promote b.cache off data = b.cache.update off data :=
    if_neg (by simp [h.cache.active,h.cache.untripped])
  refine steady_of_update hv h hoff data hprompt ?_
  rw [AuthoritativeOriginBackend.promote,hp]
  rcases b.cache.update off data with ⟨_ | _ | _,cache⟩
  · exact .inr ⟨by simp,rfl⟩
  · exact .inr ⟨by simp,rfl⟩
  · exact .inl ⟨rfl,_,rfl⟩

end

variable [OriginStorage O]

lemma readAt_steady (hv : HealthyVram OkV) (ho : HealthyOrigin size OkO) (hsize : size<2^64)
    (h : Steady OkV OkO config size b) {len : ℕ} (htime : InTime b off len) :
    (RequestFits b (.readAt off len) → Steady OkV OkO config size (b.readAt off len).2) ∧
    (¬RequestFits b (.readAt off len) → ¬Lively (b.readAt off len).2) := by
  have hrange : off+len≤b.size := htime.1.trans (min_le_left _ _)
  have hready : b.requireReadyOrigin=.ok () := if_pos h.ready
  rw [readAt,checkRange_eq_ok (h.size_eq ▸ hsize) hrange,hready]
  split_ifs with hlen
  · exact ⟨fun _ => h,fun hn => absurd (fun hne => absurd hlen hne) hn⟩
  have hoff : off<b.cache.config.logicalCapacity := by
    have := htime.1.trans (min_le_right _ _)
    omega
  have hprompt := htime.2 hlen
  rw [h.size_eq] at hrange
  have hsteady (origin : O) (telemetry : CacheTelemetry) (hok : OkO origin)
      (ht : telemetry = {b.telemetry with fallbackReads := bump b.telemetry.fallbackReads}) :
      Steady OkV OkO config size {b with origin := origin, telemetry := telemetry} :=
    ⟨h.cache,hok,h.size_eq,h.ready,by rw [ht]; exact h.unfailed⟩
  obtain ⟨hok,hbad⟩ := read_healthy hv h.cache hoff len hprompt
  rw [show BestEffortCache.read b.cache off len = b.cache.read off len from rfl]
  generalize b.cache.read off len = x at hok hbad ⊢
  obtain ⟨r,_,cache⟩ := x
  refine ⟨fun hfit => ?_,fun hn => ?_⟩
  · obtain ⟨hr,hservice⟩ | ⟨hr,hc⟩ := hok (hfit hlen)
    · obtain rfl : r=.hit := hr
      exact ⟨hservice,h.origin_ok,h.size_eq,h.ready,h.unfailed⟩
    · obtain rfl : r=.miss := hr
      obtain rfl : cache=b.cache := hc
      obtain ⟨buf,origin,hbuf,hstill,heq⟩ := readFromOrigin_eq (b := {b with cache := b.cache}) ho
        h.origin_ok hrange
      rw [heq]
      exact (promote_steady hv (hsteady origin _ hstill rfl) hoff buf hprompt).1 (hbuf ▸ hfit hlen)
  · have hunfit : ¬b.cache.Fits off len := fun hf => hn fun _ => hf
    obtain hr | ⟨hr,hc⟩ := hbad hunfit
    · obtain rfl : r=.failed := hr
      obtain ⟨buf,origin,-,-,heq⟩ := readFromOrigin_eq ho (b := ({ b with
        cache := cache
        telemetry := { b.telemetry with
          cacheReadFailures := bump b.telemetry.cacheReadFailures}}).revokeCache.2)
        h.origin_ok hrange
      rw [heq]
      exact not_lively_promote (.inl fun hs => by cases hs) off buf
    · obtain rfl : r=.miss := hr
      obtain ⟨buf,origin,hbuf,hstill,heq⟩ := readFromOrigin_eq (b := {b with cache := cache}) ho
        h.origin_ok hrange
      dsimp only at hc heq ⊢
      rw [heq]
      obtain htripped | rfl := hc
      · exact not_lively_promote (.inr htripped) off buf
      · exact (promote_steady hv (hsteady origin _ hstill rfl) hoff buf hprompt).2 (hbuf ▸ hunfit)

lemma writeAt_steady (hv : HealthyVram OkV) (ho : HealthyOrigin size OkO) (hsize : size<2^64)
    (h : Steady OkV OkO config size b) {data : List UInt8} (htime : InTime b off data.length) :
    (RequestFits b (.writeAt off data) → Steady OkV OkO config size (b.writeAt off data).2) ∧
    (¬RequestFits b (.writeAt off data) → ¬Lively (b.writeAt off data).2) := by
  have hrange : off+data.length≤b.size := htime.1.trans (min_le_left _ _)
  have hready : b.requireReadyOrigin=.ok () := if_pos h.ready
  rw [writeAt,checkRange_eq_ok (h.size_eq ▸ hsize) hrange,hready]
  split_ifs with hnil
  · exact ⟨fun _ => h,fun hn => absurd (fun hne => absurd hnil hne) hn⟩
  have hlen : data.length≠0 := by simpa using hnil
  have hoff : off<b.cache.config.logicalCapacity := by
    have := htime.1.trans (min_le_right _ _)
    omega
  obtain ⟨hok,hstill⟩ := ho.writeAllAt b.origin off data h.origin_ok (h.size_eq ▸ hrange)
  rw [writeOrigin]
  generalize writeAllAt b.origin off data = x at hok hstill ⊢
  obtain ⟨_,origin⟩ := x
  obtain rfl := hok
  dsimp only at hstill ⊢
  have hupdate := updateCache_steady hv (b := { b with
    origin := origin
    originDirty := true
    telemetry := { b.telemetry with
      originWrittenBytes := saturatingAdd 64 b.telemetry.originWrittenBytes data.length
      batchedWrites := bump b.telemetry.batchedWrites}})
    ⟨h.cache,hstill,h.size_eq,h.ready,h.unfailed⟩ hoff data (htime.2 hlen)
  exact ⟨fun hfit => hupdate.1 (hfit hnil),fun hn => hupdate.2 fun hf => hn fun _ => hf⟩

lemma step_steady (hv : HealthyVram OkV) (ho : HealthyOrigin size OkO) (hsize : size<2^64)
    (b : AuthoritativeOriginBackend O (ElasticVramCache P)) (op : Op)
    (h : Steady OkV OkO config size b) (hserved : Served b op) :
    (RequestFits b op → Steady OkV OkO config size (b.step op)) ∧
    (¬RequestFits b op → ¬Lively (b.step op)) := by
  cases op with
  | readAt off len => exact readAt_steady hv ho hsize h hserved
  | writeAt off data => exact writeAt_steady hv ho hsize h hserved
  | _ => exact hserved.elim

/-- On a healthy device and a healthy origin, over requests in range and in time, the cache stays
active, untripped and without a failed operation exactly as long as every request fits into the
slot it is sent to. -/
theorem healthy_keeps_cache (hv : HealthyVram OkV) (ho : HealthyOrigin size OkO)
    (provider : P) (hprovider : OkV provider) (config : ElasticCacheConfig) (clock : List ℕ)
    (origin : O) (horigin : OkO origin) (hsize : size < 2^64) (block : ℕ)
    {b : AuthoritativeOriginBackend O (ElasticVramCache P)}
    (hb : AuthoritativeOriginBackend.new origin (.new provider config clock) size block = .ok b)
    {ops : List Op} (hserved : AllSteps step Served b ops) :
    Lively b ∧
      (AllSteps step (fun b op => Lively (b.step op)) b ops ↔ AllSteps step RequestFits b ops) := by
  have hinit : Steady OkV OkO config size b := by
    unfold AuthoritativeOriginBackend.new at hb
    split_ifs at hb
    cases hb
    exact ⟨⟨hprovider,rfl,(new_spec provider config clock).1,rfl,rfl⟩,horigin,rfl,rfl,rfl,rfl,rfl⟩
  refine ⟨hinit.lively,?_⟩
  have hboth := AllSteps.iff_of_invariant step (P := Steady OkV OkO config size)
    (Q := fun b op => Served b op ∧ RequestFits b op)
    (R := fun b op => Served b op ∧ Lively (b.step op))
    (fun b op h hq => (step_steady hv ho hsize b op h hq.1).1 hq.2)
    (fun b op h => and_congr_right fun hs => ⟨fun hf => ((step_steady hv ho hsize b op h hs).1 hf).lively,
      fun hl => not_not.mp fun hn => (step_steady hv ho hsize b op h hs).2 hn hl⟩) hinit ops
  rw [AllSteps.and_iff,AllSteps.and_iff] at hboth
  exact ⟨fun hl => (hboth.mpr ⟨hserved,hl⟩).2,fun hf => (hboth.mp ⟨hserved,hf⟩).2⟩

end

lemma healthyVram_script : HealthyVram fun p : VramScript => p.replies = [] where
  alloc p n h := by
    simp only [VramProvider.alloc,VramScript.reply,VramScript.rest,h]
    exact ⟨⟨_,rfl⟩,rfl⟩
  zero p m h := by simp [VramProvider.zero,VramScript.reply,VramScript.rest,h]
  readAt p m off n h := by
    simp only [VramProvider.readAt,VramProvider.len,VramScript.reply,VramScript.rest,h]
    exact ⟨fun hfit => ⟨_,by rw [if_pos hfit]; rfl⟩,rfl⟩
  writeAt p m off data h := by
    simp only [VramProvider.writeAt,VramProvider.len,VramScript.reply,VramScript.rest,h]
    exact ⟨fun hfit => by simp [VramScript.writeRegion,hfit],rfl⟩

lemma healthyOrigin_script {size : ℕ} (hsize : size<2^64) :
    HealthyOrigin size fun o : OriginScript => o.replies = [] where
  readExactAt o off len h hrange := by
    cases len with
    | zero => exact ⟨⟨[],rfl,rfl⟩,h⟩
    | succ len =>
      have hadd : checkedAdd 64 off (len+1)=some (off+(len+1)) :=
        checkedAdd_eq_some.mpr ⟨by omega,rfl⟩
      simp [readExactAt,readExactLoop,OriginStorage.readAt,OriginScript.reply,OriginScript.rest,h,
        hadd]
  writeAllAt o off data h hrange := by
    cases data with
    | nil => exact ⟨rfl,h⟩
    | cons d ds =>
      have hadd : checkedAdd 64 off (ds.length+1)=some (off+(ds.length+1)) :=
        checkedAdd_eq_some.mpr ⟨by simpa using hrange.trans_lt hsize,rfl⟩
      simp [writeAllAt,writeAllLoop,OriginStorage.writeAt,OriginScript.reply,OriginScript.rest,h,
        hadd]

/-- Two chunks of 4 bytes over a device of 8 bytes, with room for both. -/
def healthyBackend : AuthoritativeOriginBackend OriginScript (ElasticVramCache VramScript) :=
  { origin := ⟨fun _ => 5,fun _ => 5,[]⟩
    cache := .new ⟨[]⟩ ⟨4,8,8,50⟩ []
    size := 8
    block := 4
    telemetry := {}
    originState := .ready
    originProbeSuccesses := 0
    originDirty := false}

section
open AuthoritativeOriginBackend

theorem healthy_keeps_cache_healthyBackend :
    AllSteps step (fun b op => Lively (b.step op)) healthyBackend
      [.writeAt 0 [1,2],.readAt 4 2,.readAt 0 4] := by
  refine ((healthy_keeps_cache (b := healthyBackend) healthyVram_script
    (healthyOrigin_script (show 8 < 2^64 by decide)) ⟨[]⟩ rfl ⟨4,8,8,50⟩ []
    ⟨fun _ => 5,fun _ => 5,[]⟩ rfl (by decide) 4 rfl ?_).2).mpr ?_
  · exact ⟨⟨by decide,fun _ _ => by decide⟩,⟨by decide,fun _ _ => by decide⟩,
      ⟨by decide,fun _ _ => by decide⟩,trivial⟩
  · exact ⟨fun _ => ⟨by decide,by decide,fun _ => by decide⟩,
      fun _ => ⟨by decide,by decide,fun _ => by decide⟩,
      fun _ => ⟨by decide,by decide,fun _ => by decide⟩,trivial⟩

/-- A write over the boundary of the two chunks, in range and in time, is refused by the region of
the first one: the update fails, the watchdog trips and the cache is revoked. -/
theorem straddling_write_loses_cache :
    AuthoritativeOriginBackend.new ⟨fun _ => 5,fun _ => 5,[]⟩
        (.new (⟨[]⟩ : VramScript) ⟨4,8,8,50⟩ []) 8 4 = .ok healthyBackend ∧
      AllSteps step Served healthyBackend [.writeAt 2 [1,2,3,4]] ∧
      (healthyBackend.step (.writeAt 2 [1,2,3,4])).cacheState = .unavailable ∧
      (healthyBackend.step (.writeAt 2 [1,2,3,4])).cache.watchdogTripped = true ∧
      (healthyBackend.step (.writeAt 2 [1,2,3,4])).telemetry.cacheWriteFailures = 1 :=
  ⟨rfl,⟨⟨by decide,fun _ _ => by decide⟩,trivial⟩,by decide,by decide,by decide⟩

end

end RamShared.Elastic

import RamShared.Elastic.Update
import RamShared.Isolated.Effects

/-! An authoritative backend over the elastic cache. A chunk is served whole as soon as it is
resident, although only a part of it may have been stored, and updates that are skipped leave
resident bytes behind; the conditions below name exactly these steps. -/
namespace RamShared.Elastic
open Lib Block Isolated LawfulOrigin

variable {img : Image UInt8}

namespace ElasticVramCache
variable {P : Type} [VramProvider P] [LawfulVram P]

/-- Whatever a newly allocated region holds besides the bytes of the accepted request agrees
with the image. -/
def FreshAgrees (size : ℕ) (img : Image UInt8) (c : ElasticVramCache P) (off : ℕ) (data : List UInt8) : Prop :=
  ∀ mem, c.Allocates off mem → (c.update off data).1=.accepted →
    ∀ a<size, a/c.config.chunkBytes = off/c.config.chunkBytes →
      a<off ∨ off+data.length≤a →
        LawfulVram.contents mem (a%c.config.chunkBytes) = img a

/-- A write whose update is skipped changes no byte of a resident chunk. -/
def SkipAgrees (size : ℕ) (img : Image UInt8) (c : ElasticVramCache P) (off : ℕ) (data : List UInt8) : Prop :=
  c.Skips off → ∀ a, off≤a → a<off+data.length → c.resident size a≠none →
    img.store off data a = img a

/-- The region of an accepted update agrees with the image where it holds the request, and
everywhere else in its chunk as it did before or because it is fresh. -/
lemma stored_agrees {c : ElasticVramCache P} {size off : ℕ}
    {data : List UInt8} (hd : data = img.load off data.length)
    (hc : CoherentOutside img (c.resident size) off (off+data.length))
    {mem : VramProvider.Mem P} (hpos : 0<c.config.chunkBytes) (hm : c.Holds (off/c.config.chunkBytes) mem ∨
      ∀ a<size, a/c.config.chunkBytes = off/c.config.chunkBytes →
        a<off ∨ off+data.length≤a → LawfulVram.contents mem (a%c.config.chunkBytes) = img a)
    (hfit : off%c.config.chunkBytes+data.length ≤ c.config.chunkBytes) {a : ℕ}
    (hsize : a<size) (hi : off/c.config.chunkBytes = a/c.config.chunkBytes) :
    (LawfulVram.contents mem).store (off%c.config.chunkBytes) data (a%c.config.chunkBytes) = img a := by
  have hrel := relative_mem_iff data.length hi
  by_cases hin : off≤a ∧ a<off+data.length
  · have hlt : a<off+firstCount c.config.chunkBytes off data.length := by
      unfold firstCount
      omega
    rw [(div_of_mem_firstPiece hpos hin.1 hlt).2,hd,Image.store_load_apply _ _ (by omega),
      Nat.add_sub_cancel' hin.1]
  · have hout := hin
    rw [←hrel] at hin
    rw [Image.store_outside _ _ (by omega)]
    rcases hm with hh | hal
    · exact hc a _ (hh.resident_eq hsize hi.symm) (by omega)
    · exact hal a hsize hi.symm (by omega)

lemma update_coherent {c : ElasticVramCache P} (h : c.WellFormed)
    {size off : ℕ} {data : List UInt8} (hd : data = img.load off data.length)
    (hc : CoherentOutside img (c.resident size) off (off+data.length))
    (hfresh : c.FreshAgrees size img off data)
    (hskip : c.Skips off → Coherent img (c.resident size)) : (c.update off data).2.WellFormed ∧
      ((c.update off data).1=.failed ∨ Coherent img ((c.update off data).2.resident size)) := by
  by_cases hs : c.state=.active
  · obtain ⟨hwf,hcases⟩ := update_cases h hs size off data
    refine ⟨hwf,?_⟩
    have hacc := hfresh
    unfold FreshAgrees at hacc
    generalize c.update off data = x at hcases hacc ⊢
    rcases x with ⟨r,c'⟩
    dsimp only at hcases hacc ⊢
    cases hcases with
    | failed => exact .inl rfl
    | skipped hsk hf => exact .inr ((hskip hsk).forget hf)
    | accepted mem hpos hm hfit hb =>
      refine .inr fun a v hv => ?_
      rcases hb a v hv with ⟨hne,hr⟩ | ⟨hi,rfl⟩
      · -- The request lies inside its chunk, so a byte of another chunk is outside of it.
        refine hc a v hr ?_
        by_contra hin
        push Not at hin
        have hlt : a<off+firstCount c.config.chunkBytes off data.length := by
          unfold firstCount
          omega
        exact hne (div_of_mem_firstPiece hpos hin.1 hlt).1.symm
      · exact stored_agrees hd hc hpos (hm.imp_right fun hal => hacc mem hal rfl) hfit
          (lt_of_resident hv) hi
  · have hu : c.update off data = (.skipped,c) := if_pos (.inl hs)
    rw [hu]
    refine ⟨h,.inr fun a v hv => ?_⟩
    rw [resident_of_revoked h hs] at hv
    cases hv

end ElasticVramCache

/-- What can happen to the backend and, beside it, to its cache. -/
inductive SystemOp
  | backend (op : AuthoritativeOriginBackend.Op)
  | tripWatchdog
  | resetWatchdog
  | evictColdestChunks (targetBytesToFree : ℕ)

section
variable {O P : Type} [VramProvider P] [OriginStorage O]

def systemStep (b : AuthoritativeOriginBackend O (ElasticVramCache P)) :
    SystemOp → AuthoritativeOriginBackend O (ElasticVramCache P)
  | .backend op => b.step op
  | .tripWatchdog => {b with cache := b.cache.tripWatchdog}
  | .resetWatchdog => {b with cache := b.cache.resetWatchdog}
  | .evictColdestChunks target => {b with cache := (b.cache.evictColdestChunks target).2}

/-- The origin takes the write, and the sync if one is forced. -/
def OriginTakes (b : AuthoritativeOriginBackend O (ElasticVramCache P)) (off : ℕ)
    (data : List UInt8) (fua : Bool) : Prop :=
  (b.writeOrigin off data).1=.ok () ∧
    (fua=true → (b.writeOrigin off data).2.syncDirtyOrigin.1=.ok ())

variable [LawfulVram P] [LawfulOrigin O]
open ElasticVramCache

variable (b : AuthoritativeOriginBackend O (ElasticVramCache P))

/-- A write the origin takes: a new chunk must agree with the written image, and a skipped
update must not concern resident bytes. -/
def SafeWrite (off : ℕ) (data : List UInt8) (fua : Bool) : Prop :=
  b.checkRange off data.length=.ok () → b.originState=.ready → data≠[] →
    OriginTakes b off data fua →
      b.cache.FreshAgrees b.size ((volatile b.origin).store off data) off data ∧
      b.cache.SkipAgrees b.size (volatile b.origin) off data

/-- A read the origin answers: a chunk allocated for the promotion must agree with the image. -/
def SafeRead (off len : ℕ) : Prop :=
  b.checkRange off len=.ok () → b.originState=.ready → len≠0 →
    (∃ buf, (readExactAt b.origin off len).1=.ok buf) →
      b.cache.FreshAgrees b.size (volatile b.origin) off ((volatile b.origin).load off len)

def SafeStep : SystemOp → Prop
  | .backend (.readAt off len) => SafeRead b off len
  | .backend (.writeAt off data) => SafeWrite b off data false
  | .backend (.writeAtWithOptions off data options) => SafeWrite b off data options.fua
  | _ => True

/-- Resident bytes agree with the origin on a device of the given size. -/
structure Faithful (size : ℕ) (b : AuthoritativeOriginBackend O (ElasticVramCache P)) :
    Prop where
  size_eq : b.size=size
  wellFormed : b.cache.WellFormed
  coherent : Coherent (volatile b.origin) (b.cache.resident size)

variable {size off : ℕ} {b : AuthoritativeOriginBackend O (ElasticVramCache P)} {data : List UInt8}
variable {c : ElasticVramCache P}

lemma disable_faithful (hs : b.size=size) (hc : b.cache = (BestEffortCache.disable c).2) : Faithful size b := by
  obtain ⟨hwf,hr⟩ := disable_spec c
  change b.cache = c.disable.2 at hc
  refine ⟨hs,hc ▸ hwf,fun a v ha => ?_⟩
  rw [hc,hr] at ha
  cases ha

lemma promote_faithful (hwf : c.WellFormed)
    (hc : Coherent img (c.resident size)) (hd : data = img.load off data.length)
    (hfresh : c.FreshAgrees size img off data) (hok : (BestEffortCache.promote c off data).1≠.failed) :
    (BestEffortCache.promote c off data).2.WellFormed ∧
      Coherent img ((BestEffortCache.promote c off data).2.resident size) := by
  obtain ⟨hwf',hres⟩ := update_coherent hwf hd (hc.outside _ _) hfresh fun _ => hc
  by_cases hs : c.state≠.active ∨ c.watchdogTripped=true
  · rw [show BestEffortCache.promote c off data = (.skipped,c) from if_pos hs]
    exact ⟨hwf,hc⟩
  · have hp : BestEffortCache.promote c off data = c.update off data := if_neg hs
    rw [hp] at hok ⊢
    exact ⟨hwf',hres.resolve_left hok⟩

/-- What a read leaves of the cache, and what revoking it leaves, may take the promotion of the
bytes read. -/
lemma promotable {len : ℕ} (h : Faithful size b)
    (hfresh : b.cache.FreshAgrees size (volatile b.origin) off ((volatile b.origin).load off len))
    (hfrom : c = (BestEffortCache.read b.cache off len).2.2 ∨
      c = (BestEffortCache.disable (BestEffortCache.read b.cache off len).2.2).2) :
    c.WellFormed ∧ Coherent (volatile b.origin) (c.resident size) ∧
      c.FreshAgrees size (volatile b.origin) off ((volatile b.origin).load off len) := by
  obtain ⟨hwf,hf,-⟩ := read_spec h.wellFormed size off len
  rcases hfrom with rfl | rfl
  · refine ⟨hwf,h.coherent.forget hf,fun mem hm => ?_⟩
    have hc : (BestEffortCache.read b.cache off len).2.2=b.cache := read_eq_of_allocates hm
    rw [hc] at hm ⊢
    exact hfresh mem hm
  · have hdis := disable_spec (b.cache.read off len).2.2
    refine ⟨hdis.1,fun a v ha => ?_,fun mem hm => absurd hm (not_allocates_disable _ off mem)⟩
    have := (hdis.2 size a).symm.trans ha
    cases this

lemma update_faithful (h : Faithful size b)
    (hfresh : b.cache.FreshAgrees b.size ((volatile b.origin).store off data) off data)
    (hskip : b.cache.SkipAgrees b.size (volatile b.origin) off data)
    (hok : (BestEffortCache.update b.cache off data).1≠.failed) :
    (BestEffortCache.update b.cache off data).2.WellFormed ∧
      Coherent ((volatile b.origin).store off data)
        ((BestEffortCache.update b.cache off data).2.resident size) := by
  rw [h.size_eq] at hfresh hskip
  have hd : data = ((volatile b.origin).store off data).load off data.length := by
    rw [Image.load_store_self]
  obtain ⟨hwf,hres⟩ := update_coherent h.wellFormed hd
    (h.coherent.of_change fun a ha => Image.store_outside _ _ ha) hfresh fun hs a v ha => by
    by_cases hin : off≤a ∧ a<off+data.length
    · rw [hskip hs a hin.1 hin.2 (by rw [ha]; simp)]
      exact h.coherent a v ha
    · rw [Image.store_outside _ _ (by omega)]
      exact h.coherent a v ha
  exact ⟨hwf,hres.resolve_left hok⟩

lemma effect_faithful {b' : AuthoritativeOriginBackend O (ElasticVramCache P)}
    {op : AuthoritativeOriginBackend.Op} (h : Faithful size b) (hsafe : SafeStep b (.backend op))
    (he : b.Effect op b') : Faithful size b' := by
  cases he with
  | kept hm hc =>
    exact ⟨hm.size.trans h.size_eq,hc ▸ h.wellFormed,by rw [hm.image,hc]; exact h.coherent⟩
  | revoked hcalls hc hs => exact disable_faithful (hs.trans h.size_eq) hc
  | hit hm hc =>
    obtain ⟨hwf,hf,-⟩ := read_spec h.wellFormed size _ _
    exact ⟨hm.size.trans h.size_eq,hc ▸ hwf,by rw [hm.image,hc]; exact h.coherent.forget hf⟩
  | promoted ha hfrom hok hm haccepted hc =>
    have hfresh := hsafe ha.range ha.ready ha.pos ⟨_,hok⟩
    rw [h.size_eq] at hfresh
    obtain ⟨hwf,hcoh,hfresh⟩ := promotable h hfresh hfrom
    obtain rfl := readExactAt_ok hok
    obtain ⟨hwf',hcoh'⟩ :=
      promote_faithful hwf hcoh (by rw [Image.length_load]) hfresh haccepted
    exact ⟨hm.size.trans h.size_eq,hc ▸ hwf',by rw [hm.image,hc]; exact hcoh'⟩
  | @updated _ _ off data fua hop ha hwrite hsync hm haccepted hc =>
    have hsafe : SafeWrite b off data fua := by
      cases op <;> cases hop <;> exact hsafe
    obtain ⟨hfresh,hskip⟩ := hsafe ha.range ha.ready (by simpa using ha.pos) ⟨hwrite,hsync⟩
    obtain ⟨hwf,hcoh⟩ := update_faithful h hfresh hskip haccepted
    exact ⟨hm.size.trans h.size_eq,hc ▸ hwf,by rw [hm.image,hc]; exact hcoh⟩

lemma systemStep_faithful (b : AuthoritativeOriginBackend O (ElasticVramCache P)) (op : SystemOp)
    (h : Faithful size b) (hsafe : SafeStep b op) : Faithful size (systemStep b op) := by
  cases op with
  | backend op => exact effect_faithful h hsafe (b.step_effect op)
  | tripWatchdog => exact ⟨h.size_eq,⟨h.wellFormed.len_eq,h.wellFormed.revoked⟩,h.coherent⟩
  | resetWatchdog => exact ⟨h.size_eq,⟨h.wellFormed.len_eq,h.wellFormed.revoked⟩,h.coherent⟩
  | evictColdestChunks target =>
    obtain ⟨hwf,hf⟩ := evictColdestChunks_spec h.wellFormed size target
    exact ⟨h.size_eq,hwf,h.coherent.forget hf⟩

/-- In every run whose steps are all safe, every hit is exact in every state reached. -/
theorem elastic_hit_exact (provider : P) (config : ElasticCacheConfig) (clock : List ℕ)
    (origin : O) (size block : ℕ) {b : AuthoritativeOriginBackend O (ElasticVramCache P)}
    (hb : AuthoritativeOriginBackend.new origin (new provider config clock) size block = .ok b)
    {ops : List SystemOp} (hsafe : AllSteps systemStep SafeStep b ops) (off len : ℕ)
    (hrange : (run systemStep b ops).checkRange off len = .ok ())
    (hhit : (BestEffortCache.read (run systemStep b ops).cache off len).1 = .hit) :
    (BestEffortCache.read (run systemStep b ops).cache off len).2.1 =
      (volatile (run systemStep b ops).origin).load off len := by
  have hinit : Faithful size b := by
    unfold AuthoritativeOriginBackend.new at hb
    split_ifs at hb
    cases hb
    obtain ⟨hwf,hr⟩ := new_spec provider config clock
    refine ⟨rfl,hwf,fun a v ha => ?_⟩
    have := (hr size a).symm.trans ha
    cases this
  have h := hsafe.invariant systemStep systemStep_faithful hinit
  refine (read_spec h.wellFormed size off len).2.2 hhit ?_ _ h.coherent
  exact h.size_eq ▸ AuthoritativeOriginBackend.le_size_of_checkRange hrange

end

/-- A device of two bytes, both 5, with the given chunk size and none of it resident. -/
def filledBackend (chunk : ℕ) :
    AuthoritativeOriginBackend OriginScript (ElasticVramCache VramScript) :=
  { origin := ⟨fun _ => 5,fun _ => 5,[]⟩
    cache := .new ⟨[]⟩ ⟨chunk,2,2,1⟩ []
    size := 2
    block := 1
    telemetry := {}
    originState := .ready
    originProbeSuccesses := 0
    originDirty := false}

theorem elastic_hit_exact_byteChunks :
    (BestEffortCache.read (run systemStep (filledBackend 1) [.backend (.readAt 0 1)]).cache
      0 1).2.1 =
      (volatile (run systemStep (filledBackend 1) [.backend (.readAt 0 1)]).origin).load 0 1 := by
  have hb : AuthoritativeOriginBackend.new (⟨fun _ => 5,fun _ => 5,[]⟩ : OriginScript)
    (.new (⟨[]⟩ : VramScript) ⟨1,2,2,1⟩ []) 2 1 = .ok (filledBackend 1) := rfl
  -- A chunk of one byte has no byte outside of the request that allocates it.
  have hsafe : AllSteps systemStep SafeStep (filledBackend 1) [.backend (.readAt 0 1)] := by
    refine ⟨fun _ _ _ _ _ _ _ a _ hi ho => ?_,trivial⟩
    rw [Image.length_load] at ho
    have hz : a/1 = 0/1 := hi
    omega
  exact elastic_hit_exact _ _ _ _ _ _ hb hsafe 0 1 (by decide) (by decide)

/-- A first read allocates the only chunk and stores one byte; a read of the other byte then hits
the zero that the allocation left there. -/
theorem elastic_hit_stale :
    AuthoritativeOriginBackend.new (⟨fun _ => 5,fun _ => 5,[]⟩ : OriginScript)
      (.new (⟨[]⟩ : VramScript) ⟨2,2,2,1⟩ []) 2 1 = .ok (filledBackend 2) ∧
    (run systemStep (filledBackend 2) [.backend (.readAt 0 1)]).checkRange 1 1 = .ok () ∧
    (BestEffortCache.read (run systemStep (filledBackend 2)
      [.backend (.readAt 0 1)]).cache 1 1).1 = .hit ∧
    (BestEffortCache.read (run systemStep (filledBackend 2)
      [.backend (.readAt 0 1)]).cache 1 1).2.1 = [0] ∧
    (volatile (run systemStep (filledBackend 2) [.backend (.readAt 0 1)]).origin).load 1 1 = [5] :=
  ⟨rfl,by decide,by decide,by decide,by decide⟩

end RamShared.Elastic

import RamShared.Isolated.Backend
import RamShared.OriginCache.Authority

/-! The authoritative backend without its cache. In both backends a failure of the origin stays, and
what is acknowledged is durable. -/
namespace RamShared.Isolated
open Lib Block

namespace AuthoritativeOriginBackend
variable {O C : Type} (b : AuthoritativeOriginBackend O C)

def latch : OriginLatch := ⟨b.originState,b.originProbeSuccesses⟩

def originLog (b : AuthoritativeOriginBackend (OriginRecorder O) C) : List OriginCall := b.origin.log

def status : OriginStatus O :=
  ⟨b.origin,b.originState,b.originDirty⟩

def authority : Authority O := ⟨b.origin,b.latch,b.originDirty⟩

lemma authority_origin : b.authority.origin=b.origin := rfl

variable [BestEffortCache C]

lemma updateCache_authority (b : AuthoritativeOriginBackend O C) (off : ℕ) (data : List UInt8) :
    (b.updateCache off data).authority=b.authority := by
  unfold updateCache
  split <;> rfl

lemma promote_authority (b : AuthoritativeOriginBackend O C) (off : ℕ) (data : List UInt8) :
    (b.promote off data).authority=b.authority := by
  unfold promote
  split <;> rfl

lemma releaseCache_authority (b : AuthoritativeOriginBackend O C) : b.releaseCache.2.authority=b.authority := by
  unfold releaseCache revokeCache
  dsimp only
  cases (BestEffortCache.disable b.cache).1 <;> rfl

variable [OriginStorage O]

instance : OriginBacked (AuthoritativeOriginBackend O C) O where
  status := status
  flush := flush
  writeAtWithOptions := writeAtWithOptions

def probe (b : AuthoritativeOriginBackend O C) : Op → Option Bool
  | .probeOrigin => some b.probeOrigin.1.isOk
  | _ => none

lemma refuses_of_not_ready {b : AuthoritativeOriginBackend O C} (h : b.originState≠.ready) : Refuses b := by
  have hrequire : b.requireReadyOrigin =
      .error ⟨"origin authority is unavailable pending three read+sync probes"⟩ := if_neg h
  refine ⟨fun off len => guarded_refused hrequire,fun off data => guarded_refused hrequire,
    fun off data options => ?_,?_⟩
  · show ∃ e, b.writeAtWithOptions off data options=_
    unfold writeAtWithOptions
    split
    · exact guarded_refused hrequire
    · exact guarded_refused hrequire
  · show ∃ e, b.flush=_
    unfold flush
    rw [hrequire]
    exact ⟨_,rfl⟩

variable (b : AuthoritativeOriginBackend O C) (off len : ℕ) (data : List UInt8)

lemma readFromOrigin_authority : (b.readFromOrigin off len).2.authority = (b.authority.read off len).2 := by
  unfold readFromOrigin Authority.read
  rw [authority_origin]
  rcases readExactAt b.origin off len with ⟨e | buf,origin⟩
  · rfl
  · exact promote_authority _ off buf

lemma writeOrigin_authority : Prod.map id authority (b.writeOrigin off data) = b.authority.write off data := by
  unfold writeOrigin Authority.write
  rw [authority_origin]
  rcases writeAllAt b.origin off data with ⟨e | u,origin⟩ <;> rfl

lemma syncDirtyOrigin_authority : Prod.map id authority b.syncDirtyOrigin=b.authority.sync := by
  unfold syncDirtyOrigin Authority.sync
  rw [authority_origin]
  change Prod.map id authority (if _ then _ else _) = if !b.originDirty then _ else _
  split
  · rfl
  rcases OriginStorage.syncData b.origin with ⟨e | u,origin⟩ <;> rfl

lemma probeOrigin_authority : b.authority.probe b.block = (b.probeOrigin.1.isOk,b.probeOrigin.2.authority) := by
  unfold probeOrigin Authority.probe
  rw [authority_origin]
  rcases readExactAt b.origin 0 b.block with ⟨e | bytes,origin⟩
  · rfl
  dsimp only
  rcases OriginStorage.syncData origin with ⟨e | u,origin'⟩
  · rfl
  · unfold recordProbe OriginLatch.record authority latch
    dsimp only
    split_ifs <;> rfl

lemma readAt_serves : b.authority.Serves (b.readAt off len).2.authority := by
  refine guarded_rule (Q := fun x => b.authority.Serves (authority x.2)) (fun _ => .stay)
    (fun _ => .stay) fun _ hready _ => ?_
  have hread := Authority.Serves.read (a := b.authority) (ready_of_requireReadyOrigin hready) off len
  rcases BestEffortCache.read b.cache off len with ⟨_ | _ | _,buf,cache⟩
  · exact .stay
  · dsimp only
    rw [readFromOrigin_authority]
    exact hread
  · dsimp only
    rw [readFromOrigin_authority]
    exact hread

lemma writeAt_answers : Answers authority b (data=[]) (b.authority.write off data) (b.writeAt off data) := by
  refine guarded_answers ready_of_requireReadyOrigin ?_
  rw [←writeOrigin_authority]
  rcases b.writeOrigin off data with ⟨e | u,b'⟩
  · rfl
  · exact congrArg (Prod.mk (Except.ok ())) (updateCache_authority _ off data)

lemma forced_answers : Answers authority b (data=[]) (b.authority.force off data)
    (b.writeAtWithOptions off data ⟨true⟩) := by
  refine guarded_answers ready_of_requireReadyOrigin ?_
  unfold Authority.force
  rw [←writeOrigin_authority]
  rcases b.writeOrigin off data with ⟨e | u,b₁⟩
  · rfl
  change _=b₁.authority.sync
  rw [←syncDirtyOrigin_authority]
  dsimp only
  rcases b₁.syncDirtyOrigin with ⟨e | u,b₂⟩
  · rfl
  · exact congrArg (Prod.mk (Except.ok ())) (b₂.updateCache_authority off data)

lemma flush_answers : Answers authority b False b.authority.sync b.flush := by
  unfold flush
  cases hready : b.requireReadyOrigin with
  | error e => exact .refused e
  | ok u => exact .made (ready_of_requireReadyOrigin hready) b.syncDirtyOrigin_authority

lemma fronts : Fronts (step (O := O) (C := C)) authority probe where
  served b op hop := by
    cases op with
    | readAt off len => exact b.readAt_serves off len
    | writeAt off data => exact (b.writeAt_answers off data).serves fun h => .write h off data
    | writeAtWithOptions off data options =>
      obtain ⟨_ | _⟩ := options
      · exact (b.writeAt_answers off data).serves fun h => .write h off data
      · exact (b.forced_answers off data).serves fun h => .force h off data
    | flush => exact b.flush_answers.serves .sync
    | releaseCache =>
      rw [step,releaseCache_authority]
      exact .stay
    | probeOrigin => cases hop
  probed := by
    rintro b (_ | _ | _ | _ | _ | _) ok hop
    all_goals cases hop
    exact ⟨b.block,b.probeOrigin_authority⟩

end AuthoritativeOriginBackend

section
open OriginCache (WriteThroughCacheBackend)

/-- After an operation during which the origin failed, both backends refuse every request and leave
the origin alone until three probes in a row were good, whatever happens in between; and the third of
them makes the origin ready again. -/
theorem origin_failure_sticky :
    (∀ {P O : Type} [VramProvider P] [OriginStorage O]
      (b : WriteThroughCacheBackend P (OriginRecorder O)) (op : WriteThroughCacheBackend.Op)
      (ops : List WriteThroughCacheBackend.Op),
      OriginFails WriteThroughCacheBackend.step WriteThroughCacheBackend.originLog
        WriteThroughCacheBackend.probe b op →
      ¬[true,true,true] <:+: probes WriteThroughCacheBackend.step WriteThroughCacheBackend.probe
        (b.step op) ops →
      Refuses (run WriteThroughCacheBackend.step (b.step op) ops) ∧
      ([true,true,true] <:+ probes WriteThroughCacheBackend.step WriteThroughCacheBackend.probe
          (b.step op) (ops++[.probeOrigin]) →
        (run WriteThroughCacheBackend.step (b.step op) (ops++[.probeOrigin])).originState = .ready)) ∧
    (∀ {O C : Type} [OriginStorage O] [BestEffortCache C]
      (b : AuthoritativeOriginBackend (OriginRecorder O) C) (op : AuthoritativeOriginBackend.Op)
      (ops : List AuthoritativeOriginBackend.Op),
      OriginFails AuthoritativeOriginBackend.step AuthoritativeOriginBackend.originLog
        AuthoritativeOriginBackend.probe b op →
      ¬[true,true,true] <:+: probes AuthoritativeOriginBackend.step AuthoritativeOriginBackend.probe
        (b.step op) ops →
      Refuses (run AuthoritativeOriginBackend.step (b.step op) ops) ∧
      ([true,true,true] <:+ probes AuthoritativeOriginBackend.step AuthoritativeOriginBackend.probe
          (b.step op) (ops++[.probeOrigin]) →
        (run AuthoritativeOriginBackend.step (b.step op) (ops++[.probeOrigin])).originState =
          .ready)) := by
  refine ⟨fun b op ops hfails hfew => ?_,fun b op ops hfails hfew => ?_⟩
  · obtain ⟨hdown,hthird⟩ :=
      WriteThroughCacheBackend.fronts.latched.sticky WriteThroughCacheBackend.fronts.reports hfails hfew
    exact ⟨WriteThroughCacheBackend.refuses_of_not_ready hdown,hthird .probeOrigin _ rfl⟩
  · obtain ⟨hdown,hthird⟩ :=
      AuthoritativeOriginBackend.fronts.latched.sticky AuthoritativeOriginBackend.fronts.reports hfails hfew
    exact ⟨AuthoritativeOriginBackend.refuses_of_not_ready hdown,hthird .probeOrigin _ rfl⟩

/-- A small cache whose origin fails the first call. -/
def failingOnce : WriteThroughCacheBackend VramScript (OriginRecorder OriginScript) where
  provider := ⟨[]⟩
  origin := ⟨⟨fun _ => 0,fun _ => 0,[{ok := false}]⟩,[]⟩
  size := 4
  block := 1
  chunkBytes := 4
  chunks := [⟨none,1,0,List.replicate 4 false,0⟩]
  telemetry := {}
  targetBytes := 0
  physicalCapBytes := 4
  healthySamples := 0
  restrictedSamples := 0
  lastGrowthAt := none
  overTargetSince := none
  accessClock := 0
  originState := .ready
  originProbeSuccesses := 0
  originDirty := false
  cacheState := .off

theorem origin_failure_sticky_failingOnce :
    WriteThroughCacheBackend.withChunkBytes failingOnce.provider failingOnce.origin 4 1 4 =
      .ok failingOnce ∧
    Refuses (run WriteThroughCacheBackend.step (failingOnce.step (.readAt 0 1))
      [.probeOrigin,.probeOrigin]) ∧
    (run WriteThroughCacheBackend.step (failingOnce.step (.readAt 0 1))
      ([.probeOrigin,.probeOrigin]++[.probeOrigin])).originState = .ready := by
  obtain ⟨hrefuses,hready⟩ := origin_failure_sticky.1 failingOnce (.readAt 0 1)
    [.probeOrigin,.probeOrigin] (.inl (by decide +kernel)) (by decide +kernel)
  exact ⟨rfl,hrefuses,hready (by decide +kernel)⟩

end

open LawfulOrigin

lemma AuthoritativeOriginBackend.durableAcks_run {O C : Type} [BestEffortCache C] [OriginStorage O]
    [LawfulOrigin O] {origin : O} {cache : C} {size block : ℕ} {b : AuthoritativeOriginBackend O C}
    (hi : durable origin = volatile origin) (h : new origin cache size block=.ok b)
    (ops : List Op) : DurableAcks (run step b ops) := by
  refine .of_answers authority (fun _ => rfl) ?_ (flush_answers _) (forced_answers _)
  refine run_induction step (P := fun b => b.authority.status.Clean)
    (fun b op hb => fronts.clean hb op) ?_ ops
  unfold new at h
  split_ifs at h
  cases h
  exact fun _ _ => hi

section
variable {P O C : Type} [VramProvider P] [BestEffortCache C] [OriginStorage O] [LawfulOrigin O]

/-- Over an origin that starts synced, both backends acknowledge only durable writes, after
every run and whatever failed in it. -/
theorem acknowledged_writes_are_durable (origin : O) (hi : durable origin = volatile origin) :
    (∀ (provider : P) (size block chunkBytes : ℕ) b,
      OriginCache.WriteThroughCacheBackend.withChunkBytes provider origin size block chunkBytes =
        .ok b → ∀ ops, DurableAcks (run OriginCache.WriteThroughCacheBackend.step b ops)) ∧
    (∀ (cache : C) (size block : ℕ) b,
      AuthoritativeOriginBackend.new origin cache size block = .ok b →
        ∀ ops, DurableAcks (run AuthoritativeOriginBackend.step b ops)) :=
  ⟨fun _ _ _ _ _ h ops => OriginCache.WriteThroughCacheBackend.durableAcks_run hi h ops,
    fun _ _ _ _ h ops => AuthoritativeOriginBackend.durableAcks_run hi h ops⟩

end

/-- An origin on which a write takes one byte, tears the second and fails. -/
def tornOrigin : OriginScript :=
  ⟨fun _ => 3,fun _ => 3,[{count := some 1},{ok := false, junk := fun _ => 9}]⟩

def tornWriteThrough : OriginCache.WriteThroughCacheBackend VramScript OriginScript :=
  (OriginCache.WriteThroughCacheBackend.withChunkBytes (⟨[]⟩ : VramScript) tornOrigin 4 1 2
    ).toOption.get (by decide)

def tornAuthoritative : AuthoritativeOriginBackend OriginScript DisabledCache :=
  (AuthoritativeOriginBackend.new tornOrigin (⟨⟩ : DisabledCache) 4 1).toOption.get (by decide)

theorem acknowledged_writes_are_durable_after_recovery :
    (run OriginCache.WriteThroughCacheBackend.step tornWriteThrough
      [.writeAt 0 [7,8],.probeOrigin,.probeOrigin,.probeOrigin]).status.Clean ∧
    (durable (run AuthoritativeOriginBackend.step tornAuthoritative
      [.writeAt 0 [7,8],.probeOrigin,.probeOrigin,.probeOrigin]).origin).load 0 2 = [7,9] := by
  have h := acknowledged_writes_are_durable (P := VramScript) (C := DisabledCache) tornOrigin rfl
  have hw : OriginCache.WriteThroughCacheBackend.withChunkBytes (⟨[]⟩ : VramScript) tornOrigin 4 1
    2 = .ok tornWriteThrough := rfl
  have ha : AuthoritativeOriginBackend.new tornOrigin (⟨⟩ : DisabledCache) 4 1 =
    .ok tornAuthoritative := rfl
  refine ⟨(h.1 _ _ _ _ _ hw _).clean,?_⟩
  have hc := (h.2 _ _ _ _ ha
    [.writeAt 0 [7,8],.probeOrigin,.probeOrigin,.probeOrigin]).clean (by decide) (by decide)
  refine (congrArg (Image.load · 0 2) hc).trans ?_
  decide

end RamShared.Isolated

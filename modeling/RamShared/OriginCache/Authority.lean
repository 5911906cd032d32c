import RamShared.OriginCache.Holdings
import RamShared.Block.Authority

/-! The write-through cache without its cache: it serves nothing while the origin is out of service,
and towards the origin it does what the authority machine does. -/
namespace RamShared.OriginCache
open Lib Block LawfulOrigin

namespace WriteThroughCacheBackend
variable {P O : Type} [VramProvider P] (b : WriteThroughCacheBackend P O)

def latch : OriginLatch := ⟨b.originState,b.originProbeSuccesses⟩

def originLog (b : WriteThroughCacheBackend P (OriginRecorder O)) : List OriginCall := b.origin.log

def status : OriginStatus O :=
  ⟨b.origin,b.originState,b.originDirty⟩

def authority : Authority O := ⟨b.origin,b.latch,b.originDirty⟩

lemma authority_eq_of_originView {b b' : WriteThroughCacheBackend P O}
    (h : b'.originView=b.originView) : b'.authority=b.authority :=
  congrArg (fun v : OriginView O => (⟨v.origin,⟨v.originState,v.originProbeSuccesses⟩,v.originDirty⟩ :
    Authority O)) h

lemma authority_origin : b.authority.origin=b.origin := rfl

lemma updateCachedChunks_authority (off : ℕ) (data : List UInt8) :
    (b.updateCachedChunks off data false).authority=b.authority :=
  authority_eq_of_originView (congrArg Prod.fst (b.updateCachedChunks_view off data false))

lemma markOriginFailed_authority {b b' : WriteThroughCacheBackend P O} (h : b'.originView=b.originView) :
    b'.markOriginFailed.authority = ⟨b.origin,.tripped,b.originDirty⟩ :=
  congrArg (fun v : OriginView O => (⟨v.origin,.tripped,v.originDirty⟩ : Authority O)) h

lemma ready_of_requireReadyOrigin {b : WriteThroughCacheBackend P O}
    (h : b.requireReadyOrigin=.ok ()) : b.latch.originState=.ready := by
  unfold requireReadyOrigin at h
  split_ifs at h with hready
  exact hready

variable [OriginStorage O]

instance : OriginBacked (WriteThroughCacheBackend P O) O where
  status := status
  flush := flush
  writeAtWithOptions := writeAtWithOptions

def probe (b : WriteThroughCacheBackend P O) : Op → Option Bool
  | .probeOrigin => some b.probeOrigin.1.isOk
  | _ => none

lemma refuses_of_not_ready {b : WriteThroughCacheBackend P O} (h : b.originState≠.ready) : Refuses b := by
  have hrequire : b.requireReadyOrigin =
      .error ⟨"origin authority is unavailable pending three read+sync probes"⟩ := if_neg h
  refine ⟨fun off len => guarded_refused hrequire,fun off data => guarded_refused hrequire,
    fun off data options => ?_,?_⟩
  · show ∃ e, b.writeAtWithOptions off data options=_
    unfold writeAtWithOptions
    split
    · exact guarded_refused hrequire
    · exact guarded_refused hrequire
  · show ∃ e, b.flush=_
    unfold flush
    rw [hrequire]
    exact ⟨_,rfl⟩

variable (b : WriteThroughCacheBackend P O) (off len : ℕ) (data : List UInt8)

lemma readFromOrigin_serves {b₀ : WriteThroughCacheBackend P O} (h : b.authority=b₀.authority)
    (hready : b₀.latch.originState=.ready) : b₀.authority.Serves (b.readFromOrigin off len).2.authority := by
  have hread : (b.readFromOrigin off len).2.authority = (b.authority.read off len).2 := by
    unfold readFromOrigin Authority.read
    rw [authority_origin]
    rcases readExactAt b.origin off len with ⟨e | buf,origin⟩
    · rfl
    · exact authority_eq_of_originView (congrArg Prod.fst (promote_view _ off buf))
  rw [hread,h]
  exact .read hready off len

lemma writeOrigin_authority : Prod.map id authority (b.writeOrigin off data) = b.authority.write off data := by
  unfold writeOrigin Authority.write
  rw [authority_origin]
  rcases writeAllAt b.origin off data with ⟨e | u,origin⟩
  · exact congrArg (Prod.mk (Except.error e)) (markOriginFailed_authority (congrArg Prod.fst
      (invalidateCachedRange_view {b with origin := origin} off data.length)))
  · rfl

lemma syncDirtyOrigin_authority : Prod.map id authority b.syncDirtyOrigin=b.authority.sync := by
  unfold syncDirtyOrigin Authority.sync
  rw [authority_origin]
  change Prod.map id authority (if _ then _ else _) = if !b.originDirty then _ else _
  split
  · rfl
  rcases OriginStorage.syncData b.origin with ⟨e | u,origin⟩
  · exact congrArg (Prod.mk (Except.error e)) (markOriginFailed_authority (congrArg Prod.fst
      (invalidateCached_view {b with origin := origin} _)))
  · rfl

lemma probeOrigin_authority : b.authority.probe b.block = (b.probeOrigin.1.isOk,b.probeOrigin.2.authority) := by
  unfold probeOrigin Authority.probe
  rw [authority_origin]
  rcases readExactAt b.origin 0 b.block with ⟨e | bytes,origin⟩
  · rfl
  dsimp only
  rcases OriginStorage.syncData origin with ⟨e | u,origin'⟩
  · rfl
  · unfold recordProbe OriginLatch.record authority latch
    dsimp only
    split_ifs <;> rfl

lemma readAt_serves : b.authority.Serves (b.readAt off len).2.authority := by
  refine guarded_rule (Q := fun x => b.authority.Serves (authority x.2)) (fun _ => .stay)
    (fun _ => .stay) fun _ hready _ => ?_
  replace hready := ready_of_requireReadyOrigin hready
  split_ifs
  · have hsame := authority_eq_of_originView (congrArg Prod.fst (b.cacheRead_view off len))
    generalize b.cacheRead off len = x at hsame ⊢
    obtain ⟨index | buf,b'⟩ := x
    · exact readFromOrigin_serves _ off len hsame hready
    · change b.authority.Serves b'.authority
      rw [hsame]
      exact .stay
  · exact b.readFromOrigin_serves off len rfl hready

lemma writeAt_answers : Answers authority b (data=[]) (b.authority.write off data) (b.writeAt off data) := by
  refine guarded_answers ready_of_requireReadyOrigin ?_
  rw [←writeOrigin_authority]
  rcases b.writeOrigin off data with ⟨e | u,b'⟩
  · rfl
  · exact congrArg (Prod.mk (Except.ok ())) (updateCachedChunks_authority _ off data)

lemma forced_answers : Answers authority b (data=[]) (b.authority.force off data)
    (b.writeAtWithOptions off data ⟨true⟩) := by
  refine guarded_answers ready_of_requireReadyOrigin ?_
  unfold Authority.force
  rw [←writeOrigin_authority]
  rcases b.writeOrigin off data with ⟨e | u,b₁⟩
  · rfl
  change _=b₁.authority.sync
  rw [←syncDirtyOrigin_authority]
  dsimp only
  rcases b₁.syncDirtyOrigin with ⟨e | u,b₂⟩
  · rfl
  · exact congrArg (Prod.mk (Except.ok ())) (b₂.updateCachedChunks_authority off data)

lemma flush_answers : Answers authority b False b.authority.sync b.flush := by
  unfold flush
  cases hready : b.requireReadyOrigin with
  | error e => exact .refused e
  | ok u => exact .made (ready_of_requireReadyOrigin hready) b.syncDirtyOrigin_authority

lemma fronts : Fronts (step (P := P) (O := O)) authority probe where
  served b op hop := by
    cases op with
    | readAt off len => exact b.readAt_serves off len
    | writeAt off data => exact (b.writeAt_answers off data).serves fun h => .write h off data
    | writeAtWithOptions off data options =>
      obtain ⟨_ | _⟩ := options
      · exact (b.writeAt_answers off data).serves fun h => .write h off data
      · exact (b.forced_answers off data).serves fun h => .force h off data
    | flush => exact b.flush_answers.serves .sync
    | observeGpu sample now =>
      rw [step,authority_eq_of_originView (b.observeGpu_originView sample now)]
      exact .stay
    | setPhysicalCapBytes capBytes => exact .stay
    | releaseCache =>
      rw [step,authority_eq_of_originView b.releaseCache_originView]
      exact .stay
    | probeOrigin => cases hop
  probed := by
    rintro b (_ | _ | _ | _ | _ | _ | _ | _) ok hop
    all_goals cases hop
    exact ⟨b.block,b.probeOrigin_authority⟩

lemma durableAcks_run [LawfulOrigin O] {provider : P} {origin : O} {size block chunkBytes : ℕ}
    {b : WriteThroughCacheBackend P O} (hi : durable origin = volatile origin)
    (h : withChunkBytes provider origin size block chunkBytes=.ok b) (ops : List Op) :
    DurableAcks (run step b ops) := by
  refine .of_answers authority (fun _ => rfl) ?_ (flush_answers _) (forced_answers _)
  refine run_induction step (P := fun b => b.authority.status.Clean)
    (fun b op hb => fronts.clean hb op) ?_ ops
  unfold withChunkBytes at h
  split_ifs at h
  cases h
  exact fun _ _ => hi

end WriteThroughCacheBackend
end RamShared.OriginCache

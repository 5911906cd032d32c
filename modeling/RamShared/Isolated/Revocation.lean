import RamShared.Isolated.Channel
import RamShared.Isolated.Coherence

/-! The bounded client is a coherent cache under every schedule of its worker, and it never
recovers from a fault. -/
namespace RamShared.Isolated
open Lib Block LawfulOrigin

namespace BoundedCacheClient

/-- While the client is active, the store behind the channel agrees with the image once the
requests in flight are counted in. -/
def SoundOutside (img : Image UInt8) (lo hi : ℕ) (c : BoundedCacheClient) : Prop :=
  c.state=.active → c.worker.Live → CoherentOutside img c.worker.applied lo hi

variable {img : Image UInt8} {c : BoundedCacheClient}

lemma soundOutside_of_inactive {lo hi : ℕ} (h : c.state≠.active) :
    c.SoundOutside img lo hi := fun ha => absurd ha h

lemma preempt_sound {lo hi : ℕ} (h : c.SoundOutside img lo hi) : c.preempt.SoundOutside img lo hi := by
  intro ha hl
  obtain ⟨hl',hf⟩ := IsolatedCacheWorker.foldl_perform_forgets (c.schedule.headD []) c.worker hl
  exact (h ha hl').forget hf

lemma live_of_accepts {w : IsolatedCacheWorker} {capacity : ℕ} (h : w.accepts capacity=true) : w.Live := by
  rw [IsolatedCacheWorker.accepts,Bool.and_eq_true] at h
  exact .inl h.1

lemma sendMutation_sound {off : ℕ} {data : List UInt8}
    (h : c.SoundOutside img off (off+data.length)) (hd : data = img.load off data.length)
    {request : IsolatedCacheRequest} (hr : ∀ store, request.apply store = store.write off data) :
    (c.sendMutation request).2.SoundOutside img 0 0 := by
  unfold sendMutation
  split_ifs with hs ha
  · exact soundOutside_of_inactive hs
  · intro hactive _
    have hc := preempt_sound h hactive (live_of_accepts ha)
    have happ : (c.preempt.worker.push request).applied =
        c.preempt.worker.applied.write off data := by
      simp [IsolatedCacheWorker.push,IsolatedCacheWorker.applied,hr]
    have := hc.write
    rw [←hd] at this
    rw [happ]
    exact this.outside 0 0
  · exact soundOutside_of_inactive (by simp [fail])

lemma receiveRead_spec {reply off len : ℕ} (h : c.worker.Waiting img reply off len) :
    (c.receiveRead reply len).2.2.SoundOutside img 0 0 ∧
    ((c.receiveRead reply len).1=.hit → (c.receiveRead reply len).2.1 = img.load off len) := by
  have hs : c.SoundOutside img 0 0 := fun _ hl => (h.coherent hl).outside 0 0
  have hfail : c.fail.SoundOutside img 0 0 := soundOutside_of_inactive (by simp [fail])
  unfold receiveRead
  split
  · rename_i channel bytes hfind
    split_ifs with hlen
    · refine ⟨hs,fun _ => h.replies _ (List.mem_of_find?_eq_some hfind) ?_ bytes rfl hlen⟩
      simpa using List.find?_some hfind
    · exact ⟨hfail,fun h' => by cases h'⟩
  · exact ⟨hs,fun h' => by cases h'⟩
  · exact ⟨hfail,fun h' => by cases h'⟩
  · exact ⟨hfail,fun h' => by cases h'⟩

lemma read_spec (off len : ℕ) (h : c.SoundOutside img 0 0) : (c.read off len).2.2.SoundOutside img 0 0 ∧
    ((c.read off len).1=.hit → (c.read off len).2.1 = img.load off len) := by
  unfold read
  split_ifs with hs
  · exact ⟨h,fun h' => by cases h'⟩
  · dsimp only
    split_ifs with ha
    · refine receiveRead_spec (IsolatedCacheWorker.Waiting.foldl _ ?_)
      have hc := preempt_sound h (not_not.mp hs) (live_of_accepts ha)
      exact IsolatedCacheWorker.waiting_push off len (hc.coherent (le_refl 0)) rfl
    · exact ⟨soundOutside_of_inactive (by simp [fail]),fun h' => by cases h'⟩

lemma disable_state (c : BoundedCacheClient) : c.disable.2.state≠.active := by
  unfold disable
  split_ifs with hs
  · simp [hs]
  · dsimp only
    split_ifs
    · split <;> simp
    · simp

instance : CoherentCache BoundedCacheClient where
  SoundOutside := SoundOutside
  of_change h hch := fun ha hl => ((h ha hl).coherent (le_refl 0)).of_change hch
  read_sound off len h := (read_spec off len h).1
  read_hit off len h := (read_spec off len h).2
  update_sound h hd := sendMutation_sound h hd fun _ => rfl
  promote_sound h hd :=
    sendMutation_sound (fun ha hl => ((h ha hl).coherent (le_refl 0)).outside _ _) hd fun _ => rfl
  disable_sound _ _ _ c := soundOutside_of_inactive c.disable_state

lemma read_of_inactive (h : c.state≠.active) (off len : ℕ) :
    c.read off len = (.miss,List.replicate len 0,c) := if_pos h

lemma sendMutation_of_inactive (h : c.state≠.active) (request : IsolatedCacheRequest) :
    c.sendMutation request = (.skipped,c) := if_pos h

lemma read_failed {off len : ℕ} (h : (c.read off len).1=.failed) : (c.read off len).2.2.state≠.active := by
  have hfail : ∀ c : BoundedCacheClient, c.fail.state≠.active := fun c => by simp [fail]
  unfold read at h ⊢
  split_ifs at h ⊢ with hs
  dsimp only at h ⊢
  split_ifs at h ⊢
  · unfold receiveRead at h ⊢
    split at h
    · split_ifs at h ⊢
      exact hfail _
    · cases h
    · exact hfail _
    · exact hfail _
  · exact hfail _

lemma sendMutation_failed {request : IsolatedCacheRequest}
    (h : (c.sendMutation request).1=.failed) : (c.sendMutation request).2.state≠.active := by
  unfold sendMutation at h ⊢
  split_ifs at h ⊢
  simp [fail]

inductive Call
  | read (off len : ℕ)
  | update (off : ℕ) (data : List UInt8)
  | promote (off : ℕ) (data : List UInt8)
  | disable

def call (c : BoundedCacheClient) : Call → BoundedCacheClient
  | .read off len => (BestEffortCache.read c off len).2.2
  | .update off data => (BestEffortCache.update c off data).2
  | .promote off data => (BestEffortCache.promote c off data).2
  | .disable => (BestEffortCache.disable c).2

lemma calls_of_called {c' : BoundedCacheClient} (h : BestEffortCache.Called c c') :
    ∃ calls, c' = run call c calls := by
  have hnext : ∀ {c'} (x : Call), (∃ calls, c' = run call c calls) →
      ∃ calls, call c' x = run call c calls := by
    rintro _ x ⟨calls,rfl⟩
    exact ⟨calls++[x],by rw [run_append]; rfl⟩
  induction h with
  | refl => exact ⟨[],rfl⟩
  | read _ off len ih => exact hnext (.read off len) ih
  | update _ off data ih => exact hnext (.update off data) ih
  | promote _ off data ih => exact hnext (.promote off data) ih
  | disable _ ih => exact hnext .disable ih

/-- No sequence of calls makes the client active or hit again. -/
def Revoked (c : BoundedCacheClient) : Prop :=
  ∀ calls, (run call c calls).state≠.active ∧
    ∀ off len, (BestEffortCache.read (run call c calls) off len).1≠.hit

lemma call_inactive (h : c.state≠.active) (x : Call) : (c.call x).state≠.active := by
  cases x with
  | read off len =>
    change (c.read off len).2.2.state≠.active
    rwa [read_of_inactive h]
  | update off data =>
    change (c.sendMutation _).2.state≠.active
    rwa [sendMutation_of_inactive h]
  | promote off data =>
    change (c.sendMutation _).2.state≠.active
    rwa [sendMutation_of_inactive h]
  | disable => exact c.disable_state

lemma revoked_of_inactive (h : c.state≠.active) : c.Revoked := by
  intro calls
  have hs : (run call c calls).state≠.active :=
    run_induction call (P := fun c => c.state≠.active) (fun _ x h => call_inactive h x) h calls
  refine ⟨hs,fun off len => ?_⟩
  change ((run call c calls).read off len).1≠.hit
  rw [read_of_inactive hs]
  simp

end BoundedCacheClient

namespace AuthoritativeOriginBackend
variable {O : Type}

/-- What an operation may do to the client and to the origin's standing: it makes some calls,
and it declares the origin unusable only together with a revocation. -/
structure Tracks (b b' : AuthoritativeOriginBackend O BoundedCacheClient) : Prop where
  calls : ∃ calls, b'.cache = run BoundedCacheClient.call b.cache calls
  guarded : b'.originState≠.ready → b.originState≠.ready ∨ b'.cache.state≠.active

variable {b b' : AuthoritativeOriginBackend O BoundedCacheClient}

lemma Tracks.refl (b : AuthoritativeOriginBackend O BoundedCacheClient) : b.Tracks b :=
  ⟨⟨[],rfl⟩,.inl⟩

lemma Tracks.inactive (h : b.Tracks b') (hs : b.cache.state≠.active) : b'.cache.state≠.active := by
  obtain ⟨calls,he⟩ := h.calls
  rw [he]
  exact (BoundedCacheClient.revoked_of_inactive hs calls).1

lemma Tracks.trans {b₁ b₂ b₃ : AuthoritativeOriginBackend O BoundedCacheClient}
    (h : b₁.Tracks b₂) (h' : b₂.Tracks b₃) : b₁.Tracks b₃ := by
  refine ⟨?_,fun hr => ?_⟩
  · obtain ⟨calls,he⟩ := h.calls
    obtain ⟨calls',he'⟩ := h'.calls
    exact ⟨calls++calls',by rw [run_append,←he,he']⟩
  · rcases h'.guarded hr with h₂ | h₂
    · exact (h.guarded h₂).imp_right fun hs => h'.inactive hs
    · exact .inr h₂

lemma releaseCache_inactive (b : AuthoritativeOriginBackend O BoundedCacheClient) :
    b.releaseCache.2.cache.state≠.active := by
  have hs : b.revokeCache.2.cache.state≠.active := BoundedCacheClient.disable_state _
  unfold releaseCache
  generalize b.revokeCache = x at hs ⊢
  rcases x with ⟨_ | _ | _,b'⟩ <;> exact hs

lemma Tracks.ofCalled {c : BoundedCacheClient} (hcalls : BestEffortCache.Called b.cache c)
    (hc : b'.cache=c) (hg : b'.originState≠.ready → b.originState≠.ready ∨ c.state≠.active) : b.Tracks b' := by
  subst hc
  exact ⟨BoundedCacheClient.calls_of_called hcalls,hg⟩

variable [OriginStorage O]

section
variable [LawfulOrigin O]

lemma Effect.tracks {op : Op} (h : b.Effect op b') : b.Tracks b' := by
  cases h with
  | kept hm hc => exact .ofCalled .refl hc fun hr => .inl (mt hm.ready hr)
  | revoked hcalls hc hs =>
    exact .ofCalled (.disable hcalls) hc fun _ => .inr (BoundedCacheClient.disable_state _)
  | hit hm hc => exact .ofCalled (.read .refl _ _) hc fun hr => .inl (mt hm.ready hr)
  | promoted ha hfrom hok hm haccepted hc =>
    refine .ofCalled (.promote ?_ _ _) hc fun hr => .inl (mt hm.ready hr)
    rcases hfrom with rfl | rfl
    · exact .read .refl _ _
    · exact .disable (.read .refl _ _)
  | updated hop ha hwrite hsync hm haccepted hc =>
    exact .ofCalled (.update .refl _ _) hc fun hr => .inl (mt hm.ready hr)

lemma run_tracks (b : AuthoritativeOriginBackend O BoundedCacheClient) (ops : List Op) :
    b.Tracks (run step b ops) :=
  run_induction step (P := b.Tracks) (fun b op h => h.trans (b.step_effect op).tracks) (.refl _) ops

lemma new_sound {origin : O} {capacity size block : ℕ} {schedule : List (List WorkerAct)}
    (h : new origin (isolatedCacheChannel capacity schedule) size block=.ok b) :
    b.Sound ∧ b.originState=.ready := by
  unfold new at h
  split_ifs at h
  cases h
  refine ⟨fun _ _ a v ha => ?_,rfl⟩
  cases ha

end

structure ExactAndFailStop [LawfulOrigin O]
    (b : AuthoritativeOriginBackend O BoundedCacheClient) : Prop where
  exact : ∀ off len buf, (b.readAt off len).1=.ok buf →
    buf = (volatile b.origin).load off len
  permanent : b.cacheState≠.active → ∀ later, (run step b later).cache.Revoked
  originFailure : b.originState≠.ready → b.cache.Revoked
  release : b.releaseCache.2.cache.Revoked

/-- For every schedule of the worker and every behaviour of the origin, after every run: reads
are exact, and a client that left the active state, through a fault of its own, a failure of
the origin or a release, never hits again. -/
theorem bounded_client_exact_and_failStop [LawfulOrigin O] (origin : O)
    (capacity size block : ℕ) (schedule : List (List WorkerAct))
    {b : AuthoritativeOriginBackend O BoundedCacheClient}
    (h : new origin (isolatedCacheChannel capacity schedule) size block = .ok b) :
    (∀ ops, ExactAndFailStop (run step b ops)) ∧
    (∀ (c : BoundedCacheClient) off len, (BestEffortCache.read c off len).1 = .failed →
      (BestEffortCache.read c off len).2.2.Revoked) ∧
    (∀ (c : BoundedCacheClient) off data, (BestEffortCache.update c off data).1 = .failed →
      (BestEffortCache.update c off data).2.Revoked) ∧
    (∀ (c : BoundedCacheClient) off data, (BestEffortCache.promote c off data).1 = .failed →
      (BestEffortCache.promote c off data).2.Revoked) := by
  obtain ⟨hs,ho⟩ := new_sound h
  refine ⟨fun ops => ⟨?_,?_,?_,?_⟩,?_,?_,?_⟩
  · have hrun : (run step b ops).Sound :=
      run_induction step (P := Sound) (fun b op hb => (b.step_effect op).sound hb) hs ops
    exact fun off len buf hr => readAt_exact hrun hr
  · intro hc later
    exact BoundedCacheClient.revoked_of_inactive ((run_tracks _ later).inactive hc)
  · intro hr
    refine BoundedCacheClient.revoked_of_inactive ?_
    exact ((run_tracks b ops).guarded hr).resolve_left (not_not.mpr ho)
  · exact BoundedCacheClient.revoked_of_inactive (releaseCache_inactive _)
  · exact fun c off len hf =>
      BoundedCacheClient.revoked_of_inactive (BoundedCacheClient.read_failed hf)
  · exact fun c off data hf =>
      BoundedCacheClient.revoked_of_inactive (BoundedCacheClient.sendMutation_failed hf)
  · exact fun c off data hf =>
      BoundedCacheClient.revoked_of_inactive (BoundedCacheClient.sendMutation_failed hf)

/-- The worker refuses the first read, stores the promotion and serves the second read. -/
def servingSchedule : List (List WorkerAct) :=
  [[],[.consume,.answer 0 .stored],[],[.consume],[.consume,.answer 0 .stored]]

def servedOrigin : OriginScript := ⟨fun _ => 3,fun _ => 3,[]⟩

def servedBackend : AuthoritativeOriginBackend OriginScript BoundedCacheClient :=
  (new servedOrigin (isolatedCacheChannel 2 servingSchedule) 4 1).toOption.get (by decide)

theorem bounded_client_exact_and_failStop_served :
    ((run step servedBackend [.readAt 0 2]).readAt 0 2).2.telemetry.cacheReadBytes = 2 ∧
      [3,3] = (volatile (run step servedBackend [.readAt 0 2]).origin).load 0 2 := by
  have hb : new servedOrigin (isolatedCacheChannel 2 servingSchedule) 4 1 = .ok servedBackend :=
    rfl
  have hr : ((run step servedBackend [.readAt 0 2]).readAt 0 2).1 = .ok [3,3] := by decide +kernel
  have h := (bounded_client_exact_and_failStop servedOrigin 2 4 1 servingSchedule hb).1
  exact ⟨by decide +kernel,(h [.readAt 0 2]).exact 0 2 [3,3] hr⟩

end AuthoritativeOriginBackend
end RamShared.Isolated

import RamShared.Block.Backend
import RamShared.Block.Recorder
import RamShared.Lib.Streak
import RamShared.Lib.Run

/-! How an origin comes back after a failure. Both cached backends keep the state of the origin and a
count of good probes; once the origin has failed, only probes move them. -/
namespace RamShared.Block
open Lib

structure OriginLatch where
  originState : OriginState
  probeSuccesses : ℕ

namespace OriginLatch

def tripped : OriginLatch := ⟨.failed,0⟩

def record (l : OriginLatch) : Bool → OriginLatch
  | false => tripped
  | true =>
    if l.originState=.failed ∨ l.originState=.degraded then
      if saturatingAdd 8 l.probeSuccesses 1 ≥ 3 then ⟨.ready,0⟩
      else ⟨.degraded,saturatingAdd 8 l.probeSuccesses 1⟩
    else l

/-- The origin is out of service and the good probes since the last bad one are counted. -/
structure Counts (l : OriginLatch) (results : List Bool) : Prop where
  down : l.originState=.failed ∨ l.originState=.degraded
  successes_eq : l.probeSuccesses = streak results

lemma Counts.tripped : Counts tripped [] := ⟨.inl rfl,rfl⟩

variable {l : OriginLatch} {results : List Bool}

lemma Counts.not_ready (h : l.Counts results) : l.originState≠.ready := by
  rcases h.down with h | h <;> simp [h]

lemma Counts.record {ok : Bool} (h : l.Counts results) (hfew : streak (results++[ok])<3) :
    (l.record ok).Counts (results++[ok]) := by
  cases ok with
  | false => exact ⟨.inl rfl,by simp [OriginLatch.record,OriginLatch.tripped]⟩
  | true =>
    rw [streak_concat,if_pos rfl,←h.successes_eq] at hfew
    have hsat : saturatingAdd 8 l.probeSuccesses 1 = l.probeSuccesses+1 := by
      unfold saturatingAdd
      omega
    rw [OriginLatch.record,if_pos h.down,hsat,if_neg (by omega)]
    exact ⟨.inr rfl,by simp [h.successes_eq]⟩

lemma Counts.third (h : l.Counts results) (hthird : 3 ≤ streak (results++[true])) :
    (l.record true).originState=.ready := by
  rw [streak_concat,if_pos rfl,←h.successes_eq] at hthird
  have hsat : 3 ≤ saturatingAdd 8 l.probeSuccesses 1 := by
    unfold saturatingAdd
    omega
  rw [OriginLatch.record,if_pos h.down,if_pos hsat]

end OriginLatch

section
variable {S I : Type} (step : S → I → S) (latch : S → OriginLatch) (probe : S → I → Option Bool)

def probes (s : S) (is : List I) : List Bool := outputs step (fun s i => (probe s i).toList) s is

/-- A system whose origin, once it is out of service, is moved by probes only. -/
structure Latched : Prop where
  probed : ∀ s i ok, probe s i=some ok → latch (step s i) = (latch s).record ok
  idle : ∀ s i, probe s i=none → (latch s).originState≠.ready → latch (step s i) = latch s

variable {step latch probe}

lemma probes_concat (s : S) (is : List I) (i : I) :
    probes step probe s (is++[i]) = probes step probe s is++(probe (run step s is) i).toList := by
  simp [probes,outputs_append,outputs]

/-- As long as there were no three good probes in a row, the origin is out of service. -/
theorem Latched.counts (h : Latched step latch probe) {s : S} (hs : latch s=.tripped) {is : List I}
    (hfew : ¬[true,true,true] <:+: probes step probe s is) :
    (latch (run step s is)).Counts (probes step probe s is) := by
  induction is using List.reverseRecOn with
  | nil =>
    rw [run_nil,hs]
    exact .tripped
  | append_singleton is i ih =>
    rw [probes_concat] at hfew ⊢
    have hc := ih fun hin => hfew (hin.trans (List.prefix_append _ _).isInfix)
    rw [run_append]
    show (latch (step (run step s is) i)).Counts _
    cases hp : probe (run step s is) i with
    | none =>
      rw [h.idle _ _ hp hc.not_ready]
      simpa using hc
    | some ok =>
      rw [hp] at hfew
      rw [h.probed _ _ _ hp]
      refine hc.record (Nat.lt_of_not_le fun hthree => hfew ?_)
      exact (replicate_suffix_iff.mpr hthree).isInfix

/-- The step met a failing origin: one of its calls was faulty, or it is a probe that failed. -/
def OriginFails (step : S → I → S) (log : S → List OriginCall) (probe : S → I → Option Bool) (s : S)
    (i : I) : Prop :=
  (∃ call∈(log (step s i)).drop (log s).length, call.faulty) ∨ probe s i=some false

/-- After a failure the origin is out of service until three good probes in a row, and the third of
them brings it back. -/
theorem Latched.sticky {log : S → List OriginCall} (h : Latched step latch probe)
    (hreports : ∀ s i, Reports (log s) (log (step s i)) (latch (step s i)=.tripped)) {s : S} {i : I}
    {is : List I} (hfails : OriginFails step log probe s i)
    (hfew : ¬[true,true,true] <:+: probes step probe (step s i) is) :
    (latch (run step (step s i) is)).originState≠.ready ∧
    ∀ p ok, probe (run step (step s i) is) p=some ok →
      [true,true,true] <:+ probes step probe (step s i) (is++[p]) →
      (latch (run step (step s i) (is++[p]))).originState=.ready := by
  have htripped : latch (step s i)=.tripped := by
    obtain ⟨calls,hlog,hfault⟩ := hreports s i
    obtain hcall | hprobe := hfails
    · rw [hlog,List.drop_left] at hcall
      exact hfault hcall
    · exact h.probed s i false hprobe
  have hcounts := h.counts htripped hfew
  refine ⟨hcounts.not_ready,fun p ok hp hsuffix => ?_⟩
  rw [probes_concat,hp] at hsuffix
  have hthird : 3 ≤ streak (probes step probe (step s i) is++[ok]) := replicate_suffix_iff.mp hsuffix
  rw [run_append]
  show (latch (step (run step (step s i) is) p)).originState=.ready
  rw [h.probed _ _ _ hp]
  cases ok with
  | true => exact hcounts.third hthird
  | false => simp at hthird

end

/-- No request is served: each of them fails and changes nothing, the record of an origin included. -/
structure Refuses {B : Type} [BlockBackend B] (b : B) : Prop where
  readAt : ∀ off len, ∃ e, BlockBackend.readAt b off len = (.error e,b)
  writeAt : ∀ off data, ∃ e, BlockBackend.writeAt b off data = (.error e,b)
  writeAtWithOptions : ∀ off data options, ∃ e,
    BlockBackend.writeAtWithOptions b off data options = (.error e,b)
  flush : ∃ e, BlockBackend.flush b = (.error e,b)

section
variable {B α β : Type} {log : B → List OriginCall} {latch : B → OriginLatch}

/-- A faulty call of an access makes it fail and trips the latch. -/
def Trips (log : B → List OriginCall) (latch : B → OriginLatch) (b : B) (x : Except IoError α × B) : Prop :=
  Reports (log b) (log x.2) ((∃ e, x.1=.error e) ∧ latch x.2=.tripped)

lemma Trips.refl (b : B) (r : Except IoError α) : Trips log latch b (r,b) := Reports.refl _ _

variable {b : B} {v : α}

lemma Trips.failed {b' : B} {e : IoError} {log' : List OriginCall} {c : Prop}
    (h : Reports (log b) log' c) (hlatch : latch b'=.tripped) (hlog : log b'=log') :
    Trips log latch b ((.error e : Except IoError α),b') := by
  unfold Trips
  rw [hlog]
  exact Reports.mono h fun _ => ⟨⟨e,rfl⟩,hlatch⟩

lemma Trips.succeeded {b' : B} {log' : List OriginCall} {c : Prop} (h : Reports (log b) log' c)
    (hc : ¬c) (hlog : log b'=log') : Trips log latch b (.ok v,b') := by
  unfold Trips
  rw [hlog]
  exact Reports.mono h fun hf => absurd hf hc

lemma Trips.trans {b₁ : B} {x : Except IoError β × B} (h : Trips log latch b (.ok v,b₁))
    (h' : Trips log latch b₁ x) : Trips log latch b x :=
  Reports.trans h h' nofun

end
end RamShared.Block

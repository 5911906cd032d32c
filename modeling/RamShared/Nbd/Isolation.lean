import RamShared.Nbd.Worker
import RamShared.Lib.Run

/-! Tenant isolation on the data plane: the exports of a slice map share one backend, yet no
request reaches over the border of its own slice. -/
namespace RamShared.Nbd
open Lib Block Broker

variable {B : Type} [BlockBackend B] [LocalBackend B]

/-- The operation on the inner backend that a call through the window amounts to. -/
def through {R : Type} (base len : ℕ) (op : SliceView B → R × SliceView B) (b : B) : R × B :=
  ((op ⟨b,base,len⟩).1,(op ⟨b,base,len⟩).2.inner)

lemma translate_confined {α : Type} {message : String} {base len off n : ℕ}
    {call : ℕ → B → Except IoError α × B}
    (hc : ∀ abs, (LocalBackend.view (B := B)).Confined abs (abs+n) (call abs))
    (hn : off+n≤len) :
    (LocalBackend.view (B := B)).Confined base (base+len)
      (through base len fun v => v.translate message off call) := by
  unfold through SliceView.translate
  dsimp only
  rcases ha : checkedAdd 64 base off with _ | abs
  · exact CellView.confined_pure fun _ _ _ => rfl
  · obtain ⟨-,rfl⟩ := checkedAdd_eq_some.mp ha
    exact (hc _).mono (by omega) (by omega)

lemma answer_confined {R : Type} {base len : ℕ} {g : SliceView B → R × SliceView B}
    (h : (LocalBackend.view (B := B)).Confined base (base+len) (through base len g))
    (f : R → ServeOutcome) :
    (LocalBackend.view (B := B)).Confined base (base+len)
      (through base len fun v => (f (g v).1,(g v).2)) :=
  h.bind (k := fun r b => (f r,b)) fun _ => CellView.confined_pure fun _ _ _ => rfl

/-- What follows on a validation: a refusal, or the body through the window. -/
def afterValidation (req : Request) (base len : ℕ) (body : SliceView B → ServeOutcome × SliceView B)
    (result : Except UInt32 Unit) (b : B) : ServeOutcome × B :=
  match result with
  | .error e => (plain req e,b)
  | .ok () => through base len body b

lemma validated_confined {req : Request} {base len : ℕ} {body : SliceView B → ServeOutcome × SliceView B}
    (h : req.offset.toNat+req.len.toNat≤len →
      (LocalBackend.view (B := B)).Confined base (base+len) (through base len body)) :
    (LocalBackend.view (B := B)).Confined base (base+len)
      (through base len fun v => validated req v body) := by
  have hv : (LocalBackend.view (B := B)).Confined base (base+len) fun b =>
      (validate req (⟨b,base,len⟩ : SliceView B),b) := by
    refine CellView.confined_pure fun b b' h => ?_
    have hb : BlockBackend.blockSize (⟨b,base,len⟩ : SliceView B) =
        BlockBackend.blockSize (⟨b',base,len⟩ : SliceView B) := LocalBackend.blockSize_eq b b' h
    unfold validate
    rw [hb]
    rfl
  have he : (through base len fun v => validated req v body) = fun b =>
      afterValidation req base len body (validate req (⟨b,base,len⟩ : SliceView B)) b := by
    funext b
    unfold through validated afterValidation
    dsimp only
    rcases validate req (⟨b,base,len⟩ : SliceView B) with e | ⟨⟩ <;> rfl
  rw [he]
  refine hv.bind (k := afterValidation req base len body) fun b => ?_
  rcases hb : validate req (⟨b,base,len⟩ : SliceView B) with e | ⟨⟩
  · exact CellView.confined_pure fun _ _ _ => rfl
  · exact h (le_size_of_validate hb)

/-- Serving a request through a window is confined to the window. -/
theorem serve_confined (req : Request) (payload : List UInt8) (base len : ℕ) :
    (LocalBackend.view (B := B)).Confined base (base+len)
      (through base len (serve req payload)) := by
  have hpure : ∀ out : ServeOutcome,
      (LocalBackend.view (B := B)).Confined base (base+len) (through base len fun v => (out,v)) :=
    fun _ => CellView.confined_pure fun _ _ _ => rfl
  unfold serve
  rcases validateCommandFlags req with e | options
  · exact hpure _
  cases req.cmd with
  | read =>
    refine validated_confined fun hfit => answer_confined ?_ (readOutcome req)
    exact translate_confined (fun abs => LocalBackend.readAt_confined abs _) hfit
  | write =>
    dsimp only
    split_ifs with hlen
    · exact hpure _
    · rw [not_not] at hlen
      refine validated_confined fun hfit => answer_confined ?_ fun r => plain req (errnoOf r)
      refine translate_confined (fun abs => LocalBackend.writeAtWithOptions_confined abs _ _) ?_
      rwa [hlen]
  | flush =>
    refine answer_confined (g := SliceView.flush) ?_ fun r => plain req (errnoOf r)
    exact (LocalBackend.flush_confined base).mono le_rfl (Nat.le_add_right _ _)
  | trim => exact validated_confined fun _ => hpure _
  | disc => exact hpure _
  | unknown _ => exact hpure _

def geometry (m : SliceMap) : List (ℕ × ℕ) := m.slices.map fun s => (s.offset,s.len)

section
variable {k sliceBytes backingBytes : ℕ} {m : SliceMap}

omit [BlockBackend B] [LocalBackend B] in
lemma windows_disjoint (hm : SliceMap.new k sliceBytes backingBytes=.ok m) {i j : ℕ}
    {s t : Slice} (hs : m.slices[i]?=some s) (ht : m.slices[j]?=some t) (hij : i≠j) :
    s.offset+s.len≤t.offset ∨ t.offset+t.len ≤ s.offset := by
  obtain ⟨hs₁,hs₂,-⟩ := SliceMap.getElem?_new hm hs
  obtain ⟨ht₁,ht₂,-⟩ := SliceMap.getElem?_new hm ht
  rw [hs₁,hs₂,ht₁,ht₂]
  rcases Nat.lt_or_gt_of_ne hij with h | h
  · left
    have := Nat.mul_le_mul_right sliceBytes (Nat.succ_le_of_lt h)
    rwa [Nat.succ_mul] at this
  · right
    have := Nat.mul_le_mul_right sliceBytes (Nat.succ_le_of_lt h)
    rwa [Nat.succ_mul] at this

lemma serveExport_confined {job : Job} {s : Slice} (hs : m.slices[job.exportIndex]?=some s) :
    (LocalBackend.view (B := B)).Confined s.offset (s.offset+s.len) fun b =>
      serveExport (geometry m) b job := by
  have hw : ∀ b : B, exportWindow (geometry m) b job.exportIndex = (s.offset,s.len) := by
    intro b
    simp [exportWindow,geometry,hs]
  have he : (fun b : B => serveExport (geometry m) b job) =
      through s.offset s.len (serve job.req job.payload) := by
    funext b
    unfold serveExport
    rw [hw b]
    rfl
  rw [he]
  exact serve_confined job.req job.payload s.offset s.len

omit [LocalBackend B] in
lemma observe_onJob (j : ℕ) (xs : List (Job × Option DemoteReason)) (w : Worker B) :
    observe Worker.onJob (fun x => x.1.exportIndex=j) w xs =
      observe (serveExport w.geom) (fun job => job.exportIndex=j) w.backend (xs.map Prod.fst) := by
  induction xs generalizing w with
  | nil => rfl
  | cons x xs ih =>
    obtain ⟨ho,hb,hg⟩ := w.onJob_eq x
    rw [List.map_cons,observe,observe,ih,ho,hb,hg]

def OnExport (m : SliceMap) (job : Job) : Prop := ∃ s, m.slices[job.exportIndex]?=some s

lemma observe_serveExport (hm : SliceMap.new k sliceBytes backingBytes=.ok m) (b : B) (j : ℕ)
    {jobs : List Job} (hv : ∀ job∈jobs, OnExport m job) :
    observe (serveExport (geometry m)) (fun job => job.exportIndex=j) b jobs =
      observe (serveExport (geometry m)) (fun job => job.exportIndex=j) b
        (jobs.filter fun job => job.exportIndex=j) := by
  refine observe_eq_filter _ _ (V := OnExport m)
    (E := fun b b' => ∀ t, m.slices[j]?=some t →
      (LocalBackend.view (B := B)).Same t.offset (t.offset+t.len) b b')
    (fun job hv hjob h => ?_) (fun job hv hjob h t ht => ?_)
    (fun t _ => CellView.Same.refl _ _ b) hv
  · obtain ⟨s,hs⟩ := hv
    have hc := serveExport_confined (B := B) hs
    rw [decide_eq_true_eq.mp hjob] at hs
    refine ⟨hc.result (h s hs),fun t ht => ?_⟩
    rw [hs] at ht
    cases ht
    exact hc.same (h s hs)
  · obtain ⟨s,hs⟩ := hv
    have hd := windows_disjoint hm hs ht (of_decide_eq_false hjob)
    exact (serveExport_confined hs).same_of_disjoint hd (h t ht)

lemma run_onJob_frame {w : Worker B} (hgeom : w.geom = geometry m)
    {xs : List (Job × Option DemoteReason)} (hv : ∀ x∈xs, OnExport m x.1) :
    (LocalBackend.view (B := B)).config (run (fun w x => (w.onJob x).2) w xs).backend =
      (LocalBackend.view (B := B)).config w.backend ∧
      (run (fun w x => (w.onJob x).2) w xs).geom = geometry m := by
  induction xs generalizing w with
  | nil => exact ⟨rfl,hgeom⟩
  | cons x xs ih =>
    obtain ⟨-,hb,hg⟩ := w.onJob_eq x
    obtain ⟨s,hs⟩ := hv x List.mem_cons_self
    obtain ⟨hc,hg'⟩ := ih (hg.trans hgeom) fun y hy => hv y (List.mem_cons_of_mem _ hy)
    refine ⟨hc.trans ?_,hg'⟩
    rw [hb,hgeom]
    exact (serveExport_confined hs).config_eq w.backend

/-- Whatever the jobs on the exports of a slice map are: every window fits the backend, a job
changes no byte outside of its own slice, and the replies on an export depend on the jobs on
that export alone. -/
theorem exports_isolated (hm : SliceMap.new k sliceBytes backingBytes = .ok m) (w : Worker B)
    (hgeom : w.geom = geometry m) (hsize : backingBytes ≤ BlockBackend.sizeBytes w.backend) :
    (∀ xs : List (Job × Option DemoteReason), (∀ x ∈ xs, OnExport m x.1) →
      ∀ x s, m.slices[x.1.exportIndex]? = some s →
        SliceView.Fits (run (fun w x => (w.onJob x).2) w xs).backend s.offset s.len ∧
        ∀ a, a < s.offset ∨ s.offset+s.len ≤ a →
          (LocalBackend.view (B := B)).cells
              ((run (fun w x => (w.onJob x).2) w xs).onJob x).2.backend a =
            (LocalBackend.view (B := B)).cells
              (run (fun w x => (w.onJob x).2) w xs).backend a) ∧
    ∀ (j : ℕ) (xs ys : List (Job × Option DemoteReason)),
      (∀ x ∈ xs, OnExport m x.1) → (∀ y ∈ ys, OnExport m y.1) →
      (xs.map Prod.fst).filter (fun job => job.exportIndex=j) =
        (ys.map Prod.fst).filter (fun job => job.exportIndex=j) →
      observe Worker.onJob (fun x => x.1.exportIndex=j) w xs =
        observe Worker.onJob (fun x => x.1.exportIndex=j) w ys := by
  constructor
  · intro xs hv x s hs
    obtain ⟨hc,hg⟩ := run_onJob_frame hgeom hv
    generalize run (fun w x => (w.onJob x).2) w xs = w' at hc hg
    obtain ⟨-,hb,-⟩ := w'.onJob_eq x
    obtain ⟨ho,hl,hfit,hlt⟩ := SliceMap.getElem?_new hm hs
    refine ⟨⟨_,checkedAdd_eq_some.mpr ⟨?_,rfl⟩,?_⟩,fun a ha => ?_⟩
    · rwa [ho,hl]
    · rw [ho,hl,LocalBackend.sizeBytes_eq _ _ hc]
      exact hfit.trans hsize
    · rw [hb,hg]
      exact (serveExport_confined hs).outside w'.backend a ha
  · intro j xs ys hx hy hxy
    rw [observe_onJob,observe_onJob,hgeom,
      observe_serveExport hm _ _ fun job h => ?_,hxy,
      ← observe_serveExport hm _ _ fun job h => ?_]
    · obtain ⟨y,hmem,rfl⟩ := List.mem_map.mp h
      exact hy y hmem
    · obtain ⟨x,hmem,rfl⟩ := List.mem_map.mp h
      exact hx x hmem

end

/-- Two exports of one block each over a volatile disk. -/
def twoExports : Worker RamBackend :=
  ⟨RamBackend.new 1024,[(0,512),(512,512)],false,0,[{},{}],[]⟩

def readBlock : Job := ⟨0,⟨0,.read,7,0,512⟩,[]⟩

def fillOther : Job := ⟨1,⟨0,.write,9,0,512⟩,List.replicate 512 0xAB⟩

/-- A neighbour that fills its export does not show in a later read. -/
theorem exports_isolated_twoExports :
    observe Worker.onJob (fun x => x.1.exportIndex=0) twoExports
        [(fillOther,none),(readBlock,none)] =
      observe Worker.onJob (fun x => x.1.exportIndex=0) twoExports [(readBlock,none)] := by
  have hm : SliceMap.new 2 512 1024 =
      .ok ⟨[⟨0,0,512,none,.free⟩,⟨1,512,512,none,.free⟩],rfl⟩ := rfl
  have h₀ : OnExport ⟨[⟨0,0,512,none,.free⟩,⟨1,512,512,none,.free⟩],rfl⟩ readBlock := ⟨_,rfl⟩
  have h₁ : OnExport ⟨[⟨0,0,512,none,.free⟩,⟨1,512,512,none,.free⟩],rfl⟩ fillOther := ⟨_,rfl⟩
  refine (exports_isolated hm twoExports rfl ?_).2 0 _ _ ?_ ?_ rfl
  · exact le_of_eq (List.length_replicate ..).symm
  · intro x hx
    rcases List.mem_cons.mp hx with rfl | hx
    · exact h₁
    · cases List.mem_singleton.mp hx
      exact h₀
  · intro x hx
    cases List.mem_singleton.mp hx
    exact h₀

end RamShared.Nbd

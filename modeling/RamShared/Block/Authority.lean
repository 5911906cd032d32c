import Mathlib.Logic.Relation
import RamShared.Block.Recovery

/-! The protocol that both cached backends follow towards their origin. A backend remembers
whether it may use the origin and whether acknowledged writes are still volatile; the
moves below are all it ever makes. -/
namespace RamShared.Block
open Lib LawfulOrigin Relation

section

structure OriginStatus (O : Type) where
  origin : O
  state : OriginState
  dirty : Bool

variable {O : Type} [OriginStorage O] [LawfulOrigin O]

/-- While the origin is usable and nothing is marked dirty, nothing is volatile. -/
def OriginStatus.Clean (s : OriginStatus O) : Prop :=
  s.state=.ready → s.dirty=false → durable s.origin = volatile s.origin

/-- One move of the protocol. A failure may leave anything in both images. -/
inductive OriginMove : OriginStatus O → OriginStatus O → Prop
  | idle {s : OriginStatus O} {origin : O} (hv : volatile origin = volatile s.origin)
      (hd : durable origin = durable s.origin) : OriginMove s {s with origin := origin}
  | fail {s : OriginStatus O} (origin : O) (dirty : Bool) : OriginMove s ⟨origin,.failed,dirty⟩
  | write {s : OriginStatus O} (origin : O) :
      OriginMove s {s with origin := origin, dirty := true}
  | sync {s : OriginStatus O} {origin : O} (state : OriginState)
      (hd : durable origin = volatile origin) : OriginMove s ⟨origin,state,false⟩

variable {s s' : OriginStatus O} {origin : O}

lemma OriginMove.clean (h : OriginMove s s') (hs : s.Clean) : s'.Clean := by
  cases h with
  | idle hv hd =>
    intro hr hc
    rw [hd,hv]
    exact hs hr hc
  | fail => exact fun hr => by cases hr
  | write => exact fun _ hc => by cases hc
  | sync _ hd => exact fun _ _ => hd

lemma OriginStatus.Clean.moves (hs : s.Clean) (h : ReflTransGen OriginMove s s') : s'.Clean := by
  induction h with
  | refl => exact hs
  | tail _ hm ih => exact hm.clean ih

/-- What a write to the origin leaves behind: it ends dirty or failed, and a successful one has
changed the volatile image. -/
structure WriteEffect (s : OriginStatus O) (off : ℕ) (data : List UInt8) (r : Except IoError Unit)
    (s' : OriginStatus O) : Prop where
  moves : ReflTransGen OriginMove s s'
  dirty : r=.ok () → s'.dirty=true
  stored : r=.ok () → volatile s'.origin = (volatile s.origin).store off data

lemma WriteEffect.failed (s : OriginStatus O) (off : ℕ) (data : List UInt8) (e : IoError)
    (origin : O) (dirty : Bool) : WriteEffect s off data (.error e) ⟨origin,.failed,dirty⟩ :=
  ⟨.single (.fail origin dirty),fun h => (nomatch h),fun h => (nomatch h)⟩

lemma WriteEffect.written {off : ℕ} {data : List UInt8} (h : writeAllAt s.origin off data = (.ok (),origin)) :
    WriteEffect s off data (.ok ()) ⟨origin,s.state,true⟩ := by
  have hok : (writeAllAt s.origin off data).1=.ok () → _ := writeAllAt_ok
  rw [h] at hok
  exact ⟨.single (.write origin),fun _ => rfl,hok⟩

/-- What a sync leaves behind: a successful one found nothing to do or has made the volatile image
durable. -/
structure SyncEffect (s : OriginStatus O) (r : Except IoError Unit) (s' : OriginStatus O) :
    Prop where
  moves : ReflTransGen OriginMove s s'
  volatile_eq : r=.ok () → volatile s'.origin = volatile s.origin
  durable_eq : r=.ok () → s.dirty=false ∧ s'=s ∨ durable s'.origin = volatile s.origin

lemma SyncEffect.unneeded (h : s.dirty=false) : SyncEffect s (.ok ()) s :=
  ⟨.refl,fun _ => rfl,fun _ => .inl ⟨h,rfl⟩⟩

lemma SyncEffect.failed (s : OriginStatus O) (e : IoError) (origin : O) (dirty : Bool) :
    SyncEffect s (.error e) ⟨origin,.failed,dirty⟩ :=
  ⟨.single (.fail origin dirty),fun h => (nomatch h),fun h => (nomatch h)⟩

lemma durable_of_syncData {origin' : O} (h : OriginStorage.syncData origin = (.ok (),origin')) :
    durable origin' = volatile origin' := by
  have hv := syncData_volatile origin
  have hok := syncData_ok origin
  rw [h] at hv hok
  exact (hok rfl).trans hv.symm

lemma SyncEffect.synced (h : OriginStorage.syncData s.origin = (.ok (),origin)) :
    SyncEffect s (.ok ()) ⟨origin,s.state,false⟩ := by
  have hv := syncData_volatile s.origin
  have hok := syncData_ok s.origin
  rw [h] at hv hok
  exact ⟨.single (.sync s.state (durable_of_syncData h)),fun _ => hv,fun _ => .inr (hok rfl)⟩

lemma WriteEffect.forced {s₁ s₂ : OriginStatus O} {off : ℕ} {data : List UInt8}
    (hw : WriteEffect s off data (.ok ()) s₁) (hs : SyncEffect s₁ (.ok ()) s₂) :
    (durable s₂.origin).load off data.length=data := by
  rcases hs.durable_eq rfl with ⟨hclean,-⟩ | hd
  · rw [hw.dirty rfl] at hclean
    cases hclean
  · rw [hd,hw.stored rfl,Image.load_store_self]

lemma SyncEffect.flushed (h : SyncEffect s (.ok ()) s') (hs : s.Clean) (hr : s.state=.ready) :
    durable s'.origin = volatile s'.origin := by
  rcases h.durable_eq rfl with ⟨hd,rfl⟩ | hd
  · exact hs hr hd
  · exact hd.trans (h.volatile_eq rfl).symm

/-- A backend that owns an origin and acknowledges writes to it. -/
class OriginBacked (B : Type) (O : outParam Type) where
  status : B → OriginStatus O
  flush : B → Except IoError Unit × B
  writeAtWithOptions : B → ℕ → List UInt8 → WriteOptions → Except IoError Unit × B

/-- Every acknowledgement of durability is true, and so is every unspoken one. -/
structure DurableAcks {B : Type} [OriginBacked B O] (b : B) : Prop where
  flush : (OriginBacked.flush b).1=.ok () →
    durable (OriginBacked.status (OriginBacked.flush b).2).origin =
      volatile (OriginBacked.status (OriginBacked.flush b).2).origin
  fua : ∀ off data, (OriginBacked.writeAtWithOptions b off data ⟨true⟩).1=.ok () →
    (durable (OriginBacked.status
      (OriginBacked.writeAtWithOptions b off data ⟨true⟩).2).origin).load off data.length=data
  clean : (OriginBacked.status b).Clean

end

/-! The machine that both backends refine. -/

section
variable {B α : Type} {range ready : Except IoError Unit} {idle : Prop} [Decidable idle] {nothing : α}
  {b : B} {act : Except IoError α × B}

/-- The guards of a request: its range, the origin, and whether there is anything to do. -/
def guarded (range ready : Except IoError Unit) (idle : Prop) [Decidable idle] (nothing : α) (b : B)
    (act : Except IoError α × B) : Except IoError α × B :=
  match range with
  | .error e => (.error e,b)
  | .ok () =>
    match ready with
    | .error e => (.error e,b)
    | .ok () => if idle then (.ok nothing,b) else act

lemma guarded_rule {Q : Except IoError α × B → Prop} (hrefused : ∀ e, Q (.error e,b))
    (hidle : idle → Q (.ok nothing,b)) (hact : range=.ok () → ready=.ok () → ¬idle → Q act) :
    Q (guarded range ready idle nothing b act) := by
  unfold guarded
  cases range with
  | error e => exact hrefused e
  | ok u =>
    cases ready with
    | error e => exact hrefused e
    | ok u =>
      dsimp only
      split_ifs with h
      · exact hidle h
      · exact hact rfl rfl h

lemma guarded_refused {e : IoError} (h : ready=.error e) :
    ∃ e, guarded range ready idle nothing b act = (.error e,b) := by
  subst h
  cases range with
  | error e => exact ⟨e,rfl⟩
  | ok u => exact ⟨e,rfl⟩

end

structure Authority (O : Type) where
  origin : O
  latch : OriginLatch
  dirty : Bool

namespace Authority
variable {O : Type}

def status (a : Authority O) : OriginStatus O := ⟨a.origin,a.latch.originState,a.dirty⟩

def failed (a : Authority O) (origin : O) : Authority O := ⟨origin,.tripped,a.dirty⟩

variable [OriginStorage O] (a : Authority O) (off len : ℕ) (data : List UInt8)

def read : Except IoError (List UInt8) × Authority O :=
  match readExactAt a.origin off len with
  | (.error e,origin) => (.error e,a.failed origin)
  | (.ok buf,origin) => (.ok buf,{a with origin := origin})

def write : Except IoError Unit × Authority O :=
  match writeAllAt a.origin off data with
  | (.error e,origin) => (.error e,a.failed origin)
  | (.ok (),origin) => (.ok (),{a with origin := origin, dirty := true})

def sync : Except IoError Unit × Authority O :=
  if !a.dirty then (.ok (),a)
  else match OriginStorage.syncData a.origin with
    | (.error e,origin) => (.error e,a.failed origin)
    | (.ok (),origin) => (.ok (),{a with origin := origin, dirty := false})

def force : Except IoError Unit × Authority O :=
  match a.write off data with
  | (.error e,a) => (.error e,a)
  | (.ok (),a) => a.sync

def probe (block : ℕ) : Bool × Authority O :=
  match readExactAt a.origin 0 block with
  | (.error _,origin) => (false,a.failed origin)
  | (.ok _,origin) =>
    match OriginStorage.syncData origin with
    | (.error _,origin) => (false,a.failed origin)
    | (.ok (),origin) => (true,⟨origin,a.latch.record true,false⟩)

/-- What one request may do: nothing, or one of the accesses if the origin is ready. -/
inductive Serves (a : Authority O) : Authority O → Prop
  | stay : Serves a a
  | read (hready : a.latch.originState=.ready) (off len : ℕ) : Serves a (a.read off len).2
  | write (hready : a.latch.originState=.ready) (off : ℕ) (data : List UInt8) :
      Serves a (a.write off data).2
  | force (hready : a.latch.originState=.ready) (off : ℕ) (data : List UInt8) :
      Serves a (a.force off data).2
  | sync (hready : a.latch.originState=.ready) : Serves a a.sync.2

lemma probe_latch (block : ℕ) : (a.probe block).2.latch = a.latch.record (a.probe block).1 := by
  unfold probe
  rcases readExactAt a.origin 0 block with ⟨e | bytes,o⟩
  · rfl
  dsimp only
  rcases OriginStorage.syncData o with ⟨e | u,o'⟩ <;> rfl

section
variable [LawfulOrigin O]

lemma read_moves : ReflTransGen OriginMove a.status (a.read off len).2.status := by
  have hv := readExactAt_volatile a.origin off len
  have hd := readExactAt_durable a.origin off len
  unfold read
  generalize readExactAt a.origin off len = x at hv hd ⊢
  obtain ⟨e | buf,origin⟩ := x
  · exact .single (.fail origin a.dirty)
  · exact .single (.idle (s := a.status) hv hd)

lemma write_effect : WriteEffect a.status off data (a.write off data).1 (a.write off data).2.status := by
  unfold write
  rcases hx : writeAllAt a.origin off data with ⟨e | ⟨⟩,origin⟩
  · exact .failed _ _ _ _ _ _
  · exact .written hx

lemma sync_effect : SyncEffect a.status a.sync.1 a.sync.2.status := by
  unfold sync
  split_ifs with hd
  · exact .unneeded (by simpa [status] using hd)
  rcases hx : OriginStorage.syncData a.origin with ⟨e | ⟨⟩,origin⟩
  · exact .failed _ _ _ _
  · exact .synced hx

lemma force_moves : ReflTransGen OriginMove a.status (a.force off data).2.status ∧
    ((a.force off data).1=.ok () → (durable (a.force off data).2.origin).load off data.length=data) := by
  have hw := a.write_effect off data
  unfold force
  generalize a.write off data = x at hw ⊢
  obtain ⟨e | ⟨⟩,a₁⟩ := x
  · exact ⟨hw.moves,nofun⟩
  · have hs := a₁.sync_effect
    dsimp only at hw ⊢
    exact ⟨hw.moves.trans hs.moves,fun hok => hw.forced (hok ▸ hs)⟩

lemma probe_moves (block : ℕ) : ReflTransGen OriginMove a.status (a.probe block).2.status := by
  unfold probe
  rcases readExactAt a.origin 0 block with ⟨e | bytes,origin⟩
  · exact .single (.fail origin a.dirty)
  dsimp only
  rcases hy : OriginStorage.syncData origin with ⟨e | ⟨⟩,origin'⟩
  · exact .single (.fail origin' a.dirty)
  · exact .single (.sync _ (durable_of_syncData hy))

lemma Serves.moves {a a' : Authority O} (h : a.Serves a') : ReflTransGen OriginMove a.status a'.status := by
  cases h with
  | stay => exact .refl
  | read _ off len => exact a.read_moves off len
  | write _ off data => exact (a.write_effect off data).moves
  | force _ off data => exact (a.force_moves off data).1
  | sync => exact a.sync_effect.moves

end

section
variable (a : Authority (OriginRecorder O))

def log : List OriginCall := a.origin.log

lemma read_trips : Trips log latch a (a.read off len) := by
  have hreports := readExactAt_reports a.origin off len
  unfold read
  generalize readExactAt a.origin off len = x at hreports ⊢
  obtain ⟨e | bytes,o⟩ := x
  · exact .failed hreports rfl rfl
  · exact .succeeded hreports nofun rfl

lemma write_trips : Trips log latch a (a.write off data) := by
  have hreports := writeAllAt_reports a.origin off data
  unfold write
  generalize writeAllAt a.origin off data = x at hreports ⊢
  obtain ⟨e | u,o⟩ := x
  · exact .failed hreports rfl rfl
  · exact .succeeded hreports nofun rfl

lemma sync_trips : Trips log latch a a.sync := by
  have hreports := syncData_reports a.origin
  unfold sync
  split
  · exact .refl a _
  generalize OriginStorage.syncData a.origin = x at hreports ⊢
  obtain ⟨e | u,o⟩ := x
  · exact .failed hreports rfl rfl
  · exact .succeeded hreports nofun rfl

lemma force_trips : Trips log latch a (a.force off data) := by
  have hwrite := a.write_trips off data
  unfold force
  generalize a.write off data = x at hwrite ⊢
  obtain ⟨e | u,a₁⟩ := x
  · exact hwrite
  · exact hwrite.trans a₁.sync_trips

lemma probe_reports (block : ℕ) : Reports a.log (a.probe block).2.log ((a.probe block).2.latch=.tripped) := by
  have hread := readExactAt_reports a.origin 0 block
  unfold probe
  generalize readExactAt a.origin 0 block = x at hread ⊢
  obtain ⟨e | bytes,o⟩ := x
  · exact hread.mono fun _ => rfl
  dsimp only
  have hboth := hread.trans (syncData_reports o) nofun
  generalize OriginStorage.syncData o = x at hboth ⊢
  obtain ⟨e | u,o'⟩ := x
  · exact hboth.mono fun _ => rfl
  · exact hboth.mono nofun

lemma Serves.reports {a a' : Authority (OriginRecorder O)} (h : a.Serves a') :
    Reports a.log a'.log (a'.latch=.tripped) := by
  cases h with
  | stay => exact .refl _ _
  | read _ off len => exact (a.read_trips off len).mono And.right
  | write _ off data => exact (a.write_trips off data).mono And.right
  | force _ off data => exact (a.force_trips off data).mono And.right
  | sync => exact a.sync_trips.mono And.right

end
end Authority

section
variable {S I O : Type} [OriginStorage O]

/-- A system that refines the machine: each step is a probe of the origin or serves one request. -/
structure Fronts (step : S → I → S) (authority : S → Authority O) (probe : S → I → Option Bool) :
    Prop where
  served : ∀ s i, probe s i=none → (authority s).Serves (authority (step s i))
  probed : ∀ s i ok, probe s i=some ok →
    ∃ block, (authority s).probe block = (ok,authority (step s i))

variable {step : S → I → S} {probe : S → I → Option Bool}

lemma Fronts.latched {authority : S → Authority O} (h : Fronts step authority probe) :
    Latched step (fun s => (authority s).latch) probe where
  probed s i ok hprobe := by
    obtain ⟨block,hb⟩ := h.probed s i ok hprobe
    have hlatch := (authority s).probe_latch block
    rwa [hb] at hlatch
  idle s i hprobe hdown := by
    have hserves := h.served s i hprobe
    generalize authority (step s i) = a at hserves ⊢
    cases hserves with
    | stay => rfl
    | read hready | write hready | force hready | sync hready => exact absurd hready hdown

lemma Fronts.reports {authority : S → Authority (OriginRecorder O)} (h : Fronts step authority probe)
    (s : S) (i : I) :
    Reports (authority s).log (authority (step s i)).log ((authority (step s i)).latch=.tripped) := by
  cases hp : probe s i with
  | none => exact (h.served s i hp).reports
  | some ok =>
    obtain ⟨block,hb⟩ := h.probed s i ok hp
    have hreports := (authority s).probe_reports block
    rwa [hb] at hreports

lemma Fronts.clean [LawfulOrigin O] {authority : S → Authority O} (h : Fronts step authority probe)
    {s : S} (hs : (authority s).status.Clean) (i : I) : (authority (step s i)).status.Clean := by
  cases hp : probe s i with
  | none => exact hs.moves (h.served s i hp).moves
  | some ok =>
    obtain ⟨block,hb⟩ := h.probed s i ok hp
    have hmoves := (authority s).probe_moves block
    rw [hb] at hmoves
    exact hs.moves hmoves

end

section
variable {B O : Type} {authority : B → Authority O} {b : B} {nothing : Prop}
  {access : Except IoError Unit × Authority O}

/-- A request is refused, has nothing to do, or makes its access while the origin is ready. -/
inductive Answers (authority : B → Authority O) (b : B) (nothing : Prop)
    (access : Except IoError Unit × Authority O) : Except IoError Unit × B → Prop
  | refused (e : IoError) : Answers authority b nothing access (.error e,b)
  | idle (h : nothing) : Answers authority b nothing access (.ok (),b)
  | made {x : Except IoError Unit × B} (hready : (authority b).latch.originState=.ready)
      (h : Prod.map id authority x=access) : Answers authority b nothing access x

lemma guarded_answers {range ready : Except IoError Unit} [Decidable nothing]
    {act : Except IoError Unit × B} (hready : ready=.ok () → (authority b).latch.originState=.ready)
    (hact : Prod.map id authority act=access) :
    Answers authority b nothing access (guarded range ready nothing () b act) :=
  guarded_rule .refused .idle fun _ h _ => .made (hready h) hact

variable [OriginStorage O]

lemma Answers.serves {x : Except IoError Unit × B} (h : Answers authority b nothing access x)
    (hserves : (authority b).latch.originState=.ready → (authority b).Serves access.2) :
    (authority b).Serves (authority x.2) := by
  cases h with
  | refused => exact .stay
  | idle => exact .stay
  | made hready h =>
    subst h
    exact hserves hready

lemma DurableAcks.of_answers (authority : B → Authority O) [LawfulOrigin O] [OriginBacked B O]
    (hstatus : ∀ b : B, OriginBacked.status b = (authority b).status) (hclean : (authority b).status.Clean)
    (hflush : Answers authority b False (authority b).sync (OriginBacked.flush b))
    (hforce : ∀ off data, Answers authority b (data=[]) ((authority b).force off data)
      (OriginBacked.writeAtWithOptions b off data ⟨true⟩)) : DurableAcks b := by
  refine ⟨fun hok => ?_,fun off data hok => ?_,hstatus b ▸ hclean⟩
  · generalize OriginBacked.flush b = x at hflush hok ⊢
    cases hflush with
    | refused => cases hok
    | idle h => exact h.elim
    | made hready h =>
      have heffect := (authority b).sync_effect
      rw [←h] at heffect
      rw [hstatus]
      exact (hok ▸ heffect : SyncEffect _ (.ok ()) _).flushed hclean hready
  · have hanswers := hforce off data
    generalize OriginBacked.writeAtWithOptions b off data ⟨true⟩ = x at hanswers hok ⊢
    cases hanswers with
    | refused => cases hok
    | idle h =>
      subst h
      rfl
    | made hready h =>
      have hstored := ((authority b).force_moves off data).2
      rw [←h] at hstored
      rw [hstatus]
      exact hstored hok

end

end RamShared.Block

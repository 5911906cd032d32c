import RamShared.Block.Authority
import RamShared.Isolated.Backend

/-! What an operation of an authoritative backend may do to its cache and to the image behind
it, said once for every cache. -/
namespace RamShared.Isolated
open Lib Block LawfulOrigin

variable {O C : Type} [BestEffortCache C]

namespace BestEffortCache

/-- The caches that calls lead to. -/
inductive Called (c : C) : C → Prop
  | refl : Called c c
  | read {c' : C} (h : Called c c') (off len : ℕ) : Called c (read c' off len).2.2
  | update {c' : C} (h : Called c c') (off : ℕ) (data : List UInt8) : Called c (update c' off data).2
  | promote {c' : C} (h : Called c c') (off : ℕ) (data : List UInt8) :
      Called c (promote c' off data).2
  | disable {c' : C} (h : Called c c') : Called c (disable c').2

end BestEffortCache

namespace AuthoritativeOriginBackend
open BestEffortCache (Called update disable)

def Op.write? : Op → Option (ℕ × List UInt8 × Bool)
  | .writeAt off data => some (off,data,false)
  | .writeAtWithOptions off data options => some (off,data,options.fua)
  | _ => none

variable [OriginStorage O] [LawfulOrigin O]

/-- The device and the standing of the origin are kept, and the image becomes the given one. -/
structure Moved (b : AuthoritativeOriginBackend O C) (img : Image UInt8)
    (b' : AuthoritativeOriginBackend O C) : Prop where
  size : b'.size=b.size
  image : volatile b'.origin=img
  ready : b.originState=.ready → b'.originState=.ready

/-- The outcomes of an access to the origin. -/
inductive Accessed (b : AuthoritativeOriginBackend O C) (img : Image UInt8) :
    Except IoError Unit × AuthoritativeOriginBackend O C → Prop
  | failed (e : IoError)
      (hc : b'.cache = (disable b.cache).2) (hs : b'.size=b.size) :
      Accessed b img (.error e,b')
  | taken (hc : b'.cache=b.cache) (h : b.Moved img b') :
      Accessed b img (.ok (),b')

structure Admits (b : AuthoritativeOriginBackend O C) (off len : ℕ) : Prop where
  range : b.checkRange off len=.ok ()
  ready : b.originState=.ready
  pos : len≠0

/-- The outcomes of an operation. Only what revokes the cache may change the standing of the
origin for the worse. -/
inductive Effect (b : AuthoritativeOriginBackend O C) : Op → AuthoritativeOriginBackend O C → Prop
  | kept (h : b.Moved (volatile b.origin) b') (hc : b'.cache=b.cache) : Effect b op b'
  | revoked (hcalls : Called b.cache c) (hc : b'.cache = (disable c).2) (hs : b'.size=b.size) :
      Effect b op b'
  | hit (h : b.Moved (volatile b.origin) b')
      (hc : b'.cache = (BestEffortCache.read b.cache off len).2.2) : Effect b (.readAt off len) b'
  | promoted (ha : b.Admits off len)
      (hfrom : c = (BestEffortCache.read b.cache off len).2.2 ∨
        c = (disable (BestEffortCache.read b.cache off len).2.2).2)
      (hok : (readExactAt b.origin off len).1=.ok buf) (h : b.Moved (volatile b.origin) b')
      (haccepted : (BestEffortCache.promote c off buf).1≠.failed)
      (hc : b'.cache = (BestEffortCache.promote c off buf).2) : Effect b (.readAt off len) b'
  | updated {op : Op} {off : ℕ} {data : List UInt8} {fua : Bool}
      (hop : op.write?=some (off,data,fua)) (ha : b.Admits off data.length)
      (hwrite : (b.writeOrigin off data).1=.ok ())
      (hsync : fua=true → (b.writeOrigin off data).2.syncDirtyOrigin.1=.ok ())
      (h : b.Moved ((volatile b.origin).store off data) b')
      (haccepted : (update b.cache off data).1≠.failed)
      (hc : b'.cache = (update b.cache off data).2) : Effect b op b'

variable {b b₁ b₂ : AuthoritativeOriginBackend O C} {img : Image UInt8} {op : Op} {off len : ℕ}
  {data : List UInt8}

omit [BestEffortCache C] in
lemma Moved.trans (h : b.Moved img b₁) (h' : b₁.Moved (volatile b₁.origin) b₂) : b.Moved img b₂ :=
  ⟨h'.size.trans h.size,h'.image.trans h.image,fun hr => h'.ready (h.ready hr)⟩

lemma Effect.refl (b : AuthoritativeOriginBackend O C) (op : Op) : b.Effect op b :=
  .kept ⟨rfl,rfl,id⟩ rfl

lemma Accessed.effect {x : Except IoError Unit × AuthoritativeOriginBackend O C}
    (h : b.Accessed (volatile b.origin) x) : b.Effect op x.2 := by
  cases h with
  | failed e hc hs => exact .revoked .refl hc hs
  | taken hc h => exact .kept h hc

lemma updateCache_spec (b : AuthoritativeOriginBackend O C) (off : ℕ) (data : List UInt8) :
    b.Moved (volatile b.origin) (b.updateCache off data) ∧
    ((b.updateCache off data).cache = (disable (update b.cache off data).2).2 ∨
      (update b.cache off data).1≠.failed ∧
        (b.updateCache off data).cache = (update b.cache off data).2) := by
  unfold updateCache
  rcases update b.cache off data with ⟨_ | _ | _,cache⟩
  · exact ⟨⟨rfl,rfl,id⟩,.inr ⟨by simp,rfl⟩⟩
  · exact ⟨⟨rfl,rfl,id⟩,.inr ⟨by simp,rfl⟩⟩
  · exact ⟨⟨rfl,rfl,id⟩,.inl rfl⟩

lemma promote_spec (b : AuthoritativeOriginBackend O C) (off : ℕ) (data : List UInt8) :
    b.Moved (volatile b.origin) (b.promote off data) ∧
    ((b.promote off data).cache = (disable (BestEffortCache.promote b.cache off data).2).2 ∨
      (BestEffortCache.promote b.cache off data).1≠.failed ∧
        (b.promote off data).cache = (BestEffortCache.promote b.cache off data).2) := by
  unfold promote
  rcases BestEffortCache.promote b.cache off data with ⟨_ | _ | _,cache⟩
  · exact ⟨⟨rfl,rfl,id⟩,.inr ⟨by simp,rfl⟩⟩
  · exact ⟨⟨rfl,rfl,id⟩,.inr ⟨by simp,rfl⟩⟩
  · exact ⟨⟨rfl,rfl,id⟩,.inl rfl⟩

lemma writeOrigin_accessed (b : AuthoritativeOriginBackend O C) (off : ℕ) (data : List UInt8) :
    b.Accessed ((volatile b.origin).store off data) (b.writeOrigin off data) := by
  have hok : (writeAllAt b.origin off data).1=.ok () → _ := writeAllAt_ok
  unfold writeOrigin
  generalize writeAllAt b.origin off data = x at hok ⊢
  rcases x with ⟨e | ⟨⟩,origin⟩
  · exact .failed e rfl rfl
  · exact .taken rfl ⟨rfl,hok rfl,id⟩

lemma syncDirtyOrigin_accessed (b : AuthoritativeOriginBackend O C) :
    b.Accessed (volatile b.origin) b.syncDirtyOrigin := by
  have hsync := syncData_volatile b.origin
  unfold syncDirtyOrigin
  split_ifs
  · exact .taken rfl ⟨rfl,rfl,id⟩
  generalize OriginStorage.syncData b.origin = x at hsync ⊢
  rcases x with ⟨e | ⟨⟩,origin⟩
  · exact .failed e rfl rfl
  · exact .taken rfl ⟨rfl,hsync,id⟩

lemma readFromOrigin_effect (ha : b.Admits off len) (h : b₁.originState=b.originState)
    (ho : b₁.origin=b.origin) (hs : b₁.size=b.size)
    (hfrom : b₁.cache = (BestEffortCache.read b.cache off len).2.2 ∨
      b₁.cache = (disable (BestEffortCache.read b.cache off len).2.2).2) :
    b.Effect (.readAt off len) (b₁.readFromOrigin off len).2 := by
  have hcalls : Called b.cache b₁.cache := by
    rcases hfrom with hc | hc
    · exact hc ▸ .read .refl off len
    · exact hc ▸ .disable (.read .refl off len)
  have hv := readExactAt_volatile b.origin off len
  unfold readFromOrigin
  rw [ho]
  generalize hx : readExactAt b.origin off len = x at hv ⊢
  rcases x with ⟨e | buf,origin⟩
  · exact .revoked hcalls rfl hs
  have hm : ∀ t, b.Moved (volatile b.origin) {b₁ with origin := origin, telemetry := t} :=
    fun _ => ⟨hs,hv,h.trans⟩
  obtain ⟨hk,hc | ⟨hp,hc⟩⟩ := promote_spec { b₁ with
    origin := origin
    telemetry := { b₁.telemetry with fallbackReads := bump b₁.telemetry.fallbackReads}} off buf
  · exact .revoked (.promote hcalls off buf) hc (hk.size.trans hs)
  · exact .promoted ha hfrom (by rw [hx]) ((hm _).trans hk) hp hc

omit [BestEffortCache C] [OriginStorage O] [LawfulOrigin O] in
lemma Admits.of_guards (hrange : b.checkRange off data.length=.ok ())
    (hready : b.requireReadyOrigin=.ok ()) (hne : data≠[]) : b.Admits off data.length :=
  ⟨hrange,ready_of_requireReadyOrigin hready,by simpa using hne⟩

lemma updateCache_effect {fua : Bool} (hop : op.write?=some (off,data,fua))
    (ha : b.Admits off data.length) (hwrite : (b.writeOrigin off data).1=.ok ())
    (hsync : fua=true → (b.writeOrigin off data).2.syncDirtyOrigin.1=.ok ())
    (h : b.Moved ((volatile b.origin).store off data) b₁) (hcache : b₁.cache=b.cache) :
    b.Effect op (b₁.updateCache off data) := by
  obtain ⟨hk,hc⟩ := b₁.updateCache_spec off data
  rw [hcache] at hc
  rcases hc with hc | ⟨hu,hc⟩
  · exact .revoked (.update .refl off data) hc (hk.size.trans h.size)
  · exact .updated hop ha hwrite hsync (h.trans hk) hu hc

lemma readAt_effect (b : AuthoritativeOriginBackend O C) (off len : ℕ) :
    b.Effect (.readAt off len) (b.readAt off len).2 := by
  refine guarded_rule (Q := fun x => b.Effect (.readAt off len) x.2) (fun _ => .refl b _)
    (fun _ => .refl b _) fun hrange hready hne => ?_
  have ha : b.Admits off len := ⟨hrange,ready_of_requireReadyOrigin hready,hne⟩
  generalize hx : BestEffortCache.read b.cache off len=x
  have hc := congrArg (fun x => x.2.2) hx.symm
  rcases x with ⟨_ | _ | _,buf,cache⟩
  · exact .hit ⟨rfl,rfl,id⟩ hc
  · exact readFromOrigin_effect ha rfl rfl rfl (.inl hc)
  · exact readFromOrigin_effect ha rfl rfl rfl
      (.inr (congrArg (fun c => (disable c).2) hc))

lemma writeAt_effect (hop : op.write?=some (off,data,false)) : b.Effect op (b.writeAt off data).2 := by
  refine guarded_rule (Q := fun x => b.Effect op x.2) (fun _ => .refl b _)
    (fun _ => .refl b _) fun hrange hready hne => ?_
  have hw := b.writeOrigin_accessed off data
  generalize hx : b.writeOrigin off data = x at hw ⊢
  cases hw with
  | failed e hc hs => exact .revoked .refl hc hs
  | taken hc h =>
    exact updateCache_effect hop (.of_guards hrange hready hne) (by rw [hx])
      (fun hf => absurd hf (by simp)) ⟨h.size,h.image,h.ready⟩ hc

lemma writeAtWithOptions_effect (b : AuthoritativeOriginBackend O C) (off : ℕ) (data : List UInt8)
    (options : WriteOptions) : b.Effect (.writeAtWithOptions off data options)
      (b.writeAtWithOptions off data options).2 := by
  rcases options with ⟨_ | _⟩
  · exact writeAt_effect rfl
  refine guarded_rule (Q := fun x => b.Effect _ x.2) (fun _ => .refl b _)
    (fun _ => .refl b _) fun hrange hready hne => ?_
  have hw := b.writeOrigin_accessed off data
  generalize hx : b.writeOrigin off data = x at hw ⊢
  cases hw with
  | failed e hc hs => exact .revoked .refl hc hs
  | @taken b₁ hc h =>
    have hs := b₁.syncDirtyOrigin_accessed
    dsimp only
    generalize hy : b₁.syncDirtyOrigin = y at hs ⊢
    cases hs with
    | failed e hc' hs' => exact .revoked .refl (hc ▸ hc') (hs'.trans h.size)
    | taken hc' h' =>
      exact updateCache_effect rfl (.of_guards hrange hready hne) (by rw [hx])
        (fun _ => by rw [hx,hy]) (h.trans h') (hc'.trans hc)

lemma probeOrigin_effect (b : AuthoritativeOriginBackend O C) : b.Effect .probeOrigin b.probeOrigin.2 := by
  have hr := readExactAt_volatile b.origin 0 b.block
  unfold probeOrigin
  generalize readExactAt b.origin 0 b.block = x at hr ⊢
  rcases x with ⟨e | bytes,origin⟩
  · exact .revoked .refl rfl rfl
  have hsync := (syncData_volatile origin).trans hr
  dsimp only
  generalize OriginStorage.syncData origin = y at hsync ⊢
  rcases y with ⟨e | ⟨⟩,origin'⟩
  · exact .revoked .refl rfl rfl
  unfold recordProbe
  dsimp only
  split_ifs with hst
  · exact .kept ⟨rfl,hsync,fun _ => rfl⟩ rfl
  · exact .kept ⟨rfl,hsync,fun h => by simp [h] at hst⟩ rfl
  · exact .kept ⟨rfl,hsync,id⟩ rfl

theorem step_effect (b : AuthoritativeOriginBackend O C) (op : Op) : b.Effect op (b.step op) := by
  cases op with
  | readAt off len => exact b.readAt_effect off len
  | writeAt off data => exact writeAt_effect rfl
  | writeAtWithOptions off data options => exact b.writeAtWithOptions_effect off data options
  | flush =>
    simp only [step,flush]
    split
    · exact .refl b _
    · exact b.syncDirtyOrigin_accessed.effect
  | releaseCache =>
    simp only [step,releaseCache]
    generalize hx : b.revokeCache=x
    have hr : b.revokeCache.2=x.2 := by rw [hx]
    rcases x with ⟨_ | _ | _,b'⟩ <;> subst hr <;> exact .revoked .refl rfl rfl
  | probeOrigin => exact b.probeOrigin_effect

end AuthoritativeOriginBackend
end RamShared.Isolated

import RamShared.Isolated.Effects

/-! An authoritative backend is as coherent as its cache. What it asks of the cache is stated
once; any cache that meets it, whatever runs behind it, leaves every read exact. -/
namespace RamShared.Isolated
open Lib Block LawfulOrigin

/-- A cache with a notion of agreeing with an image outside an exception range. Revocation ends
every obligation: a disabled cache is sound for all images. -/
class CoherentCache (C : Type) [BestEffortCache C] where
  SoundOutside : Image UInt8 → ℕ → ℕ → C → Prop
  of_change : ∀ {img img' : Image UInt8} {c : C} {lo hi : ℕ}, SoundOutside img 0 0 c →
    (∀ a, a<lo ∨ hi≤a → img' a = img a) → SoundOutside img' lo hi c
  read_sound : ∀ {img : Image UInt8} {c : C} (off len : ℕ), SoundOutside img 0 0 c →
    SoundOutside img 0 0 (BestEffortCache.read c off len).2.2
  read_hit : ∀ {img : Image UInt8} {c : C} (off len : ℕ), SoundOutside img 0 0 c →
    (BestEffortCache.read c off len).1=.hit →
      (BestEffortCache.read c off len).2.1 = img.load off len
  update_sound : ∀ {img : Image UInt8} {c : C} {off : ℕ} {data : List UInt8},
    SoundOutside img off (off+data.length) c → data = img.load off data.length →
      SoundOutside img 0 0 (BestEffortCache.update c off data).2
  promote_sound : ∀ {img : Image UInt8} {c : C} {off : ℕ} {data : List UInt8},
    SoundOutside img 0 0 c → data = img.load off data.length →
      SoundOutside img 0 0 (BestEffortCache.promote c off data).2
  disable_sound : ∀ (img : Image UInt8) (lo hi : ℕ) (c : C),
    SoundOutside img lo hi (BestEffortCache.disable c).2

namespace AuthoritativeOriginBackend
variable {O C : Type} [BestEffortCache C] [CoherentCache C] [OriginStorage O] [LawfulOrigin O]
open CoherentCache

def Sound (b : AuthoritativeOriginBackend O C) : Prop :=
  SoundOutside (volatile b.origin) 0 0 b.cache

variable {b b' : AuthoritativeOriginBackend O C}

lemma Effect.sound {op : Op} (h : b.Sound) (he : b.Effect op b') : b'.Sound := by
  unfold Sound at h ⊢
  cases he with
  | kept hm hc =>
    rw [hm.image,hc]
    exact h
  | revoked hcalls hc hs =>
    rw [hc]
    exact disable_sound _ _ _ _
  | hit hm hc =>
    rw [hm.image,hc]
    exact read_sound _ _ h
  | promoted ha hfrom hok hm haccepted hc =>
    rw [hm.image,hc]
    refine promote_sound ?_ ?_
    · rcases hfrom with rfl | rfl
      · exact read_sound _ _ h
      · exact disable_sound _ _ _ _
    · rw [readExactAt_ok hok,Image.length_load]
  | updated hop ha hwrite hsync hm haccepted hc =>
    rw [hm.image,hc]
    refine update_sound (of_change h fun a ha => Image.store_outside _ _ ha) ?_
    rw [Image.load_store_self]

omit [CoherentCache C] in
lemma readFromOrigin_exact {off len : ℕ} {buf : List UInt8}
    (h : (b.readFromOrigin off len).1=.ok buf) : buf = (volatile b.origin).load off len := by
  have hok : ∀ buf, (readExactAt b.origin off len).1=.ok buf → _ :=
    fun buf => readExactAt_ok
  unfold readFromOrigin at h
  generalize readExactAt b.origin off len = x at h hok
  rcases x with ⟨e | bytes,origin⟩
  · cases h
  · exact hok buf h

lemma readAt_exact (h : b.Sound) {off len : ℕ} {buf : List UInt8} :
    (b.readAt off len).1=.ok buf → buf = (volatile b.origin).load off len := by
  refine guarded_rule (Q := fun x => x.1=.ok buf → _) (fun _ => nofun) ?_ fun _ _ _ => ?_
  · rintro rfl ⟨⟩
    rfl
  have hh := read_hit off len h
  generalize BestEffortCache.read b.cache off len = x at hh ⊢
  rcases x with ⟨_ | _ | _,bytes,cache⟩
  · rintro ⟨⟩
    exact hh rfl
  · exact readFromOrigin_exact
  · exact readFromOrigin_exact

end AuthoritativeOriginBackend
end RamShared.Isolated

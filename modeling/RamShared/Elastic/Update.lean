import RamShared.Elastic.Resident

/-! What updates, evictions and revocation do to the resident bytes. An update is skipped,
fails, or writes into one chunk, which it may have allocated for the purpose. -/
namespace RamShared.Elastic
open Lib Block Isolated
open VramProvider (Mem)

namespace ElasticVramCache
variable {P : Type} [VramProvider P] (c : ElasticVramCache P)

/-- An update that starts at `off` leaves the cache alone: the watchdog is tripped, or its chunk
is spilled, or is absent and cannot be allocated. -/
def Skips (off : ℕ) : Prop :=
  c.watchdogTripped=true ∨ ∃ s, c.slots[off/c.config.chunkBytes]?=some s ∧
    (s.spilledToSsd=true ∨
      s.mem=none ∧ (c.allocateSlot (off/c.config.chunkBytes)).1=none)

/-- An update that starts at `off` brings in a region the cache did not hold before. -/
def Allocates (off : ℕ) (mem : Mem P) : Prop :=
  c.watchdogTripped=false ∧ ∃ s, c.slots[off/c.config.chunkBytes]?=some s ∧
    s.spilledToSsd=false ∧ s.mem=none ∧
    (c.allocateSlot (off/c.config.chunkBytes)).1=some mem

lemma not_allocates_disable (off : ℕ) (mem : Mem P) : ¬c.disable.2.Allocates off mem := by
  rintro ⟨-,s,hs,hsp,-⟩
  simp only [disable,List.getElem?_map,Option.map_eq_some_iff] at hs
  obtain ⟨s₀,-,rfl⟩ := hs
  cases hsp

lemma readSlot_slots (index : ℕ) (mem : Mem P)
    (off len : ℕ) : ∃ f : ChunkSlot (Mem P) → ChunkSlot (Mem P), (∀ s, (f s).mem=s.mem) ∧
      (c.readSlot index mem off len).2.2.slots = c.slots.modify index f ∧
      (c.readSlot index mem off len).2.2.config=c.config := by
  unfold readSlot
  split
  · dsimp only
    split_ifs
    · refine ⟨_,?_,rfl,rfl⟩
      exact fun s => rfl
    · refine ⟨_,?_,rfl,rfl⟩
      exact fun s => rfl
  · refine ⟨_,?_,rfl,rfl⟩
    exact fun s => rfl

variable {c : ElasticVramCache P}

lemma read_eq_of_allocates {off len : ℕ} {mem : Mem P}
    (h : (c.read off len).2.2.Allocates off mem) : (c.read off len).2.2=c := by
  unfold read at h ⊢
  split_ifs at h ⊢
  · rfl
  · rfl
  dsimp only at h ⊢
  split at h
  · rfl
  · rename_i s hslot
    split at h
    · exfalso
      rename_i mem' hsp hm
      obtain ⟨f,hf,hslots,hcfg⟩ :=
        c.readSlot_slots (off/c.config.chunkBytes) mem' off len
      obtain ⟨-,s',hs',-,hnone,-⟩ := h
      rw [hslots,hcfg,List.getElem?_modify,hslot] at hs'
      simp only [if_true,Option.map_eq_map,Option.map_some,Option.some.injEq] at hs'
      rw [←hs',hf,hm] at hnone
      cases hnone
    · rfl

variable [LawfulVram P]

lemma resident_storeMem {index : ℕ} {mem : Mem P} (hh : c.Holds index mem)
    (mem' : Mem P) {size a : ℕ} {v : UInt8}
    (hv : (c.modifySlot index fun s => {s with mem := some mem'}).resident size a=some v) :
    index ≠ a/c.config.chunkBytes ∧ c.resident size a=some v ∨
      index = a/c.config.chunkBytes ∧ v = LawfulVram.contents mem' (a%c.config.chunkBytes) := by
  obtain ⟨s,hslot,hsp,-⟩ := hh.slot
  have ha := lt_of_resident hv
  rw [resident_modifySlot] at hv
  by_cases hi : index = a/c.config.chunkBytes
  · rw [if_pos ⟨ha,hi⟩,←hi,hslot] at hv
    simp only [Option.bind_some,slotByte,hsp] at hv
    exact .inr ⟨hi,(Option.some.inj hv).symm⟩
  · rw [if_neg fun h => hi h.2] at hv
    exact .inl ⟨hi,hv⟩

lemma resident_modifySlot_of_slotByte (size index : ℕ) {f : ChunkSlot (Mem P) → ChunkSlot (Mem P)}
    (hf : ∀ s r, slotByte (f s) r = slotByte s r) : (c.modifySlot index f).resident size = c.resident size := by
  funext a
  rw [resident_modifySlot]
  split_ifs with h
  · simp only [resident,if_pos h.1,hf]
  · rfl

lemma writeSlot_spec (h : c.WellFormed) (hs : c.state=.active) {mem : Mem P}
    (size off : ℕ) (data : List UInt8) (hh : c.Holds (off/c.config.chunkBytes) mem) :
    (c.writeSlot (off/c.config.chunkBytes) mem off data).2.WellFormed ∧
    ((c.writeSlot (off/c.config.chunkBytes) mem off data).1=.failed ∨
      (c.writeSlot (off/c.config.chunkBytes) mem off data).1=.accepted ∧
      off%c.config.chunkBytes+data.length ≤ c.config.chunkBytes ∧
      ∀ a v, (c.writeSlot (off/c.config.chunkBytes) mem off data).2.resident size a=some v →
        off/c.config.chunkBytes ≠ a/c.config.chunkBytes ∧ c.resident size a=some v ∨
        off/c.config.chunkBytes = a/c.config.chunkBytes ∧
          v = (LawfulVram.contents mem).store (off%c.config.chunkBytes) data (a%c.config.chunkBytes)) := by
  have hlen : VramProvider.len mem=c.config.chunkBytes := by
    obtain ⟨s,hs,-,hm⟩ := hh.slot
    exact h.len_eq _ s mem hs hm
  have hw := LawfulVram.writeAt_ok c.provider mem (off%c.config.chunkBytes) data
  have hl := LawfulVram.writeAt_len c.provider mem (off%c.config.chunkBytes) data
  unfold writeSlot
  generalize VramProvider.writeAt c.provider mem (off%c.config.chunkBytes) data = x at hw hl ⊢
  rcases x with ⟨e | ⟨⟩,mem',provider⟩
  · refine ⟨WellFormed.giveUp (WellFormed.modifySlot ?_ _ ?_) _,.inl rfl⟩
    · exact ⟨h.len_eq,h.revoked⟩
    · rintro s m ⟨⟩
      exact .inr ⟨hl.trans hlen,hs⟩
  have hwf : (({c with provider := provider}).tick.modifySlot (off/c.config.chunkBytes)
      fun s => {s with mem := some mem'}).WellFormed := by
    refine WellFormed.modifySlot ?_ _ ?_
    · exact ⟨h.len_eq,h.revoked⟩
    · rintro s m ⟨⟩
      exact .inr ⟨hl.trans hlen,hs⟩
  dsimp only
  split_ifs
  · refine ⟨WellFormed.giveUp ?_ _,.inl rfl⟩
    exact ⟨hwf.len_eq,hwf.revoked⟩
  · refine ⟨WellFormed.modifySlot_of_mem ?_ _ fun s m hm => hm,.inr ⟨rfl,?_,fun a v hv => ?_⟩⟩
    · exact ⟨hwf.len_eq,hwf.revoked⟩
    · exact hlen ▸ (hw rfl).1
    · dsimp only at hv
      rw [resident_modifySlot_of_slotByte] at hv
      · rw [←(hw rfl).2]
        exact resident_storeMem (c := ({c with provider := provider}).tick)
          ⟨hh.slot,hh.chunk_pos⟩ mem' hv
      · exact fun _ _ => rfl

lemma allocateSlot_spec (h : c.WellFormed) (hs : c.state=.active) (size : ℕ) {index : ℕ}
    {s : ChunkSlot (Mem P)} (hslot : c.slots[index]?=some s)
    (hsp : s.spilledToSsd=false) (hc : 0<c.config.chunkBytes) :
    (c.allocateSlot index).2.WellFormed ∧ (c.allocateSlot index).2.state=.active ∧
    (c.allocateSlot index).2.config=c.config ∧
    ((c.allocateSlot index).1=none → Forgets (c.resident size) ((c.allocateSlot index).2.resident size)) ∧
    ∀ mem, (c.allocateSlot index).1=some mem → (c.allocateSlot index).2.Holds index mem ∧
      ∀ a v, index ≠ a/c.config.chunkBytes →
        (c.allocateSlot index).2.resident size a=some v → c.resident size a=some v := by
  have hspill : ∀ c' : ElasticVramCache P, Forgets (c'.resident size)
      ((c'.modifySlot index fun s => {s with spilledToSsd := true}).resident size) :=
    fun c' => forgets_modifySlot c' size index fun s r v h => by simp [slotByte] at h
  unfold allocateSlot
  split_ifs
  · exact ⟨h.modifySlot_of_mem index fun s m hm => hm,hs,rfl,fun _ => hspill c,
      fun _ h' => by cases h'⟩
  have hal := LawfulVram.alloc_len c.provider c.config.chunkBytes
  generalize VramProvider.alloc c.provider c.config.chunkBytes = x at hal ⊢
  rcases x with ⟨e | mem,provider⟩
  · refine ⟨WellFormed.modifySlot_of_mem ?_ index fun s m hm => hm,hs,rfl,fun _ => hspill _,
      fun _ h' => by cases h'⟩
    exact ⟨h.len_eq,h.revoked⟩
  have hz := LawfulVram.zero_len provider mem
  dsimp only
  generalize VramProvider.zero provider mem = y at hz ⊢
  rcases y with ⟨_,mem',provider'⟩
  refine ⟨WellFormed.modifySlot ?_ index ?_,hs,rfl,fun h' => absurd h' (by simp),?_⟩
  · exact ⟨h.len_eq,h.revoked⟩
  · rintro s m ⟨⟩
    exact .inr ⟨hz.trans (hal mem rfl),hs⟩
  · rintro _ ⟨⟩
    refine ⟨⟨⟨{s with mem := some mem'},?_,hsp,rfl⟩,hc⟩,fun a v hi hv => ?_⟩
    · simp only [modifySlot,List.getElem?_modify,hslot]
      simp
    · dsimp only at hv
      rw [resident_modifySlot,if_neg (by exact fun hin => hi hin.2)] at hv
      exact hv

inductive UpdateCases (size : ℕ) (c : ElasticVramCache P) (off : ℕ) (data : List UInt8) :
    CacheMutation → ElasticVramCache P → Prop
  | failed {c'} : UpdateCases size c off data .failed c'
  | skipped {c'} (hs : c.Skips off) (hf : Forgets (c.resident size) (c'.resident size)) :
      UpdateCases size c off data .skipped c'
  | accepted {c'} (mem : Mem P)
      (hc : 0<c.config.chunkBytes)
      (hm : c.Holds (off/c.config.chunkBytes) mem ∨ c.Allocates off mem)
      (hfit : off%c.config.chunkBytes+data.length ≤ c.config.chunkBytes)
      (hb : ∀ a v, c'.resident size a=some v →
        off/c.config.chunkBytes ≠ a/c.config.chunkBytes ∧ c.resident size a=some v ∨
        off/c.config.chunkBytes = a/c.config.chunkBytes ∧
          v = (LawfulVram.contents mem).store (off%c.config.chunkBytes) data
            (a%c.config.chunkBytes)) :
      UpdateCases size c off data .accepted c'

lemma update_cases (h : c.WellFormed) (hs : c.state=.active) (size off : ℕ) (data : List UInt8) :
    (c.update off data).2.WellFormed ∧
      UpdateCases size c off data (c.update off data).1 (c.update off data).2 := by
  unfold update
  split_ifs with hst hg
  · exact ⟨h,.skipped (.inl (hst.resolve_left (not_not.mpr hs))) (Forgets.refl _)⟩
  · exact ⟨h,.failed⟩
  push Not at hst hg
  have hwd : c.watchdogTripped=false := by simpa using hst.2
  have hc : 0<c.config.chunkBytes := Nat.pos_of_ne_zero hg.1
  dsimp only
  split
  · exact ⟨h,.failed⟩
  rename_i s hslot
  split_ifs with hsp
  · exact ⟨h,.skipped (.inr ⟨s,hslot,.inl hsp⟩) (Forgets.refl _)⟩
  rw [Bool.not_eq_true] at hsp
  split
  · rename_i mem hm
    have hh : c.Holds (off/c.config.chunkBytes) mem := ⟨⟨s,hslot,hsp,hm⟩,hc⟩
    obtain ⟨hwf,hres | ⟨hres,hfit,hb⟩⟩ := writeSlot_spec h hs size off data hh
    · exact ⟨hwf,hres ▸ .failed⟩
    · exact ⟨hwf,hres ▸ .accepted mem hc (.inl hh) hfit hb⟩
  · rename_i hm
    obtain ⟨hwf,hst',hcfg,hnone,hsome⟩ := allocateSlot_spec h hs size hslot hsp hc
    rcases ha : c.allocateSlot (off/c.config.chunkBytes) with ⟨_ | mem,c'⟩
    · rw [ha] at hwf hnone
      exact ⟨hwf,.skipped (.inr ⟨s,hslot,.inr ⟨hm,by rw [ha]⟩⟩) (hnone rfl)⟩
    · rw [ha] at hwf hst' hcfg hsome
      obtain ⟨hh,hother⟩ := hsome mem rfl
      dsimp only at hwf hst' hcfg hh hother ⊢
      rw [←hcfg] at hh
      have hwrite := writeSlot_spec hwf hst' size off data hh
      rw [hcfg] at hwrite
      obtain ⟨hwf',hres | ⟨hres,hfit,hb⟩⟩ := hwrite
      · exact ⟨hwf',hres ▸ .failed⟩
      · refine ⟨hwf',hres ▸ .accepted mem hc (.inr ⟨hwd,s,hslot,hsp,hm,by rw [ha]⟩) hfit ?_⟩
        intro a v hv
        rcases hb a v hv with ⟨hne,hr⟩ | hr
        · exact .inl ⟨hne,hother a v hne hr⟩
        · exact .inr hr

lemma disable_spec (c : ElasticVramCache P) :
    c.disable.2.WellFormed ∧ ∀ size a, c.disable.2.resident size a=none := by
  have hslot : ∀ (i : ℕ) s, c.disable.2.slots[i]?=some s → s.mem=none := by
    intro i s hs
    simp only [disable,List.getElem?_map,Option.map_eq_some_iff] at hs
    obtain ⟨s₀,-,rfl⟩ := hs
    rfl
  have hwf : c.disable.2.WellFormed :=
    ⟨fun i s m hs hm => absurd ((hslot i s hs).symm.trans hm) (by simp),
      fun _ i s hs => hslot i s hs⟩
  exact ⟨hwf,resident_of_revoked hwf (by simp [disable])⟩

lemma evictLoop_spec (target size : ℕ) (eligible : List (ℕ × ℕ)) (freed evicted : ℕ) (h : c.WellFormed) :
    (evictLoop target eligible freed evicted c).2.WellFormed ∧
    Forgets (c.resident size) ((evictLoop target eligible freed evicted c).2.resident size) := by
  induction eligible generalizing freed evicted c with
  | nil => exact ⟨h,Forgets.refl _⟩
  | cons x rest ih =>
    rw [evictLoop]
    split_ifs
    · exact ⟨h,Forgets.refl _⟩
    · have hwf : (c.spill x.1).WellFormed := h.modifySlot_of_mem x.1 fun s m hm => by cases hm
      have hf : Forgets (c.resident size) ((c.spill x.1).resident size) :=
        forgets_modifySlot c size x.1 fun s r v h => by simp [slotByte] at h
      obtain ⟨h₁,h₂⟩ := ih (saturatingAdd 64 freed c.config.chunkBytes)
        (saturatingAdd 64 evicted 1) hwf
      exact ⟨h₁,hf.trans h₂⟩

lemma evictColdestChunks_spec (h : c.WellFormed) (size target : ℕ) :
    (c.evictColdestChunks target).2.WellFormed ∧
    Forgets (c.resident size) ((c.evictColdestChunks target).2.resident size) := by
  unfold evictColdestChunks
  split_ifs
  · exact ⟨h,Forgets.refl _⟩
  · exact evictLoop_spec target size _ 0 0 h

lemma new_spec (provider : P) (config : ElasticCacheConfig) (clock : List ℕ) :
    (new provider config clock).WellFormed ∧
      ∀ size a, (new provider config clock).resident size a=none := by
  have hslot : ∀ (i : ℕ) s, (new provider config clock).slots[i]?=some s → s.mem=none := by
    intro i s hs
    have := List.mem_of_getElem? hs
    rw [List.eq_of_mem_replicate this]
  refine ⟨⟨fun i s m hs hm => absurd ((hslot i s hs).symm.trans hm) (by simp),
    fun _ i s hs => hslot i s hs⟩,fun size a => ?_⟩
  unfold resident
  split_ifs
  · rcases hx : (new provider config clock).slots[a/(new provider config clock).config.chunkBytes]?
      with _ | s
    · rfl
    · simp [slotByte,hslot _ s hx]
  · rfl

end ElasticVramCache
end RamShared.Elastic

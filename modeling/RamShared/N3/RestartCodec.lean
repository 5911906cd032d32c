import RamShared.N3.Replay
import RamShared.Lib.Fallible

/-! The byte encoding of the restart record: the accepted byte strings are the encodings of the
valid records, one for each, and restoring from bytes is all or nothing. -/
namespace RamShared.N3
open Lib

variable {bytes : List UInt8} {cursor stop n : ℕ}

lemma readExact_ok_iff (hlen : bytes.length<2^64) {value : List UInt8} :
    readExact bytes cursor n=.ok (value,stop) ↔ value.length=n ∧ Chunk bytes cursor value stop := by
  rw [Chunk.iff_take]
  unfold readExact
  constructor
  · intro h
    split at h
    · cases h
    · rename_i stop' hs
      obtain ⟨rfl,rfl⟩ := by simpa using h
      rw [Option.filter_eq_some_iff,checkedAdd_eq_some] at hs
      obtain ⟨⟨-,rfl⟩,hle⟩ := hs
      have hle : cursor+n≤bytes.length := of_decide_eq_true hle
      have hn : ((bytes.drop cursor).take (cursor+n-cursor)).length=n := by
        simp
        omega
      rw [hn]
      exact ⟨rfl,hle,rfl,by rw [Nat.add_sub_cancel_left]⟩
  · rintro ⟨rfl,hle,rfl,hv⟩
    have hs : (checkedAdd 64 cursor value.length).filter (fun stop => stop≤bytes.length) =
        some (cursor+value.length) := by
      rw [Option.filter_eq_some_iff,checkedAdd_eq_some]
      exact ⟨⟨by omega,rfl⟩,decide_eq_true hle⟩
    rw [hs]
    simp [hv]

lemma readBe_ok_iff (hlen : bytes.length<2^64) {v : ℕ} : readBe n bytes cursor=.ok (v,stop) ↔
      v<256^n ∧ Chunk bytes cursor (toBeBytes n v) stop := by
  unfold readBe
  simp only [bind_ok,readExact_ok_iff hlen,Prod.exists]
  constructor
  · rintro ⟨value,mid,⟨rfl,hc⟩,h⟩
    obtain ⟨rfl,rfl⟩ := by simpa [pure,Except.pure] using h
    exact ⟨fromBeBytes_lt value,by rwa [toBeBytes_fromBeBytes]⟩
  · rintro ⟨hv,hc⟩
    refine ⟨_,_,⟨length_toBeBytes n v,hc⟩,?_⟩
    simp [pure,Except.pure,fromBeBytes_toBeBytes hv]


def GenerationCheckpoint.toBytes (c : GenerationCheckpoint) : List UInt8 :=
  UInt8.ofNat c.leaseId.bytes.length::(c.leaseId.bytes++toBeBytes 8 c.generation)

lemma OpaqueId.eq_of_bytes {a b : OpaqueId} (h : a.bytes=b.bytes) : a=b := by
  cases a
  cases b
  cases h
  rfl

lemma OpaqueId.new_ok_iff {id : OpaqueId} : OpaqueId.new bytes=.ok id ↔ id.bytes=bytes := by
  unfold OpaqueId.new
  constructor
  · intro h
    split at h
    · cases h
    · cases h
      rfl
  · rintro rfl
    have h := id.length_le
    rw [dif_neg (by simp [id.bytes_ne_nil,h])]

section
variable (hlen : bytes.length<2^64)
include hlen

lemma readCheckpoint_ok_iff {c : GenerationCheckpoint} : readCheckpoint bytes cursor=.ok (c,stop) ↔
      c.generation<2^64 ∧ Chunk bytes cursor c.toBytes stop := by
  have hc : c.toBytes = toBeBytes 1 c.leaseId.bytes.length ++
      (c.leaseId.bytes++toBeBytes 8 c.generation) := by
    have h : c.leaseId.bytes.length<256 := lt_of_le_of_lt c.leaseId.length_le (by decide)
    simp [toBeBytes,GenerationCheckpoint.toBytes,Nat.mod_eq_of_lt h]
  have hid := c.leaseId.length_le
  have hpos : c.leaseId.bytes.length≠0 := by simp [c.leaseId.bytes_ne_nil]
  unfold readCheckpoint readU8 readU64
  simp only [bind_ok,ite_throw_ok,readBe_ok_iff hlen,readExact_ok_iff hlen,
    OpaqueId.new_ok_iff,Prod.exists,hc,Chunk.append_iff]
  constructor
  · rintro ⟨l,a,⟨-,ha⟩,-,v,b,⟨rfl,hb⟩,id,rfl,g,d,⟨hg,hd⟩,h⟩
    obtain ⟨rfl,rfl⟩ := by simpa [pure,Except.pure] using h
    exact ⟨hg,a,ha,b,hb,hd⟩
  · rintro ⟨hg,a,ha,b,hb,hd⟩
    exact ⟨_,a,⟨by unfold maxOpaqueIdBytes at hid; omega,ha⟩,by omega,_,b,⟨rfl,hb⟩,c.leaseId,rfl,
      _,stop,⟨hg,hd⟩,rfl⟩

lemma readCheckpoints_ok_iff {cs : List GenerationCheckpoint} (hcursor : cursor≤bytes.length) :
    readCheckpoints bytes n cursor=.ok (cs,stop) ↔ cs.length=n ∧ (∀ c∈cs, c.generation<2^64) ∧
        Chunk bytes cursor (cs.flatMap GenerationCheckpoint.toBytes) stop := by
  induction n generalizing cursor cs with
  | zero =>
    rw [readCheckpoints,List.length_eq_zero_iff]
    constructor
    · intro h
      obtain ⟨rfl,rfl⟩ := by simpa using h
      exact ⟨rfl,nofun,Chunk.nil_iff.mpr ⟨rfl,hcursor⟩⟩
    · rintro ⟨rfl,-,h⟩
      obtain ⟨rfl,-⟩ := Chunk.nil_iff.mp h
      rfl
  | succ n ih =>
    simp only [readCheckpoints,bind_ok,readCheckpoint_ok_iff hlen,Prod.exists]
    constructor
    · rintro ⟨c,mid,⟨hg,hc⟩,rest,stop',hr,h⟩
      obtain ⟨rfl,rfl⟩ := by simpa [pure,Except.pure] using h
      obtain ⟨hn,hgs,hcs⟩ := (ih hc.2.2).mp hr
      exact ⟨by rw [List.length_cons,hn],List.forall_mem_cons.mpr ⟨hg,hgs⟩,
        Chunk.append_iff.mpr ⟨mid,hc,hcs⟩⟩
    · intro ⟨hn,hgs,h⟩
      obtain _ | ⟨c,rest⟩ := cs
      · cases hn
      obtain ⟨mid,hc,hcs⟩ := Chunk.append_iff.mp h
      obtain ⟨hg,hgs⟩ := List.forall_mem_cons.mp hgs
      exact ⟨c,mid,⟨hg,hc⟩,rest,stop,(ih hc.2.2).mpr ⟨Nat.succ.inj hn,hgs,hcs⟩,rfl⟩

lemma readAuthority_host_iff : readAuthority bytes cursor=.ok (.host,stop) ↔
      Chunk bytes cursor [authorityMarker .host] stop := by
  have hm : [authorityMarker .host] = toBeBytes 1 1 := by decide
  unfold readAuthority readU8
  simp only [bind_ok,readBe_ok_iff hlen,Prod.exists,hm]
  constructor
  · rintro ⟨v,mid,⟨-,hc⟩,h⟩
    obtain ⟨hv,rfl⟩ : v=1 ∧ mid=stop := by
      simp only [pure,Except.pure,Except.ok.injEq,Prod.mk.injEq] at h
      refine ⟨?_,h.2⟩
      by_contra hne
      have h1 := h.1
      rw [if_neg (by simpa [hostAuthorityMarker] using hne)] at h1
      split_ifs at h1
    exact hv ▸ hc
  · intro hc
    exact ⟨1,stop,⟨by norm_num,hc⟩,rfl⟩

end

namespace RestartRecord

lemma toBytes_eq (r : RestartRecord) : r.toBytes = restartRecordMagic ++
    (toBeBytes 2 r.schemaVersion++([authorityMarker r.authority]++(toBeBytes 8 r.hostEpoch ++
      (toBeBytes 2 r.checkpoints.length ++ r.checkpoints.flatMap GenerationCheckpoint.toBytes)))) := by
  simp only [toBytes,List.append_assoc]
  rfl

variable {r : RestartRecord} {cs : List GenerationCheckpoint}

lemma validate_ok_iff : r.validate=.ok () ↔
    r.schemaVersion=n3SchemaVersion ∧ r.authority=.host ∧ r.hostEpoch≠0 ∧
      r.checkpoints.length ≤ maxGenerationHistory ∧
      (∀ c∈r.checkpoints, c.generation≠0) ∧ ordered r.checkpoints ∧
      r.toBytes.length ≤ maxRestartRecordBytes := by
  have hgen : (r.checkpoints.any fun c =>
      decide (c.leaseId.bytes=[]) || decide (c.generation=0))=false ↔
        ∀ c∈r.checkpoints, c.generation≠0 := by
    simp [OpaqueId.bytes_ne_nil]
  unfold validate
  split_ifs with h₁ h₂ h₃ h₄ h₅ h₆
  · exact iff_of_false nofun fun h => h₁ h.1
  · exact iff_of_false nofun fun h => h₂ h.2.1
  · exact iff_of_false nofun fun h => h₃.elim h.2.2.1 (not_lt.mpr h.2.2.2.1)
  · exact iff_of_false nofun fun h => by simp [hgen.mpr h.2.2.2.2.1] at h₄
  · exact iff_of_false nofun fun h => by simp [h.2.2.2.2.2.1] at h₅
  · exact iff_of_false nofun fun h => absurd h.2.2.2.2.2.2 (not_le.mpr h₆)
  · push Not at h₁ h₂ h₃
    exact iff_of_true rfl ⟨h₁,h₂,h₃.1,h₃.2,hgen.mp (by simpa using h₄),by simpa using h₅,
      not_lt.mp h₆⟩

/-- The host epoch and the generations are 64-bit numbers. -/
def InRange (r : RestartRecord) : Prop :=
  r.hostEpoch<2^64 ∧ ∀ c∈r.checkpoints, c.generation<2^64

lemma lt_of_le_maxRestartRecordBytes {n : ℕ} (h : n ≤ maxRestartRecordBytes) : n<2^64 := by
  norm_num [maxRestartRecordBytes,restartRecordHeaderBytes,maxGenerationHistory,
    maxOpaqueIdBytes] at h
  omega

/-- The accepted byte strings are the encodings of the valid records. -/
theorem fromBytes_ok_iff : fromBytes bytes=.ok r ↔ r.validate=.ok () ∧ r.InRange ∧ r.toBytes=bytes := by
  unfold fromBytes readU16 readU64
  simp only [bind_ok,ite_throw_ok]
  constructor
  · rintro ⟨hhead,h⟩
    push Not at hhead
    obtain ⟨hmin,hmax,hmagic⟩ := hhead
    have hlen := lt_of_le_maxRestartRecordBytes hmax
    have hm : Chunk bytes 0 restartRecordMagic 4 :=
      Chunk.iff_take.mpr ⟨by unfold restartRecordHeaderBytes at hmin; simp [restartRecordMagic]; omega,rfl,hmagic⟩
    simp only [readBe_ok_iff hlen,Prod.exists] at h
    obtain ⟨s,a,⟨hs,ha⟩,auth,b,hauth,e,c,⟨he,hc⟩,k,d,⟨hk,hd⟩,-,cs,f,hcs,hf,⟨⟩,hv,hr⟩ := h
    obtain rfl : (⟨s,auth,e,cs⟩ : RestartRecord)=r := by simpa [pure,Except.pure] using hr
    obtain ⟨hn,hg,hcs⟩ := (readCheckpoints_ok_iff hlen hd.2.2).mp hcs
    obtain ⟨-,rfl,-⟩ := validate_ok_iff.mp hv
    refine ⟨hv,⟨he,hg⟩,?_⟩
    rw [←Chunk.whole_iff,toBytes_eq]
    simp only [Chunk.append_iff]
    exact ⟨4,hm,a,ha,b,(readAuthority_host_iff hlen).mp hauth,c,hc,d,hn ▸ hd,not_not.mp hf ▸ hcs⟩
  · rintro ⟨hv,⟨he,hg⟩,hb⟩
    obtain ⟨hschema,hauth,-,hcount,-,-,hmax⟩ := validate_ok_iff.mp hv
    have hlen := lt_of_le_maxRestartRecordBytes (hb ▸ hmax)
    have hw := Chunk.whole_iff.mpr hb
    rw [toBytes_eq,hauth] at hw
    simp only [Chunk.append_iff] at hw
    obtain ⟨m,hm,a,ha,b,hb',c,hc,d,hd,hcs⟩ := hw
    obtain rfl : m=4 := hm.2.1
    have hmagic : bytes.take 4=restartRecordMagic := (Chunk.iff_take.mp hm).2.2
    have hmin : restartRecordHeaderBytes≤bytes.length := by
      have h := hd.2.2
      rw [hd.2.1,hc.2.1,hb'.2.1,ha.2.1] at h
      simpa [restartRecordHeaderBytes] using h
    rw [hb] at hmax
    simp only [readBe_ok_iff hlen,Prod.exists]
    refine ⟨by simp [hmin,hmax,hmagic],_,a,⟨?_,ha⟩,.host,b,
      (readAuthority_host_iff hlen).mpr hb',_,c,⟨he,hc⟩,_,d,⟨?_,hd⟩,not_lt.mpr hcount,r.checkpoints,
      bytes.length,(readCheckpoints_ok_iff hlen hd.2.2).mpr ⟨rfl,hg,hcs⟩,not_not.mpr rfl,(),?_⟩
    · rw [hschema]
      decide
    · unfold maxGenerationHistory at hcount
      omega
    · rw [←hauth]
      exact ⟨hv,rfl⟩

abbrev before (a b : GenerationCheckpoint) : Prop := a.leaseId.bytes≤b.leaseId.bytes

instance : Std.Total before := ⟨fun _ _ => List.le_total _ _⟩

instance : IsTrans GenerationCheckpoint before := ⟨fun _ _ _ => List.le_trans⟩

lemma insertionSort_congr {cs' : List GenerationCheckpoint} (h : cs.Perm cs')
    (hn : (cs.map (·.leaseId)).Nodup) : cs.insertionSort before = cs'.insertionSort before := by
  have hp := cs.perm_insertionSort before
  have hp' := cs'.perm_insertionSort before
  refine List.Perm.eq_of_pairwise ?_ (cs.pairwise_insertionSort before)
    (cs'.pairwise_insertionSort before) (hp.trans (h.trans hp'.symm))
  intro a b ha hb hab hba
  have hid : a.leaseId=b.leaseId := OpaqueId.eq_of_bytes (List.le_antisymm hab hba)
  exact List.inj_on_of_nodup_map hn (hp.mem_iff.mp ha) (h.mem_iff.mpr (hp'.mem_iff.mp hb)) hid

lemma validate_of_not_ordered (hschema : r.schemaVersion=n3SchemaVersion)
    (hauth : r.authority=.host) (h : ¬ordered r.checkpoints) : r.validate=.error .malformedRecord := by
  unfold validate
  rw [if_neg (not_not.mpr hschema),if_neg (not_not.mpr hauth)]
  split_ifs with h₃ h₄ h₅ h₆
  all_goals first | rfl | exact absurd h (by simpa using h₅)

lemma host_perm (hostEpoch : ℕ) {cs' : List GenerationCheckpoint} (h : cs.Perm cs') :
    host hostEpoch cs = host hostEpoch cs' := by
  by_cases hn : (cs.map (·.leaseId)).Nodup
  · unfold host
    rw [insertionSort_congr h hn]
  · have fails : ∀ l : List GenerationCheckpoint, cs.Perm l →
        host hostEpoch l=.error .malformedRecord := by
      intro l hl
      have hord : ¬ordered (l.insertionSort before) := fun ho =>
        hn ((((hl.trans (l.perm_insertionSort before).symm).map _).nodup_iff).mpr
          (nodup_of_ordered ho))
      have hv := validate_of_not_ordered
        (r := ⟨n3SchemaVersion,.host,hostEpoch,l.insertionSort before⟩) rfl rfl hord
      simp only [host,hv,bind,Except.bind]
    rw [fails cs (.refl _),fails cs' h]

lemma host_ok {hostEpoch : ℕ} (h : host hostEpoch cs=.ok r) :
    r.validate=.ok () ∧ r.hostEpoch=hostEpoch ∧ r.checkpoints.Perm cs := by
  unfold host at h
  obtain ⟨⟨⟩,hv,h⟩ := bind_ok.mp h
  obtain rfl := Except.ok.inj h
  exact ⟨hv,rfl,cs.perm_insertionSort before⟩

end RestartRecord

namespace LeaseMachine

lemma restoreRestartBytes_cases (m : LeaseMachine) (bytes : List UInt8) :
    (m.fresh ∧ ∃ r, RestartRecord.fromBytes bytes=.ok r ∧
      m.restoreRestartBytes bytes = (.ok (),
        { m with
          generationHistory := r.checkpoints.map fun c => (c.leaseId,c.generation)
          restoredRestartEpoch := some r.hostEpoch})) ∨
    ((m.fresh → ∀ r, RestartRecord.fromBytes bytes≠.ok r) ∧
      ∃ reason, m.restoreRestartBytes bytes = m.failRestartRestore reason) := by
  unfold restoreRestartBytes
  cases hb : RestartRecord.fromBytes bytes with
  | error reason => exact .inr ⟨nofun,reason,rfl⟩
  | ok r =>
    have hv := (RestartRecord.fromBytes_ok_iff.mp hb).1
    by_cases hf : m.fresh
    · refine .inl ⟨hf,r,rfl,?_⟩
      simp [restoreRestartRecord,hv,hf]
    · have hfail : m.restoreRestartRecord r=m.failRestartRestore
          (.stateTransition (.illegalTransition (some .absent) m.leaseState.tag)) := by
        simp only [restoreRestartRecord,hv]
        rw [if_pos (by simpa using hf)]
      exact .inr ⟨fun h => absurd h hf,_,hfail⟩

end LeaseMachine

/-- The restart record is a canonical codec, and restoring from bytes is all or nothing. -/
theorem restartRecord_canonical :
    (∀ (hostEpoch : ℕ) (cs : List GenerationCheckpoint) (r : RestartRecord),
      hostEpoch < 2^64 → (∀ c ∈ cs, c.generation < 2^64) →
      RestartRecord.host hostEpoch cs = .ok r → RestartRecord.fromBytes r.toBytes = .ok r) ∧
    (∀ (bytes : List UInt8) (r : RestartRecord),
      RestartRecord.fromBytes bytes = .ok r → r.toBytes=bytes) ∧
    (∀ (bytes bytes' : List UInt8) (r : RestartRecord), RestartRecord.fromBytes bytes = .ok r →
      RestartRecord.fromBytes bytes' = .ok r → bytes=bytes') ∧
    (∀ (hostEpoch : ℕ) (cs cs' : List GenerationCheckpoint), cs.Perm cs' →
      RestartRecord.host hostEpoch cs = RestartRecord.host hostEpoch cs') ∧
    ∀ (m : LeaseMachine) (bytes : List UInt8),
      (m.fresh ∧ ∃ r, RestartRecord.fromBytes bytes = .ok r ∧
        m.restoreRestartBytes bytes = (.ok (),
          { m with
            generationHistory := r.checkpoints.map fun c => (c.leaseId,c.generation)
            restoredRestartEpoch := some r.hostEpoch })) ∨
      ((m.fresh → ∀ r, RestartRecord.fromBytes bytes ≠ .ok r) ∧
        (m.restoreRestartBytes bytes).2.generationHistory = m.generationHistory ∧
        (m.restoreRestartBytes bytes).2.restoredRestartEpoch = m.restoredRestartEpoch ∧
        ∃ reason, (m.restoreRestartBytes bytes).1 = .error reason ∧
          (m.restoreRestartBytes bytes).2.leaseState = .failed reason) := by
  refine ⟨?_,?_,?_,fun e cs cs' => RestartRecord.host_perm e,?_⟩
  · intro e cs r he hg h
    obtain ⟨hv,rfl,hp⟩ := RestartRecord.host_ok h
    exact RestartRecord.fromBytes_ok_iff.mpr ⟨hv,⟨he,fun c hc => hg c (hp.mem_iff.mp hc)⟩,rfl⟩
  · intro bytes r h
    exact (RestartRecord.fromBytes_ok_iff.mp h).2.2
  · intro bytes bytes' r h h'
    rw [← (RestartRecord.fromBytes_ok_iff.mp h).2.2,(RestartRecord.fromBytes_ok_iff.mp h').2.2]
  · intro m bytes
    obtain h | ⟨hno,reason,h⟩ := m.restoreRestartBytes_cases bytes
    · exact .inl h
    · rw [h]
      exact .inr ⟨hno,rfl,rfl,reason,rfl,rfl⟩

end RamShared.N3

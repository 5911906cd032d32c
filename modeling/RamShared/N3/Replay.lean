import RamShared.N3.Lease

/-! The generations that a machine acknowledges for one lease follow one another without a gap
and without a repetition, across restarts and after a restored record. -/
namespace RamShared.N3
open Lib LeaseMachine

section History
variable (history : List (LeaseId × ℕ)) (leaseId other : LeaseId) (generation : ℕ)

lemma known_append (history' : List (LeaseId × ℕ)) : known (history++history') leaseId =
      (known history leaseId).or (known history' leaseId) := by
  unfold known
  rw [List.find?_append,Option.map_or]

lemma known_setGeneration : known (setGeneration leaseId generation history) other =
      if other=leaseId then (known history leaseId).map fun _ => generation else known history other := by
  induction history with
  | nil => simp [setGeneration,known]
  | cons entry history ih =>
    unfold known at ih ⊢
    rw [setGeneration]
    by_cases he : entry.1=leaseId
    · by_cases ho : other=leaseId
      · simp [he,ho]
      · simp [he,ho,Ne.symm ho]
    · rw [if_neg he]
      by_cases hoe : entry.1=other
      · have hne : other≠leaseId := fun h => he (hoe.trans h)
        simp [hoe,hne]
      · simp only [List.find?_cons,beq_eq_false_iff_ne.mpr hoe,beq_eq_false_iff_ne.mpr he]
        exact ih

lemma length_setGeneration : (setGeneration leaseId generation history).length=history.length := by
  induction history with
  | nil => rfl
  | cons entry history ih =>
    rw [setGeneration]
    split_ifs <;> simp [ih]

lemma known_remember : known (remember history leaseId generation) other =
      if other=leaseId then some generation else known history other := by
  unfold remember
  split_ifs with hk ho ho
  · obtain ⟨previous,hp⟩ := Option.isSome_iff_exists.mp hk
    rw [known_setGeneration,if_pos ho,hp]
    rfl
  · rw [known_setGeneration,if_neg ho]
  · subst ho
    rw [known_append,Option.not_isSome_iff_eq_none.mp hk]
    simp [known]
  · rw [known_append]
    simp [known,Ne.symm ho]

variable {history leaseId generation} in
lemma length_remember (h : Next history leaseId generation) (hlen : history.length ≤ maxGenerationHistory) :
    (remember history leaseId generation).length ≤ maxGenerationHistory := by
  unfold remember
  unfold Next at h
  split_ifs with hk
  · rwa [length_setGeneration]
  · rw [Option.not_isSome_iff_eq_none.mp hk] at h
    rw [List.length_append]
    exact h

lemma mem_of_known (h : (known history leaseId).isSome) : leaseId∈history.map Prod.fst := by
  unfold known at h
  rw [Option.isSome_map,List.find?_isSome] at h
  obtain ⟨entry,hmem,he⟩ := h
  exact List.mem_map.mpr ⟨entry,hmem,by simpa using he⟩

end History

/-- The generations of a lease in a restart record. -/
def RestartRecord.generations (r : RestartRecord) (leaseId : LeaseId) : List ℕ :=
  (r.checkpoints.filter fun c => c.leaseId=leaseId).map (·.generation)

variable {checkpoints : List GenerationCheckpoint} {l : Lease} {record : RestartRecord} {op : Op}

lemma isChain_of_ordered (h : RestartRecord.ordered checkpoints) :
    (checkpoints.map (·.leaseId.bytes)).IsChain (· < ·) := by
  induction checkpoints with
  | nil => exact .nil
  | cons c cs ih =>
    cases cs with
    | nil => exact .singleton _
    | cons d ds =>
      simp only [RestartRecord.ordered,List.tail_cons,List.zip_cons_cons,List.all_cons,
        Bool.and_eq_true,decide_eq_true_eq] at h ih
      exact .cons_cons h.1 (ih h.2)

lemma nodup_of_ordered (h : RestartRecord.ordered checkpoints) : (checkpoints.map (·.leaseId)).Nodup := by
  have hpw := (isChain_of_ordered h).pairwise
  have hn : ((checkpoints.map (·.leaseId)).map (·.bytes)).Nodup := by
    rw [List.map_map]
    refine List.Pairwise.imp ?_ hpw
    intro a b hlt he
    exact List.lt_irrefl a (he ▸ hlt)
  exact hn.of_map _

lemma generations_eq_known (h : (checkpoints.map (·.leaseId)).Nodup) (leaseId : LeaseId) :
    (checkpoints.filter fun c => c.leaseId=leaseId).map (·.generation) =
      (known (checkpoints.map fun c => (c.leaseId,c.generation)) leaseId).toList := by
  induction checkpoints with
  | nil => rfl
  | cons c cs ih =>
    rw [List.map_cons,List.nodup_cons] at h
    by_cases hc : c.leaseId=leaseId
    · have hrest : cs.filter (fun c => c.leaseId=leaseId)=[] := by
        rw [List.filter_eq_nil_iff]
        intro d hd hde
        refine h.1 (List.mem_map.mpr ⟨d,hd,?_⟩)
        rw [hc]
        simpa using hde
      simp [hc,hrest,known]
    · have ih := ih h.2
      unfold known at ih ⊢
      simp only [List.map_cons,List.filter_cons,List.find?_cons,decide_eq_true_eq,if_neg hc,
        beq_eq_false_iff_ne.mpr hc]
      exact ih

/-- What the host can see of a run: acknowledged grants and the record it restored. -/
inductive Note
  | acked (grant : Grant) (ack : GrantAck)
  | restored (record : RestartRecord)

def note : Op → Reply → Option Note
  | .receiveGrant grant _, .protocol (.grantAck ack) => some (.acked grant ack)
  | op, .result (.ok ()) => op.record.map .restored
  | _, _ => none

def generations (leaseId : LeaseId) (notes : List Note) : List ℕ :=
  notes.flatMap fun
    | .acked _ ack => if ack.leaseId=leaseId then [ack.generation] else []
    | .restored record => record.generations leaseId

/-- The history stands for the notes so far. -/
structure Recorded (l : Lease) (notes : List Note) : Prop where
  known_eq : ∀ leaseId, known l.history leaseId = (generations leaseId notes).getLast?
  chain : ∀ leaseId, (generations leaseId notes).IsChain fun a b => b = a+1
  epoch_eq : ∀ record, .restored record∈notes → l.epoch=some record.hostEpoch
  epoch_le : ∀ record grant ack, .restored record∈notes → .acked grant ack∈notes →
    record.hostEpoch≤grant.hostEpoch
  length_le : l.history.length ≤ maxGenerationHistory

lemma Recorded.keep {l' : Lease} {notes : List Note} (h : Recorded l notes) {n : Option Note}
    (hn : n=none) (hh : l'.history=l.history) (he : l'.epoch=l.epoch) : Recorded l' (notes++n.toList) := by
  obtain ⟨h₁,h₂,h₃,h₄,h₅⟩ := h
  subst hn
  rw [Option.toList_none,List.append_nil]
  refine ⟨?_,h₂,?_,h₄,?_⟩
  · rwa [hh]
  · rwa [he]
  · rwa [hh]

lemma Recorded.granted {notes : List Note} (h : Recorded l notes) {grant : Grant}
    (hepoch : ∀ epoch, l.epoch=some epoch → epoch≤grant.hostEpoch)
    (hnext : Next l.history grant.leaseId grant.generation) (s : LeaseState) (p : Option Grant) :
    Recorded { l with
      history := remember l.history grant.leaseId grant.generation, state := s, pending := p}
      (notes++[.acked grant
        ⟨grant.contractVersion,grant.leaseId,grant.generation,grant.eventId⟩]) := by
  have hgen (leaseId : LeaseId) : generations leaseId (notes++[.acked grant
      ⟨grant.contractVersion,grant.leaseId,grant.generation,grant.eventId⟩]) =
      generations leaseId notes++if grant.leaseId=leaseId then [grant.generation] else [] := by
    simp [generations]
  refine ⟨fun leaseId => ?_,fun leaseId => ?_,fun record hr => ?_,fun record g ack hr ha => ?_,
    length_remember hnext h.length_le⟩
  · rw [hgen,known_remember]
    by_cases hid : leaseId=grant.leaseId
    · simp [hid]
    · simp [hid,Ne.symm hid,h.known_eq]
  · rw [hgen]
    by_cases hid : grant.leaseId=leaseId
    · rw [if_pos hid,List.isChain_append]
      refine ⟨h.chain leaseId,.singleton _,fun a ha b hb => ?_⟩
      rw [←h.known_eq,←hid] at ha
      cases hb
      unfold Next at hnext
      rw [ha] at hnext
      exact hnext
    · rw [if_neg hid,List.append_nil]
      exact h.chain leaseId
  · exact h.epoch_eq record (by simpa using hr)
  · have hold : .restored record∈notes := by simpa using hr
    rcases List.mem_append.mp ha with ha | ha
    · exact h.epoch_le record g ack hold ha
    · obtain ⟨rfl,-⟩ := by simpa using ha
      exact hepoch _ (h.epoch_eq record hold)

lemma validate_ok (h : record.validate=.ok ()) : record.checkpoints.length ≤ maxGenerationHistory ∧
      RestartRecord.ordered record.checkpoints := by
  unfold RestartRecord.validate at h
  split_ifs at h with h₁ h₂ h₃ h₄ h₅ h₆
  push Not at h₃
  exact ⟨h₃.2,by simpa using h₅⟩

lemma Recorded.restored {notes : List Note} (h : Recorded l notes)
    (hvalid : record.validate=.ok ()) (hhistory : l.history=[]) (hepoch : l.epoch=none) :
    Recorded { l with
      history := record.checkpoints.map fun c => (c.leaseId,c.generation)
      epoch := some record.hostEpoch} (notes++[.restored record]) := by
  obtain ⟨hlen,hord⟩ := validate_ok hvalid
  have hnil (leaseId : LeaseId) : generations leaseId notes=[] := by
    have hk := h.known_eq leaseId
    rw [hhistory] at hk
    exact List.getLast?_eq_none_iff.mp hk.symm
  have hgen (leaseId : LeaseId) : generations leaseId (notes++[.restored record]) =
      (known (record.checkpoints.map fun c => (c.leaseId,c.generation)) leaseId).toList := by
    have happ : generations leaseId (notes++[.restored record]) =
        generations leaseId notes++record.generations leaseId := by simp [generations]
    rw [happ,hnil,List.nil_append]
    exact generations_eq_known (nodup_of_ordered hord) leaseId
  -- a restored epoch or an acknowledged grant would have left a trace in the history
  have hnone (record' : RestartRecord) : .restored record'∉notes := fun hr => by
    rw [h.epoch_eq record' hr] at hepoch
    cases hepoch
  have hno (g : Grant) (ack : GrantAck) : .acked g ack∉notes := fun ha => by
    have : ack.generation∈generations ack.leaseId notes :=
      List.mem_flatMap.mpr ⟨_,ha,by simp⟩
    rw [hnil] at this
    cases this
  refine ⟨fun leaseId => ?_,fun leaseId => ?_,fun record' hr => ?_,fun record' g ack hr ha => ?_,
    by simpa using hlen⟩
  · rw [hgen]
    cases known (record.checkpoints.map fun c => (c.leaseId,c.generation)) leaseId <;> rfl
  · rw [hgen]
    cases known (record.checkpoints.map fun c => (c.leaseId,c.generation)) leaseId
    · exact .nil
    · exact .singleton _
  · rcases List.mem_append.mp hr with hr | hr
    · exact absurd hr (hnone record')
    · obtain rfl := by simpa using hr
      rfl
  · refine absurd ?_ (hno g ack)
    simpa using ha

lemma note_of_silent {reply : Reply} (h : silent op reply) : note op reply=none := by
  cases op <;> rcases reply with d | d | (e | ⟨⟨⟩⟩) | _ <;> try rfl
  all_goals first | cases h | (cases d <;> first | rfl | cases h)

lemma note_failAck (op : Op) (ack : FailAck) : note op (.protocol (.failAck ack))=none := by
  cases op <;> rfl

lemma note_error (op : Op) (reason : FailureReason) : note op (.result (.error reason))=none := by
  cases op <;> rfl

lemma note_restored (hop : op.record=some record) : note op (.result (.ok ()))=some (.restored record) := by
  cases op <;> simp_all [note,Op.record]

/-- A step keeps the history in step with the notes. -/
theorem Move.recorded {l' : Lease} {reply : Reply} (hm : Move l op reply l') {notes : List Note}
    (h : Recorded l notes) : Recorded l' (notes++(note op reply).toList) := by
  cases hm with
  | quiet hs => exact h.keep (note_of_silent hs) rfl rfl
  | failed => exact h.keep (note_failAck ..) rfl rfl
  | lost => exact h.keep (note_error ..) rfl rfl
  | restored hop hvalid hstate hhistory hepoch =>
    rw [note_restored hop]
    exact h.restored hvalid hhistory hepoch
  | granted hstate hepoch hnext => exact h.granted hepoch hnext _ _
  | accepted | revoking | begun | completed | counted | scrubbed | scrubFailed | drained
  | revoked | uncleaned | cleaned | restarted => exact h.keep rfl rfl rfl

namespace LeaseMachine

def notes : LeaseMachine → List Op → List Note
  | _, [] => []
  | m, op::ops => (note op.plain (m.perform op).1).toList++notes (m.step op) ops

lemma run_recorded {m : LeaseMachine} {past : List Note} (h : Recorded m.lease past)
    (ops : List Op) : Recorded (run step m ops).lease (past++m.notes ops) := by
  induction ops generalizing m past with
  | nil => simpa [notes] using h
  | cons op ops ih =>
    rw [run_cons,notes,←List.append_assoc]
    exact ih ((m.perform_move op).recorded h)

lemma recorded_new (ops : List Op) : Recorded (run step new ops).lease (new.notes ops) := by
  have h : Recorded new.lease [] := by
    refine ⟨fun _ => rfl,fun _ => .nil,fun _ h => ?_,fun _ _ _ h => ?_,Nat.zero_le _⟩ <;> cases h
  simpa using run_recorded h ops

end LeaseMachine

/-- The lease and the generation of an acknowledgement. -/
def Note.acknowledged : Note → Option (LeaseId × ℕ)
  | .acked _ ack => some (ack.leaseId,ack.generation)
  | .restored _ => none

def Note.leases : Note → List LeaseId
  | .acked _ ack => [ack.leaseId]
  | .restored record => record.checkpoints.map (·.leaseId)

lemma count_acknowledged_le (notes : List Note) (leaseId : LeaseId) (generation : ℕ) :
    (notes.filterMap Note.acknowledged).count (leaseId,generation) ≤
      (generations leaseId notes).count generation := by
  induction notes with
  | nil => exact le_rfl
  | cons n notes ih =>
    unfold generations at ih ⊢
    rw [List.flatMap_cons,List.count_append]
    cases n with
    | acked grant ack =>
      simp only [List.filterMap_cons,Note.acknowledged,List.count_cons]
      by_cases hid : ack.leaseId=leaseId
      · by_cases hg : ack.generation=generation
        · simp [hid,hg]
          omega
        · simp [hid,hg]
          omega
      · simp [hid]
        omega
    | restored record =>
      simp only [List.filterMap_cons,Note.acknowledged]
      omega

lemma nodup_of_isChain_succ {l : List ℕ} (h : l.IsChain fun a b => b = a+1) : l.Nodup := by
  have hlt : l.IsChain (· < ·) := h.imp fun a b hab => by omega
  exact hlt.pairwise.imp fun h => h.ne

lemma Recorded.nodup_acknowledged {notes : List Note} (h : Recorded l notes) :
    (notes.filterMap Note.acknowledged).Nodup := by
  rw [List.nodup_iff_count_le_one]
  rintro ⟨leaseId,generation⟩
  refine (count_acknowledged_le notes leaseId generation).trans ?_
  exact List.nodup_iff_count_le_one.mp (nodup_of_isChain_succ (h.chain leaseId)) generation

lemma Recorded.mem_history {notes : List Note} (h : Recorded l notes) {leaseId : LeaseId}
    (hmem : leaseId∈notes.flatMap Note.leases) : leaseId∈l.history.map Prod.fst := by
  apply mem_of_known
  obtain ⟨n,hn,hid⟩ := List.mem_flatMap.mp hmem
  have hne : generations leaseId notes≠[] := by
    intro hnil
    rw [generations,List.flatMap_eq_nil_iff] at hnil
    have := hnil n hn
    cases n with
    | acked grant ack =>
      obtain rfl := by simpa [Note.leases] using hid
      simp at this
    | restored record =>
      obtain ⟨c,hc,rfl⟩ := List.mem_map.mp hid
      have hmem := List.map_eq_nil_iff.mp this
      rw [List.filter_eq_nil_iff] at hmem
      exact hmem c hc (by simp)
  rw [h.known_eq]
  exact List.getLast?_isSome.mpr hne

namespace LeaseMachine

/-- Over every run: the generations of a lease, from the restored one on, are successors, no
pair of lease and generation is acknowledged twice, no acknowledged grant is older than a
restored epoch, and the leases are bounded by the history. -/
theorem replay_safe (ops : List Op) :
    (∀ leaseId, (generations leaseId (new.notes ops)).IsChain fun a b => b = a+1) ∧
      ((new.notes ops).filterMap Note.acknowledged).Nodup ∧
      (∀ record grant ack, .restored record ∈ new.notes ops → .acked grant ack ∈ new.notes ops →
        record.hostEpoch ≤ grant.hostEpoch) ∧
      ((new.notes ops).flatMap Note.leases).toFinset.card ≤ maxGenerationHistory := by
  have h := recorded_new ops
  refine ⟨h.chain,h.nodup_acknowledged,h.epoch_le,?_⟩
  have hsub : ((new.notes ops).flatMap Note.leases).toFinset ⊆
      ((run step new ops).lease.history.map Prod.fst).toFinset := by
    intro leaseId hid
    rw [List.mem_toFinset] at hid ⊢
    exact h.mem_history hid
  calc _ ≤ _ := Finset.card_le_card hsub
    _ ≤ _ := List.toFinset_card_le _
    _ = _ := List.length_map ..
    _ ≤ _ := h.length_le

def sampleRecord : RestartRecord := ⟨1,.host,5,[⟨sampleId 3,4⟩]⟩

/-- A restored checkpoint, the next generation, and after a restart the one after it. -/
def restoredRun : List Op :=
  [.restoreRestartRecord sampleRecord,.observe sampleObservation 110,
    .receiveGrant (sampleGrant 3 5 4) 120,.restart,.observe sampleObservation 110,
    .receiveGrant (sampleGrant 3 5 4) 120,.completeCleanup,.receiveGrant (sampleGrant 3 6 5) 120]

theorem replay_safe_restoredRun :
    generations (sampleId 3) (new.notes restoredRun) = [4,5,6] ∧
      ((new.notes restoredRun).filterMap Note.acknowledged).Nodup ∧
      ((new.notes restoredRun).flatMap Note.leases).toFinset.card ≤ maxGenerationHistory :=
  ⟨by decide +kernel,(replay_safe restoredRun).2.1,(replay_safe restoredRun).2.2.2⟩

end LeaseMachine
end RamShared.N3

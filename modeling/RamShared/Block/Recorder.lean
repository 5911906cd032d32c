import RamShared.Block.Vram
import RamShared.Block.Origin

/-! Devices that keep a record of the calls made to them. A backend over a recording device behaves
as over the device itself, and what it asked for can be read off the record. -/
namespace RamShared.Block
open Lib

/-- A call to the provider, with its answer as far as the backend acts on it. -/
inductive VramCall
  | alloc (len : ℕ) (ok : Bool)
  | memInfo (answer : Except VramError (ℕ × ℕ))
  | zero (ok : Bool)
  | readAt (ok : Bool)
  | writeAt (ok : Bool)

def VramCall.isAlloc : VramCall → Bool
  | .alloc _ _ => true
  | _ => false

def VramCall.isOk : VramCall → Bool
  | .alloc _ ok | .zero ok | .readAt ok | .writeAt ok => ok
  | .memInfo answer => answer.isOk

structure Recorder (P : Type) where
  provider : P
  log : List VramCall

instance {P : Type} [VramProvider P] : VramProvider (Recorder P) where
  Mem := VramProvider.Mem P
  len := VramProvider.len
  alloc r n :=
    let (answer,p) := VramProvider.alloc r.provider n
    (answer,⟨p,r.log++[.alloc n answer.isOk]⟩)
  memInfo r :=
    let (answer,p) := VramProvider.memInfo r.provider
    (answer,⟨p,r.log++[.memInfo answer]⟩)
  zero r m :=
    let (answer,m,p) := VramProvider.zero r.provider m
    (answer,m,⟨p,r.log++[.zero answer.isOk]⟩)
  readAt r m off n :=
    let (answer,p) := VramProvider.readAt r.provider m off n
    (answer,⟨p,r.log++[.readAt answer.isOk]⟩)
  writeAt r m off data :=
    let (answer,m,p) := VramProvider.writeAt r.provider m off data
    (answer,m,⟨p,r.log++[.writeAt answer.isOk]⟩)

/-- A call to the origin. A transfer is recorded with the length it was asked for and, unless it
failed, the count it reported. -/
inductive OriginCall
  | read (len : ℕ) (count : Option ℕ)
  | write (len : ℕ) (count : Option ℕ)
  | sync (ok : Bool)
  deriving DecidableEq

/-- A call that failed, or a transfer of nothing or of more than was asked for. -/
def OriginCall.faulty : OriginCall → Bool
  | .read len count | .write len count => !count.any fun n => decide (0<n) && decide (n≤len)
  | .sync ok => !ok

structure OriginRecorder (O : Type) where
  origin : O
  log : List OriginCall

instance {O : Type} [OriginStorage O] : OriginStorage (OriginRecorder O) where
  readAt r off len :=
    let (answer,o) := OriginStorage.readAt r.origin off len
    (answer,⟨o,r.log++[.read len (answer.toOption.map Prod.fst)]⟩)
  writeAt r off data :=
    let (answer,o) := OriginStorage.writeAt r.origin off data
    (answer,⟨o,r.log++[.write data.length answer.toOption]⟩)
  syncData r :=
    let (answer,o) := OriginStorage.syncData r.origin
    (answer,⟨o,r.log++[.sync answer.isOk]⟩)

/-- The record grew, and a faulty call among the new ones had a consequence. -/
def Reports (log log' : List OriginCall) (consequence : Prop) : Prop :=
  ∃ calls, log' = log++calls ∧ ((∃ call∈calls, call.faulty) → consequence)

lemma Reports.refl (log : List OriginCall) (consequence : Prop) : Reports log log consequence :=
  ⟨[],(List.append_nil log).symm,by simp⟩

lemma Reports.mono {log log' : List OriginCall} {c c' : Prop} (h : Reports log log' c) (hc : c → c') :
    Reports log log' c' := by
  obtain ⟨calls,hlog,hfault⟩ := h
  exact ⟨calls,hlog,fun hf => hc (hfault hf)⟩

lemma Reports.trans {log₁ log₂ log₃ : List OriginCall} {c c' : Prop} (h : Reports log₁ log₂ c)
    (h' : Reports log₂ log₃ c') (hc : c → c') : Reports log₁ log₃ c' := by
  obtain ⟨calls,rfl,hfault⟩ := h
  obtain ⟨calls',rfl,hfault'⟩ := h'
  refine ⟨calls++calls',List.append_assoc ..,?_⟩
  rintro ⟨call,hcall,hf⟩
  obtain hcall | hcall := List.mem_append.mp hcall
  · exact hc (hfault ⟨call,hcall,hf⟩)
  · exact hfault' ⟨call,hcall,hf⟩

section
variable {O : Type} [OriginStorage O]

lemma readAt_recorded {r r' : OriginRecorder O} {off len : ℕ} {answer : Except IoError (ℕ × List UInt8)}
    (h : OriginStorage.readAt r off len = (answer,r')) :
    r'.log = r.log++[.read len (answer.toOption.map Prod.fst)] := by
  cases h
  rfl

lemma writeAt_recorded {r r' : OriginRecorder O} {off : ℕ} {data : List UInt8} {answer : Except IoError ℕ}
    (h : OriginStorage.writeAt r off data = (answer,r')) :
    r'.log = r.log++[.write data.length answer.toOption] := by
  cases h
  rfl

/-- A proper transfer leaves it to the later calls whether there is a fault. -/
lemma Reports.next {log log₁ log₂ : List OriginCall} {call : OriginCall} {c c' : Prop}
    (hlog : log₁ = log++[call]) (hcall : call.faulty=false) (h : Reports log₁ log₂ c) (hc : c → c') :
    Reports log log₂ c' :=
  (Reports.trans (c := c) ⟨[call],hlog,by simp [hcall]⟩ h id).mono hc

variable (r : OriginRecorder O)

lemma readExactAt_reports (off len : ℕ) :
    Reports r.log (readExactAt r off len).2.log (∃ e, (readExactAt r off len).1=.error e) := by
  refine readExactAt_rule (P := fun r _ _ x => Reports r.log x.2.log (∃ e, x.1=.error e))
    (fun _ _ => .refl _ _) ?_ ?_ ?_ r off len
  · exact fun _ hcall => ⟨_,readAt_recorded hcall,fun _ => ⟨_,rfl⟩⟩
  · exact fun e _ hcall _ => ⟨_,readAt_recorded hcall,fun _ => ⟨e,rfl⟩⟩
  · intro r off len n bytes r' x hcall hn ih
    refine ih.next (readAt_recorded hcall) (by simp [OriginCall.faulty,Except.toOption,hn.1,hn.2.1]) ?_
    rintro ⟨e,he⟩
    exact ⟨e,by rw [he]; rfl⟩

lemma writeAllAt_reports (off : ℕ) (data : List UInt8) :
    Reports r.log (writeAllAt r off data).2.log (∃ e, (writeAllAt r off data).1=.error e) := by
  refine writeAllAt_rule (P := fun r _ _ x => Reports r.log x.2.log (∃ e, x.1=.error e))
    (fun _ _ => .refl _ _) ?_ ?_ ?_ r off data
  · exact fun _ hcall => ⟨_,writeAt_recorded hcall,fun _ => ⟨_,rfl⟩⟩
  · exact fun e _ hcall _ => ⟨_,writeAt_recorded hcall,fun _ => ⟨e,rfl⟩⟩
  · intro r off data n r' x hcall hn ih
    exact ih.next (writeAt_recorded hcall) (by simp [OriginCall.faulty,Except.toOption,hn.1,hn.2.1]) id

lemma syncData_reports : Reports r.log (OriginStorage.syncData r).2.log
      (∃ e, (OriginStorage.syncData r).1=.error e) := by
  refine ⟨[.sync (OriginStorage.syncData r.origin).1.isOk],rfl,?_⟩
  show _ → ∃ e, (OriginStorage.syncData r.origin).1=.error e
  cases (OriginStorage.syncData r.origin).1 with
  | error e => exact fun _ => ⟨e,rfl⟩
  | ok u => simp [OriginCall.faulty,Except.isOk,Except.toBool]

end

/-! Where the loops of an origin transfer what. -/

/-- A transfer: its offset, the length asked for and, unless it failed, the count it reported with
the buffer that it filled or took from. -/
structure Transfer where
  off : ℕ
  len : ℕ
  answer : Option (ℕ × List UInt8)
  deriving DecidableEq, Repr

structure Tracer (O : Type) where
  origin : O
  transfers : List Transfer

instance {O : Type} [OriginStorage O] : OriginStorage (Tracer O) where
  readAt t off len :=
    let (answer,o) := OriginStorage.readAt t.origin off len
    (answer,⟨o,t.transfers++[⟨off,len,answer.toOption⟩]⟩)
  writeAt t off data :=
    let (answer,o) := OriginStorage.writeAt t.origin off data
    (answer,⟨o,t.transfers++[⟨off,data.length,answer.toOption.map (·,data)⟩]⟩)
  syncData t :=
    let (answer,o) := OriginStorage.syncData t.origin
    (answer,⟨o,t.transfers⟩)

/-- The transfers move the bytes of a range in order, each of them once. -/
def Covers : ℕ → ℕ → List UInt8 → List Transfer → Prop
  | _, len, bytes, [] => len=0 ∧ bytes=[]
  | off, len, bytes, t::ts => ∃ n buf rest, t = ⟨off,len,some (n,buf)⟩ ∧ Proper off len n ∧
    bytes = buf.take n++rest ∧ Covers (off+n) (len-n) rest ts

/-- The trace grew by at most `len` transfers, which are as told. -/
def Traced (len : ℕ) (ts ts' : List Transfer) (told : List Transfer → Prop) : Prop :=
  ∃ new, ts' = ts++new ∧ new.length≤len ∧ told new

lemma Traced.next {len n : ℕ} {ts ts₁ ts₂ : List Transfer} {t : Transfer} {told told' : List Transfer → Prop}
    (h : Traced (len-n) ts₁ ts₂ told) (hts : ts₁ = ts++[t]) (hpos : 0<n) (hle : n≤len)
    (ht : ∀ new, told new → told' (t::new)) : Traced len ts ts₂ told' := by
  obtain ⟨new,rfl,hlen,htold⟩ := h
  refine ⟨t::new,by simp [hts],?_,ht new htold⟩
  rw [List.length_cons]
  omega

section
variable {O : Type} [OriginStorage O]

lemma readAt_traced {t t' : Tracer O} {off len : ℕ} {answer : Except IoError (ℕ × List UInt8)}
    (h : OriginStorage.readAt t off len = (answer,t')) :
    t'.transfers = t.transfers++[⟨off,len,answer.toOption⟩] := by
  cases h
  rfl

lemma writeAt_traced {t t' : Tracer O} {off : ℕ} {data : List UInt8} {answer : Except IoError ℕ}
    (h : OriginStorage.writeAt t off data = (answer,t')) :
    t'.transfers = t.transfers++[⟨off,data.length,answer.toOption.map (·,data)⟩] := by
  cases h
  rfl

lemma readExactAt_traced (t : Tracer O) (off len : ℕ) :
    Traced len t.transfers (readExactAt t off len).2.transfers fun new =>
      ∀ bytes, (readExactAt t off len).1=.ok bytes ↔ Covers off len bytes new := by
  refine readExactAt_rule (P := fun t off len x => Traced len t.transfers x.2.transfers fun new =>
    ∀ bytes, x.1=.ok bytes ↔ Covers off len bytes new) ?_ ?_ ?_ ?_ t off len
  · exact fun t off => ⟨[],(List.append_nil _).symm,le_rfl,fun bytes => by simp [Covers,eq_comm]⟩
  · exact fun hl hcall => ⟨_,readAt_traced hcall,hl,fun bytes => by simp [Covers,Except.toOption]⟩
  · intro t off len n buf t' e hl hcall hn
    refine ⟨_,readAt_traced hcall,hl,fun bytes => ⟨nofun,?_⟩⟩
    rintro ⟨_,_,_,⟨⟩,hp,-⟩
    exact absurd hp hn
  · intro t off len n buf t' x hcall hn ih
    refine ih.next (readAt_traced hcall) hn.1 hn.2.1 fun new hnew bytes => ⟨fun hx => ?_,?_⟩
    · obtain ⟨e | rest,t''⟩ := x
      · cases hx
      · cases hx
        exact ⟨n,buf,rest,rfl,hn,rfl,(hnew rest).mp rfl⟩
    · rintro ⟨_,_,rest,⟨⟩,-,rfl,h⟩
      dsimp only
      rw [(hnew rest).mpr h]
      rfl

lemma writeAllAt_traced (t : Tracer O) (off : ℕ) (data : List UInt8) :
    Traced data.length t.transfers (writeAllAt t off data).2.transfers fun new =>
      (writeAllAt t off data).1=.ok () ↔ Covers off data.length data new := by
  refine writeAllAt_rule (P := fun t off data x => Traced data.length t.transfers x.2.transfers
    fun new => x.1=.ok () ↔ Covers off data.length data new) ?_ ?_ ?_ ?_ t off data
  · exact fun t off => ⟨[],(List.append_nil _).symm,le_rfl,by simp [Covers]⟩
  · exact fun hl hcall => ⟨_,writeAt_traced hcall,hl,by simp [Covers,Except.toOption]⟩
  · intro t off data n t' e hl hcall hn
    refine ⟨_,writeAt_traced hcall,hl,nofun,?_⟩
    rintro ⟨_,_,_,⟨⟩,hp,-⟩
    exact absurd hp hn
  · intro t off data n t' x hcall hn ih
    rw [List.length_drop] at ih
    refine ih.next (writeAt_traced hcall) hn.1 hn.2.1 fun new hnew => hnew.trans ⟨fun h => ?_,?_⟩
    · exact ⟨n,data,data.drop n,rfl,hn,(List.take_append_drop n data).symm,h⟩
    · rintro ⟨_,_,rest,⟨⟩,-,hrest,h⟩
      rwa [List.append_cancel_left ((List.take_append_drop n data).trans hrest)]

/-- The loops make at most one call a byte. They succeed exactly if no call failed, moved nothing or
too much, or ran past the last offset, and then the calls have moved the range in order. -/
theorem transfers_exact (o : O) (off : ℕ) :
    (∀ len, (readExactAt (Tracer.mk o []) off len).2.transfers.length ≤ len ∧
      ∀ bytes, (readExactAt (Tracer.mk o []) off len).1 = .ok bytes ↔
        Covers off len bytes (readExactAt (Tracer.mk o []) off len).2.transfers) ∧
    ∀ data, (writeAllAt (Tracer.mk o []) off data).2.transfers.length ≤ data.length ∧
      ((writeAllAt (Tracer.mk o []) off data).1 = .ok () ↔
        Covers off data.length data (writeAllAt (Tracer.mk o []) off data).2.transfers) := by
  constructor
  · intro len
    obtain ⟨new,hts,hlen,hok⟩ := readExactAt_traced (Tracer.mk o []) off len
    rw [hts]
    exact ⟨hlen,hok⟩
  · intro data
    obtain ⟨new,hts,hlen,hok⟩ := writeAllAt_traced (Tracer.mk o []) off data
    rw [hts]
    exact ⟨hlen,hok⟩

end
end RamShared.Block

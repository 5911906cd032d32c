import RamShared.Broker.Accounting
import RamShared.Lib.Json
import RamShared.Lib.Words

/-! The wire format: one JSON object a line. The reader accepts lines up to a cap, which the
writer does not know of. -/
namespace RamShared.Broker
open Lib

inductive ProtocolError
  | badMagic (reason : String)
  | payloadTooLarge
  deriving DecidableEq, Repr

def TransportKind.json : TransportKind → List UInt8
  | .nbdUnix => jsonStr "NbdUnix"
  | .nbdTcp => jsonStr "NbdTcp"
  | .winDrive => jsonStr "WinDrive"
  | .dccAgent => jsonStr "DccAgent"

def SliceState.json : SliceState → List UInt8
  | .free => jsonStr "Free"
  | .active => jsonStr "Active"
  | .draining => jsonStr "Draining"
  | .leased => jsonStr "Leased"

def NbdEndpoint.json : NbdEndpoint → List UInt8
  | .unix path => jsonObject [("unix",jsonObject [("path",jsonStr path)])]
  | .tcp host port => jsonObject [("tcp",jsonObject [("host",jsonStr host),("port",jsonNat port)])]

def SwapEntry.json (e : SwapEntry) : List UInt8 :=
  jsonObject [("dev",jsonStr e.dev),("prio",jsonInt e.prio),("size_kb",jsonNat e.sizeKb),
    ("used_kb",jsonNat e.usedKb)]

def TenantMem.json (m : TenantMem) : List UInt8 :=
  jsonObject [("swap_current",jsonOption jsonNat m.swapCurrent),
    ("diskstats_io",jsonNat m.diskstatsIo)]

def Slice.json (s : Slice) : List UInt8 :=
  jsonObject [("id",jsonNat s.id),("offset",jsonNat s.offset),("len",jsonNat s.len),
    ("tenant",jsonOption jsonNat s.tenant),("state",s.state.json)]

def SliceIo.json (s : SliceIo) : List UInt8 :=
  jsonObject [("id",jsonNat s.id),("bytes_served",jsonNat s.bytesServed),
    ("io_count",jsonNat s.ioCount)]

section
variable {F : Type} (text : F → List UInt8)

def PsiSample.json (p : PsiSample F) : List UInt8 :=
  jsonObject [("avg10",text p.avg10),("avg60",text p.avg60),("stall_us",jsonNat p.stallUs)]

def TenantStatus.json (t : TenantStatus F) : List UInt8 :=
  jsonObject [("id",jsonNat t.id),("name",jsonStr t.name),("psi",t.psi.json text),
    ("slices",jsonArray jsonNat t.slices),("present",jsonBool t.present),
    ("bytes_served",jsonNat t.bytesServed)]

def Msg.json : Msg F → List UInt8
  | .register proto tenant transport =>
    jsonObject [("type",jsonStr "register"),("proto",jsonNat proto),("tenant",jsonStr tenant),
      ("transport",transport.json)]
  | .psi sample swaps mem =>
    jsonObject [("type",jsonStr "psi"),("sample",sample.json text),
      ("swaps",jsonArray SwapEntry.json swaps),("mem",jsonOption TenantMem.json mem)]
  | .swapOnDone slice ok detail =>
    jsonObject [("type",jsonStr "swap_on_done"),("slice",jsonNat slice),("ok",jsonBool ok),
      ("detail",jsonStr detail)]
  | .swapOffDone slice ok detail =>
    jsonObject [("type",jsonStr "swap_off_done"),("slice",jsonNat slice),("ok",jsonBool ok),
      ("detail",jsonStr detail)]
  | .leaseRequest bytes => jsonObject [("type",jsonStr "lease_request"),("bytes",jsonNat bytes)]
  | .leaseRelease lease => jsonObject [("type",jsonStr "lease_release"),("lease",jsonNat lease)]
  | .status => jsonObject [("type",jsonStr "status")]
  | .registered tenantId =>
    jsonObject [("type",jsonStr "registered"),("tenant_id",jsonNat tenantId)]
  | .ack => jsonObject [("type",jsonStr "ack")]
  | .swapOn slice exportName endpoint swapPrio =>
    jsonObject [("type",jsonStr "swap_on"),("slice",jsonNat slice),("export",jsonStr exportName),
      ("endpoint",endpoint.json),("swap_prio",jsonOption jsonInt swapPrio)]
  | .swapOff slice => jsonObject [("type",jsonStr "swap_off"),("slice",jsonNat slice)]
  | .demoteAll => jsonObject [("type",jsonStr "demote_all")]
  | .leaseGranted lease bytes =>
    jsonObject [("type",jsonStr "lease_granted"),("lease",jsonNat lease),("bytes",jsonNat bytes)]
  | .leaseDenied reason => jsonObject [("type",jsonStr "lease_denied"),("reason",jsonStr reason)]
  | .statusReply tenants slices sliceIo lastRebalanceSecs =>
    jsonObject [("type",jsonStr "status_reply"),
      ("tenants",jsonArray (TenantStatus.json text) tenants),
      ("slices",jsonArray Slice.json slices),("slice_io",jsonArray SliceIo.json sliceIo),
      ("last_rebalance_secs",jsonOption jsonNat lastRebalanceSecs)]
  | .error reason => jsonObject [("type",jsonStr "error"),("reason",jsonStr reason)]

variable (decode : List UInt8 → Except String (Msg F))

variable {text}

lemma PsiSample.newline_not_mem (ht : ∀ x, 10∉text x) (p : PsiSample F) : 10∉p.json text :=
  newline_not_mem_jsonObject (by simp [ht])

lemma TransportKind.newline_not_mem (t : TransportKind) : 10∉t.json := by
  cases t <;> simp [TransportKind.json]

lemma SliceState.newline_not_mem (s : SliceState) : 10∉s.json := by
  cases s <;> simp [SliceState.json]

lemma NbdEndpoint.newline_not_mem (e : NbdEndpoint) : 10∉e.json := by
  cases e with
  | unix path =>
    refine newline_not_mem_jsonObject fun f hf => ?_
    obtain rfl := List.mem_singleton.mp hf
    exact newline_not_mem_jsonObject (by simp)
  | tcp host port =>
    refine newline_not_mem_jsonObject fun f hf => ?_
    obtain rfl := List.mem_singleton.mp hf
    exact newline_not_mem_jsonObject (by simp)

lemma SwapEntry.newline_not_mem (e : SwapEntry) : 10∉e.json :=
  newline_not_mem_jsonObject (by simp)

lemma newline_not_mem_optionNat (o : Option ℕ) : 10∉jsonOption jsonNat o :=
  newline_not_mem_jsonOption (by simp)

lemma TenantMem.newline_not_mem (m : TenantMem) : 10∉m.json :=
  newline_not_mem_jsonObject (by simp [newline_not_mem_optionNat])

lemma Slice.newline_not_mem (s : Slice) : 10∉s.json :=
  newline_not_mem_jsonObject (by simp [newline_not_mem_optionNat,SliceState.newline_not_mem])

lemma SliceIo.newline_not_mem (s : SliceIo) : 10∉s.json :=
  newline_not_mem_jsonObject (by simp)

lemma TenantStatus.newline_not_mem (ht : ∀ x, 10∉text x) (t : TenantStatus F) : 10∉t.json text := by
  have hslices : 10∉jsonArray jsonNat t.slices := newline_not_mem_jsonArray (by simp)
  exact newline_not_mem_jsonObject (by simp [t.psi.newline_not_mem ht,hslices])

lemma Msg.newline_not_mem (ht : ∀ x, 10∉text x) (m : Msg F) : 10∉m.json text := by
  cases m with
  | register proto tenant transport =>
    exact newline_not_mem_jsonObject (by simp [transport.newline_not_mem])
  | psi sample swaps mem =>
    have hswaps : 10∉jsonArray SwapEntry.json swaps :=
      newline_not_mem_jsonArray fun e _ => e.newline_not_mem
    have hmem : 10∉jsonOption TenantMem.json mem :=
      newline_not_mem_jsonOption fun m _ => m.newline_not_mem
    exact newline_not_mem_jsonObject (by simp [sample.newline_not_mem ht,hswaps,hmem])
  | swapOn slice exportName endpoint swapPrio =>
    have hprio : 10∉jsonOption jsonInt swapPrio := newline_not_mem_jsonOption (by simp)
    exact newline_not_mem_jsonObject (by simp [endpoint.newline_not_mem,hprio])
  | statusReply tenants slices sliceIo lastRebalanceSecs =>
    have htenants : 10∉jsonArray (TenantStatus.json text) tenants :=
      newline_not_mem_jsonArray fun t _ => t.newline_not_mem ht
    have hslices : 10∉jsonArray Slice.json slices :=
      newline_not_mem_jsonArray fun s _ => s.newline_not_mem
    have hio : 10∉jsonArray SliceIo.json sliceIo :=
      newline_not_mem_jsonArray fun s _ => s.newline_not_mem
    exact newline_not_mem_jsonObject
      (by simp [htenants,hslices,hio,newline_not_mem_optionNat])
  | _ => exact newline_not_mem_jsonObject (by simp)

end

variable (name : String)

namespace BrokerCore

end BrokerCore
end RamShared.Broker

import RamShared.Nbd.Request
import RamShared.Nbd.SliceView
import RamShared.Broker.Protocol

/-! The worker that serves the requests of all exports over one backend. -/
namespace RamShared.Nbd
open Lib Block Broker

inductive DemoteReason
  | latency
  | corruption
  | freeFloor
  | gpuLost
  | ioErrorBurst
  deriving DecidableEq, Repr

structure Job where
  exportIndex : ℕ
  req : Request
  payload : List UInt8
  deriving DecidableEq, Repr

def maxConsecutiveIoErrors : ℕ := 3

/-- The state of the worker loop. `demotes` are the reasons sent to the broker so far. -/
structure Worker (B : Type) where
  backend : B
  geom : List (ℕ × ℕ)
  demoted : Bool
  consecutiveIoErrors : ℕ
  sliceIo : List SliceIoCounters
  demotes : List DemoteReason

def touches (req : Request) : Bool := req.cmd=.read || req.cmd=.write

def replyErrno (reply : List UInt8) : ℕ := fromBeBytes ((reply.drop 4).take 4)

/-- The window of an export; the whole backend if there is no such export. -/
def exportWindow {B : Type} [BlockBackend B] (geom : List (ℕ × ℕ)) (backend : B)
    (exportIndex : ℕ) : ℕ × ℕ := geom[exportIndex]?.getD (0,BlockBackend.sizeBytes backend)

def serveExport {B : Type} [BlockBackend B] (geom : List (ℕ × ℕ)) (backend : B) (job : Job) :
    ServeOutcome × B :=
  let (base,len) := exportWindow geom backend job.exportIndex
  let (out,view) := serve job.req job.payload (⟨backend,base,len⟩ : SliceView B)
  (out,view.inner)

namespace Worker
variable {B : Type} (w : Worker B)

def demote (reason : DemoteReason) : Worker B :=
  if w.demoted then w else {w with demoted := true, demotes := w.demotes++[reason]}

variable (req : Request)

/-- The circuit breaker: a burst of failed transfers demotes at once. -/
def countIoErrors (errno : ℕ) : Worker B :=
  if touches req then
    if errno=nbdEio.toNat then
      let w := {w with consecutiveIoErrors := saturatingAdd 32 w.consecutiveIoErrors 1}
      if maxConsecutiveIoErrors≤w.consecutiveIoErrors then w.demote .ioErrorBurst else w
    else if errno=nbdOk.toNat then {w with consecutiveIoErrors := 0}
    else w
  else w

def countServed (job : Job) : Worker B :=
  if touches job.req then
    { w with sliceIo := w.sliceIo.modify job.exportIndex fun c =>
        ⟨wrappingAdd 64 c.bytesServed job.req.len.toNat,wrappingAdd 64 c.ioCount 1⟩}
  else w

/-- What the residency check answered; it runs for data requests until the first demotion. -/
def checkResidency (residency : Option DemoteReason) : Worker B :=
  if touches req then
    match residency with
    | some reason => w.demote reason
    | none => w
  else w

/-- One job of the loop, with the answer of the residency check should it be asked. -/
def onJob [BlockBackend B] (w : Worker B) (x : Job × Option DemoteReason) : ServeOutcome × Worker B :=
  let (out,backend) := serveExport w.geom w.backend x.1
  let w := {w with backend := backend}
  (out,((w.countIoErrors x.1.req (replyErrno out.reply)).countServed x.1).checkResidency
    x.1.req x.2)

lemma demote_frame (reason : DemoteReason) :
    (w.demote reason).backend=w.backend ∧ (w.demote reason).geom=w.geom := by
  unfold demote
  split_ifs <;> exact ⟨rfl,rfl⟩

lemma countIoErrors_frame (errno : ℕ) : (w.countIoErrors req errno).backend=w.backend ∧
      (w.countIoErrors req errno).geom=w.geom := by
  unfold countIoErrors
  dsimp only
  split_ifs
  · exact demote_frame _ _
  all_goals exact ⟨rfl,rfl⟩

lemma countServed_frame (job : Job) :
    (w.countServed job).backend=w.backend ∧ (w.countServed job).geom=w.geom := by
  unfold countServed
  split_ifs <;> exact ⟨rfl,rfl⟩

lemma checkResidency_frame (residency : Option DemoteReason) :
    (w.checkResidency req residency).backend=w.backend ∧
      (w.checkResidency req residency).geom=w.geom := by
  unfold checkResidency
  split_ifs
  · cases residency
    · exact ⟨rfl,rfl⟩
    · exact w.demote_frame _
  · exact ⟨rfl,rfl⟩

lemma onJob_eq [BlockBackend B] (w : Worker B) (x : Job × Option DemoteReason) :
    (w.onJob x).1 = (serveExport w.geom w.backend x.1).1 ∧
      (w.onJob x).2.backend = (serveExport w.geom w.backend x.1).2 ∧
      (w.onJob x).2.geom=w.geom := by
  refine ⟨rfl,?_,?_⟩
  · exact ((checkResidency_frame _ _ _).1.trans (countServed_frame _ _).1).trans
      (countIoErrors_frame _ _ _).1
  · exact ((checkResidency_frame _ _ _).2.trans (countServed_frame _ _).2).trans
      (countIoErrors_frame _ _ _).2

end Worker
end RamShared.Nbd

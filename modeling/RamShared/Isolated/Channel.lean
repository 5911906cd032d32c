import RamShared.Isolated.Backend

/-! The bounded client of an isolated cache worker, together with the other end of its
channels. The worker is scheduled freely: before every send and while the client waits for a
reply it performs any acts of a script, and a statement about every script is a statement
about every interleaving. -/
namespace RamShared.Isolated
open Lib Block

/-- `IsolatedCacheRequest`. The reply channel of a read is represented by its number. -/
inductive IsolatedCacheRequest
  | read (reply off len : ℕ)
  | update (off : ℕ) (data : List UInt8)
  | promote (off : ℕ) (data : List UInt8)
  deriving DecidableEq, Repr

def IsolatedCacheRequest.channel : IsolatedCacheRequest → Option ℕ
  | .read reply _ _ => some reply
  | _ => none

/-- What a consumed request does to the worker's store. -/
def IsolatedCacheRequest.apply (store : Copy UInt8) : IsolatedCacheRequest → Copy UInt8
  | .read _ _ _ => store
  | .update off data => store.write off data
  | .promote off data => store.write off data

/-- A consumed read that waits for its answer, with what the store held for it. -/
structure HeldRead where
  reply : ℕ
  len : ℕ
  stored : Option (List UInt8)

/-- How the worker answers a read: from its store, with a refusal, with an error, or with bytes
of a wrong length. -/
inductive Answer
  | stored
  | absent
  | error (message : String)
  | wrongLength (bytes : List UInt8)

structure IsolatedCacheWorker where
  requests : List IsolatedCacheRequest
  receiving : Bool
  awaiting : Bool
  control : Bool
  controlling : Bool
  held : List HeldRead
  store : Copy UInt8
  replies : List (ℕ × Except String (Option (List UInt8)))
  acknowledgement : Option (Except String Unit)

/-- One act of the worker. It may also do nothing for as long as it likes. -/
inductive WorkerAct
  | await
  | consume
  | answer (index : ℕ) (answer : Answer)
  | disable (reply : Option (Except String Unit))
  | dropRequests
  | dropControl

variable (w : IsolatedCacheWorker)

namespace IsolatedCacheWorker

/-- The store once every request in flight has been consumed. -/
def applied : Copy UInt8 :=
  w.requests.foldl IsolatedCacheRequest.apply w.store

/-- Take the oldest request: mutations are applied, a read is held with the stored bytes. -/
def consume : IsolatedCacheWorker :=
  match w.requests with
  | [] => w
  | .read reply off len::rest =>
    {w with requests := rest, held := w.held++[⟨reply,len,w.store.lookup off len⟩]}
  | request::rest => {w with requests := rest, store := request.apply w.store}

/-- The message an answer puts on the reply channel of a held read. -/
def answerMessage (h : HeldRead) : Answer → Option (Except String (Option (List UInt8)))
  | .stored => some (.ok h.stored)
  | .absent => some (.ok none)
  | .error message => some (.error message)
  | .wrongLength bytes => if bytes.length=h.len then none else some (.ok (some bytes))

def answer (index : ℕ) (a : Answer) : IsolatedCacheWorker :=
  match w.held[index]? with
  | none => w
  | some h =>
    { w with
      held := w.held.eraseIdx index
      replies := w.replies++((answerMessage h a).map fun message => (h.reply,message)).toList}

/-- Process a pending `Disable`: the cache is gone before anything is acknowledged. -/
def disable (reply : Option (Except String Unit)) : IsolatedCacheWorker :=
  if w.control then
    {w with control := false, store := fun _ => none, acknowledgement := reply}
  else w

def perform : WorkerAct → IsolatedCacheWorker
  | .await => {w with awaiting := true}
  | .consume => w.consume
  | .answer index a => w.answer index a
  | .disable reply => w.disable reply
  | .dropRequests => {w with receiving := false, requests := []}
  | .dropControl => {w with controlling := false, control := false}

/-- Whether `try_send` succeeds; without a buffer only a waiting receiver takes a request. -/
def accepts (capacity : ℕ) : Bool :=
  w.receiving && (decide (w.requests.length<capacity) || (w.awaiting && w.requests.isEmpty))

def push (request : IsolatedCacheRequest) : IsolatedCacheWorker :=
  {w with requests := w.requests++[request], awaiting := false}

/-- The reply channels that the worker can still answer on. -/
def channels : List ℕ :=
  w.requests.filterMap IsolatedCacheRequest.channel++w.held.map HeldRead.reply

def freshReply : ℕ := w.channels.sum+1

end IsolatedCacheWorker

/-- The client, its worker, and what the worker will do when it gets to run. -/
structure BoundedCacheClient where
  capacity : ℕ
  state : CacheState
  worker : IsolatedCacheWorker
  schedule : List (List WorkerAct)

def isolatedCacheChannel (capacity : ℕ) (schedule : List (List WorkerAct)) :
    BoundedCacheClient :=
  { capacity := capacity
    state := .active
    worker :=
      { requests := []
        receiving := true
        awaiting := false
        control := false
        controlling := true
        held := []
        store := fun _ => none
        replies := []
        acknowledgement := none}
    schedule := schedule}

variable (c : BoundedCacheClient)

namespace BoundedCacheClient

def preempt : BoundedCacheClient :=
  { c with
    worker := (c.schedule.headD []).foldl IsolatedCacheWorker.perform c.worker
    schedule := c.schedule.tail}

def fail : BoundedCacheClient := {c with state := .unavailable}

def sendMutation (request : IsolatedCacheRequest) : CacheMutation × BoundedCacheClient :=
  if c.state≠.active then (.skipped,c)
  else if c.preempt.worker.accepts c.capacity then
    (.accepted,{c.preempt with worker := c.preempt.worker.push request})
  else (.failed,c.preempt.fail)

/-- Open a reply channel; the receivers of earlier ones are gone. -/
def openReply : BoundedCacheClient :=
  {c with worker := {c.worker with replies := [], acknowledgement := none}}

def receiveRead (reply len : ℕ) : CacheRead × List UInt8 × BoundedCacheClient :=
  match c.worker.replies.find? fun message => decide (message.1=reply) with
  | some (_,.ok (some bytes)) =>
    if bytes.length=len then (.hit,bytes,c) else (.failed,List.replicate len 0,c.fail)
  | some (_,.ok none) => (.miss,List.replicate len 0,c)
  | some (_,.error _) => (.failed,List.replicate len 0,c.fail)
  | none => (.failed,List.replicate len 0,c.fail)

def read (off len : ℕ) : CacheRead × List UInt8 × BoundedCacheClient :=
  if c.state≠.active then (.miss,List.replicate len 0,c)
  else
    let c := c.preempt.openReply
    let reply := c.worker.freshReply
    if c.worker.accepts c.capacity then
      ({c with worker := c.worker.push (.read reply off len)}).preempt.receiveRead reply len
    else (.failed,List.replicate len 0,c.fail)

def disable : CacheMutation × BoundedCacheClient :=
  if c.state=.off then (.skipped,c)
  else
    let c := c.preempt.openReply
    if c.worker.controlling && !c.worker.control then
      let c := ({c with worker := {c.worker with control := true}}).preempt
      match c.worker.acknowledgement with
      | some (.ok ()) => (.accepted,{c with state := .off})
      | _ => (.failed,{c with state := .stuck})
    else (.failed,{c with state := .stuck})

instance : BestEffortCache BoundedCacheClient where
  read := read
  update c off data := c.sendMutation (.update off data)
  promote c off data := c.sendMutation (.promote off data)
  disable := disable
  state := state

end BoundedCacheClient

/-! With the requests in flight counted as applied, every act of the worker at most forgets bytes.
-/

namespace IsolatedCacheWorker

def Live : Prop := w.receiving=true ∨ w.requests≠[]

lemma forgets_foldl_apply (requests : List IsolatedCacheRequest) {c c' : Copy UInt8} (h : Forgets c c') :
    Forgets (requests.foldl IsolatedCacheRequest.apply c) (requests.foldl IsolatedCacheRequest.apply c') := by
  induction requests generalizing c c' with
  | nil => exact h
  | cons request requests ih =>
    refine ih ?_
    cases request with
    | read => exact h
    | update off data => exact h.write off data
    | promote off data => exact h.write off data

lemma applied_consume : w.consume.applied=w.applied := by
  unfold consume applied
  rcases hr : w.requests with _ | ⟨request,rest⟩
  · simp [hr]
  · cases request <;> rfl

variable {w : IsolatedCacheWorker} {img : Image UInt8} {reply off len : ℕ}

lemma live_of_consume (h : w.consume.Live) : w.Live := by
  unfold consume Live at *
  rcases hr : w.requests with _ | ⟨request,rest⟩
  · simpa [hr] using h
  · exact .inr (by simp)

lemma perform_forgets (w : IsolatedCacheWorker) (act : WorkerAct) (h : (w.perform act).Live) :
    w.Live ∧ Forgets w.applied (w.perform act).applied := by
  cases act with
  | await => exact ⟨h,Forgets.refl _⟩
  | consume => exact ⟨live_of_consume h,by rw [perform,applied_consume]; exact Forgets.refl _⟩
  | answer index a =>
    simp only [perform,answer] at h ⊢
    split at h
    · exact ⟨h,Forgets.refl _⟩
    · exact ⟨h,Forgets.refl _⟩
  | disable reply =>
    simp only [perform,disable] at h ⊢
    split_ifs at h ⊢
    · exact ⟨h,forgets_foldl_apply w.requests fun a v ha => by cases ha⟩
    · exact ⟨h,Forgets.refl _⟩
  | dropRequests => simp [perform,Live] at h
  | dropControl => exact ⟨h,Forgets.refl _⟩

lemma foldl_perform_forgets (acts : List WorkerAct) (w : IsolatedCacheWorker)
    (h : (acts.foldl perform w).Live) : w.Live ∧ Forgets w.applied (acts.foldl perform w).applied := by
  induction acts generalizing w with
  | nil => exact ⟨h,Forgets.refl _⟩
  | cons act acts ih =>
    obtain ⟨hl,hf⟩ := ih _ h
    obtain ⟨hl',hf'⟩ := w.perform_forgets act hl
    exact ⟨hl',hf'.trans hf⟩

/-- The client waits for the answer to a read of `[off, off+len)` of a coherent store. -/
structure Waiting (img : Image UInt8) (reply off len : ℕ) (w : IsolatedCacheWorker) : Prop where
  coherent : w.Live → Coherent img w.applied
  last : ∀ i off' len', w.requests[i]?=some (.read reply off' len') →
    off'=off ∧ len'=len ∧ i+1=w.requests.length
  held : ∀ h∈w.held, h.reply=reply →
    h.len=len ∧ ∀ bytes, h.stored=some bytes → bytes = img.load off len
  replies : ∀ message∈w.replies, message.1=reply → ∀ bytes, message.2=.ok (some bytes) →
    bytes.length=len → bytes = img.load off len

section
variable (h : w.Waiting img reply off len)
include h

lemma Waiting.last_tail {request : IsolatedCacheRequest}
    {rest : List IsolatedCacheRequest} (hr : w.requests = request::rest) :
    ∀ i off' len', rest[i]?=some (.read reply off' len') → off'=off ∧ len'=len ∧ i+1=rest.length := by
  intro i off' len' hi
  obtain ⟨h₁,h₂,h₃⟩ := h.last (i+1) off' len' (by simpa [hr] using hi)
  rw [hr,List.length_cons] at h₃
  exact ⟨h₁,h₂,by omega⟩

lemma Waiting.consume : w.consume.Waiting img reply off len := by
  have hc : w.consume.Live → Coherent img w.consume.applied :=
    fun hl => w.applied_consume ▸ h.coherent (live_of_consume hl)
  unfold IsolatedCacheWorker.consume at hc ⊢
  split at hc
  · exact h
  · -- The awaited read is the last request, so its snapshot is taken from the whole history.
    rename_i reply' off' len' rest hr
    refine ⟨hc,h.last_tail hr,fun y hy he => ?_,h.replies⟩
    rcases List.mem_append.mp hy with hy | hy
    · exact h.held y hy he
    rw [List.mem_singleton] at hy
    subst hy
    dsimp only at he ⊢
    subst he
    obtain ⟨rfl,rfl,hlen⟩ := h.last 0 off' len' (by simp [hr])
    refine ⟨rfl,fun bytes hb => ?_⟩
    have hnil : rest=[] := by
      rw [hr,List.length_cons] at hlen
      exact List.eq_nil_of_length_eq_zero (by omega)
    have hcoh := h.coherent (.inr (by simp [hr]))
    rw [applied,hr,hnil] at hcoh
    exact hcoh.lookup hb
  · rename_i request rest hne hr
    exact ⟨hc,h.last_tail hr,h.held,h.replies⟩

lemma Waiting.answer (index : ℕ) (a : Answer) : (w.answer index a).Waiting img reply off len := by
  unfold IsolatedCacheWorker.answer
  split
  · exact h
  · rename_i x hx
    have hmem : x∈w.held := List.mem_of_getElem? hx
    refine ⟨h.coherent,h.last,fun y hy => h.held y (List.mem_of_mem_eraseIdx hy),?_⟩
    intro message hm hr bytes hb hlen
    rcases List.mem_append.mp hm with hm | hm
    · exact h.replies message hm hr bytes hb hlen
    rw [Option.mem_toList,Option.map_eq_some_iff] at hm
    obtain ⟨reply',ha,rfl⟩ := hm
    obtain ⟨hl,hst⟩ := h.held x hmem hr
    cases a with
    | stored =>
      cases ha
      exact hst bytes (Except.ok.inj hb)
    | absent =>
      cases ha
      cases hb
    | error =>
      cases ha
      cases hb
    | wrongLength bytes' =>
      simp only [answerMessage] at ha
      split_ifs at ha with hw
      cases ha
      cases hb
      exact absurd (hlen.trans hl.symm) hw

lemma Waiting.perform (act : WorkerAct) : (w.perform act).Waiting img reply off len := by
  have hf := w.perform_forgets act
  cases act with
  | await => exact ⟨h.coherent,h.last,h.held,h.replies⟩
  | consume => exact h.consume
  | answer index a => exact h.answer index a
  | disable reply =>
    have hc := fun hl => (h.coherent (hf hl).1).forget (hf hl).2
    simp only [IsolatedCacheWorker.perform,IsolatedCacheWorker.disable] at hc ⊢
    split_ifs at hc ⊢
    · exact ⟨hc,h.last,h.held,h.replies⟩
    · exact h
  | dropRequests =>
    refine ⟨fun hl => ?_,?_,h.held,h.replies⟩
    · simp [IsolatedCacheWorker.perform,Live] at hl
    · simp [IsolatedCacheWorker.perform]
  | dropControl => exact ⟨h.coherent,h.last,h.held,h.replies⟩

end

lemma Waiting.foldl (acts : List WorkerAct) (h : w.Waiting img reply off len) :
    (acts.foldl IsolatedCacheWorker.perform w).Waiting img reply off len := by
  induction acts generalizing w with
  | nil => exact h
  | cons act acts ih => exact ih (h.perform act)

lemma freshReply_notMem (w : IsolatedCacheWorker) : w.freshReply∉w.channels := by
  intro h
  have hle := List.le_sum_of_mem h
  unfold freshReply at hle
  omega

lemma waiting_push (off len : ℕ) (hc : Coherent img w.applied) (hr : w.replies=[]) :
    (w.push (.read w.freshReply off len)).Waiting img w.freshReply off len := by
  have hfresh := w.freshReply_notMem
  simp only [channels,List.mem_append,List.mem_filterMap,List.mem_map,not_or,not_exists,
    not_and] at hfresh
  obtain ⟨hreq,hheld⟩ := hfresh
  refine ⟨fun _ => ?_,fun i off' len' hi => ?_,fun h hm he => absurd he (hheld h hm),?_⟩
  · simpa [push,applied,IsolatedCacheRequest.apply] using hc
  · simp only [push] at hi ⊢
    rcases Nat.lt_or_ge i w.requests.length with hlt | hge
    · rw [List.getElem?_append_left hlt] at hi
      exact absurd rfl (hreq _ (List.mem_of_getElem? hi))
    · rw [List.getElem?_append_right hge] at hi
      have hi0 : i-w.requests.length=0 := by
        by_contra hne
        rw [List.getElem?_eq_none_iff.mpr (by simp; omega)] at hi
        cases hi
      rw [hi0] at hi
      cases hi
      exact ⟨rfl,rfl,by simp; omega⟩
  · rw [show (w.push (.read w.freshReply off len)).replies = w.replies from rfl,hr]
    simp

end IsolatedCacheWorker

end RamShared.Isolated

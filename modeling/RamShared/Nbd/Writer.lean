import RamShared.Nbd.Request

/-! The writer of a connection: it puts the replies on the socket, and starts a reply again when
the socket would have blocked. -/
namespace RamShared.Nbd

structure Reply where
  reply : List UInt8
  data : List UInt8
  disconnect : Bool
  deriving DecidableEq, Repr

def Reply.bytes (r : Reply) : List UInt8 := r.reply++r.data

inductive ErrorKind
  | wouldBlock
  | other
  deriving DecidableEq, Repr

/-- How the socket answers a call. A call that fails may have taken some of the bytes. -/
inductive Answer
  | ok
  | fails (kind : ErrorKind) (taken : ℕ)
  deriving DecidableEq, Repr

/-- A call of `write_all`, or of `flush` with no bytes. `fresh` is the first call of an attempt;
after the attempt there are `retries` left. -/
structure Call where
  bytes : List UInt8
  fresh : Bool
  retries : ℕ
  answer : Answer
  deriving DecidableEq, Repr

namespace Call

def error (c : Call) : Option ErrorKind :=
  match c.answer with
  | .ok => none
  | .fails kind _ => some kind

def put (c : Call) : List UInt8 :=
  match c.answer with
  | .ok => c.bytes
  | .fails _ taken => c.bytes.take taken

/-- The call succeeds, or blocks before anything of the reply is out and will be repeated. -/
def good (c : Call) : Bool :=
  c.error.isNone ||
    (c.fresh && decide (c.error=some .wouldBlock) && c.put.isEmpty && decide (0<c.retries))

end Call

def puts (calls : List Call) : List UInt8 := calls.flatMap Call.put

/-- One attempt at a reply: its calls, the error that ended it, and the answers left. A socket
with no answer left succeeds. -/
def tryReply (retries : ℕ) (answers : List Answer) (r : Reply) : List Call × Option ErrorKind × List Answer :=
  let header : Call := ⟨r.reply,true,retries,answers.headD .ok⟩
  let answers := answers.tail
  if header.error.isSome then ([header],header.error,answers)
  else if r.data=[] then
    let flush : Call := ⟨[],false,retries,answers.headD .ok⟩
    ([header,flush],flush.error,answers.tail)
  else
    let data : Call := ⟨r.data,false,retries,answers.headD .ok⟩
    let answers := answers.tail
    if data.error.isSome then ([header,data],data.error,answers)
    else
      let flush : Call := ⟨[],false,retries,answers.headD .ok⟩
      ([header,data,flush],flush.error,answers.tail)

def sendReply : ℕ → List Answer → Reply → List Call × List Answer
  | 0, answers, _ => ([],answers)
  | n+1, answers, r =>
    let (calls,error,answers) := tryReply n answers r
    if error=some .wouldBlock then
      let (more,answers) := sendReply n answers r
      (calls++more,answers)
    else (calls,answers)

def maxAttempts : ℕ := 6

def writerCalls : List Answer → List Reply → List Call
  | _, [] => []
  | answers, r::rs =>
    let (calls,answers) := sendReply maxAttempts answers r
    if r.disconnect then calls else calls++writerCalls answers rs

variable {r : Reply} {answers : List Answer}

lemma writerCalls_disconnect (answers : List Answer) (before : List Reply)
    (hr : r.disconnect=true) (after : List Reply) :
    writerCalls answers (before++r::after) = writerCalls answers (before++[r]) := by
  induction before generalizing answers with
  | nil => simp [writerCalls,hr]
  | cons r' before ih => simp [writerCalls,ih]

/-- The calls are good up to the first one that is not, after which nothing is put on the socket
any more. -/
def orderly : List Call → Bool
  | [] => true
  | c::cs => if c.good then orderly cs else cs.all fun d => d.put.isEmpty

lemma puts_append (xs ys : List Call) : puts (xs++ys) = puts xs++puts ys := by
  simp [puts]

lemma puts_eq_nil {cs : List Call} (h : (cs.all fun d => d.put.isEmpty)=true) : puts cs=[] := by
  simpa [puts] using h

lemma orderly_append {xs ys : List Call} (h : orderly (xs++ys)=true) :
    ((∀ c∈xs, c.good=true) ∧ orderly ys=true) ∨ orderly xs=true ∧ puts ys=[] := by
  induction xs with
  | nil => exact .inl ⟨by simp,h⟩
  | cons c xs ih =>
    rw [List.cons_append,orderly] at h
    rw [orderly]
    split_ifs at h ⊢ with hc
    · rcases ih h with ⟨hall,hys⟩ | ⟨hxs,hys⟩
      · exact .inl ⟨by simpa [hc] using hall,hys⟩
      · exact .inr ⟨hxs,hys⟩
    · rw [List.all_append,Bool.and_eq_true] at h
      exact .inr ⟨h.1,puts_eq_nil h.2⟩

lemma put_isPrefix (c : Call) : c.put <+: c.bytes := by
  unfold Call.put
  cases c.answer with
  | ok => exact List.prefix_rfl
  | fails kind taken => exact List.take_prefix taken c.bytes

lemma put_of_ok {c : Call} (h : ¬c.error.isSome=true) : c.put=c.bytes := by
  unfold Call.error at h
  unfold Call.put
  cases hc : c.answer with
  | ok => rfl
  | fails kind taken => simp [hc] at h

lemma tryReply_isPrefix (retries : ℕ) (answers : List Answer) (r : Reply) :
    puts (tryReply retries answers r).1 <+: r.bytes := by
  have hflush (a : Answer) : Call.put ⟨[],false,retries,a⟩=[] := by
    cases a <;> simp [Call.put]
  unfold tryReply
  dsimp only
  generalize answers.headD .ok=a₁
  generalize answers.tail.headD .ok=a₂
  split_ifs with h₁ h₂ h₃
  · simpa [puts,Reply.bytes] using (put_isPrefix ⟨r.reply,true,retries,a₁⟩).trans
      (List.prefix_append r.reply r.data)
  · simp [puts,hflush,put_of_ok h₁,Reply.bytes,h₂]
  · simpa [puts,put_of_ok h₁,Reply.bytes] using put_isPrefix ⟨r.data,false,retries,a₂⟩
  · simp [puts,hflush,put_of_ok h₁,put_of_ok h₃,Reply.bytes]

lemma tryReply_of_good {retries : ℕ} (h : ∀ c∈(tryReply retries answers r).1, c.good=true) :
    (tryReply retries answers r).2.1=none ∧ puts (tryReply retries answers r).1=r.bytes ∨
      (tryReply retries answers r).2.1=some .wouldBlock ∧
        puts (tryReply retries answers r).1=[] ∧ 0 < retries := by
  have hflush (a : Answer) : Call.put ⟨[],false,retries,a⟩=[] := by
    cases a <;> simp [Call.put]
  have hlate {c : Call} (hf : c.fresh=false) (hc : c.good=true) : c.error=none := by
    simpa [Call.good,hf] using hc
  unfold tryReply at h ⊢
  dsimp only at h ⊢
  generalize answers.headD .ok = a₁ at h ⊢
  generalize answers.tail.headD .ok = a₂ at h ⊢
  split_ifs at h ⊢ with h₁ h₂ h₃
  · have hc := h _ (List.mem_singleton_self _)
    obtain ⟨kind,hk⟩ := Option.isSome_iff_exists.mp h₁
    simp only [Call.good,hk,Option.isNone_some,Bool.false_or,Bool.and_eq_true,
      decide_eq_true_eq,List.isEmpty_iff] at hc
    obtain ⟨⟨⟨-,hw⟩,hp⟩,hr⟩ := hc
    exact .inr ⟨hk.trans hw,by simp [puts,hp],hr⟩
  · refine .inl ⟨hlate rfl (h _ (by simp)),?_⟩
    simp [puts,hflush,put_of_ok h₁,Reply.bytes,h₂]
  · have hnone := hlate rfl (h ⟨r.data,false,retries,a₂⟩ (by simp))
    rw [hnone] at h₃
    cases h₃
  · refine .inl ⟨hlate rfl (h _ (by simp)),?_⟩
    simp [puts,hflush,put_of_ok h₁,put_of_ok h₃,Reply.bytes]

lemma sendReply_of_good {n : ℕ} (h : ∀ c∈(sendReply (n+1) answers r).1, c.good=true) :
    puts (sendReply (n+1) answers r).1=r.bytes := by
  induction n generalizing answers with
  | zero =>
    rw [sendReply] at h ⊢
    dsimp only at h ⊢
    split_ifs at h ⊢ with he
    · rcases tryReply_of_good fun c hc => h c (List.mem_append_left _ hc) with ⟨hn,-⟩ | ⟨-,-,hr⟩
      · rw [hn] at he
        cases he
      · cases hr
    · rcases tryReply_of_good h with ⟨-,hp⟩ | ⟨hw,-⟩
      · exact hp
      · exact absurd hw he
  | succ n ih =>
    rw [sendReply] at h ⊢
    dsimp only at h ⊢
    split_ifs at h ⊢ with he
    · rw [puts_append,ih fun c hc => h c (List.mem_append_right _ hc)]
      rcases tryReply_of_good fun c hc => h c (List.mem_append_left _ hc) with ⟨hn,-⟩ | ⟨-,hp,-⟩
      · rw [hn] at he
        cases he
      · rw [hp,List.nil_append]
    · rcases tryReply_of_good h with ⟨-,hp⟩ | ⟨hw,-⟩
      · exact hp
      · exact absurd hw he

lemma sendReply_isPrefix {n : ℕ} (h : orderly (sendReply n answers r).1=true) :
    puts (sendReply n answers r).1 <+: r.bytes := by
  induction n generalizing answers with
  | zero => exact List.nil_prefix
  | succ n ih =>
    have htry := tryReply_isPrefix n answers r
    rw [sendReply] at h ⊢
    dsimp only at h ⊢
    split_ifs at h ⊢ with he
    · rw [puts_append]
      rcases orderly_append h with ⟨hgood,hmore⟩ | ⟨-,hmore⟩
      · rcases tryReply_of_good hgood with ⟨hn,-⟩ | ⟨-,hp,-⟩
        · rw [hn] at he
          cases he
        · rw [hp]
          exact ih hmore
      · rwa [hmore,List.append_nil]
    · exact htry

lemma writerCalls_isPrefix {rs : List Reply} (h : orderly (writerCalls answers rs)=true) :
    puts (writerCalls answers rs) <+: rs.flatMap Reply.bytes := by
  induction rs generalizing answers with
  | nil => exact List.nil_prefix
  | cons r rs ih =>
    rw [writerCalls] at h ⊢
    rw [List.flatMap_cons]
    dsimp only at h ⊢
    split_ifs at h ⊢
    · exact (sendReply_isPrefix h).trans (List.prefix_append _ _)
    · rw [puts_append]
      rcases orderly_append h with ⟨hgood,hrest⟩ | ⟨hfirst,hrest⟩
      · have hfull : puts (sendReply maxAttempts answers r).1=r.bytes := sendReply_of_good hgood
        rw [hfull]
        exact (List.prefix_append_right_inj _).mpr (ih hrest)
      · rw [hrest,List.append_nil]
        exact (sendReply_isPrefix hfirst).trans (List.prefix_append _ _)

/-- As long as the calls are orderly, everything that the writer has sent at any time is the
beginning of the replies, one after the other. -/
theorem reply_stream_intact (answers : List Answer) (rs : List Reply)
    (h : orderly (writerCalls answers rs) = true) (sent : List UInt8)
    (hs : sent <+: puts (writerCalls answers rs)) : sent <+: rs.flatMap Reply.bytes :=
  hs.trans (writerCalls_isPrefix h)

def sampleReply (handle : UInt64) (data : List UInt8) : Reply :=
  ⟨encodeSimpleReply nbdOk handle,data,false⟩

/-- The socket is full at first, and breaks in the middle of the second reply. -/
theorem reply_stream_intact_broken :
    let rs := [sampleReply 1 [9,9],sampleReply 2 [],sampleReply 3 []]
    let answers : List Answer := [.fails .wouldBlock 0,.fails .wouldBlock 0,.ok,.ok,.ok,
      .fails .other 5,.fails .other 0]
    (puts (writerCalls answers rs)).length = 23 ∧
      puts (writerCalls answers rs) <+: rs.flatMap Reply.bytes := by
  intro rs answers
  exact ⟨by decide +kernel,
    reply_stream_intact answers rs (by decide +kernel) _ List.prefix_rfl⟩

/-- A socket that takes three bytes of a reply before it would block gets them twice. One that
fails for good loses a reply, and gets the next one all the same. -/
theorem reply_stream_corrupted :
    puts (writerCalls [.fails .wouldBlock 3] [sampleReply 1 []]) =
      (sampleReply 1 []).bytes.take 3++(sampleReply 1 []).bytes ∧
    ¬puts (writerCalls [.fails .wouldBlock 3] [sampleReply 1 []]) <+: (sampleReply 1 []).bytes ∧
    puts (writerCalls [.fails .other 3] [sampleReply 1 [],sampleReply 2 []]) =
      (sampleReply 1 []).bytes.take 3++(sampleReply 2 []).bytes ∧
    ¬puts (writerCalls [.fails .other 3] [sampleReply 1 [],sampleReply 2 []]) <+:
      (sampleReply 1 []).bytes++(sampleReply 2 []).bytes := by
  decide +kernel

end RamShared.Nbd

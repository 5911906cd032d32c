import RamShared.Broker.Protocol
import RamShared.Lib.Fallible
import RamShared.Lib.Text
import RamShared.Lib.Words

/-! The strict reading of `/proc/swaps`: a table in which one row is not as it must be has no answer. -/
namespace RamShared.Nbd
open Lib Broker

inductive ExactSwapState
  | absent
  | active (usedKb : ℕ)
  deriving DecidableEq, Repr

structure StrictSwapEntry where
  filename : List Char
  usedKb : ℕ
  deriving DecidableEq, Repr

def beforeEnd (ending s : List Char) : Option (List Char) :=
  (afterStart ending.reverse s.reverse).map List.reverse

/-- A line without the `\n` or `\r\n` at its end. -/
def chomp (line : List Char) : List Char :=
  match beforeEnd ['\n'] line with
  | none => line
  | some line => (beforeEnd ['\r'] line).getD line

def lines (text : List Char) : List (List Char) := (splitInclusive '\n' text).map chomp

def decimal (digits : List Char) : ℕ := digits.foldl (fun n c => n*10+(c.toNat-48)) 0

def parseDigits (digits : List Char) : Option ℕ :=
  if digits.isEmpty || !digits.all Char.isDigit then none else some (decimal digits)

def parseU64 (s : List Char) : Option ℕ :=
  let digits := match s with
    | '+'::digits => digits
    | digits => digits
  (parseDigits digits).bind fun n => if n<2^64 then some n else none

def parseI32 (s : List Char) : Option ℤ :=
  match s with
  | '-'::digits => (parseDigits digits).bind fun n => if n≤2^31 then some (-n) else none
  | '+'::digits => (parseDigits digits).bind fun n => if n<2^31 then some n else none
  | digits => (parseDigits digits).bind fun n => if n<2^31 then some n else none

def isAsciiControl (c : Char) : Bool := c.toNat<32 || c.toNat=127

/-- The mark that the kernel puts behind the path of a deleted file. -/
def deletedMark : List Char := "\\040(deleted)".toList

def rowError (row : ℕ) (msg : String) : String := "/proc/swaps row " ++ toString row ++ " " ++ msg

/-- One row, up to the check against the rows before it. -/
def parseStrictRow (row : ℕ) (line : List Char) : Except String StrictSwapEntry :=
  if (Text.trim isWhitespace line).isEmpty then .error (rowError row "is empty")
  else
    match words isWhitespace line with
    | [filename,kind,size,used,priority] =>
      if kind ≠ "file".toList ∧ kind ≠ "partition".toList then .error (rowError row "has an invalid type")
      else
        match parseU64 size, parseU64 used, parseI32 priority with
        | none, _, _ => .error (rowError row "has an invalid size")
        | _, none, _ => .error (rowError row "has invalid usage")
        | _, _, none => .error (rowError row "has invalid priority")
        | some _, some usedKb, some _ =>
          if filename.head?≠some '/' ∨ filename.any isAsciiControl=true then
            .error (rowError row "has an invalid path")
          else .ok ⟨filename,usedKb⟩
    | _ => .error (rowError row "is malformed")

def StrictSwapEntry.identity (e : StrictSwapEntry) : List Char :=
  (beforeEnd deletedMark e.filename).getD e.filename

def parseStrictRows : ℕ → List (List Char) → List (List Char) → Except String (List StrictSwapEntry)
  | _, _, [] => .ok []
  | row, identities, line::lines => do
    let entry ← parseStrictRow row line
    if entry.identity∈identities then throw (rowError row "repeats a device")
    let entries ← parseStrictRows (row+1) (entry.identity::identities) lines
    .ok (entry::entries)

def header : List (List Char) := ["Filename","Type","Size","Used","Priority"].map String.toList

def parseStrictProcSwaps (text : List Char) : Except String (List StrictSwapEntry) :=
  match lines text with
  | [] => .error "/proc/swaps is empty"
  | line::lines =>
    if words isWhitespace line≠header then .error "/proc/swaps header is malformed or unsupported"
    else parseStrictRows 2 [] lines

section
variable (canonicalize : List Char → Option (List Char))

def matchEntries (key : List Char) : Option ℕ → List StrictSwapEntry → Except String (Option ℕ)
  | matched, [] => .ok matched
  | matched, entry::entries =>
    if canonicalize entry.filename=some key then
      if matched.isSome then .error "managed swap identity appears more than once"
      else matchEntries key (some entry.usedKb) entries
    else matchEntries key matched entries

def ExactSwapState.ofMatched : Option ℕ → ExactSwapState
  | none => .absent
  | some usedKb => .active usedKb

def strictExactSwapStateFromText (text device : List Char) : Except String ExactSwapState :=
  match canonicalize device with
  | none => .error "managed swap identity is invalid"
  | some key => do
    let entries ← parseStrictProcSwaps text
    let matched ← matchEntries canonicalize key none entries
    .ok (.ofMatched matched)

end

/-- The device that a path names, when its name is `stem` with a number. -/
def canonicalIdentity (stem path : List Char) : Option (List Char) :=
  let trimmed := Text.trim isWhitespace path
  let path := ((beforeEnd deletedMark trimmed).or (beforeEnd " (deleted)".toList trimmed)).getD trimmed
  let bare :=
    match afterStart "/dev/".toList path with
    | some bare => some bare
    | none =>
      match afterStart ['/'] path with
      | some bare => some bare
      | none => if '/'∈path then none else some path
  bare.bind fun bare => (afterStart stem bare).bind fun number =>
    if number.isEmpty || !number.all Char.isDigit then none else some ("/dev/".toList++bare)

def canonicalNbdIdentity (path : List Char) : Option (List Char) := canonicalIdentity "nbd".toList path
def canonicalUblkIdentity (path : List Char) : Option (List Char) := canonicalIdentity "ublkb".toList path

/-! What a table is. -/

/-- A numeral: one digit or more. -/
structure Numeral (s : List Char) (n : ℕ) : Prop where
  nonempty : s≠[]
  digits : ∀ c∈s, c.isDigit=true
  value : decimal s=n

inductive U64Text : List Char → ℕ → Prop
  | plain {s n} (h : Numeral s n) (hn : n<2^64) : U64Text s n
  | plus {s n} (h : Numeral s n) (hn : n<2^64) : U64Text ('+'::s) n

inductive I32Text : List Char → ℤ → Prop
  | plain {s n} (h : Numeral s n) (hn : n<2^31) : I32Text s n
  | plus {s n} (h : Numeral s n) (hn : n<2^31) : I32Text ('+'::s) n
  | minus {s n} (h : Numeral s n) (hn : n≤2^31) : I32Text ('-'::s) (-n)

inductive SwapKind
  | file
  | partition
  deriving DecidableEq, Repr

def SwapKind.text : SwapKind → List Char
  | .file => "file".toList
  | .partition => "partition".toList

structure SwapRow where
  path : List Char
  kind : SwapKind
  sizeKb : ℕ
  usedKb : ℕ
  priority : ℤ
  deriving DecidableEq, Repr

def SwapRow.unmarked (r : SwapRow) : List Char := (beforeEnd deletedMark r.path).getD r.path

/-- The line is the row, with blanks of any kind between its columns. -/
structure Written (line : List Char) (r : SwapRow) : Prop where
  columns : ∃ size used priority, Words isWhitespace line [r.path,r.kind.text,size,used,priority] ∧
    U64Text size r.sizeKb ∧ U64Text used r.usedKb ∧ I32Text priority r.priority
  absolute : ['/'] <+: r.path
  printable : ∀ c∈r.path, isAsciiControl c=false

def Table (text : List Char) (rows : List SwapRow) : Prop :=
  ∃ first rest, Lines '\n' text (first::rest) ∧ Words isWhitespace first header ∧
    List.Forall₂ Written rest rows

/-! The columns of a row. -/

section
variable {s : List Char}

lemma parseDigits_eq_some_iff {n : ℕ} : parseDigits s=some n ↔ Numeral s n := by
  unfold parseDigits
  split_ifs with h
  · refine iff_of_false nofun fun hn => ?_
    have hdigits := hn.digits
    simp [hn.nonempty] at h
    obtain ⟨c,hc,hdigit⟩ := h
    simp [hdigits c hc] at hdigit
  · simp only [Bool.or_eq_true,List.isEmpty_iff,Bool.not_eq_true',not_or,Bool.not_eq_false,
      List.all_eq_true] at h
    exact ⟨fun hn => ⟨h.1,h.2,Option.some.inj hn⟩,fun hn => congrArg some hn.value⟩

lemma Numeral.head_isDigit {c : Char} {n : ℕ} (h : Numeral (c::s) n) : c.isDigit=true :=
  h.digits c (List.mem_cons_self ..)

lemma parseU64_eq_some_iff {n : ℕ} : parseU64 s=some n ↔ U64Text s n := by
  unfold parseU64
  simp only [Option.bind_eq_some_iff,Option.ite_none_right_eq_some,Option.some.injEq,
    parseDigits_eq_some_iff]
  constructor
  · rintro ⟨m,hm,hlt,rfl⟩
    split at hm
    · exact .plus hm hlt
    · exact .plain hm hlt
  · intro h
    refine ⟨n,?_,?_,rfl⟩
    · cases h with
      | plus h => exact h
      | plain h =>
        split
        · cases h.head_isDigit
        · exact h
    · cases h <;> assumption

lemma parseI32_eq_some_iff {z : ℤ} : parseI32 s=some z ↔ I32Text s z := by
  unfold parseI32
  constructor
  · intro h
    split at h
    all_goals
      simp only [Option.bind_eq_some_iff,Option.ite_none_right_eq_some,Option.some.injEq,
        parseDigits_eq_some_iff] at h
      obtain ⟨n,hn,hle,rfl⟩ := h
    · exact .minus hn hle
    · exact .plus hn hle
    · exact .plain hn hle
  · intro h
    cases h with
    | minus h hn =>
      change ((parseDigits _).bind fun n => if n≤2^31 then some (-(n : ℤ)) else none)=_
      rw [parseDigits_eq_some_iff.mpr h,Option.bind_some,if_pos hn]
    | plus h hn =>
      change ((parseDigits _).bind fun n => if n<2^31 then some (n : ℤ) else none)=_
      rw [parseDigits_eq_some_iff.mpr h,Option.bind_some,if_pos hn]
    | plain h hn =>
      split
      · cases h.head_isDigit
      · cases h.head_isDigit
      · rw [parseDigits_eq_some_iff.mpr h,Option.bind_some,if_pos hn]

end

/-! A row. -/

lemma kind_iff {kind : List Char} :
    ¬(kind ≠ "file".toList ∧ kind ≠ "partition".toList) ↔ ∃ k : SwapKind, k.text=kind := by
  constructor
  · intro h
    rcases not_and_or.mp h with h | h
    · exact ⟨.file,(not_not.mp h).symm⟩
    · exact ⟨.partition,(not_not.mp h).symm⟩
  · rintro ⟨k,rfl⟩ ⟨hfile,hpartition⟩
    cases k with
    | file => exact hfile rfl
    | partition => exact hpartition rfl

lemma path_iff {path : List Char} : ¬(path.head?≠some '/' ∨ path.any isAsciiControl=true) ↔
    ['/'] <+: path ∧ ∀ c∈path, isAsciiControl c=false := by
  rw [not_or,not_not,List.any_eq_true,List.head?_eq_some_iff]
  refine and_congr ⟨?_,?_⟩ (by simp)
  · rintro ⟨rest,rfl⟩
    exact List.prefix_append ['/'] rest
  · rintro ⟨rest,rfl⟩
    exact ⟨rest,rfl⟩

variable {line : List Char}

lemma words_of_trim (h : (Text.trim isWhitespace line).isEmpty=true) : words isWhitespace line=[] := by
  obtain ⟨a,b,hline,ha,hb⟩ := Text.exists_trim isWhitespace line
  rw [List.isEmpty_iff.mp h,List.append_nil] at hline
  rw [hline]
  exact words_of_blank fun c hc => (List.mem_append.mp hc).elim (ha c) (hb c)

def SwapRow.entry (r : SwapRow) : StrictSwapEntry := ⟨r.path,r.usedKb⟩

variable {r : SwapRow}

lemma Written.parseStrictRow (h : Written line r) (row : ℕ) : parseStrictRow row line=.ok r.entry := by
  obtain ⟨⟨size,used,priority,hwords,hsize,hused,hpriority⟩,habsolute,hprintable⟩ := h
  have hne : ¬(Text.trim isWhitespace line).isEmpty=true := fun h => by
    simpa [hwords.words_eq] using words_of_trim h
  unfold Nbd.parseStrictRow
  rw [if_neg hne,hwords.words_eq]
  dsimp only
  rw [if_neg (kind_iff.mpr ⟨r.kind,rfl⟩),parseU64_eq_some_iff.mpr hsize,parseU64_eq_some_iff.mpr hused,
    parseI32_eq_some_iff.mpr hpriority]
  dsimp only
  rw [if_neg (path_iff.mpr ⟨habsolute,hprintable⟩)]
  rfl

lemma exists_written {row : ℕ} {e : StrictSwapEntry} (h : parseStrictRow row line=.ok e) :
    ∃ r, Written line r ∧ r.entry=e := by
  unfold parseStrictRow at h
  split_ifs at h
  split at h
  · rename_i filename kind size used priority hwords
    split_ifs at h with hkind hpath
    · split at h <;> cases h
    · obtain ⟨k,rfl⟩ := kind_iff.mp hkind
      obtain ⟨habsolute,hprintable⟩ := path_iff.mp hpath
      split at h
      · cases h
      · cases h
      · cases h
      · rename_i sizeKb usedKb prio hsize hused hprio
        exact ⟨⟨filename,k,sizeKb,usedKb,prio⟩,⟨⟨size,used,priority,words_eq_iff.mp hwords,
          parseU64_eq_some_iff.mp hsize,parseU64_eq_some_iff.mp hused,parseI32_eq_some_iff.mp hprio⟩,
          habsolute,hprintable⟩,Except.ok.inj h⟩
  · cases h

/-! The rows of a table. -/

lemma parseStrictRows_eq_ok_iff {row : ℕ} {seen lines : List (List Char)} {entries : List StrictSwapEntry} :
    parseStrictRows row seen lines=.ok entries ↔ ∃ rows, List.Forall₂ Written lines rows ∧
      (rows.map SwapRow.unmarked).Nodup ∧ (∀ r∈rows, r.unmarked∉seen) ∧
      rows.map SwapRow.entry=entries := by
  induction lines generalizing row seen entries with
  | nil => simp [parseStrictRows,eq_comm]
  | cons line lines ih =>
    unfold parseStrictRows
    constructor
    · intro h
      obtain ⟨e,hrow,h⟩ := bind_ok.mp h
      obtain ⟨hseen,h⟩ := ite_throw_ok.mp h
      obtain ⟨es,hrows,h⟩ := bind_ok.mp h
      obtain ⟨r,hr,rfl⟩ := exists_written hrow
      obtain ⟨rows,hwritten,hnodup,hnew,rfl⟩ := ih.mp hrows
      have hnew' := fun x hx => not_or.mp (List.mem_cons.not.mp (hnew x hx))
      refine ⟨r::rows,.cons hr hwritten,List.nodup_cons.mpr ⟨fun hmem => ?_,hnodup⟩,
        List.forall_mem_cons.mpr ⟨hseen,fun x hx => (hnew' x hx).2⟩,Except.ok.inj h⟩
      obtain ⟨x,hx,hxr⟩ := List.mem_map.mp hmem
      exact (hnew' x hx).1 hxr
    · rintro ⟨_,hwritten,hnodup,hnew,rfl⟩
      cases hwritten with
      | @cons _ r _ rows hr hwritten =>
        rw [List.map_cons,List.nodup_cons] at hnodup
        rw [List.forall_mem_cons] at hnew
        have hnew' : ∀ x∈rows, x.unmarked∉r.unmarked::seen := by
          intro x hx hmem
          rcases List.mem_cons.mp hmem with hxr | hmem
          · exact hnodup.1 (List.mem_map.mpr ⟨x,hx,hxr⟩)
          · exact hnew.2 x hx hmem
        exact bind_ok.mpr ⟨_,hr.parseStrictRow row,ite_throw_ok.mpr ⟨hnew.1,
          bind_ok.mpr ⟨_,ih.mpr ⟨rows,hwritten,hnodup.2,hnew',rfl⟩,rfl⟩⟩⟩

/-! The lines of a text, and the table. -/

lemma beforeEnd_concat (s : List Char) (c : Char) : beforeEnd [c] (s++[c])=some s := by
  simp [beforeEnd,afterStart]

lemma beforeEnd_eq_some {s t : List Char} {c : Char} (h : beforeEnd [c] s=some t) : s = t++[c] := by
  rcases List.eq_nil_or_concat s with rfl | ⟨s,d,rfl⟩
  · cases h
  · rw [List.concat_eq_append] at h ⊢
    by_cases hd : c=d
    · rw [hd,beforeEnd_concat,Option.some.injEq] at h
      rw [hd,h]
    · simp [beforeEnd,afterStart,hd] at h

lemma words_chomp_concat (line : List Char) :
    words isWhitespace (chomp (line++['\n'])) = words isWhitespace line := by
  rw [chomp,beforeEnd_concat]
  dsimp only
  cases hcr : beforeEnd ['\r'] line with
  | none => rfl
  | some rest => rw [Option.getD_some,beforeEnd_eq_some hcr,words_concat (by decide)]

lemma chomp_of_notMem (h : '\n'∉line) : chomp line=line := by
  unfold chomp
  cases hnl : beforeEnd ['\n'] line with
  | none => rfl
  | some rest =>
    rw [beforeEnd_eq_some hnl] at h
    simp at h

lemma Written.congr {line' : List Char}
    (h : words isWhitespace line = words isWhitespace line') (hr : Written line r) : Written line' r := by
  obtain ⟨⟨size,used,priority,hwords,hcolumns⟩,habsolute,hprintable⟩ := hr
  rw [←words_eq_iff,h,words_eq_iff] at hwords
  exact ⟨⟨size,used,priority,hwords,hcolumns⟩,habsolute,hprintable⟩

lemma written_congr {ls ls' : List (List Char)} {rows : List SwapRow}
    (h : ls.map (words isWhitespace) = ls'.map (words isWhitespace)) (hrows : List.Forall₂ Written ls rows) :
    List.Forall₂ Written ls' rows := by
  induction hrows generalizing ls' with
  | nil =>
    obtain rfl := List.map_eq_nil_iff.mp h.symm
    exact .nil
  | cons hr _ ih =>
    obtain ⟨l,rest,rfl,hl,hrest⟩ := List.map_eq_cons_iff.mp h.symm
    exact .cons (hr.congr hl.symm) (ih hrest.symm)

lemma map_words_lines {text : List Char} {ls : List (List Char)} (h : Lines '\n' text ls) :
    (lines text).map (words isWhitespace) = ls.map (words isWhitespace) := by
  have hpieces := h.map_splitInclusive (f := fun l => words isWhitespace (chomp l)) fun l hl => by
    rw [words_chomp_concat,chomp_of_notMem hl]
  rw [lines,List.map_map]
  refine hpieces.trans (List.map_congr_left fun l hl => ?_)
  rw [chomp_of_notMem (h.notMem l hl)]

/-- The parser accepts the tables that do not repeat a path, and reads their rows. -/
theorem parseStrictProcSwaps_eq_ok_iff {text : List Char} {entries : List StrictSwapEntry} :
    parseStrictProcSwaps text=.ok entries ↔ ∃ rows, Table text rows ∧
      (rows.map SwapRow.unmarked).Nodup ∧ rows.map SwapRow.entry=entries := by
  unfold parseStrictProcSwaps
  constructor
  · intro h
    obtain ⟨ls,hls⟩ := exists_lines '\n' text
    have hwords := map_words_lines hls
    cases hlines : lines text with
    | nil => simp [hlines] at h
    | cons line rest =>
      simp only [hlines] at h
      split_ifs at h with hheader
      rw [hlines,List.map_cons] at hwords
      obtain ⟨first,rest',rfl,hfirst,hrest⟩ := List.map_eq_cons_iff.mp hwords.symm
      obtain ⟨rows,hwritten,hnodup,-,rfl⟩ := parseStrictRows_eq_ok_iff.mp h
      exact ⟨rows,⟨first,rest',hls,words_eq_iff.mp (hfirst.trans (not_not.mp hheader)),
        written_congr hrest.symm hwritten⟩,hnodup,rfl⟩
  · rintro ⟨rows,⟨first,rest,hls,hheader,hwritten⟩,hnodup,rfl⟩
    obtain ⟨line,rest',hlines,hfirst,hrest⟩ := List.map_eq_cons_iff.mp (map_words_lines hls)
    rw [hlines]
    dsimp only
    rw [if_neg (not_not.mpr (hfirst.trans hheader.words_eq))]
    exact parseStrictRows_eq_ok_iff.mpr ⟨rows,written_congr hrest.symm hwritten,hnodup,by simp,rfl⟩

/-! The rows of the managed device. -/

section
variable {canonicalize : List Char → Option (List Char)} {key : List Char}

def rowsOf (canonicalize : List Char → Option (List Char)) (key : List Char) (rows : List SwapRow) :
    List SwapRow :=
  rows.filter fun r => canonicalize r.path=some key

def stateOf : List SwapRow → Except String ExactSwapState
  | [] => .ok .absent
  | [r] => .ok (.active r.usedKb)
  | _ => .error "managed swap identity appears more than once"

lemma rowsOf_cons_of_eq (hr : canonicalize r.path=some key) (rows : List SwapRow) :
    rowsOf canonicalize key (r::rows) = r::rowsOf canonicalize key rows :=
  List.filter_cons_of_pos (by simpa using hr)

lemma rowsOf_cons_of_ne (hr : ¬canonicalize r.path=some key) (rows : List SwapRow) :
    rowsOf canonicalize key (r::rows) = rowsOf canonicalize key rows :=
  List.filter_cons_of_neg (by simpa using hr)

lemma matchEntries_some (usedKb : ℕ) (rows : List SwapRow) :
    matchEntries canonicalize key (some usedKb) (rows.map SwapRow.entry) =
      if rowsOf canonicalize key rows=[] then .ok (some usedKb)
      else .error "managed swap identity appears more than once" := by
  induction rows with
  | nil => rfl
  | cons r rows ih =>
    rw [List.map_cons,matchEntries]
    by_cases hr : canonicalize r.entry.filename=some key
    · rw [if_pos hr,rowsOf_cons_of_eq (r := r) hr]
      rfl
    · rw [if_neg hr,ih,rowsOf_cons_of_ne (r := r) hr]

lemma matchEntries_none (rows : List SwapRow) :
    (matchEntries canonicalize key none (rows.map SwapRow.entry)).map ExactSwapState.ofMatched =
      stateOf (rowsOf canonicalize key rows) := by
  induction rows with
  | nil => rfl
  | cons r rows ih =>
    rw [List.map_cons,matchEntries]
    by_cases hr : canonicalize r.entry.filename=some key
    · rw [if_pos hr,Option.isSome_none,if_neg Bool.false_ne_true,matchEntries_some,
        rowsOf_cons_of_eq (r := r) hr]
      cases rowsOf canonicalize key rows with
      | nil => rfl
      | cons => rfl
    · rw [if_neg hr,ih,rowsOf_cons_of_ne (r := r) hr]

variable {rows : List SwapRow}

lemma strictExactSwapStateFromText_eq {text device : List Char}
    (hkey : canonicalize device=some key) (h : Table text rows) (hnodup : (rows.map SwapRow.unmarked).Nodup) :
    strictExactSwapStateFromText canonicalize text device = stateOf (rowsOf canonicalize key rows) := by
  have hparse := parseStrictProcSwaps_eq_ok_iff.mpr ⟨rows,h,hnodup,rfl⟩
  rw [←matchEntries_none,strictExactSwapStateFromText,hkey]
  dsimp only
  rw [hparse]
  change (matchEntries canonicalize key none (rows.map SwapRow.entry) >>= fun matched =>
    .ok (ExactSwapState.ofMatched matched))=_
  cases matchEntries canonicalize key none (rows.map SwapRow.entry) <;> rfl

lemma stateOf_of_two_le (h : 2 ≤ rows.length) :
    stateOf rows=.error "managed swap identity appears more than once" := by
  match rows with
  | [] => simp at h
  | [_] => simp at h
  | _::_::_ => rfl

lemma stateOf_eq_absent_iff : stateOf rows=.ok .absent ↔ rows=[] := by
  match rows with
  | [] => simp [stateOf]
  | [_] => simp [stateOf]
  | _::_::_ => simp [stateOf]

lemma stateOf_eq_active_iff {usedKb : ℕ} :
    stateOf rows=.ok (.active usedKb) ↔ ∃ r, rows = [r] ∧ r.usedKb=usedKb := by
  match rows with
  | [] => simp [stateOf]
  | [_] => simp [stateOf]
  | _::_::_ => simp [stateOf]

lemma stateOf_perm {rows' : List SwapRow} (h : rows'.Perm rows) : stateOf rows' = stateOf rows := by
  match rows with
  | [] => rw [h.eq_nil]
  | [r] => rw [h.eq_singleton]
  | r::r'::rest =>
    have hlen := h.length_eq
    rw [stateOf_of_two_le (by simp [hlen])]
    rfl

end

/-- For a device with an identity: a table is answered by its rows of that identity, in whatever order the
rows stand, and a text that is no table is not answered. -/
theorem strict_swap_table {device key : List Char} (hkey : canonicalNbdIdentity device = some key)
    (text : List Char) :
    let answer := strictExactSwapStateFromText canonicalNbdIdentity text device
    (∀ rows, Table text rows → (rows.map SwapRow.unmarked).Nodup →
      let found := rows.filter fun r => canonicalNbdIdentity r.path = some key
      (answer = .ok .absent ↔ found = []) ∧
      (∀ usedKb, answer = .ok (.active usedKb) ↔ ∃ r, found = [r] ∧ r.usedKb=usedKb) ∧
      (2≤found.length → ∃ err, answer = .error err) ∧
      ∀ text' rows', Table text' rows' → rows'.Perm rows →
        strictExactSwapStateFromText canonicalNbdIdentity text' device = answer) ∧
    ((¬∃ rows, Table text rows) → ∃ err, answer = .error err) := by
  dsimp only
  refine ⟨fun rows htable hnodup => ?_,fun hno => ?_⟩
  · rw [strictExactSwapStateFromText_eq hkey htable hnodup]
    refine ⟨stateOf_eq_absent_iff,fun usedKb => stateOf_eq_active_iff,
      fun h => ⟨_,stateOf_of_two_le h⟩,fun text' rows' htable' hperm => ?_⟩
    have hnodup' := (hperm.map SwapRow.unmarked).nodup_iff.mpr hnodup
    rw [strictExactSwapStateFromText_eq hkey htable' hnodup']
    exact stateOf_perm (hperm.filter _)
  · cases hparse : parseStrictProcSwaps text with
    | error err => exact ⟨err,by simp [strictExactSwapStateFromText,hkey,hparse,bind,Except.bind]⟩
    | ok entries =>
      obtain ⟨rows,htable,-⟩ := parseStrictProcSwaps_eq_ok_iff.mp hparse
      exact absurd ⟨rows,htable⟩ hno

lemma printable_of_all {cs : List Char} (h : cs.all (!isAsciiControl ·)) : ∀ c∈cs, isAsciiControl c=false := by
  simpa using h

def deletedText : List Char := "Filename Type Size Used Priority".toList ++ '\n'::(
  "/dev/sda2\tpartition\t8388604\t0\t-2".toList ++ '\n'::(
  "/dev/nbd0\\040(deleted) partition 1048572 4 100".toList++['\n']))

def deletedRow : SwapRow := ⟨"/dev/nbd0\\040(deleted)".toList,.partition,1048572,4,100⟩

def deletedRows : List SwapRow := [⟨"/dev/sda2".toList,.partition,8388604,0,-2⟩,deletedRow]

lemma table_deletedText : Table deletedText deletedRows := by
  refine ⟨_,_,.line (by decide) (.line (by decide) (.line (by decide) .nil)),words_eq_iff.mp (by decide),
    .cons ⟨⟨"8388604".toList,"0".toList,"-2".toList,words_eq_iff.mp (by decide),?_,?_,?_⟩,by decide,?_⟩
    (.cons ⟨⟨"1048572".toList,"4".toList,"100".toList,words_eq_iff.mp (by decide),?_,?_,?_⟩,
      by decide,?_⟩ .nil)⟩
  · exact parseU64_eq_some_iff.mp (by decide)
  · exact parseU64_eq_some_iff.mp (by decide)
  · exact parseI32_eq_some_iff.mp (by decide)
  · exact printable_of_all (by decide)
  · exact parseU64_eq_some_iff.mp (by decide)
  · exact parseU64_eq_some_iff.mp (by decide)
  · exact parseI32_eq_some_iff.mp (by decide)
  · exact printable_of_all (by decide)

theorem strict_swap_table_deletedText : ∃ text rows, Table text rows ∧
    strictExactSwapStateFromText canonicalNbdIdentity text "/dev/nbd0".toList = .ok (.active 4) := by
  have hkey : canonicalNbdIdentity "/dev/nbd0".toList = some "/dev/nbd0".toList := by decide
  have hactive := ((strict_swap_table hkey deletedText).1 deletedRows table_deletedText (by decide)).2.1 4
  exact ⟨deletedText,deletedRows,table_deletedText,hactive.mpr ⟨deletedRow,by decide,rfl⟩⟩

end RamShared.Nbd

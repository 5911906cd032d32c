import RamShared.Broker.Protocol
import RamShared.Lib.Text

/-! The entries of `/proc/swaps` and the device names in them. -/
namespace RamShared.Cascade
open Lib Broker

/-- The result of `to_string` on an error is its message. -/
inductive CascadeError
  | shell (cmd msg : String)
  | arg (msg : String)
  | io (msg : String)
  | precondition (msg : String)
  | unsafeContainment (msg : String)
  deriving DecidableEq, Repr

def CascadeError.toString : CascadeError → String
  | .shell cmd msg => "command `" ++ cmd ++ "` failed: " ++ msg
  | .arg msg => "invalid argument: " ++ msg
  | .io msg => "I/O: " ++ msg
  | .precondition msg => msg
  | .unsafeContainment msg => "unsafe containment: " ++ msg

structure SwapEntry where
  filename : String
  sizeKb : ℕ
  usedKb : ℕ
  priority : ℤ
  deriving DecidableEq, Repr

/-- The blank before the mark of a deleted file is spelled out. -/
def unescape (text : List Char) : List Char :=
  Text.replace "\\040(deleted)".toList " (deleted)".toList text

def canonicalizeSwapPath (path : String) : String :=
  let p := Text.trim isWhitespace path.toList
  if p.isEmpty then ""
  else if (afterStart "/dev/".toList p).isSome then String.ofList p
  else
    match afterStart ['/'] p with
    | some rest => "/dev/" ++ String.ofList rest
    | none => "/dev/" ++ String.ofList p

def numberedDeviceBasename (path stem : List Char) : Bool :=
  let base := (path.reverse.takeWhile (· ≠ '/')).reverse
  match afterStart stem base with
  | none => false
  | some number => !number.isEmpty && number.all Char.isDigit

variable (path : List Char)

def hasDevicePathShape : Bool :=
  match afterStart "/dev/".toList path with
  | some rest => !rest.isEmpty && '/'∉rest
  | none =>
    match afterStart ['/'] path with
    | some rest => !rest.isEmpty && '/'∉rest
    | none => !path.isEmpty && '/'∉path

def deviceName : List Char :=
  ((Text.firstWord isWhitespace (unescape (Text.trim isWhitespace path))).getD []).map Char.toLower

def isNumberedPath (stem path : List Char) : Bool :=
  hasDevicePathShape (deviceName path) && numberedDeviceBasename (deviceName path) stem

def isNbdDevicePath : Bool := isNumberedPath "nbd".toList path
def isUblkDevicePath : Bool := isNumberedPath "ublkb".toList path
def isZramDevicePath : Bool := isNumberedPath "zram".toList path

def isAllowlistedManagedPath : Bool :=
  let bare := deviceName path
  isNbdDevicePath bare || isUblkDevicePath bare || isZramDevicePath bare ||
    match afterStart "/dev/mapper/ramshared".toList bare with
    | some suffix => !suffix.isEmpty && suffix.all fun c => c.isAlphanum || c = '_' || c = '-'
    | none => false

variable (e : SwapEntry)

namespace SwapEntry

def isGhost : Bool :=
  "(deleted)".toList <:+: e.filename.toList || "\\040(deleted)".toList <:+: e.filename.toList

def barePath : String :=
  match Text.firstWord isWhitespace (unescape e.filename.toList) with
  | some word => String.ofList word
  | none => e.filename

def canonicalPath : String := canonicalizeSwapPath e.barePath

def isManagedOrOrphanVramTier : Bool := isAllowlistedManagedPath e.barePath.toList

def isVramBlock : Bool :=
  isNbdDevicePath e.filename.toList || isUblkDevicePath e.filename.toList

end SwapEntry

variable (entries : List SwapEntry)

def ghostVramSwaps : List SwapEntry :=
  entries.filter fun e => e.isGhost && e.isManagedOrOrphanVramTier

def activeVramBlockSwap : Bool :=
  entries.any fun e => !e.isGhost && e.isVramBlock

def daemonKillAllowed : Bool :=
  !activeVramBlockSwap entries && (ghostVramSwaps entries).isEmpty

variable {c : Char}

section Names

lemma afterStart_some {start s rest : List Char} (h : afterStart start s=some rest) : s = start++rest := by
  induction start generalizing s with
  | nil => exact Option.some.inj h
  | cons p ps ih =>
    cases s with
    | nil => cases h
    | cons c cs =>
      rw [afterStart] at h
      split_ifs at h with hpc
      rw [hpc,ih h,List.cons_append]

/-- A character that no test for a device changes or cuts at. -/
def Plain (c : Char) : Prop := c.toLower=c ∧ c ≠ '(' ∧ isWhitespace c=false

instance (c : Char) : Decidable (Plain c) := inferInstanceAs (Decidable (_ ∧ _ ∧ _))

lemma toLower_of_isWhitespace (h : isWhitespace c) : c.toLower=c := by
  refine dif_neg fun hc => ?_
  have h₁ : 65 ≤ c.toNat := hc.1
  have h₂ : c.toNat≤90 := hc.2
  simp only [isWhitespace,Bool.or_eq_true,Bool.and_eq_true,decide_eq_true_eq] at h
  omega

lemma plain_of_all {cs : List Char} (h : cs.all (Plain ·)) : ∀ c∈cs, Plain c := by simpa using h

lemma plain_of_toLower (h : Plain c.toLower) : c ≠ '(' ∧ isWhitespace c=false := by
  constructor
  · rintro rfl
    exact h.2.1 (by decide)
  · by_contra hc
    have hblank := Bool.of_not_eq_false hc
    have hlower := h.2.2
    rw [toLower_of_isWhitespace hblank] at hlower
    exact hc hlower

lemma plain_of_isDigit (h : c.isDigit) : Plain c := by
  obtain ⟨h₁,h₂⟩ : 48 ≤ c.toNat ∧ c.toNat≤57 := by
    simpa [Char.isDigit,UInt32.le_iff_toNat_le] using h
  rw [←Char.ofNat_toNat c]
  generalize c.toNat = n at h₁ h₂
  interval_cases n <;> decide

lemma basename_append {rest : List Char} (hrest : '/'∉rest) (dir : List Char) :
    ((dir ++ '/'::rest).reverse.takeWhile (· ≠ '/')).reverse=rest := by
  have hall : rest.reverse.takeWhile (· ≠ '/')=rest.reverse := by
    rw [List.takeWhile_eq_self_iff]
    intro c hc
    have hc' : c ≠ '/' := fun h => hrest (List.mem_reverse.mp (h ▸ hc))
    simpa using hc'
  rw [List.reverse_append,List.reverse_cons,List.append_assoc,List.takeWhile_append_of_pos]
  · simp
  · simpa using List.takeWhile_eq_self_iff.mp hall

lemma plain_of_numbered {stem path : List Char} (hstem : ∀ c∈stem, Plain c)
    (hshape : hasDevicePathShape path) (hnum : numberedDeviceBasename path stem) :
    path≠[] ∧ ∀ c∈path, Plain c := by
  -- Before the last part there is `/dev/`, `/` or nothing.
  obtain ⟨dir,rest,rfl,hdir,hbase⟩ : ∃ dir rest, path = dir++rest ∧ (∀ c∈dir, Plain c) ∧
      (path.reverse.takeWhile (· ≠ '/')).reverse=rest := by
    unfold hasDevicePathShape at hshape
    split at hshape
    · rename_i rest h
      simp only [Bool.and_eq_true,decide_eq_true_eq] at hshape
      refine ⟨"/dev/".toList,rest,afterStart_some h,plain_of_all (by decide),?_⟩
      rw [afterStart_some h]
      exact basename_append hshape.2 "/dev".toList
    · split at hshape
      · rename_i rest h
        simp only [Bool.and_eq_true,decide_eq_true_eq] at hshape
        refine ⟨['/'],rest,afterStart_some h,plain_of_all (by decide),?_⟩
        rw [afterStart_some h]
        exact basename_append hshape.2 []
      · simp only [Bool.and_eq_true,decide_eq_true_eq] at hshape
        refine ⟨[],path,rfl,nofun,?_⟩
        have hall : path.reverse.takeWhile (· ≠ '/')=path.reverse := by
          rw [List.takeWhile_eq_self_iff]
          intro c hc
          have hc' : c ≠ '/' := fun h => hshape.2 (List.mem_reverse.mp (h ▸ hc))
          simpa using hc'
        rw [hall,List.reverse_reverse]
  unfold numberedDeviceBasename at hnum
  rw [hbase] at hnum
  dsimp only at hnum
  split at hnum
  · cases hnum
  · rename_i number h
    obtain rfl := afterStart_some h
    simp only [Bool.and_eq_true,Bool.not_eq_true',List.isEmpty_eq_false_iff,List.all_eq_true] at hnum
    refine ⟨by simp [hnum.1],fun c hc => ?_⟩
    simp only [List.mem_append] at hc
    rcases hc with hc | hc | hc
    · exact hdir c hc
    · exact hstem c hc
    · exact plain_of_isDigit (hnum.2 c hc)

lemma notMem_mark_of_isWhitespace (h : isWhitespace c) : c ∉ "\\040(deleted)".toList := by
  have hmark : "\\040(deleted)".toList.any isWhitespace=false := by decide
  exact fun hc => List.any_eq_false.mp hmark c hc h

lemma firstWord_unescape_trim : Text.firstWord isWhitespace (unescape (Text.trim isWhitespace path)) =
      Text.firstWord isWhitespace (unescape path) := by
  obtain ⟨a,b,hpath,ha,hb⟩ := Text.exists_trim isWhitespace path
  conv_rhs => rw [hpath]
  rw [unescape,unescape,Text.replace_pad (by decide) (fun c hc => notMem_mark_of_isWhitespace (ha c hc))
    fun c hc => notMem_mark_of_isWhitespace (hb c hc),Text.firstWord_pad ha hb]

lemma firstWord_unescape_plain {word : List Char} (hne : word≠[])
    (hword : ∀ c∈word, c ≠ '(' ∧ isWhitespace c=false) :
    Text.firstWord isWhitespace (unescape word)=some word := by
  obtain ⟨c,cs,rfl⟩ := List.exists_cons_of_ne_nil hne
  rw [unescape,Text.replace_of_notMem (p := '(') (by decide) fun h => (hword _ h).1 rfl]
  exact Text.firstWord_of_not_blank fun d hd => (hword d hd).2

lemma isNumberedPath_barePath {stem : List Char} (hstem : ∀ c∈stem, Plain c) {e : SwapEntry}
    (h : isNumberedPath stem e.filename.toList) : isNumberedPath stem (deviceName e.barePath.toList) := by
  simp only [isNumberedPath,Bool.and_eq_true] at h
  obtain ⟨hne,hplain⟩ := plain_of_numbered hstem h.1 h.2
  have hname : deviceName e.filename.toList =
      ((Text.firstWord isWhitespace (unescape e.filename.toList)).getD []).map Char.toLower := by
    rw [deviceName,firstWord_unescape_trim]
  cases hw : Text.firstWord isWhitespace (unescape e.filename.toList) with
  | none => exact absurd (by rw [hname,hw]; rfl) hne
  | some word =>
    rw [hw,Option.getD_some] at hname
    have hword : ∀ c∈word, c ≠ '(' ∧ isWhitespace c=false := fun c hc =>
      plain_of_toLower (hplain _ (hname ▸ List.mem_map_of_mem hc))
    have hword_ne : word≠[] := by
      rintro rfl
      exact hne hname
    have hlower : (deviceName e.filename.toList).map Char.toLower = deviceName e.filename.toList := by
      conv_rhs => rw [←List.map_id (deviceName e.filename.toList)]
      exact List.map_congr_left fun c hc => (hplain c hc).1
    have hbare : deviceName e.barePath.toList = deviceName e.filename.toList := by
      rw [SwapEntry.barePath,hw,hname,deviceName,firstWord_unescape_trim,String.toList_ofList,
        firstWord_unescape_plain hword_ne hword,Option.getD_some]
    have hfixed : deviceName (deviceName e.filename.toList) = deviceName e.filename.toList := by
      rw [deviceName,firstWord_unescape_trim,firstWord_unescape_plain hne fun c hc => (hplain c hc).2,
        Option.getD_some,hlower]
    rw [hbare,isNumberedPath,hfixed,h.1,h.2,Bool.and_self]

/-- No NBD or ublk entry is left where the daemon may be stopped, be its device gone or not. -/
theorem not_isVramBlock_of_daemonKillAllowed {entries : List SwapEntry} (h : daemonKillAllowed entries)
    {e : SwapEntry} (he : e∈entries) : e.isVramBlock=false := by
  simp only [daemonKillAllowed,activeVramBlockSwap,ghostVramSwaps,Bool.and_eq_true,
    Bool.not_eq_true',List.any_eq_false,List.isEmpty_iff,List.filter_eq_nil_iff] at h
  by_contra hblock
  rw [Bool.not_eq_false] at hblock
  have hghost : e.isGhost := by
    by_contra hg
    exact h.1 e he (by simp [hg,hblock])
  have hmanaged : e.isManagedOrOrphanVramTier := by
    simp only [SwapEntry.isVramBlock,Bool.or_eq_true] at hblock
    simp only [SwapEntry.isManagedOrOrphanVramTier,isAllowlistedManagedPath,Bool.or_eq_true]
    rcases hblock with hblock | hblock
    · exact .inl (.inl (.inl (isNumberedPath_barePath (plain_of_all (by decide)) hblock)))
    · exact .inl (.inl (.inr (isNumberedPath_barePath (plain_of_all (by decide)) hblock)))
  exact h.2 e he (by simp [hghost,hmanaged])

end Names

-- The programs that read the swaps are followed call by call, and never through these.
attribute [irreducible] canonicalizeSwapPath isNumberedPath isAllowlistedManagedPath
  SwapEntry.canonicalPath daemonKillAllowed

end RamShared.Cascade

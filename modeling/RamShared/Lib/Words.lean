import Mathlib.Data.List.Basic
import Mathlib.Tactic

/-! Lines of a stream, read with a limit on their length, and the words and lines of a text. -/
namespace RamShared.Lib

section
variable {α : Type*} [DecidableEq α] (delim : α)

variable {delim}

end

variable {α : Type} {x : α}

section Words
variable (blank : α → Bool)

/-- The text is made of these words, with blanks between them and maybe around them. -/
inductive Words : List α → List (List α) → Prop
  | nil : Words [] []
  | blank {x : α} {s : List α} {ws : List (List α)} (hx : blank x=true) (h : Words s ws) : Words (x::s) ws
  | last {w : List α} (hne : w≠[]) (hw : ∀ x∈w, blank x=false) : Words w [w]
  | word {w : List α} {x : α} {s : List α} {ws : List (List α)} (hne : w≠[])
      (hw : ∀ x∈w, blank x=false) (hx : blank x=true) (h : Words s ws) : Words (w++x::s) (w::ws)

def words (s : List α) : List (List α) := (s.splitOnP blank).filter fun w => !w.isEmpty

variable {blank} {s : List α} {ws : List (List α)}

lemma words_blank (hx : blank x=true) (s : List α) : words blank (x::s) = words blank s := by
  rw [words,List.splitOnP_cons_eq_if_modifyHead,if_pos hx]
  rfl

lemma words_last {w : List α} (hne : w≠[]) (hw : ∀ x∈w, blank x=false) : words blank w = [w] := by
  rw [words,List.splitOnP_eq_singleton (by simpa using hw),List.filter_cons_of_pos (by simpa using hne)]
  rfl

lemma words_word {w : List α} (hne : w≠[]) (hw : ∀ x∈w, blank x=false) (hx : blank x=true)
    (s : List α) : words blank (w++x::s) = w::words blank s := by
  rw [words,List.splitOnP_append_cons_of_forall_mem (by simpa using hw) x hx,
    List.filter_cons_of_pos (by simpa using hne)]
  rfl

lemma Words.words_eq (h : Words blank s ws) : words blank s=ws := by
  induction h with
  | nil => rfl
  | blank hx _ ih => rw [words_blank hx,ih]
  | last hne hw => exact words_last hne hw
  | word hne hw hx _ ih => rw [words_word hne hw hx,ih]

/-- A letter in front begins a word, or is the new beginning of the first one. -/
lemma Words.letter (hx : blank x=false) (h : Words blank s ws) : ∃ ws', Words blank (x::s) ws' := by
  cases h with
  | nil => exact ⟨_,.last (List.cons_ne_nil x []) (by simpa using hx)⟩
  | blank hy h => exact ⟨_,.word (List.cons_ne_nil x []) (by simpa using hx) hy h⟩
  | last hne hw => exact ⟨_,.last (List.cons_ne_nil x _) (List.forall_mem_cons.mpr ⟨hx,hw⟩)⟩
  | word hne hw hy h =>
    exact ⟨_,.word (List.cons_ne_nil x _) (List.forall_mem_cons.mpr ⟨hx,hw⟩) hy h⟩

lemma exists_words (blank : α → Bool) (s : List α) : ∃ ws, Words blank s ws := by
  induction s with
  | nil => exact ⟨[],.nil⟩
  | cons x s ih =>
    obtain ⟨ws,h⟩ := ih
    cases hx : blank x with
    | false => exact h.letter hx
    | true => exact ⟨ws,.blank hx h⟩

/-- The function finds the words. -/
theorem words_eq_iff : words blank s=ws ↔ Words blank s ws := by
  refine ⟨?_,Words.words_eq⟩
  rintro rfl
  obtain ⟨ws,h⟩ := exists_words blank s
  rwa [h.words_eq]

lemma words_of_blank (hs : ∀ x∈s, blank x=true) : words blank s=[] := by
  induction s with
  | nil => rfl
  | cons x s ih =>
    rw [List.forall_mem_cons] at hs
    rw [words_blank hs.1,ih hs.2]

lemma Words.concat (hx : blank x=true) (h : Words blank s ws) : Words blank (s++[x]) ws := by
  induction h with
  | nil => exact .blank hx .nil
  | blank hy _ ih => exact .blank hy ih
  | last hne hw => exact .word hne hw hx .nil
  | word hne hw hy _ ih =>
    rw [List.append_assoc]
    exact .word hne hw hy ih

lemma words_concat (hx : blank x=true) (s : List α) : words blank (s++[x]) = words blank s := by
  obtain ⟨ws,h⟩ := exists_words blank s
  rw [h.words_eq,(h.concat hx).words_eq]

end Words

section Lines
variable (nl : α)

/-- The text is made of these lines; the last one may lack its end. -/
inductive Lines : List α → List (List α) → Prop
  | nil : Lines [] []
  | last {l : List α} (hne : l≠[]) (hl : nl∉l) : Lines l [l]
  | line {l s : List α} {ls : List (List α)} (hl : nl∉l) (h : Lines s ls) : Lines (l++nl::s) (l::ls)

variable {nl} in
lemma Lines.notMem {s : List α} {ls : List (List α)} (h : Lines nl s ls) : ∀ l∈ls, nl∉l := by
  induction h with
  | nil => exact List.forall_mem_nil _
  | last _ hl => simpa using hl
  | line hl _ ih => exact List.forall_mem_cons.mpr ⟨hl,ih⟩

variable [DecidableEq α]

/-- The pieces of a text, each with the end of line that closes it. -/
def splitInclusive : List α → List (List α)
  | [] => []
  | x::s =>
    if x=nl then [x]::splitInclusive s
    else
      match splitInclusive s with
      | [] => [[x]]
      | l::ls => (x::l)::ls

variable {nl} {s : List α} {ls : List (List α)}

lemma splitInclusive_last {l : List α} (hne : l≠[]) (hl : nl∉l) : splitInclusive nl l = [l] := by
  induction l with
  | nil => exact absurd rfl hne
  | cons x l ih =>
    rw [List.mem_cons,not_or] at hl
    rw [splitInclusive,if_neg (Ne.symm hl.1)]
    cases l with
    | nil => rfl
    | cons y l => rw [ih (List.cons_ne_nil y l) hl.2]

lemma splitInclusive_line {l : List α} (hl : nl∉l) (s : List α) :
    splitInclusive nl (l++nl::s) = (l++[nl])::splitInclusive nl s := by
  induction l with
  | nil => simp [splitInclusive]
  | cons x l ih =>
    rw [List.mem_cons,not_or] at hl
    rw [List.cons_append,splitInclusive,if_neg (Ne.symm hl.1),ih hl.2]
    rfl

lemma exists_lines (nl : α) (s : List α) : ∃ ls, Lines nl s ls := by
  induction s with
  | nil => exact ⟨[],.nil⟩
  | cons x s ih =>
    obtain ⟨ls,h⟩ := ih
    by_cases hx : x=nl
    · subst hx
      exact ⟨_,.line List.not_mem_nil h⟩
    · have hnot {l : List α} (hl : nl∉l) : nl∉x::l := by simp [hl,Ne.symm hx]
      cases h with
      | nil => exact ⟨_,.last (List.cons_ne_nil x []) (hnot List.not_mem_nil)⟩
      | last _ hl => exact ⟨_,.last (List.cons_ne_nil x _) (hnot hl)⟩
      | line hl h => exact ⟨_,.line (hnot hl) h⟩

/-- Whatever reads a line the same with and without its end reads the lines of the text. -/
theorem Lines.map_splitInclusive {β : Type} {f : List α → β} (hf : ∀ l, nl∉l → f (l++[nl]) = f l)
    (h : Lines nl s ls) : (splitInclusive nl s).map f = ls.map f := by
  induction h with
  | nil => rfl
  | last hne hl => rw [splitInclusive_last hne hl]
  | line hl _ ih => rw [splitInclusive_line hl,List.map_cons,List.map_cons,ih,hf _ hl]

end Lines

end RamShared.Lib

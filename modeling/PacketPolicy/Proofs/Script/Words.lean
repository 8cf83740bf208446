import PacketPolicy.Proofs.Text.Plain
import PacketPolicy.Script.Words

/-!
This module contains what the division of a line into words makes of plain and quoted words. A
quoted text without double quotes is read back as it is just if it has no backslash.
-/

namespace PacketPolicy
namespace Script

open Text (isBlank isPlain Plain)

theorem isBlank_of_separates (h : separates c = true) : isBlank c = true := by
  simp only [separates, Bool.or_eq_true, beq_iff_eq] at h
  obtain ((rfl | rfl) | rfl) | rfl := h <;> decide

theorem not_separates_of_isPlain (h : isPlain c = true) : separates c = false := by
  cases hsep : separates c with
  | false => rfl
  | true => simpa [Text.not_isBlank_of_isPlain h] using isBlank_of_separates hsep

theorem wordsFrom_word_append (h : ∀ c ∈ cs, isPlain c = true) :
    wordsFrom .word text (cs ++ rest) = wordsFrom .word (cs.reverse ++ text) rest := by
  induction cs generalizing text with
  | nil => rfl
  | cons c cs ih =>
    rw [List.forall_mem_cons] at h
    obtain ⟨hdouble, hsingle, hbackslash, -⟩ := Text.ne_of_isPlain h.1
    simp [wordsFrom, not_separates_of_isPlain h.1, hdouble, hsingle, hbackslash, ih h.2]

theorem wordsFrom_double_append (hquote : '"' ∉ cs) (hbackslash : '\\' ∉ cs) :
    wordsFrom .double text (cs ++ rest) = wordsFrom .double (cs.reverse ++ text) rest := by
  induction cs generalizing text with
  | nil => rfl
  | cons c cs ih =>
    rw [List.mem_cons, not_or] at hquote hbackslash
    simp [wordsFrom, Ne.symm hquote.1, Ne.symm hbackslash.1, ih hquote.2 hbackslash.2]

/--
Between words, the text is read as a word with the content, whatever stands behind it.
-/
def Spells (text : List Char) (content : String) : Prop :=
  ∀ rest, wordsFrom .between [] (text ++ rest) = wordsFrom .word content.toList.reverse rest

def quoted (text : List Char) : List Char :=
  '"' :: (text ++ ['"'])

theorem spells_of_plain (h : Plain s) : Spells s.toList s := by
  intro rest
  obtain ⟨hne, hplain⟩ := h
  obtain ⟨c, cs, hcs⟩ := List.exists_cons_of_ne_nil (mt String.toList_eq_nil_iff.mp hne)
  rw [hcs, List.forall_mem_cons] at hplain
  obtain ⟨hdouble, hsingle, hbackslash, hnumber⟩ := Text.ne_of_isPlain hplain.1
  rw [hcs, List.cons_append, wordsFrom]
  simp [not_separates_of_isPlain hplain.1, hdouble, hsingle, hbackslash, hnumber,
    wordsFrom_word_append hplain.2]

theorem spells_quoted (hquote : '"' ∉ s.toList) (hbackslash : '\\' ∉ s.toList) :
    Spells (quoted s.toList) s := by
  intro rest
  rw [quoted, List.cons_append, List.append_assoc, wordsFrom]
  simp [separates, wordsFrom_double_append hquote hbackslash, wordsFrom]

theorem Spells.words (h : Spells text content) : words text = .ok [content] := by
  have := h []
  rw [List.append_nil] at this
  simp [Script.words, this, wordsFrom]

theorem Spells.words_append_space (h : Spells text content) :
    Script.words (text ++ ' ' :: rest) = (Script.words rest).map (content :: ·) := by
  rw [Script.words, h, wordsFrom]
  simp only [separates, String.ofList_toList, List.reverse_reverse]
  cases hrest : wordsFrom .between [] rest <;> simp [Script.words, hrest] <;> rfl

theorem words_intercalate_concat {text : α → List Char} {content : α → String} {ws : List α}
    (h : ∀ w ∈ ws, Spells (text w) (content w)) (last : List Char) :
    words ([' '].intercalate (ws.map text ++ [last])) = (words last).map (ws.map content ++ ·) := by
  induction ws with
  | nil =>
    cases hlast : words last <;> simp [hlast, Except.map]
  | cons w ws ih =>
    rw [List.forall_mem_cons] at h
    rw [List.map_cons, List.cons_append, List.intercalate_cons_of_ne_nil (by simp),
      List.append_assoc, List.singleton_append, h.1.words_append_space, ih h.2]
    cases words last <;> rfl

theorem words_intercalate {text : α → List Char} {content : α → String} {ws : List α}
    (h : ∀ w ∈ ws, Spells (text w) (content w)) :
    words ([' '].intercalate (ws.map text)) = .ok (ws.map content) := by
  rcases List.eq_nil_or_concat ws with rfl | ⟨ws, w, rfl⟩
  . rfl
  . rw [List.concat_eq_append] at h ⊢
    rw [List.forall_mem_append, List.forall_mem_singleton] at h
    rw [List.map_append, List.map_singleton, words_intercalate_concat h.1, h.2.words,
      List.map_append]
    rfl

/--
The text between double quotes without the backslashes that escape a character. There is none if the
last one escapes the quotes that should close the text.
-/
def unescape : List Char → Option (List Char)
  | [] => some []
  | c :: cs =>
    if c = '\\' then
      match cs with
      | [] => none
      | d :: ds => (unescape ds).map (d :: ·)
    else (unescape cs).map (c :: ·)

theorem wordsFrom_double_concat (hquote : '"' ∉ cs) :
    wordsFrom .double text (cs ++ ['"'])
      = match unescape cs with
        | some s => .ok [String.ofList (text.reverse ++ s)]
        | none => .error .openQuote := by
  fun_induction unescape cs generalizing text with
  | case1 => simp [wordsFrom]
  | case2 => simp [wordsFrom]
  | case3 d ds ih =>
    simp only [List.mem_cons, not_or] at hquote
    simp only [List.cons_append, wordsFrom]
    rw [if_neg (by decide), if_pos (by decide), ih hquote.2.2]
    cases unescape ds <;> simp
  | case4 c cs hbackslash ih =>
    simp only [List.mem_cons, not_or] at hquote
    simp only [List.cons_append, wordsFrom, beq_iff_eq, Ne.symm hquote.1, hbackslash, if_false]
    rw [ih hquote.2]
    cases unescape cs <;> simp

theorem unescape_of_not_mem (h : '\\' ∉ cs) : unescape cs = some cs := by
  fun_induction unescape cs with
  | case1 => rfl
  | case2 => simp at h
  | case3 d ds ih => simp at h
  | case4 c cs hbackslash ih =>
    rw [List.mem_cons, not_or] at h
    rw [ih h.2]
    rfl

theorem length_of_unescape (h : unescape cs = some s) :
    s.length + (if '\\' ∈ cs then 1 else 0) ≤ cs.length := by
  fun_induction unescape cs generalizing s with
  | case1 =>
    cases h
    simp
  | case2 => simp at h
  | case3 d ds ih =>
    obtain ⟨s, hs, rfl⟩ := Option.map_eq_some_iff.mp h
    have := ih hs
    rw [if_pos List.mem_cons_self]
    simp only [List.length_cons]
    omega
  | case4 c cs hbackslash ih =>
    obtain ⟨s, hs, rfl⟩ := Option.map_eq_some_iff.mp h
    have := ih hs
    simp only [List.length_cons, List.mem_cons, Ne.symm hbackslash, false_or]
    omega

theorem unescape_eq_self_iff : unescape cs = some cs ↔ '\\' ∉ cs := by
  constructor
  . intro h hbackslash
    have := length_of_unescape h
    rw [if_pos hbackslash] at this
    omega
  . exact unescape_of_not_mem

theorem words_quoted (hquote : '"' ∉ text) :
    words (quoted text)
      = match unescape text with
        | some s => .ok [String.ofList s]
        | none => .error .openQuote :=
  wordsFrom_double_concat hquote

end Script
end PacketPolicy

import PacketPolicy.Proofs.Text.Bytes
import PacketPolicy.Render.TermName

/-!
This module contains the size of shortened names. Abbreviating makes a name shorter exactly if it
has one of the words, and leaves it as it is otherwise.
-/

namespace PacketPolicy
namespace TermName

open Text (LongestStart byteSize byteSize_append length_bytesOfText length_le_byteSize
  longestStart_truncate utf8ByteSize_eq_byteSize)

def Occurs (word text : List Char) : Prop :=
  word <:+: text.map fold

instance (word text : List Char) : Decidable (Occurs word text) :=
  inferInstanceAs (Decidable (_ <:+: _))

theorem startsWith_iff (word text : List Char) :
    startsWith word text = true ↔ word <+: text.map fold := by
  fun_induction startsWith word text with
  | case1 => simp
  | case2 => simp
  | case3 w ws c cs ih =>
    rw [Bool.and_eq_true, ih, beq_iff_eq, List.map_cons, List.cons_prefix_cons, eq_comm]

theorem occurs_cons_iff :
    Occurs word (c :: cs) ↔ startsWith word (c :: cs) = true ∨ Occurs word cs := by
  rw [startsWith_iff]
  apply List.infix_cons_iff

theorem replaceFrom_of_not_occurs (h : ¬Occurs word name) :
    replaceFrom word short 0 name = name := by
  induction name with
  | nil => rfl
  | cons c cs ih =>
    rw [occurs_cons_iff, not_or] at h
    rw [replaceFrom, if_neg h.1, ih h.2]

variable {word short : List Char}

-- An occurrence has at least as many bytes as the word has letters, since some of its characters
-- may take more.
theorem add_byteSize_drop_le (h : startsWith word text = true) :
    word.length + byteSize (text.drop word.length) ≤ byteSize text := by
  have hlength : word.length ≤ text.length := by
    simpa using ((startsWith_iff word text).mp h).length_le
  have htake := length_le_byteSize (text.take word.length)
  rw [List.length_take, Nat.min_eq_left hlength] at htake
  have hsplit := byteSize_append (text.take word.length) (text.drop word.length)
  rw [List.take_append_drop] at hsplit
  omega

theorem byteSize_replaced_lt (hshort : byteSize short < word.length)
    (hstart : startsWith word (c :: cs) = true)
    (hrest : byteSize rest ≤ byteSize (cs.drop (word.length - 1))) :
    byteSize (short ++ rest) < byteSize (c :: cs) := by
  have hle := add_byteSize_drop_le hstart
  rw [List.drop_cons (by omega)] at hle
  rw [byteSize_append]
  omega

theorem byteSize_replaceFrom_le (hshort : byteSize short < word.length) (skip : Nat)
    (name : List Char) :
    byteSize (replaceFrom word short skip name) ≤ byteSize (name.drop skip) := by
  fun_induction replaceFrom word short skip name with
  | case1 => simp
  | case2 c cs hstart ih =>
    apply Nat.le_of_lt
    apply byteSize_replaced_lt hshort hstart ih
  | case3 c cs _ ih =>
    rw [List.drop_zero] at ih ⊢
    simp only [byteSize]
    omega
  | case4 skip c cs ih => apply ih

theorem byteSize_replaceFrom_lt (hshort : byteSize short < word.length) (h : Occurs word name) :
    byteSize (replaceFrom word short 0 name) < byteSize name := by
  induction name with
  | nil =>
    rw [List.infix_nil.mp h] at hshort
    simp at hshort
  | cons c cs ih =>
    rw [replaceFrom]
    split
    . next hstart =>
      apply byteSize_replaced_lt hshort hstart
      apply byteSize_replaceFrom_le hshort
    . next hstart =>
      rw [byteSize, byteSize]
      have := ih ((occurs_cons_iff.mp h).resolve_left hstart)
      omega

def replaceAll (entries : List (String × String)) (name : List Char) : List Char :=
  entries.foldl (fun name e => replaceFrom e.1.toList e.2.toList 0 name) name

section

variable {entries : List (String × String)} {name : List Char}

theorem byteSize_replaceAll_le (hshort : ∀ e ∈ entries, byteSize e.2.toList < e.1.toList.length) :
    byteSize (replaceAll entries name) ≤ byteSize name := by
  induction entries generalizing name with
  | nil => apply Nat.le_refl
  | cons e entries ih =>
    rw [List.forall_mem_cons] at hshort
    apply Nat.le_trans (ih hshort.2)
    apply byteSize_replaceFrom_le hshort.1

theorem replaceAll_of_not_occurs (h : ∀ e ∈ entries, ¬Occurs e.1.toList name) :
    replaceAll entries name = name := by
  induction entries with
  | nil => rfl
  | cons e entries ih =>
    rw [List.forall_mem_cons] at h
    rw [replaceAll, List.foldl_cons, replaceFrom_of_not_occurs h.1]
    apply ih h.2

-- The words before the first one that occurs change nothing, and those behind it add nothing.
theorem byteSize_replaceAll_lt (hshort : ∀ e ∈ entries, byteSize e.2.toList < e.1.toList.length)
    (h : ∃ e ∈ entries, Occurs e.1.toList name) :
    byteSize (replaceAll entries name) < byteSize name := by
  induction entries with
  | nil => simp at h
  | cons e entries ih =>
    rw [List.forall_mem_cons] at hshort
    simp only [List.mem_cons, exists_eq_or_imp] at h
    rw [replaceAll, List.foldl_cons]
    by_cases hfirst : Occurs e.1.toList name
    . apply Nat.lt_of_le_of_lt (byteSize_replaceAll_le hshort.2)
      apply byteSize_replaceFrom_lt hshort.1 hfirst
    . rw [replaceFrom_of_not_occurs hfirst]
      apply ih hshort.2
      apply h.resolve_left hfirst

end

theorem byteSize_short_lt : ∀ e ∈ abbreviations, byteSize e.2.toList < e.1.toList.length := by
  decide

theorem toList_abbreviate (name : String) :
    (abbreviate name).toList = replaceAll abbreviations name.toList := by
  rw [abbreviate, String.toList_ofList]
  unfold abbreviateChars replaceAll
  generalize abbreviations = entries
  rfl

theorem utf8ByteSize_abbreviate_le (name : String) :
    (abbreviate name).utf8ByteSize ≤ name.utf8ByteSize := by
  rw [utf8ByteSize_eq_byteSize, utf8ByteSize_eq_byteSize, toList_abbreviate]
  apply byteSize_replaceAll_le byteSize_short_lt

theorem abbreviate_eq_self_iff (name : String) :
    abbreviate name = name ↔ ∀ e ∈ abbreviations, ¬Occurs e.1.toList name.toList := by
  rw [← String.toList_inj, toList_abbreviate]
  constructor
  . intro h e he hoccurs
    have hlt := byteSize_replaceAll_lt byteSize_short_lt ⟨e, he, hoccurs⟩
    rw [h] at hlt
    omega
  . apply replaceAll_of_not_occurs

inductive Fitted (size : Nat) (allowed : Shortening) (name : String) :
    Except Fault String → Prop where
  | whole (hfits : name.utf8ByteSize ≤ size) : Fitted size allowed name (.ok name)
  | abbreviated (hlong : size < name.utf8ByteSize) (hallowed : allowed.abbreviate = true)
    (hfits : (abbreviate name).utf8ByteSize ≤ size) :
    Fitted size allowed name (.ok (abbreviate name))
  | cut (hlong : size < name.utf8ByteSize)
    (hstill : allowed.abbreviate = true → size < (abbreviate name).utf8ByteSize)
    (hallowed : allowed.truncate = true)
    (hlongest : LongestStart size (if allowed.abbreviate then abbreviate name else name) shorter) :
    Fitted size allowed name (.ok shorter)
  | refused (hlong : size < name.utf8ByteSize)
    (hstill : allowed.abbreviate = true → size < (abbreviate name).utf8ByteSize)
    (hallowed : allowed.truncate = false)
    (hkind : e.kind = .termNameTooLong) (hterm : e.term = name) :
    Fitted size allowed name (.error e)

theorem fitted_fit (size : Nat) (allowed : Shortening) (name : String) :
    Fitted size allowed name (fit size allowed name) := by
  unfold fit
  dsimp only
  by_cases hfits : name.utf8ByteSize ≤ size
  . rw [if_pos hfits]
    apply Fitted.whole hfits
  rw [if_neg hfits]
  have hlong := Nat.not_le.mp hfits
  by_cases hshorter : (if allowed.abbreviate then abbreviate name else name).utf8ByteSize ≤ size
  . have hallowed : allowed.abbreviate = true := by
      apply Classical.byContradiction
      intro hnot
      rw [if_neg hnot] at hshorter
      omega
    rw [if_pos hshorter, if_pos hallowed]
    rw [if_pos hallowed] at hshorter
    apply Fitted.abbreviated hlong hallowed hshorter
  . have hstill : allowed.abbreviate = true → size < (abbreviate name).utf8ByteSize := by
      intro hallowed
      rw [if_pos hallowed] at hshorter
      omega
    rw [if_neg hshorter]
    by_cases hallowed : allowed.truncate = true
    . rw [if_pos hallowed]
      apply Fitted.cut hlong hstill hallowed
      apply longestStart_truncate
    . rw [if_neg hallowed]
      apply Fitted.refused hlong hstill (Bool.eq_false_iff.mpr hallowed) rfl rfl

theorem utf8ByteSize_le_of_fit (h : fit size allowed name = .ok shorter) :
    shorter.utf8ByteSize ≤ size := by
  have hfitted := fitted_fit size allowed name
  generalize fit size allowed name = result at h hfitted
  cases hfitted with
  | whole hfits =>
    rw [← Except.ok.inj h]
    exact hfits
  | abbreviated _ _ hfits =>
    rw [← Except.ok.inj h]
    exact hfits
  | cut _ _ _ hlongest =>
    rw [← Except.ok.inj h, ← length_bytesOfText]
    exact hlongest.fits
  | refused => cases h

end TermName
end PacketPolicy

import PacketPolicy.Proofs.Text.Blank
import PacketPolicy.Script.Statement

/-!
This module contains how a script is read line by line: comments change at most the family of what
follows, and every other line gives one statement.
-/

namespace PacketPolicy
namespace Script

theorem lines_go_append (h : '\n' ∉ cs) :
    lines.go line (cs ++ '\n' :: rest) = (line.reverse ++ cs) :: lines.go [] rest := by
  induction cs generalizing line with
  | nil => simp [lines.go]
  | cons c cs ih =>
    rw [List.mem_cons, not_or] at h
    rw [List.cons_append, lines.go]
    simp [Ne.symm h.1, ih h.2]

theorem lines_flatMap (h : ∀ cs ∈ ls, '\n' ∉ cs) : lines (ls.flatMap (· ++ ['\n'])) = ls := by
  unfold lines
  induction ls with
  | nil => rfl
  | cons cs ls ih =>
    rw [List.forall_mem_cons] at h
    rw [List.flatMap_cons, List.append_assoc, List.singleton_append, lines_go_append h.1, ih h.2]
    rfl

theorem exists_comment (cs : List Char) : ∃ f, contentOf ('#' :: cs) = .comment f := by
  rw [contentOf, Text.trimChars_cons (by decide)]
  exact ⟨_, rfl⟩

theorem contentOf_keyword (f : Family) :
    contentOf ("# " ++ f.keyword).toList = .comment (some f) := by
  cases f <;> decide +kernel

theorem contentOf_cons (htrim : Text.trimChars (c :: cs) = c :: cs) (h : c ≠ '#') :
    contentOf (c :: cs) = .statement (c :: cs) := by
  rw [contentOf, htrim]
  split
  . next heq => cases heq
  . next heq =>
    cases heq
    exact absurd rfl h
  . rfl

theorem readLines_comment (hshort : Text.byteSize line < lineLimit)
    (h : contentOf line = .comment f) :
    readLines number family (line :: rest) = readLines (number + 1) (f.getD family) rest := by
  rw [readLines, if_neg (by omega), h]

theorem readLines_statement (hshort : Text.byteSize line < lineLimit)
    (h : contentOf line = .statement text) (hread : readStatement number family text = .ok s) :
    readLines number family (line :: rest) = (readLines (number + 1) family rest).cons s := by
  rw [readLines, if_neg (by omega), h]
  simp [hread]

theorem readLines_comments (hshort : ∀ line ∈ comments, Text.byteSize line < lineLimit)
    (h : ∀ line ∈ comments, line.head? = some '#') (number : Nat) (family : Family)
    (rest : List (List Char)) :
    ∃ family', readLines number family (comments ++ rest)
      = readLines (number + comments.length) family' rest := by
  induction comments generalizing number family with
  | nil => exact ⟨family, rfl⟩
  | cons line comments ih =>
    rw [List.forall_mem_cons] at hshort h
    obtain ⟨cs, rfl⟩ := List.head?_eq_some_iff.mp h.1
    obtain ⟨f, hf⟩ := exists_comment cs
    obtain ⟨family', hfamily⟩ := ih hshort.2 h.2 (number + 1) (f.getD family)
    refine ⟨family', ?_⟩
    rw [List.cons_append, readLines_comment hshort.1 hf, hfamily, List.length_cons, Nat.add_assoc,
      Nat.add_comm 1]

def Statement.parts (s : Statement) : Nat × Family × List String :=
  (s.line, s.family, s.command.word :: s.chain :: s.command.arguments)

/--
The line is read as one statement with the given words, whatever its number and family.
-/
def Gives (line : List Char) (words : List String) : Prop :=
  contentOf line = .statement line
    ∧ ∀ number family, ∃ s, readStatement number family line = .ok s
      ∧ s.parts = (number, family, words)

theorem Gives.head?_ne (h : Gives line contents) : line.head? ≠ some '#' := by
  intro hhead
  obtain ⟨cs, rfl⟩ := List.head?_eq_some_iff.mp hhead
  obtain ⟨f, hf⟩ := exists_comment cs
  have hcontent := h.1
  rw [hf] at hcontent
  cases hcontent

theorem readLines_statements {text : α → List Char} {words : α → List String} {items : List α}
    (hshort : ∀ item ∈ items, Text.byteSize (text item) < lineLimit)
    (h : ∀ item ∈ items, Gives (text item) (words item))
    (hrest : readLines (number + items.length) family rest = ⟨ss, none⟩) :
    ∃ ts, readLines number family (items.map text ++ rest) = ⟨ts ++ ss, none⟩
      ∧ ts.map Statement.parts = (items.zipIdx number).map fun (item, n) =>
        (n, family, words item) := by
  induction items generalizing number with
  | nil => exact ⟨[], hrest, rfl⟩
  | cons item items ih =>
    rw [List.forall_mem_cons] at hshort h
    rw [List.length_cons, Nat.add_comm items.length, ← Nat.add_assoc] at hrest
    obtain ⟨ts, hts, hparts⟩ := ih hshort.2 h.2 hrest
    obtain ⟨hcontent, hread⟩ := h.1
    obtain ⟨s, hs, hsparts⟩ := hread number family
    refine ⟨s :: ts, ?_, ?_⟩
    . rw [List.map_cons, List.cons_append, readLines_statement hshort.1 hcontent hs, hts]
      rfl
    . rw [List.map_cons, hsparts, hparts]
      rfl

end Script
end PacketPolicy

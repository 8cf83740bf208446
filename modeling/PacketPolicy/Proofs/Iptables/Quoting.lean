import PacketPolicy.Iptables.Block
import PacketPolicy.Proofs.Render.Comment
import PacketPolicy.Proofs.Script.Words

namespace PacketPolicy
namespace Iptables

namespace Word

def Legible : Word → Prop
  | .bare s => Text.Plain s
  | .quoted s => '"' ∉ s.toList ∧ '\\' ∉ s.toList ∧ '\n' ∉ s.toList

instance : (w : Word) → Decidable w.Legible
  | .bare s => inferInstanceAs (Decidable (Text.Plain s))
  | .quoted s => inferInstanceAs (Decidable ('"' ∉ s.toList ∧ '\\' ∉ s.toList ∧ '\n' ∉ s.toList))

theorem toList_text_quoted (s : String) : (quoted s).text.toList = Script.quoted s.toList := by
  simp [text, Script.quoted]

theorem Legible.spells {w : Word} (h : w.Legible) : Script.Spells w.text.toList w.content := by
  cases w with
  | bare s => exact Script.spells_of_plain h
  | quoted s =>
    rw [toList_text_quoted]
    exact Script.spells_quoted h.1 h.2.1

theorem toList_intercalate_text (ws : List Word) :
    (String.intercalate " " (ws.map text)).toList = [' '].intercalate (ws.map (·.text.toList)) := by
  rw [String.toList_intercalate, List.map_map]
  rfl

theorem words_intercalate_text {ws : List Word} (h : ∀ w ∈ ws, w.Legible) :
    Script.words (String.intercalate " " (ws.map text)).toList = .ok (ws.map content) := by
  rw [toList_intercalate_text]
  exact Script.words_intercalate fun w hw => (h w hw).spells

end Word

namespace Chain

def commentWords (c : Chain) : List Word :=
  [.bare "-A", .bare c.name, .bare "-m", .bare "comment", .bare "--comment"]

theorem words_commentLine (c : Chain) (text : String) :
    (c.commentLine text).words = c.commentWords ++ [.quoted text] :=
  rfl

theorem legible_of_mem_commentWords {c : Chain} (hname : Text.Plain c.name) :
    ∀ w ∈ c.commentWords, w.Legible := by
  simp only [commentWords, List.forall_mem_cons, List.not_mem_nil, false_imp_iff,
    implies_true, and_true]
  exact ⟨by decide, hname, by decide, by decide, by decide⟩

theorem words_text_commentLine {c : Chain} (hname : Text.Plain c.name)
    (hquote : '"' ∉ text.toList) :
    Script.words (c.commentLine text).text.toList
      = match Script.unescape text.toList with
        | some s => .ok ["-A", c.name, "-m", "comment", "--comment", String.ofList s]
        | none => .error .openQuote := by
  show Script.words (String.intercalate " " ((c.commentLine text).words.map Word.text)).toList = _
  rw [words_commentLine, Word.toList_intercalate_text, List.map_append, List.map_singleton,
    Word.toList_text_quoted, Script.words_intercalate_concat fun w hw =>
    (legible_of_mem_commentWords hname w hw).spells, Script.words_quoted hquote]
  cases Script.unescape text.toList <;> rfl

/--
A backslash in a comment escapes the character behind it, which may be the closing quotes. Without
one the comment is read back, whatever else it has.
-/
theorem comment_read_back_iff {c : Chain} (hname : Text.Plain c.name)
    (htext : text ∈ Comment.lines c.term.comment c.term.owner) :
    (Script.words (c.commentLine text).text.toList
        = match Script.unescape text.toList with
          | some s => .ok ["-A", c.name, "-m", "comment", "--comment", String.ofList s]
          | none => .error .openQuote)
      ∧ (Script.words (c.commentLine text).text.toList
        = .ok ["-A", c.name, "-m", "comment", "--comment", text]
        ↔ '\\' ∉ text.toList) := by
  have hwords := words_text_commentLine hname (Comment.doubleQuote_not_mem_of_mem_lines htext)
  refine ⟨hwords, ?_⟩
  rw [hwords, ← Script.unescape_eq_self_iff]
  cases hs : Script.unescape text.toList with
  | none => simp
  | some s => simp [← String.toList_inj]

end Chain

def sharesChain (comment : String) : Chain where
  term := { name := "shares", comment := [comment], owner := "it \"files\"", action := .accept }
  family := .v4
  stateful := true
  matching := { jump := .accept }
  codes := []
  tagged := TaggedName.ofFilter "INPUT" "shares"

theorem comment_read_back_shares :
    "use  the \"D:\"\n\tdrive #1" ∈ (sharesChain "use  the \"D:\"\n\tdrive #1").term.comment
      ∧ Script.words ((sharesChain "use  the \"D:\"\n\tdrive #1").commentLine
        "use the 'D:' drive #1").text.toList
        = .ok ["-A", "I_shares", "-m", "comment", "--comment", "use the 'D:' drive #1"]
      ∧ Script.words
        ((sharesChain "use  the \"D:\"\n\tdrive #1").commentLine "Owner: it 'files'").text.toList
        = .ok ["-A", "I_shares", "-m", "comment", "--comment", "Owner: it 'files'"] := by
  have hread (text : String) (htext : text ∈ ["use the 'D:' drive #1", "Owner: it 'files'"]) :
      Script.words ((sharesChain "use  the \"D:\"\n\tdrive #1").commentLine text).text.toList
        = .ok ["-A", "I_shares", "-m", "comment", "--comment", text] := by
    have hlines : Comment.lines (sharesChain "use  the \"D:\"\n\tdrive #1").term.comment
      "it \"files\""
        = ["use the 'D:' drive #1", "Owner: it 'files'"] := by decide +kernel
    have hbackslash : ∀ text ∈ ["use the 'D:' drive #1", "Owner: it 'files'"],
        '\\' ∉ text.toList := by
      decide
    exact (Chain.comment_read_back_iff (by decide +kernel) (hlines ▸ htext)).2.mpr
      (hbackslash text htext)
  exact ⟨List.mem_cons_self, hread _ (by simp), hread _ (by simp)⟩

/--
The backslash at the end of the comment escapes the quotes, so that the line has no words at all.
-/
theorem comment_lost_shares :
    "backups go to D:\\" ∈ Comment.lines
      (sharesChain "backups go to D:\\").term.comment "it \"files\""
      ∧ Script.words
        ((sharesChain "backups go to D:\\").commentLine "backups go to D:\\").text.toList
        = .error .openQuote :=
  ⟨by decide +kernel, rfl⟩

end Iptables
end PacketPolicy

import PacketPolicy.Proofs.Iptables.ChainNames
import PacketPolicy.Proofs.Iptables.Legible

namespace PacketPolicy
namespace Iptables

open Text (Plain)

def LegiblePolicy (policy : Policy) : Prop :=
  ∀ f ∈ policy.filters, (f.target? platform).isSome = true →
    Plain (f.name platform) ∧ ∀ t ∈ f.terms, t.Legible

namespace FilterPart

variable {p : FilterPart}

def titleLines (p : FilterPart) : List Line :=
  .note ("Iptables " ++ p.chain ++ " Policy") :: p.comment.map fun c => .note (Filter.commentLine c)

theorem headLines_eq (p : FilterPart) : p.headLines = p.titleLines ++ [.note p.family.keyword] :=
  rfl

theorem head?_text_of_mem_headLines (h : line ∈ p.headLines) :
    line.text.toList.head? = some '#' := by
  obtain ⟨text, rfl⟩ := exists_note_of_mem_headLines h
  simp [Line.text]

theorem newline_not_mem_headLines (h : '\n' ∉ p.chain.toList) (hline : line ∈ p.headLines) :
    '\n' ∉ line.text.toList := by
  have hnewline : Text.isBlank '\n' = true := by decide
  simp only [headLines_eq, titleLines, List.mem_append, List.mem_cons, List.mem_map,
    List.not_mem_nil, or_false] at hline
  obtain (rfl | ⟨comment, _, rfl⟩) | rfl := hline
  . intro hmem
    exact h (by simpa [Line.text] using hmem)
  . intro hmem
    have hcomment : '\n' ∈ (Text.squeeze comment).toList := by
      simpa [Line.text, Filter.commentLine] using hmem
    obtain hspace | ⟨_, hblank⟩ := Text.mem_squeeze hcomment
    . exact absurd hspace (by decide)
    . simp [hnewline] at hblank
  . cases p.family <;> decide

end FilterPart

namespace Document

def placedLines : List FilterPart → Except Fault (List (Family × Line))
  | [] => .ok []
  | p :: ps => do
    let first ← p.lines
    let rest ← placedLines ps
    return first.map (p.family, ·) ++ rest

/--
What the statements of numbered lines must be: every line that does not start with a number sign
gives one.
-/
def statementParts (number : Nat) (placed : List (Family × Line)) :
    List (Nat × Family × List String) :=
  (placed.zipIdx number).filterMap fun ((f, line), n) =>
    if line.text.toList.head? = some '#' then none else some (n, f, line.words.map Word.content)

theorem statementParts_append (number : Nat) (first second : List (Family × Line)) :
    statementParts number (first ++ second)
      = statementParts number first ++ statementParts (number + first.length) second := by
  rw [statementParts, List.zipIdx_append, List.filterMap_append]
  rfl

theorem statementParts_comments (h : ∀ x ∈ placed, x.2.text.toList.head? = some '#') :
    statementParts number placed = [] := by
  rw [statementParts, List.filterMap_eq_nil_iff]
  intro x hx
  exact if_pos (h x.1 (List.fst_mem_of_mem_zipIdx hx))

theorem statementParts_commands {ls : List Line} (h : ∀ line ∈ ls, line.Legible) (number : Nat)
    (f : Family) :
    statementParts number (ls.map (f, ·))
      = (ls.zipIdx number).map fun (line, n) => (n, f, line.words.map Word.content) := by
  induction ls generalizing number with
  | nil => rfl
  | cons line ls ih =>
    rw [List.forall_mem_cons] at h
    have hline : statementParts number [(f, line)]
        = [(number, f, line.words.map Word.content)] := by
      simp [statementParts, h.1.gives.head?_ne]
    have happend := statementParts_append number [(f, line)] (ls.map (f, ·))
    rw [hline, List.length_singleton, ih h.2] at happend
    exact happend

end Document

namespace FilterPart

open Iptables.Document
  (statementParts statementParts_append statementParts_comments statementParts_commands)

variable {p : FilterPart}

theorem lines_eq_ok (h : p.lines = .ok ls) :
    ∃ chain, p.chainLines = .ok chain
      ∧ ls = p.headLines ++ (chain ++ p.blocks.flatMap (Block.lineList p.chain)) := by
  rw [lines_eq] at h
  obtain ⟨chain, hchain, rfl⟩ := map_eq_ok.mp h
  exact ⟨chain, hchain, List.append_assoc ..⟩

theorem read_headLines
    (hshort : ∀ line ∈ p.headLines, Text.byteSize line.text.toList < Script.lineLimit)
    (number : Nat) (family : Family) (rest : List (List Char)) :
    Script.readLines number family (p.headLines.map (·.text.toList) ++ rest)
      = Script.readLines (number + p.headLines.length) p.family rest := by
  have htitle : ∀ line ∈ p.titleLines.map (·.text.toList), line.head? = some '#' := by
    rw [List.forall_mem_map]
    intro line hline
    apply head?_text_of_mem_headLines
    rw [headLines_eq]
    exact List.mem_append_left _ hline
  rw [headLines_eq, List.forall_mem_append, List.forall_mem_singleton] at hshort
  rw [← List.forall_mem_map (P := fun line => Text.byteSize line < Script.lineLimit)] at hshort
  obtain ⟨family', hfamily⟩ :=
    Script.readLines_comments hshort.1 htitle number family
      ((Line.note p.family.keyword).text.toList :: rest)
  rw [headLines_eq, List.map_append, List.map_singleton, List.append_assoc, List.singleton_append,
    hfamily, Script.readLines_comment hshort.2 (Script.contentOf_keyword p.family)]
  simp [Nat.add_assoc]

theorem Legible.read_lines (h : p.Legible) (hlines : p.lines = .ok ls)
    (hshort : ∀ line ∈ ls, Text.byteSize line.text.toList < Script.lineLimit)
    (hrest : Script.readLines (number + ls.length) p.family rest = ⟨ss, none⟩) (family : Family) :
    ∃ ts, Script.readLines number family (ls.map (·.text.toList) ++ rest) = ⟨ts ++ ss, none⟩
      ∧ ts.map Script.Statement.parts = statementParts number (ls.map (p.family, ·)) := by
  obtain ⟨chain, hchain, rfl⟩ := lines_eq_ok hlines
  have hcommands : ∀ line ∈ chain ++ p.blocks.flatMap (Block.lineList p.chain), line.Legible := by
    rw [List.forall_mem_append]
    exact ⟨h.legible_chainLines hchain, h.legible_of_mem_blocks⟩
  rw [List.forall_mem_append] at hshort
  rw [List.length_append, ← Nat.add_assoc] at hrest
  obtain ⟨ts, hts, hparts⟩ :=
    Script.readLines_statements hshort.2 (fun line hline => (hcommands line hline).gives) hrest
  refine ⟨ts, ?_, ?_⟩
  . rw [List.map_append, List.append_assoc, read_headLines hshort.1, hts]
  . have hhead : ∀ x ∈ p.headLines.map (p.family, ·), x.2.text.toList.head? = some '#' := by
      rw [List.forall_mem_map]
      exact fun line => head?_text_of_mem_headLines
    rw [List.map_append, statementParts_append, statementParts_comments hhead, List.nil_append,
      List.length_map, statementParts_commands hcommands]
    exact hparts

theorem Legible.newline_not_mem_lines (h : p.Legible) (hlines : p.lines = .ok ls) :
    ∀ line ∈ ls, '\n' ∉ line.text.toList := by
  obtain ⟨chain, hchain, rfl⟩ := lines_eq_ok hlines
  simp only [List.forall_mem_append]
  refine ⟨fun line => newline_not_mem_headLines h.chain.unbroken.newline_not_mem,
    fun line hline => ?_, fun line hline => ?_⟩
  . exact (h.legible_chainLines hchain line hline).newline_not_mem_text
  . exact (h.legible_of_mem_blocks line hline).newline_not_mem_text

end FilterPart

namespace Document

variable {ps : List FilterPart} {d : Document}

theorem placedLines_cons_eq_ok :
    placedLines (p :: ps) = .ok placed ↔
      ∃ first rest, p.lines = .ok first ∧ placedLines ps = .ok rest
      ∧ placed = first.map (p.family, ·) ++ rest := by
  constructor
  . intro h
    obtain ⟨first, hfirst, h⟩ := bind_eq_ok.mp h
    obtain ⟨rest, hrest, h⟩ := bind_eq_ok.mp h
    exact ⟨first, rest, hfirst, hrest, (pure_eq_ok.mp h).symm⟩
  . rintro ⟨first, rest, hfirst, hrest, rfl⟩
    exact bind_eq_ok.mpr ⟨first, hfirst, bind_eq_ok.mpr ⟨rest, hrest, rfl⟩⟩

theorem exists_placedLines (h : partLines ps = .ok ls) :
    ∃ placed, placedLines ps = .ok placed ∧ placed.map (·.2) = ls := by
  induction ps generalizing ls with
  | nil =>
    cases h
    exact ⟨[], rfl, rfl⟩
  | cons p ps ih =>
    obtain ⟨first, hfirst, h⟩ := bind_eq_ok.mp h
    obtain ⟨rest, hrest, h⟩ := bind_eq_ok.mp h
    obtain ⟨placed, hplaced, rfl⟩ := ih hrest
    refine ⟨_, placedLines_cons_eq_ok.mpr ⟨first, placed, hfirst, hplaced, rfl⟩, ?_⟩
    rw [← pure_eq_ok.mp h]
    simp [Function.comp_def]

theorem newline_not_mem_placedLines (h : ∀ p ∈ ps, p.Legible)
    (hplaced : placedLines ps = .ok placed) :
    ∀ x ∈ placed, '\n' ∉ x.2.text.toList := by
  induction ps generalizing placed with
  | nil =>
    cases hplaced
    simp
  | cons p ps ih =>
    rw [List.forall_mem_cons] at h
    obtain ⟨first, rest, hfirst, hrest, rfl⟩ := placedLines_cons_eq_ok.mp hplaced
    rw [List.forall_mem_append, List.forall_mem_map]
    exact ⟨h.1.newline_not_mem_lines hfirst, ih h.2 hrest⟩

theorem read_placedLines (h : ∀ p ∈ ps, p.Legible) (hplaced : placedLines ps = .ok placed)
    (hshort : ∀ x ∈ placed, Text.byteSize x.2.text.toList < Script.lineLimit) (number : Nat)
    (family : Family) :
    ∃ ss, Script.readLines number family (placed.map (·.2.text.toList)) = ⟨ss, none⟩
      ∧ ss.map Script.Statement.parts = statementParts number placed := by
  induction ps generalizing placed number family with
  | nil =>
    cases hplaced
    exact ⟨[], rfl, rfl⟩
  | cons p ps ih =>
    rw [List.forall_mem_cons] at h
    obtain ⟨first, rest, hfirst, hrest, rfl⟩ := placedLines_cons_eq_ok.mp hplaced
    rw [List.forall_mem_append, List.forall_mem_map] at hshort
    obtain ⟨ss, hss, hparts⟩ := ih h.2 hrest hshort.2 (number + first.length) p.family
    obtain ⟨ts, hts, htparts⟩ := h.1.read_lines hfirst hshort.1 hss family
    refine ⟨ts ++ ss, ?_, ?_⟩
    . rw [List.map_append, List.map_map]
      exact hts
    . rw [List.map_append, htparts, hparts, statementParts_append, List.length_map]

theorem legible_of_ofPolicy (h : (ofPolicy clock policy).result = .ok d)
    (hlegible : LegiblePolicy policy) (htargets : ∀ t ∈ targets, t.1 ≠ "" → Plain t.1) :
    ∀ p ∈ (setTargets targets d).parts, p.Legible := by
  refine forall_of_ofPolicy (R := FilterPart.Legible) h ?_ ?_
  . intro f hf htarget p o hrenders
    obtain ⟨hchain, hterms⟩ := hlegible f hf htarget
    exact hrenders.legible hchain hterms
  . intro t ht p hp
    exact hp.setTarget (htargets t ht) t.2

theorem toList_join_text (ls : List Line) :
    (String.join (ls.map fun line => line.text ++ "\n")).toList
      = (ls.map (·.text.toList)).flatMap (· ++ ['\n']) := by
  induction ls with
  | nil => rfl
  | cons line ls ih =>
    simp only [List.map_cons, String.join_cons, String.toList_append, List.flatMap_cons, ih]
    rfl

theorem lines_join_text {ls : List Line} (h : ∀ line ∈ ls, '\n' ∉ line.text.toList) :
    Script.lines (String.join (ls.map fun line => line.text ++ "\n")).toList
      = ls.map (·.text.toList) := by
  rw [toList_join_text, Script.lines_flatMap]
  rwa [List.forall_mem_map]

theorem lines_render (h : ∀ p ∈ d.parts, p.Legible) (hrender : d.render = .ok text) :
    ∃ placed, placedLines d.parts = .ok placed
      ∧ Script.lines text.toList = placed.map (·.2.text.toList) := by
  obtain ⟨ls, hls, htext⟩ := bind_eq_ok.mp hrender
  obtain ⟨placed, hplaced, rfl⟩ := exists_placedLines hls
  refine ⟨placed, hplaced, ?_⟩
  rw [← pure_eq_ok.mp htext, lines_join_text, List.map_map]
  . rfl
  . rw [List.forall_mem_map]
    exact newline_not_mem_placedLines h hplaced

/--
A rendered document is read without an error. Its statements are those of the lines that are no
comments, in order, with their numbers in the text, the families of their filters, and their words
without quotes.
-/
theorem read_render (hpolicy : (ofPolicy clock policy).result = .ok d)
    (hlegible : LegiblePolicy policy) (htargets : ∀ t ∈ targets, t.1 ≠ "" → Plain t.1)
    (hrender : (setTargets targets d).render = .ok text)
    (hshort : ∀ line ∈ Script.lines text.toList, Text.byteSize line < Script.lineLimit) :
    ∃ placed ss, placedLines (setTargets targets d).parts = .ok placed
      ∧ Script.lines text.toList = placed.map (·.2.text.toList)
      ∧ Script.read text = ⟨ss, none⟩
      ∧ ss.map Script.Statement.parts = statementParts 1 placed := by
  have hparts := legible_of_ofPolicy hpolicy hlegible htargets
  obtain ⟨placed, hplaced, hlines⟩ := lines_render hparts hrender
  rw [hlines, List.forall_mem_map] at hshort
  obtain ⟨ss, hss, hstatements⟩ := read_placedLines hparts hplaced hshort 1 .v4
  refine ⟨placed, ss, hplaced, hlines, ?_, hstatements⟩
  rw [Script.read, hlines]
  exact hss

end Document

def misleadingPolicy : Policy where
  filters := [
    { comment := ["inet6"]
      targets := [⟨platform, ["INPUT"]⟩]
      terms := [{
        name := "web", protocol := ["tcp"], action := .accept, comment := ["the \"web\"\n#1"] }] },
    { comment := ["both", "inet"]
      targets := [⟨platform, ["EDGE", "inet6", "nostate"]⟩]
      terms := [{
        name := "hop", protocol := ["hop-by-hop"], action := .deny, sourceInterface := "eth0" }] }]

def misleadingStatements : List (Nat × Family × List String) := [
  (4, .v4, ["-P", "FORWARD", "DROP"]),
  (5, .v4, ["-N", "I_web"]),
  (6, .v4, ["-A", "FORWARD", "-j", "I_web"]),
  (7, .v4, ["-A", "I_web", "-m", "comment", "--comment", "the 'web' #1"]),
  (8, .v4, ["-A", "I_web", "-p", "tcp", "-m", "state", "--state", "NEW,ESTABLISHED,RELATED",
    "-j", "ACCEPT"]),
  (13, .v6, ["-P", "FORWARD", "DROP"]),
  (14, .v6, ["-N", "E_hop"]),
  (15, .v6, ["-A", "FORWARD", "-j", "E_hop"]),
  (16, .v6, ["-A", "E_hop", "-m", "u32", "--u32", "0x3&0xff=0x0", "-i", "eth0", "-j", "DROP"])]

theorem legible_misleadingPolicy : LegiblePolicy misleadingPolicy := by
  intro f hf _
  simp only [misleadingPolicy, List.mem_cons, List.not_mem_nil, or_false] at hf
  obtain rfl | rfl := hf
  . refine ⟨by decide +kernel, ?_⟩
    rw [List.forall_mem_singleton]
    constructor <;> decide +kernel
  . refine ⟨by decide +kernel, ?_⟩
    rw [List.forall_mem_singleton]
    constructor <;> decide +kernel

def forwardTargets : List (String × String) :=
  [("EDGE", "accept"), ("FORWARD", "drop")]

theorem read_render_misleadingPolicy :
    ∃ d text ss, (Document.ofPolicy epoch misleadingPolicy).result = .ok d
      ∧ (d.setTargets forwardTargets).render = .ok text
      ∧ Script.read text = ⟨ss, none⟩ ∧ ss.map Script.Statement.parts = misleadingStatements := by
  have h : (Document.ofPolicy epoch misleadingPolicy).result.toOption.any (fun d =>
      (d.setTargets forwardTargets).render.toOption.isSome
        && (Document.placedLines (d.setTargets forwardTargets).parts).toOption.any (fun placed =>
          decide (∀ x ∈ placed, Text.byteSize x.2.text.toList < Script.lineLimit)
            && Document.statementParts 1 placed == misleadingStatements)) = true := by
    decide +kernel
  obtain ⟨d, hd, h⟩ := exists_ok_of_any h
  rw [Bool.and_eq_true, ← Option.any_true] at h
  obtain ⟨text, htext, -⟩ := exists_ok_of_any h.1
  obtain ⟨placed, hplaced, h⟩ := exists_ok_of_any h.2
  simp only [Bool.and_eq_true, decide_eq_true_eq, beq_iff_eq] at h
  have htargets : ∀ t ∈ forwardTargets, t.1 ≠ "" → Plain t.1 := by decide
  have hlegible := Document.legible_of_ofPolicy hd legible_misleadingPolicy htargets
  -- The text has the lines of the document, so that they need not be looked for in it.
  obtain ⟨placed', hplaced', hlines⟩ := Document.lines_render hlegible htext
  cases hplaced.symm.trans hplaced'
  have hshort : ∀ line ∈ Script.lines text.toList, Text.byteSize line < Script.lineLimit := by
    rw [hlines, List.forall_mem_map]
    exact h.1
  obtain ⟨placed', ss, hplaced', _, hread, hparts⟩ :=
    Document.read_render hd legible_misleadingPolicy htargets htext hshort
  cases hplaced.symm.trans hplaced'
  exact ⟨d, text, ss, hd, htext, hread, hparts.trans h.2⟩

end Iptables
end PacketPolicy

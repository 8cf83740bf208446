import PacketPolicy.Proofs.Address.Written
import PacketPolicy.Proofs.Iptables.Lines
import PacketPolicy.Proofs.Iptables.Quoting
import PacketPolicy.Proofs.Render.TermName
import PacketPolicy.Proofs.Script.Reading

/-!
This module contains the proof that the lines of a chain are read back if the texts of its term are
plain: each line gives one statement with the words that it was written with.
-/

namespace PacketPolicy

open Text (isPlain Plain plain_toString)

theorem PortRange.plain_textWith (hmark : Plain mark) (r : PortRange) :
    Plain (r.textWith mark) := by
  unfold textWith
  split
  . exact plain_toString r.low
  . apply Plain.append
    . exact (plain_toString r.low).append hmark
    . exact plain_toString r.high

theorem PortRange.plain_joinText (hmark : Plain mark) (hne : rs ≠ []) :
    Plain (joinText mark rs) := by
  apply Plain.intercalate
  . decide
  . simpa using hne
  . intro s hs
    obtain ⟨r, -, rfl⟩ := List.mem_map.mp hs
    exact plain_textWith hmark r

theorem Prefix.plain_text (p : Prefix) : Plain p.text := by
  constructor
  . rw [ne_eq, ← String.toList_inj, toList_text]
    simp
  . exact forall_mem_text (by decide) (by decide) (by decide) (by decide)

structure Term.Legible (t : Term) : Prop where
  verbatim : t.isVerbatim = false
  name : Plain t.name
  protocol : ∀ p ∈ t.protocol, Plain p
  sourceInterface : t.sourceInterface ≠ "" → Plain t.sourceInterface
  destinationInterface : t.destinationInterface ≠ "" → Plain t.destinationInterface
  comment : ∀ s ∈ t.comment, '\\' ∉ s.toList
  owner : '\\' ∉ t.owner.toList

namespace Iptables

theorem TcpFlag.plain_list (h : flags ≠ []) : Plain (list flags) := by
  apply Plain.intercalate
  . decide
  . simpa using h
  . intro s hs
    obtain ⟨flag, -, rfl⟩ := List.mem_map.mp hs
    cases flag <;> decide

namespace Word

theorem Legible.newline_not_mem_text {w : Word} (h : w.Legible) : '\n' ∉ w.text.toList := by
  cases w with
  | bare s =>
    intro hmem
    exact absurd (h.2 _ hmem) (by decide)
  | quoted s =>
    rw [toList_text_quoted, Script.quoted]
    simpa using h.2.2

theorem Legible.exists_getLast? {w : Word} (h : w.Legible) :
    ∃ c, w.text.toList.getLast? = some c ∧ Text.isBlank c = false := by
  cases w with
  | bare s =>
    have hne : s.toList ≠ [] := mt String.toList_eq_nil_iff.mp h.1
    refine ⟨_, List.getLast?_eq_some_getLast hne, ?_⟩
    exact Text.not_isBlank_of_isPlain (h.2 _ (List.getLast_mem hne))
  | quoted s =>
    refine ⟨'"', ?_, by decide⟩
    rw [toList_text_quoted, Script.quoted, ← List.cons_append, List.getLast?_concat]

theorem newline_not_mem_intercalate_text {ws : List Word} (h : ∀ w ∈ ws, '\n' ∉ w.text.toList) :
    '\n' ∉ (String.intercalate " " (ws.map text)).toList := by
  rw [toList_intercalate_text]
  intro hmem
  obtain hmem | ⟨cs, hcs, hmem⟩ := mem_intercalate hmem
  . exact absurd hmem (by decide)
  . obtain ⟨w, hw, rfl⟩ := List.mem_map.mp hcs
    exact h w hw hmem

theorem getLast?_intercalate_text {ws : List Word} (h : ∀ w ∈ ws, w.Legible) :
    ∀ c ∈ (String.intercalate " " (ws.map text)).toList.getLast?, Text.isBlank c = false := by
  rw [toList_intercalate_text]
  rcases List.eq_nil_or_concat ws with rfl | ⟨ws, w, rfl⟩
  . simp
  . rw [List.concat_eq_append] at h ⊢
    obtain ⟨c, hlast, hblank⟩ := (h w (by simp)).exists_getLast?
    intro d hd
    rw [List.map_append, List.map_singleton, intercalate_concat, List.getLast?_append, hlast] at hd
    cases hd
    exact hblank

theorem legible_concat (options : List String) (hoptions : ∀ s ∈ options, Plain s)
    (hvalue : Plain value) :
    ∀ w ∈ options.map bare ++ [bare value], w.Legible := by
  rw [List.forall_mem_append, List.forall_mem_map, List.forall_mem_singleton]
  exact ⟨hoptions, hvalue⟩

def Made (P : String → Prop) : Word → Prop
  | .bare s => P s
  | .quoted s => Plain s

theorem made_concat {P : String → Prop} (hplain : ∀ s, Plain s → P s) (options : List String)
    (hoptions : ∀ s ∈ options, Plain s) (hvalue : P value) :
    ∀ w ∈ options.map bare ++ [bare value], w.Made P := by
  rw [List.forall_mem_append, List.forall_mem_map, List.forall_mem_singleton]
  exact ⟨fun s hs => hplain s (hoptions s hs), hvalue⟩

theorem Made.legible {w : Word} (h : w.Made Plain) : w.Legible := by
  cases w with
  | bare s => exact h
  | quoted s =>
    refine ⟨fun hmem => ?_, fun hmem => ?_, h.unbroken.newline_not_mem⟩
    . exact (Text.ne_of_isPlain (h.2 _ hmem)).1 rfl
    . exact (Text.ne_of_isPlain (h.2 _ hmem)).2.2.1 rfl

end Word

theorem Clause.words_ne_nil (c : Clause) : c.words ≠ [] := by
  unfold words
  split <;> simp

theorem Jump.words_ne_nil (j : Jump) : j.words ≠ [] := by
  cases j <;> simp [words]

def Clause.Legible (c : Clause) : Prop :=
  ∀ w ∈ c.words, w.Legible

def Jump.Legible (j : Jump) : Prop :=
  ∀ w ∈ j.words, w.Legible

namespace Chain

variable {c : Chain}

theorem made_of_uses {P : String → Prop} (hplain : ∀ s, Plain s → P s)
    (hprotocol : ∀ p ∈ c.term.protocol, p ≠ "" → P p)
    (hsource : c.term.sourceInterface ≠ "" → P c.term.sourceInterface)
    (hdestination : c.term.destinationInterface ≠ "" → P c.term.destinationInterface)
    (h : c.Uses clause) :
    ∀ w ∈ clause.words, w.Made P := by
  have hrange (r : PortRange) : P (r.textWith ":") :=
    hplain _ (PortRange.plain_textWith (by decide) r)
  have hnumber (n : Nat) : P (toString n) := hplain _ (plain_toString n)
  cases clause with
  | protocol name =>
    apply Word.made_concat hplain ["-p"] (by decide)
    obtain rfl | rfl | ⟨hne, hname⟩ := h
    . exact hplain _ (by decide)
    . exact hplain _ (by decide)
    . exact hprotocol name hname hne
  | extensionHeader header =>
    have hoptions := Word.made_concat hplain ["-m", "u32"] (by decide) (hplain "--u32" (by decide))
    have hquoted : ∀ s, Plain s → ∀ w ∈ [Word.quoted s], w.Made P := by
      intro s hs
      rw [List.forall_mem_singleton]
      exact hs
    cases header with
    | hopByHop => exact List.forall_mem_append.mpr ⟨hoptions, hquoted _ (by decide)⟩
    | fragment => exact List.forall_mem_append.mpr ⟨hoptions, hquoted _ (by decide)⟩
  | tcpFlags mask set =>
    apply Word.made_concat hplain ["--tcp-flags", TcpFlag.list mask]
    . rw [List.forall_mem_cons, List.forall_mem_singleton]
      exact ⟨by decide, TcpFlag.plain_list h.1⟩
    . exact hplain _ (TcpFlag.plain_list h.2)
  | syn => exact Word.made_concat hplain [] (by decide) (hplain "--syn" (by decide))
  | port side range =>
    cases side with
    | source => exact Word.made_concat hplain ["--sport"] (by decide) (hrange range)
    | destination => exact Word.made_concat hplain ["--dport"] (by decide) (hrange range)
  | ports side ranges =>
    have hranges : P (PortRange.joinText ":" ranges) :=
      hplain _ (PortRange.plain_joinText (by decide) h)
    cases side with
    | source => exact Word.made_concat hplain ["-m", "multiport", "--sports"] (by decide) hranges
    | destination =>
      exact Word.made_concat hplain ["-m", "multiport", "--dports"] (by decide) hranges
  | address side p => exact h.elim
  | icmpType code =>
    exact Word.made_concat hplain ["-p", "icmp", "--icmp-type"] (by decide) (hnumber code)
  | icmp6Type code =>
    exact Word.made_concat hplain ["-p", "ipv6-icmp", "-m", "icmp6", "--icmpv6-type"] (by decide)
      (hnumber code)
  | firstFragment =>
    exact Word.made_concat hplain ["-m", "u32", "--u32"] (by decide)
      (hplain "4&0x3FFF=0x2000" (by decide))
  | length range =>
    exact Word.made_concat hplain ["-m", "length", "--length"] (by decide) (hrange range)
  | fragmentOffset range =>
    have hoffset : Plain ("4&0x1FFF=" ++ range.textWith ":") :=
      Plain.append (by decide) (PortRange.plain_textWith (by decide) range)
    exact Word.made_concat hplain ["-m", "u32", "--u32"] (by decide) (hplain _ hoffset)
  | state new =>
    cases new with
    | true =>
      exact Word.made_concat hplain ["-m", "state", "--state"] (by decide) (hplain _ (by decide))
    | false =>
      exact Word.made_concat hplain ["-m", "state", "--state"] (by decide) (hplain _ (by decide))
  | inInterface name => exact Word.made_concat hplain ["-i"] (by decide) (h.2 ▸ hsource (h.2 ▸ h.1))
  | outInterface name =>
    exact Word.made_concat hplain ["-o"] (by decide) (h.2 ▸ hdestination (h.2 ▸ h.1))
  | comment text => exact h.elim

theorem legible_of_uses (ht : c.term.Legible) (h : c.Uses clause) : clause.Legible := by
  intro w hw
  have hmade := made_of_uses (fun s hs => hs) (fun p hp _ => ht.protocol p hp) ht.sourceInterface
    ht.destinationInterface h w hw
  exact hmade.legible

theorem legible_address (side : Side) (p : Prefix) : (Clause.address side p).Legible := by
  cases side with
  | source => exact Word.legible_concat ["-s"] (by decide) p.plain_text
  | destination => exact Word.legible_concat ["-d"] (by decide) p.plain_text

theorem legible_comment (ht : c.term.Legible)
    (h : text ∈ Comment.lines c.term.comment c.term.owner) :
    (Clause.comment text).Legible := by
  have hquoted : (Word.quoted text).Legible := by
    obtain ⟨s, rfl, hs⟩ := Comment.exists_sanitize_of_mem_lines h
    have hbackslash : '\\' ∉ s.toList := by
      obtain hs | rfl := hs
      . exact ht.comment s hs
      . simpa using ht.owner
    refine ⟨Comment.doubleQuote_not_mem_of_mem_lines h, fun hmem => ?_,
      Comment.newline_not_mem_of_mem_lines h⟩
    obtain h | h | ⟨h, -⟩ := Comment.mem_sanitize hmem
    . exact absurd h (by decide)
    . exact absurd h (by decide)
    . exact hbackslash h
  intro w hw
  simp only [Clause.words, List.mem_cons, List.not_mem_nil, or_false] at hw
  obtain rfl | rfl | rfl | rfl := hw
  . decide
  . decide
  . decide
  . exact hquoted

end Chain

namespace Line

def Legible : Line → Prop
  | .note _ => False
  | .policy chain action => Plain chain ∧ Plain action
  | .declare chain => Plain chain
  | .append chain clauses jump =>
    Plain chain ∧ (∀ c ∈ clauses, c.Legible) ∧ (∀ j ∈ jump, j.Legible)
      ∧ (clauses ≠ [] ∨ jump ≠ none)
  | .verbatim _ => False

variable {line : Line}

theorem Legible.text_eq (h : line.Legible) :
    line.text = String.intercalate " " (line.words.map Word.text) := by
  cases line with
  | note => exact h.elim
  | verbatim => exact h.elim
  | policy | declare | append => rfl

theorem Legible.legible_words (h : line.Legible) : ∀ w ∈ line.words, w.Legible := by
  cases line with
  | note => exact h.elim
  | verbatim => exact h.elim
  | policy chain action =>
    apply Word.legible_concat ["-P", chain]
    . rw [List.forall_mem_cons, List.forall_mem_singleton]
      exact ⟨by decide, h.1⟩
    . exact h.2
  | declare chain => exact Word.legible_concat ["-N"] (by decide) h
  | append chain clauses jump =>
    obtain ⟨hchain, hclauses, hjump, -⟩ := h
    simp only [words, List.forall_mem_append, List.forall_mem_flatMap]
    refine ⟨⟨Word.legible_concat ["-A"] (by decide) hchain, hclauses⟩, ?_⟩
    cases jump with
    | none => simp
    | some j => exact hjump j rfl

/--
A script asks for one target behind a policy, for nothing behind a declaration, and for something
behind a rule.
-/
theorem Legible.exists_words (h : line.Legible) :
    ∃ option chain arguments, line.words = .bare ("-" ++ option) :: .bare chain :: arguments
      ∧ ∀ number family,
        ∃ s, Script.readCommand number family chain ("-" ++ option)
          (arguments.map Word.content) = .ok s
          ∧ s.parts = (number, family, line.words.map Word.content) := by
  cases line with
  | note => exact h.elim
  | verbatim => exact h.elim
  | policy chain action =>
    exact ⟨"P", chain, [.bare action], rfl, fun number family => ⟨_, rfl, rfl⟩⟩
  | declare chain => exact ⟨"N", chain, [], rfl, fun number family => ⟨_, rfl, rfl⟩⟩
  | append chain clauses jump =>
    let rule := clauses.flatMap Clause.words ++ (jump.map Jump.words).getD []
    have hrule : (rule.map Word.content).isEmpty = false := by
      rw [List.isEmpty_eq_false_iff, ne_eq, List.map_eq_nil_iff, List.append_eq_nil_iff]
      rintro ⟨hclauses, hjump⟩
      obtain hne | hne := h.2.2.2
      . obtain ⟨clause, clauses, rfl⟩ := List.exists_cons_of_ne_nil hne
        simp [clause.words_ne_nil] at hclauses
      . obtain ⟨j, rfl⟩ := Option.ne_none_iff_exists'.mp hne
        exact j.words_ne_nil hjump
    refine ⟨"A", chain, rule, rfl, ?_⟩
    intro number family
    refine ⟨⟨number, family, chain, .append (rule.map Word.content)⟩, ?_, rfl⟩
    simp [Script.readCommand, hrule]

theorem Legible.gives (h : line.Legible) :
    Script.Gives line.text.toList (line.words.map Word.content) := by
  obtain ⟨option, chain, arguments, hwords, hread⟩ := h.exists_words
  rw [h.text_eq]
  constructor
  . obtain ⟨cs, hcs⟩ : ∃ cs, (String.intercalate " " (line.words.map Word.text)).toList
        = '-' :: cs := by
      rw [hwords, List.map_cons, String.intercalate_cons_of_ne_nil (by simp), Word.text]
      simp only [String.toList_append, List.append_assoc]
      exact ⟨_, rfl⟩
    have hlast := Word.getLast?_intercalate_text h.legible_words
    rw [hcs] at hlast ⊢
    apply Script.contentOf_cons _ (by decide)
    apply Text.trimChars_eq_self _ hlast
    intro c hc
    cases hc
    decide
  . intro number family
    obtain ⟨s, hs, hparts⟩ := hread number family
    refine ⟨s, ?_, hparts⟩
    rw [Script.readStatement, Word.words_intercalate_text h.legible_words, hwords]
    exact hs

theorem Legible.newline_not_mem_text (h : line.Legible) : '\n' ∉ line.text.toList := by
  rw [h.text_eq]
  exact Word.newline_not_mem_intercalate_text fun w hw =>
    (h.legible_words w hw).newline_not_mem_text

end Line

structure Chain.Legible (c : Chain) : Prop where
  term : c.term.Legible
  name : Plain c.name
  label : Plain c.tagged.name
  jump : c.matching.jump.Legible

namespace Chain

variable {c : Chain}

theorem legible_of_target? (h : target? f action = some jump) : jump.Legible := by
  unfold Jump.Legible
  cases action <;> cases f <;> cases h <;> decide

theorem Renders.legible (h : c.Renders filter f tracked shortening t) (hfilter : Plain filter)
    (ht : t.Legible) :
    c.Legible := by
  have hlabel : Plain c.tagged.name := TermName.plain_of_fit (by decide) ht.name h.name
  constructor
  . rw [h.term_eq]
    exact ht
  . rw [Chain.name, h.tagged]
    exact TaggedName.plain_text_ofFilter hfilter hlabel
  . exact hlabel
  . exact legible_of_target? h.accepts.jump

theorem Legible.legible_target (h : c.Legible)
    (htarget : target ∈ [none, some .leave, some (.log c.tagged.name), some c.matching.jump]) :
    ∀ j ∈ target, Jump.Legible j := by
  simp only [List.mem_cons, List.not_mem_nil, or_false] at htarget
  intro j hj
  obtain rfl | rfl | rfl | rfl := htarget
  . cases hj
  . cases hj
    unfold Jump.Legible
    decide
  . cases hj
    exact Word.legible_concat ["-j", "LOG", "--log-prefix"] (by decide) h.label
  . cases hj
    exact h.jump

theorem Legible.legible_of_mem_lines (h : c.Legible) (hparent : Plain parent)
    (hline : line ∈ c.lineList parent) :
    line.Legible := by
  obtain rfl | ⟨chain, clauses, target, rfl, hargument⟩ := shape_of_mem_lines hline
  . exact h.name
  . have hclauses : ∀ clause ∈ clauses, clause.Legible := by
      intro clause hclause
      obtain huses | ⟨side, p, _, rfl⟩ | ⟨text, htext, rfl⟩ := clause_of_mem_lines hline hclause
      . exact legible_of_uses h.term huses
      . exact legible_address side p
      . exact legible_comment h.term htext
    obtain ⟨rfl, rfl⟩ | ⟨rfl, htarget⟩ := jump_of_mem_lines hline
    . refine ⟨hparent, hclauses, ?_, hargument⟩
      intro j hj
      cases hj
      exact Word.legible_concat ["-j"] (by decide) h.name
    . exact ⟨h.name, hclauses, h.legible_target htarget, hargument⟩

end Chain

namespace FilterPart

abbrev Legible (p : FilterPart) : Prop :=
  p.Consists Plain Chain.Legible

variable {p : FilterPart}

theorem Renders.legible (h : p.Renders clock f o) (hchain : Plain (f.name platform))
    (hterms : ∀ t ∈ f.terms, t.Legible) : p.Legible := by
  rw [← h.chain_eq] at hchain
  exact h.consists hchain (fun t ht => (hterms t ht).verbatim) fun t ht c _ _ _ hc =>
    hc.legible hchain (hterms t ht)

theorem Legible.legible_chainLines (h : p.Legible) (hlines : p.chainLines = .ok ls) :
    ∀ line ∈ ls, line.Legible := by
  have hactions : ∀ action ∈ defaultActions, Plain action := by decide
  unfold chainLines at hlines
  split at hlines
  . split at hlines
    . cases hlines
      simp
    . split at hlines
      . next haction =>
        cases hlines
        rw [List.forall_mem_singleton]
        exact ⟨h.chain, hactions _ (by simpa using haction)⟩
      . cases hlines
  . cases hlines
    rw [List.forall_mem_singleton]
    exact h.chain

theorem Legible.legible_of_mem_blocks (h : p.Legible) :
    ∀ line ∈ p.blocks.flatMap (Block.lineList p.chain), line.Legible := by
  rw [List.forall_mem_flatMap]
  intro b hb
  obtain ⟨c, rfl, hc⟩ := h.blocks b hb
  intro line hline
  exact hc.legible_of_mem_lines h.chain hline

end FilterPart

end Iptables
end PacketPolicy

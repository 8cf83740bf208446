import Mathlib.Data.List.Nodup
import Mathlib.Data.List.Perm.Basic
import PacketPolicy.Proofs.Iptables.Rules
import PacketPolicy.Proofs.Render.Closed
import PacketPolicy.Proofs.Text.Bytes

namespace PacketPolicy

namespace TaggedName

def bytes (n : TaggedName) : List Nat :=
  n.tag :: 0x5F :: Text.bytesOfText n.name

theorem bytes_injective : Function.Injective bytes := by
  intro m n h
  cases m
  cases n
  simpa [bytes, Text.bytesOfText_inj] using h

theorem bytesOfText_text {n : TaggedName} (h : n.tag < 0x80) :
    Text.bytesOfText n.text = n.bytes := by
  have htag : n.tagChar.toNat = n.tag := by
    unfold tagChar
    rw [if_pos h, Char.toNat_ofNat, if_pos (.inl (by omega))]
  have hchar : Text.bytesOfChar n.tagChar = [n.tag] := by
    simp [Text.bytesOfChar, htag, h]
  have hunderscore : Text.bytesOfChar '_' = [0x5F] := by decide
  simp [Text.bytesOfText, text, bytes, hchar, hunderscore]

end TaggedName

namespace Iptables

inductive ChainName where
  | filter (name : String)
  | term (name : TaggedName)
  deriving DecidableEq, Repr

namespace ChainName

def text : ChainName → String
  | .filter name => name
  | .term name => name.text

/--
What tells chains apart. The text of a name does not, since it shows every tag beyond ASCII in the
same way.
-/
def bytes : ChainName → List Nat
  | .filter name => Text.bytesOfText name
  | .term name => name.bytes

end ChainName

def Line.declared? : Line → Option String
  | .declare chain => some chain
  | _ => none

def Line.filled? : Line → Option String
  | .append chain _ _ => some chain
  | _ => none

/--
A chain is declared after lines have been added to it. The declaration of a chain that exists
empties it.
-/
def Flushes (ls : List Line) (chain : String) : Prop :=
  ∃ before after, ls = before ++ .declare chain :: after
    ∧ ∃ line ∈ before, line.filled? = some chain

def Line.fills (line : Line) : List String :=
  line.filled?.toList

def Scoped (known : List String) (ls : List Line) : Prop :=
  Closed Line.declared? (Finds Line.fills) known ls

namespace Scoped

theorem of_forall (h : ∀ line ∈ ls, ∀ chain, line.filled? = some chain → chain ∈ known) :
    Scoped known ls := by
  apply Closed.of_forall (persistent_finds Line.fills)
  intro line hline chain hchain
  exact h line hline chain (Option.mem_toList.mp hchain)

theorem not_flushes (h : Scoped known ls) (hnodup : (ls.filterMap Line.declared?).Nodup)
    (hknown : ∀ chain ∈ ls.filterMap Line.declared?, chain ∉ known) : ¬Flushes ls chain := by
  rintro ⟨before, after, rfl, line, hline, hfilled⟩
  have hmem : chain ∈ known ++ before.filterMap Line.declared? :=
    (Closed.append_iff.mp h).1.resolves_of_mem (persistent_finds Line.fills) hline chain
      (Option.mem_toList.mpr hfilled)
  simp only [List.filterMap_append, List.filterMap_cons, Line.declared?] at hnodup hknown
  obtain hmem | hmem := List.mem_append.mp hmem
  . exact hknown chain (by simp) hmem
  . exact (List.nodup_append.mp hnodup).2.2 chain hmem chain List.mem_cons_self rfl

end Scoped

def Block.termNames : Block → List TaggedName
  | .verbatim _ => []
  | .chain c =>
    match c.plan with
    | .empty _ => []
    | .rules _ _ => [c.tagged]

theorem Chain.declared?_ruleList {c : Chain} : (c.ruleList s d).filterMap Line.declared? = [] := by
  rw [List.filterMap_eq_nil_iff]
  intro line hline
  simp only [ruleList, ruleLines, List.mem_append, List.mem_map, List.mem_flatMap] at hline
  obtain (⟨p, _, rfl⟩ | ⟨p, _, rfl⟩) | ⟨shape, _, p, _, q, _, hline⟩ := hline
  . rfl
  . rfl
  . obtain rfl | ⟨_, rfl⟩ := mem_rulesFor.mp hline <;> rfl

theorem Chain.eq_of_filled {c : Chain} (h : line ∈ c.lineList parent)
    (hfilled : line.filled? = some chain) :
    chain = parent ∨ chain = c.name := by
  obtain rfl | rfl | ⟨text, rfl⟩ | ⟨side, p, _, rfl⟩ | hrule := mem_lines_cases h
  . simp [Line.filled?] at hfilled
  . exact .inl (Option.some.inj hfilled).symm
  . exact .inr (Option.some.inj hfilled).symm
  . exact .inr (Option.some.inj hfilled).symm
  . obtain ⟨_, _, _, _, _, _, _, _, _, hline⟩ := mem_rules.mp hrule
    obtain rfl | ⟨_, rfl⟩ := mem_rulesFor.mp hline
    . exact .inr (Option.some.inj hfilled).symm
    . exact .inr (Option.some.inj hfilled).symm

namespace Block

theorem scoped_lines (hparent : parent ∈ known) (b : Block) : Scoped known (b.lineList parent) := by
  cases b with
  | verbatim t =>
    apply Scoped.of_forall
    intro line hline
    obtain ⟨text, _, rfl⟩ := List.mem_map.mp hline
    simp [Line.filled?]
  | chain c =>
    cases hplan : c.plan with
    | empty side =>
      simp only [lineList, Chain.lineList, hplan]
      exact Closed.nil
    | rules s d =>
      have hfilled : ∀ line ∈ c.lineList parent, ∀ chain, line.filled? = some chain →
          chain ∈ known ++ [c.name] := by
        intro line hline chain hchain
        obtain rfl | rfl := Chain.eq_of_filled hline hchain
        . exact List.mem_append_left _ hparent
        . exact List.mem_append_right _ List.mem_cons_self
      simp only [lineList, Chain.lineList, hplan, List.cons_append] at hfilled ⊢
      refine Closed.cons_iff.mpr ⟨by simp [Finds, Line.fills, Line.filled?],
        Scoped.of_forall fun line hline => ?_⟩
      exact hfilled line (List.mem_cons_of_mem _ hline)

theorem declared?_lines (parent : String) (b : Block) :
    (b.lineList parent).filterMap Line.declared? = b.termNames.map TaggedName.text := by
  cases b with
  | verbatim t =>
    unfold lineList termNames
    rw [List.map_nil, List.filterMap_eq_nil_iff]
    intro line hline
    obtain ⟨text, _, rfl⟩ := List.mem_map.mp hline
    rfl
  | chain c =>
    have hcomments : ((Comment.lines c.term.comment c.term.owner).map c.commentLine).filterMap
        Line.declared? = [] := by
      rw [List.filterMap_eq_nil_iff]
      intro line hline
      obtain ⟨text, _, rfl⟩ := List.mem_map.mp hline
      rfl
    cases hplan : c.plan with
    | empty side => simp [lineList, termNames, Chain.lineList, hplan]
    | rules s d =>
      simp only [lineList, termNames, Chain.lineList, hplan, List.filterMap_append, hcomments,
        Chain.declared?_ruleList]
      rfl

theorem termNames_sublist (b : Block) : (b.termNames.map TaggedName.name).Sublist [b.name] := by
  cases b with
  | verbatim t => simp [termNames]
  | chain c => cases hplan : c.plan <;> simp [termNames, hplan, name]

theorem names_sublist (bs : List Block) :
    ((bs.flatMap termNames).map TaggedName.name).Sublist (bs.map Block.name) := by
  induction bs with
  | nil => simp
  | cons b bs ih =>
    rw [List.flatMap_cons, List.map_append]
    exact (termNames_sublist b).append ih

end Block

namespace FilterPart

def termNames (p : FilterPart) : List TaggedName :=
  p.blocks.flatMap Block.termNames

def tag (p : FilterPart) : Nat :=
  (Text.bytesOfText p.chain).headD 0

def customChain (p : FilterPart) : List String :=
  if builtinChains.contains p.chain then [] else [p.chain]

def chainNames (p : FilterPart) : List ChainName :=
  p.customChain.map .filter ++ p.termNames.map .term

variable {p q : FilterPart} {ps : List FilterPart}

theorem chainLines_eq_ok (h : p.chainLines = .ok ls) :
    (p.chain ∈ builtinChains ∧ (ls = [] ∨ ls = [.policy p.chain p.defaultAction]))
      ∨ (p.chain ∉ builtinChains ∧ ls = [.declare p.chain]) := by
  unfold chainLines at h
  split at h
  . next hbuiltin =>
    refine .inl ⟨by simpa using hbuiltin, ?_⟩
    split at h
    . exact .inl (Except.ok.inj h).symm
    . split at h
      . exact .inr (Except.ok.inj h).symm
      . simp at h
  . next hcustom => exact .inr ⟨by simpa using hcustom, (Except.ok.inj h).symm⟩

theorem declared?_chainLines (h : p.chainLines = .ok ls) :
    ls.filterMap Line.declared? = p.customChain := by
  unfold customChain
  obtain ⟨hbuiltin, hls⟩ | ⟨hcustom, rfl⟩ := chainLines_eq_ok h
  . rw [if_pos (by simpa using hbuiltin)]
    obtain rfl | rfl := hls <;> rfl
  . rw [if_neg (by simpa using hcustom)]
    rfl

theorem filled?_chainLines (h : p.chainLines = .ok ls) (hline : line ∈ ls) :
    line.filled? = none := by
  obtain ⟨_, rfl | rfl⟩ | ⟨_, rfl⟩ := chainLines_eq_ok h
  . simp at hline
  . rw [List.mem_singleton.mp hline]
    rfl
  . rw [List.mem_singleton.mp hline]
    rfl

theorem mem_append_customChain : p.chain ∈ builtinChains ++ p.customChain := by
  unfold customChain
  split
  . next hbuiltin => simpa using hbuiltin
  . simp

theorem exists_note_of_mem_headLines (h : line ∈ p.headLines) : ∃ text, line = .note text := by
  simp only [headLines, List.mem_append, List.mem_singleton, List.mem_map] at h
  obtain (rfl | ⟨comment, _, rfl⟩) | rfl := h <;> exact ⟨_, rfl⟩

theorem declared?_headLines : p.headLines.filterMap Line.declared? = [] := by
  rw [List.filterMap_eq_nil_iff]
  intro line hline
  obtain ⟨text, rfl⟩ := exists_note_of_mem_headLines hline
  rfl

theorem scoped_headLines_append (h : p.chainLines = .ok ls) : Scoped known (p.headLines ++ ls) := by
  apply Scoped.of_forall
  intro line hline chain hfilled
  obtain hline | hline := List.mem_append.mp hline
  . obtain ⟨text, rfl⟩ := exists_note_of_mem_headLines hline
    simp [Line.filled?] at hfilled
  . simp [filled?_chainLines h hline] at hfilled

namespace Renders

theorem declared?_lines (h : p.Renders clock f o) :
    ∃ ls, p.lines = .ok ls ∧ ls.filterMap Line.declared? = p.chainNames.map ChainName.text
      ∧ Scoped builtinChains ls := by
  obtain ⟨chain, hchain, hlines⟩ := h.exists_lines
  refine ⟨_, hlines, ?_, ?_⟩
  . simp only [List.filterMap_append, declared?_headLines, declared?_chainLines hchain,
      List.filterMap_flatMap, Block.declared?_lines, List.nil_append, chainNames, termNames,
      List.map_append, List.map_map, List.map_flatMap]
    congr 1
    exact (List.map_id _).symm
  . refine Closed.append_iff.mpr ⟨scoped_headLines_append hchain, ?_⟩
    rw [List.filterMap_append, declared?_headLines, declared?_chainLines hchain]
    exact Closed.flatMap (persistent_finds _) fun b _ => Block.scoped_lines mem_append_customChain b

theorem tag_eq (h : p.Renders clock f o) (hn : n ∈ p.termNames) : n.tag = p.tag := by
  obtain ⟨b, hb, hn⟩ := List.mem_flatMap.mp hn
  cases b with
  | verbatim t => simp [Block.termNames] at hn
  | chain c =>
    obtain ⟨t, _, _, _, hrenders⟩ := h.exists_chain hb
    cases hplan : c.plan with
    | empty side => simp [Block.termNames, hplan] at hn
    | rules s d =>
      simp only [Block.termNames, hplan, List.mem_singleton] at hn
      rw [hn, hrenders.tagged]
      rfl

theorem nodup_termNames (h : p.Renders clock f o) : p.termNames.Nodup := by
  have hlabels : (p.blocks.map Block.name).Nodup := h.blocks.nodup_labels
  exact (hlabels.sublist (Block.names_sublist p.blocks)).of_map

end Renders

/--
No two chains of the given filters have the same name: the filters have different chains of their
own, no term has a namesake in another filter whose name starts alike, and no filter has the chain
of a term.
-/
structure Apart (ps : List FilterPart) : Prop where
  filters : (ps.flatMap customChain).Nodup
  terms : ps.Pairwise fun p q => p.tag = q.tag →
    ∀ m ∈ p.termNames, ∀ n ∈ q.termNames, m.name ≠ n.name
  filters_terms : ∀ chain ∈ ps.flatMap customChain, ∀ p ∈ ps, ∀ n ∈ p.termNames,
    Text.bytesOfText chain ≠ n.bytes

theorem disjoint_termNames_iff (hp : ∀ n ∈ p.termNames, n.tag = p.tag)
    (hq : ∀ n ∈ q.termNames, n.tag = q.tag) :
    p.termNames.Disjoint q.termNames ↔
      (p.tag = q.tag → ∀ m ∈ p.termNames, ∀ n ∈ q.termNames, m.name ≠ n.name) := by
  constructor
  . intro hdisjoint htag m hm n hn hname
    have htags : m.tag = n.tag := (hp m hm).trans (htag.trans (hq n hn).symm)
    have heq : m = n := by
      cases m
      cases n
      rw [TaggedName.mk.injEq]
      exact ⟨htags, hname⟩
    exact hdisjoint hm (heq ▸ hn)
  . intro h n hm hn
    exact h ((hp n hm).symm.trans (hq n hn)) n hm n hn rfl

theorem nodup_flatMap_termNames_iff (hnodup : ∀ p ∈ ps, p.termNames.Nodup)
    (htags : ∀ p ∈ ps, ∀ n ∈ p.termNames, n.tag = p.tag) :
    (ps.flatMap termNames).Nodup ↔
      ps.Pairwise fun p q => p.tag = q.tag →
        ∀ m ∈ p.termNames, ∀ n ∈ q.termNames, m.name ≠ n.name := by
  rw [List.nodup_flatMap, and_iff_right hnodup]
  exact List.Pairwise.iff_of_mem fun hp hq => disjoint_termNames_iff (htags _ hp) (htags _ hq)

theorem perm_bytes_chainNames (ps : List FilterPart) :
    ((ps.flatMap customChain).map Text.bytesOfText
      ++ (ps.flatMap termNames).map TaggedName.bytes).Perm
      ((ps.flatMap chainNames).map ChainName.bytes) := by
  have hsplit : (ps.flatMap chainNames).map ChainName.bytes =
      ps.flatMap fun p => p.customChain.map Text.bytesOfText
        ++ p.termNames.map TaggedName.bytes := by
    simp only [chainNames, List.map_flatMap, List.map_append, List.map_map]
    rfl
  rw [hsplit, List.map_flatMap, List.map_flatMap]
  exact List.flatMap_append_perm ps _ _

theorem nodup_bytes_iff_apart (hnodup : ∀ p ∈ ps, p.termNames.Nodup)
    (htags : ∀ p ∈ ps, ∀ n ∈ p.termNames, n.tag = p.tag) :
    ((ps.flatMap chainNames).map ChainName.bytes).Nodup ↔ Apart ps := by
  have hinjective : Function.Injective Text.bytesOfText := fun s t h => Text.bytesOfText_inj.mp h
  rw [← (perm_bytes_chainNames ps).nodup_iff, List.nodup_append, List.nodup_map_iff hinjective,
    List.nodup_map_iff TaggedName.bytes_injective, nodup_flatMap_termNames_iff hnodup htags]
  constructor
  . rintro ⟨hfilters, hterms, hdisjoint⟩
    exact ⟨hfilters, hterms,
      fun chain hchain p hp n hn => hdisjoint _ (List.mem_map_of_mem hchain) _
      (List.mem_map_of_mem (List.mem_flatMap.mpr ⟨p, hp, hn⟩))⟩
  . rintro ⟨hfilters, hterms, hdisjoint⟩
    refine ⟨hfilters, hterms, fun a ha b hb => ?_⟩
    obtain ⟨chain, hchain, rfl⟩ := List.mem_map.mp ha
    obtain ⟨n, hn, rfl⟩ := List.mem_map.mp hb
    obtain ⟨p, hp, hn⟩ := List.mem_flatMap.mp hn
    exact hdisjoint chain hchain p hp n hn

theorem nodup_text_iff_nodup_bytes (htags : ∀ p ∈ ps, ∀ n ∈ p.termNames, n.tag < 0x80) :
    ((ps.flatMap chainNames).map ChainName.text).Nodup ↔
      ((ps.flatMap chainNames).map ChainName.bytes).Nodup := by
  have hinjective : Function.Injective Text.bytesOfText := fun s t h => Text.bytesOfText_inj.mp h
  rw [← List.nodup_map_iff hinjective, List.map_map]
  have hbytes : (ps.flatMap chainNames).map (Text.bytesOfText ∘ ChainName.text) =
      (ps.flatMap chainNames).map ChainName.bytes := by
    apply List.map_congr_left
    intro name hname
    obtain ⟨p, hp, hname⟩ := List.mem_flatMap.mp hname
    obtain hname | hname := List.mem_append.mp hname
    . obtain ⟨chain, _, rfl⟩ := List.mem_map.mp hname
      rfl
    . obtain ⟨n, hn, rfl⟩ := List.mem_map.mp hname
      exact TaggedName.bytesOfText_text (htags p hp n hn)
  rw [hbytes]

theorem text_not_mem_builtinChains (hn : n ∈ p.chainNames) : n.text ∉ builtinChains := by
  obtain hn | hn := List.mem_append.mp hn
  . obtain ⟨chain, hchain, rfl⟩ := List.mem_map.mp hn
    unfold customChain at hchain
    split at hchain
    . simp at hchain
    . next hcustom =>
      rw [List.mem_singleton.mp hchain]
      simpa [ChainName.text] using hcustom
  . -- The second character of the chain of a term is an underscore.
    obtain ⟨name, _, rfl⟩ := List.mem_map.mp hn
    have hsecond : name.text.toList[1]? = some '_' := by simp [TaggedName.text]
    have hbuiltin : ∀ chain ∈ builtinChains, chain.toList[1]? ≠ some '_' := by decide
    exact fun hmem => hbuiltin _ hmem hsecond

end FilterPart

namespace Document

def ofFamily (f : Family) (d : Document) : Document :=
  ⟨d.parts.filter fun p => p.family == f⟩

def chainNames (d : Document) : List ChainName :=
  d.parts.flatMap FilterPart.chainNames

theorem declared?_partLines (h : ∀ p ∈ ps, ∃ clock f o, FilterPart.Renders p clock f o) :
    ∃ ls, partLines ps = .ok ls
      ∧ ls.filterMap Line.declared? = (ps.flatMap FilterPart.chainNames).map ChainName.text
      ∧ Scoped builtinChains ls := by
  induction ps with
  | nil => exact ⟨[], rfl, rfl, Closed.nil⟩
  | cons p ps ih =>
    obtain ⟨_, _, _, hrenders⟩ := h p List.mem_cons_self
    obtain ⟨first, hfirst, hnames, hscoped⟩ := hrenders.declared?_lines
    obtain ⟨rest, hrest, hnames', hscoped'⟩ := ih fun q hq => h q (List.mem_cons_of_mem p hq)
    refine ⟨first ++ rest, ?_, ?_, Closed.append_iff.mpr ⟨hscoped, ?_⟩⟩
    . unfold partLines
      rw [hfirst, hrest]
      rfl
    . rw [List.filterMap_append, hnames, hnames', List.flatMap_cons, List.map_append]
    . exact hscoped'.mono (persistent_finds _) (List.subset_append_left _ _)

/--
The chains that are declared for the filters of one family are never built in, and none is emptied
again if they are distinct. They are distinct just if the filters are apart, which nothing checks.
The lines tell the chains apart as long as the names of the filters start with an ASCII character.
-/
theorem nodup_chainNames_iff (h : (ofPolicy clock policy).result = .ok d) (f : Family) :
    ∃ ls, (d.ofFamily f).lines = .ok ls
      ∧ ls.filterMap Line.declared? = (d.ofFamily f).chainNames.map ChainName.text
      ∧ (∀ chain ∈ ls.filterMap Line.declared?, chain ∉ builtinChains)
      ∧ (((d.ofFamily f).chainNames.map ChainName.bytes).Nodup ↔
        FilterPart.Apart (d.ofFamily f).parts)
      ∧ ((∀ p ∈ (d.ofFamily f).parts, p.tag < 0x80) →
          ((ls.filterMap Line.declared?).Nodup ↔ FilterPart.Apart (d.ofFamily f).parts))
      ∧ ((ls.filterMap Line.declared?).Nodup → ∀ chain, ¬Flushes ls chain) := by
  have hrenders : ∀ p ∈ (d.ofFamily f).parts, ∃ f o, FilterPart.Renders p clock f o := by
    intro p hp
    obtain ⟨f, _, _, hrenders⟩ := exists_renders_of_mem h (List.mem_filter.mp hp).1
    exact ⟨f, hrenders⟩
  have htags : ∀ p ∈ (d.ofFamily f).parts, ∀ n ∈ p.termNames, n.tag = p.tag := by
    intro p hp n hn
    obtain ⟨_, _, hrenders⟩ := hrenders p hp
    exact hrenders.tag_eq hn
  have hnodup : ∀ p ∈ (d.ofFamily f).parts, p.termNames.Nodup := by
    intro p hp
    obtain ⟨_, _, hrenders⟩ := hrenders p hp
    exact hrenders.nodup_termNames
  obtain ⟨ls, hls, hnames, hscoped⟩ := declared?_partLines fun p hp => ⟨clock, hrenders p hp⟩
  have hbuiltin : ∀ chain ∈ ls.filterMap Line.declared?, chain ∉ builtinChains := by
    intro chain hchain
    rw [hnames] at hchain
    obtain ⟨n, hn, rfl⟩ := List.mem_map.mp hchain
    obtain ⟨p, _, hn⟩ := List.mem_flatMap.mp hn
    exact FilterPart.text_not_mem_builtinChains hn
  refine ⟨ls, hls, hnames, hbuiltin, FilterPart.nodup_bytes_iff_apart hnodup htags,
    fun hascii => ?_, fun hdistinct chain => hscoped.not_flushes hdistinct hbuiltin⟩
  rw [hnames, FilterPart.nodup_text_iff_nodup_bytes fun p hp n hn => htags p hp n hn ▸ hascii p hp]
  exact FilterPart.nodup_bytes_iff_apart hnodup htags

end Document

def webFilters (chain : String) : Policy where
  filters := [["INPUT"], [chain], ["INPUT", "inet6"]].map fun words => {
    comment := []
    targets := [⟨platform, words⟩]
    terms := [{ name := "web", protocol := ["tcp"], action := .accept }] }

theorem apart_webFilters :
    ∃ d ls, (Document.ofPolicy epoch (webFilters "EDGE")).result = .ok d
      ∧ (d.ofFamily .v4).lines = .ok ls
      ∧ ls.filterMap Line.declared? = ["I_web", "EDGE", "E_web"]
      ∧ FilterPart.Apart (d.ofFamily .v4).parts
      ∧ ∀ chain, ¬Flushes ls chain := by
  have h : (Document.ofPolicy epoch (webFilters "EDGE")).result.toOption.any (fun d =>
      (d.ofFamily .v4).chainNames.map ChainName.text == ["I_web", "EDGE", "E_web"]
        && decide ((d.ofFamily .v4).chainNames.map ChainName.bytes).Nodup)
          = true := by decide +kernel
  obtain ⟨d, hd, h⟩ := exists_ok_of_any h
  simp only [Bool.and_eq_true, beq_iff_eq, decide_eq_true_eq] at h
  obtain ⟨ls, hls, hnames, _, hapart, _, hflushes⟩ := Document.nodup_chainNames_iff hd .v4
  rw [h.1] at hnames
  exact ⟨d, ls, hd, hls, hnames, hapart.mp h.2, hflushes (by simp [hnames])⟩

/--
The names of both filters start with an I, so the chain of the term is declared again when it has a
rule.
-/
theorem not_nodup_webFilters :
    ∃ d ls, (Document.ofPolicy epoch (webFilters "INSIDE")).result = .ok d
      ∧ (d.ofFamily .v4).lines = .ok ls
      ∧ ls.filterMap Line.declared? = ["I_web", "INSIDE", "I_web"]
      ∧ ¬((d.ofFamily .v4).chainNames.map ChainName.bytes).Nodup ∧ Flushes ls "I_web" := by
  have h : (Document.ofPolicy epoch (webFilters "INSIDE")).result.toOption.any (fun d =>
      (d.ofFamily .v4).lines.toOption.any
        (fun ls => ls.filterMap Line.declared? == ["I_web", "INSIDE", "I_web"]
          && ls == ls.take 8 ++ .declare "I_web" :: ls.drop 9
            && (ls.take 8).any (·.filled? == some "I_web"))
        && !decide ((d.ofFamily .v4).chainNames.map ChainName.bytes).Nodup)
          = true := by decide +kernel
  obtain ⟨d, hd, h⟩ := exists_ok_of_any h
  rw [Bool.and_eq_true] at h
  obtain ⟨ls, hls, hlines⟩ := exists_ok_of_any h.1
  simp only [Bool.and_eq_true, beq_iff_eq, List.any_eq_true] at hlines
  obtain ⟨⟨hnames, hsplit⟩, hfilled⟩ := hlines
  exact ⟨d, ls, hd, hls, hnames, by simpa using h.2, ls.take 8, ls.drop 9, hsplit, hfilled⟩

end Iptables
end PacketPolicy

import Mathlib.Data.List.Forall2
import PacketPolicy.Proofs.Iptables.Directives
import PacketPolicy.Proofs.Iptables.Target
import PacketPolicy.Proofs.Render.Closed

namespace PacketPolicy

open Text (Unbroken)

structure Term.Unbroken (t : Term) : Prop where
  name : Text.Unbroken t.name
  protocol : ∀ p ∈ t.protocol, Text.Unbroken p
  sourceInterface : Text.Unbroken t.sourceInterface
  destinationInterface : Text.Unbroken t.destinationInterface

namespace Iptables

def UnbrokenPolicy (policy : Policy) : Prop :=
  ∀ f ∈ policy.filters, (f.target? platform).isSome = true →
    Unbroken (f.name platform) ∧ ∀ t ∈ f.terms, t.isVerbatim = false ∧ t.Unbroken

namespace Directive

def declared? : Directive → Option String
  | .declare chain => some chain
  | _ => none

def Resolves (known : List String) : Directive → Prop
  | .policy chain action => chain ∈ builtinChains ∧ action ∈ defaultActions
  | .declare chain => chain ∉ builtinChains
  | .append chain targets =>
    (chain ∈ builtinChains ∨ chain ∈ known)
      ∧ ∀ target ∈ targets, target ∈ standardTargets ∨ target ∈ known
  | .other => True

theorem persistent_resolves : Persistent Resolves := by
  intro known known' d hsub h
  cases d with
  | policy chain action => exact h
  | declare chain => exact h
  | append chain targets =>
    exact ⟨h.1.imp id (@hsub _), fun target htarget => (h.2 target htarget).imp id (@hsub _)⟩
  | other => trivial

/--
The directives of a term, if there are any: its chain is declared, and linked from the chain of the
filter, once and before everything else.
-/
def Introduces (parent chain : String) (ds : List Directive) : Prop :=
  ds = [] ∨ ∃ rest, ds = .declare chain :: .append parent [chain] :: rest
    ∧ ∀ d ∈ rest, ∃ targets, d = .append chain targets ∧ chain ∉ targets

end Directive

open Directive (Resolves Introduces)

theorem Chain.Renders.unbroken {c : Chain} (h : c.Renders filter f tracked shortening t)
    (hne : filter ≠ "") (hfilter : Text.Unbroken filter) (ht : t.Unbroken) :
    c.Unbroken := by
  have hlabel : Text.Unbroken c.tagged.name := TermName.unbroken_of_fit ht.name h.name
  have hjump : c.matching.jump.Unbroken ∧ c.matching.jump.target ∈ standardTargets := by
    have htarget := h.accepts.jump
    generalize c.matching.jump = jump at htarget
    generalize t.action = action at htarget
    cases action <;> cases f <;> cases htarget <;> exact ⟨trivial, by decide⟩
  constructor
  . rw [Chain.name, h.tagged]
    exact TaggedName.unbroken_text_ofFilter hne hfilter hlabel
  . exact hlabel
  . rw [h.term_eq]
    exact ht.protocol
  . rw [h.term_eq]
    exact ht.sourceInterface
  . rw [h.term_eq]
    exact ht.destinationInterface
  . exact hjump.1
  . exact hjump.2

def Block.directives (parent : String) (b : Block) : List Directive :=
  (b.lineList parent).map fun line => .ofText line.text

namespace Chain

variable {c : Chain}

theorem Unbroken.says_declare (h : c.Unbroken) : (Line.declare c.name).Says (.declare c.name) :=
  Line.says_declare ⟨h.name, c.name_ne_empty⟩

theorem Unbroken.says_link (h : c.Unbroken) (hparent : Text.Unbroken parent ∧ parent ≠ "") :
    (Line.append parent [] (some (.chain c.name))).Says (.append parent [c.name]) := by
  apply Line.says_append hparent
  . simp
  . simpa [Jump.Unbroken] using ⟨h.name, c.name_ne_empty⟩

theorem Unbroken.newline_not_mem (h : c.Unbroken) (hparent : Text.Unbroken parent ∧ parent ≠ "") :
    ∀ line ∈ c.lineList parent, '\n' ∉ line.text.toList := by
  obtain hlines | ⟨rest, hlines, hrest⟩ := h.lines_cases parent
  . simp [hlines]
  . rw [hlines, List.forall_mem_cons, List.forall_mem_cons]
    refine ⟨h.says_declare.newline, (h.says_link hparent).newline, fun line hline => ?_⟩
    obtain ⟨targets, hmeaning, _⟩ := hrest line hline
    exact hmeaning.newline

theorem Unbroken.directives_cases (h : c.Unbroken) (hparent : Text.Unbroken parent ∧ parent ≠ "") :
    Block.directives parent (.chain c) = []
      ∨ ∃ rest, Block.directives parent (.chain c)
        = .declare c.name :: .append parent [c.name] :: rest
        ∧ ∀ d ∈ rest, ∃ targets, d = .append c.name targets ∧ ∀ target ∈ targets,
          target ∈ standardTargets := by
  unfold Block.directives
  show (c.lineList parent).map _ = [] ∨ ∃ rest, (c.lineList parent).map _ = _ ∧ _
  obtain hlines | ⟨rest, hlines, hrest⟩ := h.lines_cases parent
  . exact .inl (by rw [hlines, List.map_nil])
  . refine .inr ⟨_, by rw [hlines, List.map_cons, List.map_cons, h.says_declare.read,
      (h.says_link hparent).read], ?_⟩
    rw [List.forall_mem_map]
    intro line hline
    obtain ⟨targets, hmeaning, htargets⟩ := hrest line hline
    exact ⟨targets, hmeaning.read, htargets⟩

theorem Unbroken.introduces (h : c.Unbroken) (hparent : Text.Unbroken parent ∧ parent ≠ "") :
    Introduces parent c.name (Block.directives parent (.chain c)) := by
  obtain hnil | ⟨rest, hdirectives, hrest⟩ := h.directives_cases hparent
  . exact .inl hnil
  . refine .inr ⟨rest, hdirectives, fun d hd => ?_⟩
    obtain ⟨targets, rfl, htargets⟩ := hrest d hd
    exact ⟨targets, rfl, fun hmem => c.name_not_mem (by decide) (htargets _ hmem)⟩

theorem Unbroken.closed (h : c.Unbroken) (hparent : Text.Unbroken parent ∧ parent ≠ "")
    (hknown : parent ∈ builtinChains ∨ parent ∈ known) :
    Closed Directive.declared? Resolves known (Block.directives parent (.chain c)) := by
  obtain hnil | ⟨rest, hdirectives, hrest⟩ := h.directives_cases hparent
  . rw [hnil]
    exact .nil
  . rw [hdirectives, Closed.cons_iff]
    constructor
    . exact c.name_not_mem (by decide)
    . -- From here on the chain is declared, and no other chain is named.
      apply Closed.of_forall Directive.persistent_resolves
      rw [List.forall_mem_cons]
      constructor
      . exact ⟨hknown.imp id (List.mem_append_left _), by simp [Directive.declared?]⟩
      . intro d hd
        obtain ⟨targets, rfl, htargets⟩ := hrest d hd
        exact ⟨.inr (by simp [Directive.declared?]),
          fun target htarget => .inl (htargets target htarget)⟩

end Chain

namespace FilterPart

abbrev Unbroken (p : FilterPart) : Prop :=
  p.Consists (fun chain => Text.Unbroken chain ∧ chain ≠ "") Chain.Unbroken

/--
The lines of a part refer only to chains that exist. Behind those that set up the chain of the
filter there are the blocks of its terms.
-/
structure Resolved (p : FilterPart) (lines : List String) : Prop where
  closed : Closed Directive.declared? Resolves [] (lines.map Directive.ofText)
  terms : ∃ head blocks, lines = head ++ blocks.flatten.map Line.text
    ∧ (∀ line ∈ head, ∀ chain targets, Directive.ofText line ≠ .append chain targets)
    ∧ List.Forall₂ (fun b ls => b.lines p.chain = .ok ls
        ∧ Introduces p.chain b.chainName (ls.map fun line => .ofText line.text)) p.blocks blocks

variable {p : FilterPart}

theorem Renders.unbroken (h : p.Renders clock f o) (hname : Text.Unbroken (f.name platform))
    (hterms : ∀ t ∈ f.terms, t.isVerbatim = false ∧ t.Unbroken) : p.Unbroken := by
  rw [← h.chain_eq] at hname
  exact h.consists ⟨hname, h.named⟩ (fun t ht => (hterms t ht).1) fun t ht c _ _ _ hc =>
    hc.unbroken h.named hname (hterms t ht).2

def SetsUp (line : Line) : Prop :=
  ∃ d, line.Says d ∧ (∀ known, d.Resolves known) ∧ ∀ chain targets, d ≠ .append chain targets

theorem Unbroken.setsUp_headLines (h : p.Unbroken) (hline : line ∈ p.headLines) : SetsUp line := by
  have hnewline := newline_not_mem_headLines h.chain.1.newline_not_mem hline
  obtain ⟨text, rfl⟩ := exists_note_of_mem_headLines hline
  refine ⟨.other, Line.says_note ?_, fun _ => trivial, by simp⟩
  simpa [Line.text] using hnewline

theorem Unbroken.setsUp_chainLines (h : p.Unbroken) (hls : p.chainLines = .ok ls)
    (hline : line ∈ ls) :
    SetsUp line := by
  obtain ⟨hwritable, rfl⟩ := chainLines_eq_ok_iff.mp hls
  by_cases hbuiltin : p.chain ∈ builtinChains
  . by_cases hnone : p.defaultAction = ""
    . simp [Slot.fill, target, hbuiltin, hnone] at hline
    . have haction : p.defaultAction ∈ defaultActions := (hwritable hbuiltin).resolve_left hnone
      have hwhole : ∀ action ∈ defaultActions, Text.Unbroken action ∧ action ≠ "" := by decide
      obtain rfl : line = .policy p.chain p.defaultAction := by
        simpa [Slot.fill, target, hbuiltin, hnone] using hline
      exact ⟨_, Line.says_policy h.chain (hwhole _ haction), fun _ => ⟨hbuiltin, haction⟩, by simp⟩
  . obtain rfl : line = .declare p.chain := by simpa [Slot.fill, target, hbuiltin] using hline
    exact ⟨_, Line.says_declare h.chain, fun _ => hbuiltin, by simp⟩

theorem Unbroken.mem_declared_chainLines (h : p.Unbroken) (hls : p.chainLines = .ok ls) :
    p.chain ∈ builtinChains
      ∨ p.chain ∈ (ls.map fun line => Directive.ofText line.text).filterMap
        Directive.declared? := by
  obtain ⟨hbuiltin, _⟩ | ⟨_, rfl⟩ := chainLines_eq_ok hls
  . exact .inl hbuiltin
  . exact .inr (by simp [(Line.says_declare h.chain).read, Directive.declared?])

theorem Unbroken.closed_blocks (h : p.Unbroken)
    (hknown : p.chain ∈ builtinChains ∨ p.chain ∈ known) :
    Closed Directive.declared? Resolves known (p.blocks.flatMap (Block.directives p.chain)) := by
  apply Closed.flatMap Directive.persistent_resolves
  intro b hb
  obtain ⟨c, rfl, hc⟩ := h.blocks b hb
  exact hc.closed h.chain hknown

theorem Unbroken.newline_not_mem (h : p.Unbroken) (hls : p.lines = .ok ls) :
    ∀ line ∈ ls, '\n' ∉ line.text.toList := by
  obtain ⟨chain, hchain, rfl⟩ := lines_eq_ok hls
  simp only [List.forall_mem_append, List.forall_mem_flatMap]
  refine ⟨fun line hline => ?_, fun line hline => ?_, fun b hb => ?_⟩
  . obtain ⟨d, hmeaning, _⟩ := h.setsUp_headLines hline
    exact hmeaning.newline
  . obtain ⟨d, hmeaning, _⟩ := h.setsUp_chainLines hchain hline
    exact hmeaning.newline
  . obtain ⟨c, rfl, hc⟩ := h.blocks b hb
    exact hc.newline_not_mem h.chain

theorem Unbroken.resolved (h : p.Unbroken) (hls : p.lines = .ok ls) :
    p.Resolved (ls.map Line.text) := by
  obtain ⟨chain, hchain, rfl⟩ := lines_eq_ok hls
  have hsetup : ∀ line ∈ p.headLines ++ chain, SetsUp line := by
    rw [List.forall_mem_append]
    exact ⟨fun line => h.setsUp_headLines, fun line => h.setsUp_chainLines hchain⟩
  rw [← List.append_assoc, List.map_append]
  constructor
  . rw [List.map_append, List.map_flatMap, List.map_flatMap, List.map_map]
    simp only [List.map_map]
    refine Closed.append_iff.mpr ⟨?_, h.closed_blocks ?_⟩
    . apply Closed.of_forall Directive.persistent_resolves
      rw [List.forall_mem_map]
      intro line hline
      obtain ⟨d, hmeaning, hresolves, _⟩ := hsetup line hline
      show (Directive.ofText line.text).Resolves []
      rw [hmeaning.read]
      exact hresolves []
    . apply (h.mem_declared_chainLines hchain).imp id
      intro hmem
      rw [List.nil_append, List.map_append, List.filterMap_append]
      exact List.mem_append_right _ hmem
  . refine ⟨_, p.blocks.map (Block.lineList p.chain), by rw [List.flatMap_def], ?_, ?_⟩
    . rw [List.forall_mem_map]
      intro line hline
      obtain ⟨d, hmeaning, _, hnone⟩ := hsetup line hline
      rw [hmeaning.read]
      exact hnone
    . rw [List.forall₂_map_right_iff, List.forall₂_same]
      intro b hb
      obtain ⟨c, rfl, hc⟩ := h.blocks b hb
      exact ⟨Block.lines_eq _ _, hc.introduces h.chain⟩

end FilterPart

namespace Document

theorem exists_partLines {ps : List FilterPart} (h : partLines ps = .ok ls) :
    ∃ lss, ls = lss.flatten ∧ List.Forall₂ (fun p ls => p.lines = .ok ls) ps lss
      ∧ ∀ ls ∈ lss, ∃ p ∈ ps, p.lines = .ok ls := by
  induction ps generalizing ls with
  | nil =>
    cases h
    exact ⟨[], rfl, .nil, by simp⟩
  | cons p ps ih =>
    obtain ⟨first, hfirst, h⟩ := bind_eq_ok.mp h
    obtain ⟨rest, hrest, h⟩ := bind_eq_ok.mp h
    obtain rfl := pure_eq_ok.mp h
    obtain ⟨lss, rfl, hlss, hmem⟩ := ih hrest
    refine ⟨first :: lss, rfl, .cons hfirst hlss, ?_⟩
    rw [List.forall_mem_cons]
    refine ⟨⟨p, List.mem_cons_self, hfirst⟩, fun ls hls => ?_⟩
    obtain ⟨q, hq, hlines⟩ := hmem ls hls
    exact ⟨q, List.mem_cons_of_mem p hq, hlines⟩

theorem unbroken_of_ofPolicy (h : (ofPolicy clock policy).result = .ok d)
    (hunbroken : UnbrokenPolicy policy) (htargets : ∀ t ∈ targets, Unbroken t.1) :
    ∀ p ∈ (setTargets targets d).parts, p.Unbroken := by
  refine forall_of_ofPolicy (R := FilterPart.Unbroken) h ?_ ?_
  . intro f hf htarget p o hrenders
    obtain ⟨hname, hterms⟩ := hunbroken f hf htarget
    exact hrenders.unbroken hname hterms
  . intro t ht p hp
    exact hp.setTarget (fun hne => ⟨htargets t ht, hne⟩) t.2

/--
The text of a document is made of the lines of its filters, and the lines of each of them refer only
to chains that are built in or that lines before them declare, whatever its targets have been
changed to.
-/
theorem render_resolved (hpolicy : (ofPolicy clock policy).result = .ok d)
    (hunbroken : UnbrokenPolicy policy) (htargets : ∀ t ∈ targets, Unbroken t.1)
    (hrender : (setTargets targets d).render = .ok text) :
    ∃ blocks : List (List String), (Script.lines text.toList).map String.ofList = blocks.flatten
      ∧ List.Forall₂ FilterPart.Resolved (setTargets targets d).parts blocks := by
  have hparts := unbroken_of_ofPolicy hpolicy hunbroken htargets
  obtain ⟨ls, hls, htext⟩ := bind_eq_ok.mp hrender
  obtain ⟨lss, rfl, hlss, hmem⟩ := exists_partLines hls
  have hnewline : ∀ line ∈ lss.flatten, '\n' ∉ line.text.toList := by
    rw [List.forall_mem_flatten]
    intro ls hls
    obtain ⟨p, hp, hlines⟩ := hmem ls hls
    exact (hparts p hp).newline_not_mem hlines
  refine ⟨lss.map fun ls => ls.map Line.text, ?_, ?_⟩
  . rw [← pure_eq_ok.mp htext, lines_join_text hnewline, List.map_map, ← List.map_flatten]
    simp [Function.comp_def]
  . rw [List.forall₂_map_right_iff]
    apply ((List.forall₂_and_left _ _).mpr ⟨hparts, hlss⟩).imp
    rintro p ls ⟨hunbroken, hlines⟩
    exact hunbroken.resolved hlines

end Document

def jumpyPolicy : Policy where
  filters := [
    { comment := ["-A NOWHERE -j NOWHERE"]
      targets := [⟨platform, ["INPUT", "DROP"]⟩]
      terms := [
        { name := "-j", protocol := ["tcp"], action := .accept, sourceInterface := "-j",
          comment := ["the \"-j NOWHERE\" of -j"] },
        { name := "none", sourceAddress := some [], action := .deny }] },
    { comment := []
      targets := [⟨platform, ["\"EDGE"]⟩]
      terms := [{ name := "rest", action := .reject, logging := true }] }]

theorem unbroken_jumpyPolicy : UnbrokenPolicy jumpyPolicy := by
  intro f hf _
  simp only [jumpyPolicy, List.mem_cons, List.not_mem_nil, or_false] at hf
  obtain rfl | rfl := hf
  . refine ⟨by decide +kernel, ?_⟩
    simp only [List.forall_mem_cons, List.not_mem_nil, false_imp_iff, implies_true, and_true]
    refine ⟨⟨rfl, ?_⟩, rfl, ?_⟩ <;> constructor <;> decide +kernel
  . refine ⟨by decide +kernel, ?_⟩
    rw [List.forall_mem_singleton]
    refine ⟨rfl, ?_⟩
    constructor <;> decide +kernel

theorem render_resolved_jumpyPolicy :
    ∃ d text blocks, (Document.ofPolicy epoch jumpyPolicy).result = .ok d
      ∧ (d.setTargets [("LAN", "reject")]).render = .ok text
      ∧ (d.setTargets [("LAN", "reject")]).parts.map
        (fun p => (p.chain, p.blocks.map Block.chainName))
          = [("LAN", ["I_-j", "I_none"]), ("LAN", ["\"_rest"])]
      ∧ (Script.lines text.toList).map String.ofList = blocks.flatten
      ∧ List.Forall₂ FilterPart.Resolved (d.setTargets [("LAN", "reject")]).parts blocks := by
  have h : (Document.ofPolicy epoch jumpyPolicy).result.toOption.any (fun d =>
      (d.setTargets [("LAN", "reject")]).render.toOption.isSome
        && (d.setTargets [("LAN", "reject")]).parts.map
          (fun p => (p.chain, p.blocks.map Block.chainName))
          == [("LAN", ["I_-j", "I_none"]), ("LAN", ["\"_rest"])]) = true := by
    decide +kernel
  obtain ⟨d, hd, h⟩ := exists_ok_of_any h
  rw [Bool.and_eq_true, ← Option.any_true] at h
  obtain ⟨text, htext, -⟩ := exists_ok_of_any h.1
  obtain ⟨blocks, hlines, hblocks⟩ :=
    Document.render_resolved hd unbroken_jumpyPolicy (by decide +kernel) htext
  exact ⟨d, text, blocks, hd, htext, eq_of_beq h.2, hlines, hblocks⟩

end Iptables
end PacketPolicy

import PacketPolicy.Proofs.Iptables.Lines

namespace PacketPolicy
namespace Iptables

def Clause.asksFor (option : String) : Clause → Bool
  | .tcpFlags mask set =>
    (TcpFlag.ofOption? option).any fun flag => mask.contains flag && set.contains flag
  | .syn => option == "initial"
  | _ => false

/--
A rule with these clauses is for TCP packets only, and only for those that an option of a term asks
for.
-/
def KeepsOption (option : String) (clauses : List Clause) : Prop :=
  .protocol "tcp" ∈ clauses ∧ ∃ clause ∈ clauses, clause.asksFor option = true

instance (option : String) (clauses : List Clause) : Decidable (KeepsOption option clauses) :=
  inferInstanceAs (Decidable (_ ∧ _))

namespace Chain

variable {c : Chain}

theorem protocolClauses_eq (h : p = "tcp" ∨ p = "udp") : c.protocolClauses p = [.protocol p] := by
  obtain rfl | rfl := h <;> simp [protocolClauses, Icmp.isProtocol]

theorem exists_asksFor_of_mem_flagVariants (hflags : c.matching.flags = Matching.flagsOf c.term)
    (hoption : option ∈ c.term.option)
    (htcp : (TcpFlag.ofOption? option).isSome = true ∨ option = "initial")
    (h : variant ∈ c.flagVariants "tcp") : ∃ clause ∈ variant, clause.asksFor option = true := by
  have hbase : ∃ clause
    ∈ (if c.matching.flags.isEmpty then [] else [Clause.tcpFlags c.matching.flags c.matching.flags])
      ++ (if c.term.hasOption "initial" then [.syn] else []), clause.asksFor option = true := by
    obtain hflag | rfl := htcp
    . obtain ⟨flag, hflag⟩ := Option.isSome_iff_exists.mp hflag
      have hmem : flag ∈ c.matching.flags := by
        rw [hflags, Matching.mem_flagsOf]
        exact ⟨option, hoption, hflag⟩
      refine ⟨.tcpFlags c.matching.flags c.matching.flags, ?_,
        by simp [Clause.asksFor, hflag, hmem]⟩
      simp [List.ne_nil_of_mem hmem]
    . have hinitial : c.term.hasOption "initial" = true := by simpa [Term.hasOption] using hoption
      exact ⟨.syn, by simp [hinitial], by simp [Clause.asksFor]⟩
  obtain ⟨clause, hclause, hasks⟩ := hbase
  refine ⟨clause, ?_, hasks⟩
  unfold flagVariants at h
  rw [if_neg (by simp)] at h
  dsimp only at h
  split at h
  . obtain ⟨e, _, rfl⟩ := List.mem_map.mp h
    exact List.mem_append_left _ hclause
  . rwa [List.mem_singleton.mp h]

variable {name : String}

theorem eq_of_mem_protocolClauses (h : .protocol name ∈ c.protocolClauses p) : name = p := by
  unfold protocolClauses at h
  grind

theorem protocol_not_mem_flagVariants (h : flags ∈ c.flagVariants p) : .protocol name ∉ flags := by
  unfold flagVariants establishedFlags at h
  grind

theorem protocol_not_mem_portClauseLists (h : ports ∈ c.portClauseLists p) :
    .protocol name ∉ ports := by
  intro hmem
  obtain ⟨side, hmem⟩ := exists_mem_sidePorts_of_mem_portClauseLists h hmem
  unfold sidePorts at hmem
  split at hmem <;> simp at hmem

theorem protocol_of_mem_icmpClauses (hicmp : icmp ∈ c.icmpClauses p) (h : .protocol name ∈ icmp) :
    name = "icmp" ∨ name = "ipv6-icmp" := by
  unfold icmpClauses at hicmp
  grind

theorem protocol_not_mem_optionClauses : .protocol name ∉ c.optionClauses := by
  simp only [optionClauses, List.mem_append, Option.mem_toList, Option.map_eq_some_iff]
  grind

theorem protocol_not_mem_interfaceClauses : .protocol name ∉ c.interfaceClauses := by
  unfold interfaceClauses
  grind

theorem protocol_of_mem_clauses (hflags : flags ∈ c.flagVariants p)
    (hports : ports ∈ c.portClauseLists p) (hicmp : icmp ∈ c.icmpClauses p)
    {source destination : Prefix} (h : .protocol name ∈ Shape.clauses
      ⟨c.protocolClauses p ++ flags ++ ports, icmp ++ c.optionClauses ++ c.interfaceClauses⟩ source
        destination) :
    name = p ∨ name = "icmp" ∨ name = "ipv6-icmp" := by
  simp only [Shape.clauses, List.mem_append, protocol_not_mem_flagVariants hflags,
    protocol_not_mem_portClauseLists hports, protocol_not_mem_optionClauses,
    protocol_not_mem_interfaceClauses, or_false] at h
  obtain ((h | h) | h) | h := h
  . exact .inl (eq_of_mem_protocolClauses h)
  . cases mem_addressClauses h
  . cases mem_addressClauses h
  . exact .inr (protocol_of_mem_icmpClauses hicmp h)

theorem portLists_ne_nil (side : Side) (rs : List PortRange) : portLists side rs ≠ [] := by
  unfold portLists sidePorts
  split
  . simp
  . next hne =>
    split
    . simp
    . rw [List.map_map, ne_eq, List.map_eq_nil_iff]
      intro hnil
      have hflatten := PortRange.flatten_groups (show 0 < PortRange.maxEntries by decide) rs
      rw [hnil, List.flatten_nil] at hflatten
      simp [← hflatten] at hne

theorem portClauseLists_ne_nil : c.portClauseLists p ≠ [] := by
  unfold portClauseLists
  split
  . obtain ⟨s, hs⟩ := List.exists_mem_of_ne_nil _ (portLists_ne_nil .source c.term.sourcePort)
    obtain ⟨d, hd⟩ := List.exists_mem_of_ne_nil _ (portLists_ne_nil .destination c.destinationPorts)
    exact List.ne_nil_of_mem (List.mem_flatMap.mpr ⟨s, hs, List.mem_map_of_mem hd⟩)
  . simp

theorem rules_keepsOption_iff (hflags : c.matching.flags = Matching.flagsOf c.term)
    (hoption : option ∈ c.term.option)
    (htcp : (TcpFlag.ofOption? option).isSome = true ∨ option = "initial") :
    (∀ clauses, .append c.name clauses (some c.matching.jump) ∈ c.rules →
      KeepsOption option clauses) ↔
      c.rules = [] ∨ ∀ p ∈ c.protocols, p = "tcp" := by
  constructor
  . intro h
    by_cases hne : c.rules = []
    . exact .inl hne
    . right
      intro p hp
      obtain ⟨ports, hports⟩ :=
        List.exists_mem_of_ne_nil _ (portClauseLists_ne_nil (c := c) (p := p))
      obtain ⟨flags, hmem, icmp, hicmp, source, destination, hrule⟩ :=
        exists_mem_rules hne hp hports
      have hprotocol := protocol_of_mem_clauses hmem hports hicmp (h _ hrule).1
      simpa [eq_comm] using hprotocol
  . rintro (hnil | hprotocols) clauses hrule
    . simp [hnil] at hrule
    . obtain ⟨p, hp, flags, hmem, ports, _, icmp, _, source, destination, rfl⟩ :=
        clauses_of_mem_rules hrule
      obtain rfl := hprotocols p hp
      obtain ⟨clause, hclause, hasks⟩ := exists_asksFor_of_mem_flagVariants hflags hoption htcp hmem
      refine ⟨?_, clause, ?_, hasks⟩
      . simp [Shape.clauses, protocolClauses_eq]
      . simp [Shape.clauses, hclause]

end Chain

/--
Only for established connections without connection tracking does the check of a term look at its
protocols.
-/
theorem Matching.Accepts.with_protocol {t : Term} (h : Accepts f stateful t m)
    (hstateful : isEstablished t = true → stateful = true) (protocols : List String) :
    Accepts f stateful { t with protocol := protocols } m where
  protocolExcept := h.protocolExcept
  keywords := h.keywords
  jump := h.jump
  options := h.options
  flags := h.flags
  established := h.established
  length := h.length
  fragmentOffset := h.fragmentOffset
  stateless hestablished hstateless := by
    have := hstateful hestablished
    simp [hstateless] at this

/--
The rules of a term keep its TCP flags, or that it is about the start of connections, if the term is
about TCP only. A rule for any other protocol, or for all of them, is written without the flags, and
the term is accepted all the same.
-/
theorem Document.rules_keep_flags_iff (h : (Document.ofPolicy clock policy).result = .ok d)
    (hpart : part ∈ d.parts) (hblock : .chain c ∈ part.blocks) (hoption : option ∈ c.term.option)
    (htcp : (TcpFlag.ofOption? option).isSome = true ∨ option = "initial") :
    ∃ jump, target? part.family c.term.action = some jump
      ∧ (∀ parent, ∃ ls, c.lines parent = .ok ls ∧ ∀ clauses,
        .append c.name clauses (some jump) ∈ ls →
          .append c.name clauses (some jump) ∈ c.rules
            ∨ c.term.action = .next ∧ ∃ side p, clauses = Chain.addressClauses side p)
      ∧ ((∀ clauses, .append c.name clauses (some jump) ∈ c.rules → KeepsOption option clauses) ↔
          c.rules = [] ∨ c.term.protocol ≠ [] ∧ ∀ p ∈ c.term.protocol, p = "tcp")
      ∧ ((Matching.isEstablished c.term = true → c.stateful = true) → ∀ protocols,
          Matching.ofTerm part.family c.stateful { c.term with protocol := protocols }
            = .ok c.matching) := by
  obtain ⟨f, _, _, o, hrenders⟩ := exists_renders_of_mem h hpart
  obtain ⟨t, _, _, hverbatim, hchain⟩ := hrenders.exists_chain hblock
  have haccepts : Matching.Accepts part.family c.stateful c.term c.matching := by
    rw [hchain.term_eq, hchain.stateful_eq]
    exact hchain.accepts
  have hverbatim' : c.term.isVerbatim = false := by rwa [hchain.term_eq]
  refine ⟨c.matching.jump, haccepts.jump, fun parent =>
    ⟨_, c.lines_eq parent, fun clauses hline => ?_⟩, ?_, fun hstateful protocols => ?_⟩
  . exact Chain.mem_rules_of_mem_lines haccepts.jump hline
  . rw [Chain.rules_keepsOption_iff haccepts.flags hoption htcp, Chain.forall_protocols (by simp)]
  . apply (Matching.ofTerm_eq_ok (t := { c.term with protocol := protocols }) hverbatim').mpr
    exact haccepts.with_protocol hstateful protocols

def refusals (protocols : List String) : Policy where
  filters := [{
    comment := []
    targets := [⟨platform, ["INPUT"]⟩]
    terms := [
      { name := "attempts", protocol := protocols, option := ["initial"], action := .deny },
      { name := "resets", protocol := protocols, option := ["rst", "ack", "first-fragment"],
        action := .next,
        sourcePort := [.ofNat 22 22, .ofNat 80 80], logging := true }] }]

theorem rules_keep_refusals :
    ∃ d part c, (Document.ofPolicy epoch (refusals ["tcp"])).result = .ok d ∧ part ∈ d.parts
      ∧ .chain c ∈ part.blocks ∧ "ack" ∈ c.term.option ∧ c.rules ≠ []
      ∧ ∀ clauses, .append c.name clauses (some .leave) ∈ c.rules → KeepsOption "ack" clauses := by
  obtain ⟨d, part, c, hd, hpart, hc, h⟩ := Document.exists_chain_of_any epoch (refusals ["tcp"])
    (fun _ c => c.term.action == .next && c.term.protocol == ["tcp"] && c.term.option.contains "ack"
      && !c.rules.isEmpty) (by decide +kernel)
  simp only [Bool.and_eq_true, beq_iff_eq, List.contains_iff_mem, Bool.not_eq_eq_eq_not,
    Bool.not_true, List.isEmpty_eq_false_iff] at h
  obtain ⟨⟨⟨haction, hprotocol⟩, hoption⟩, hrules⟩ := h
  obtain ⟨jump, hjump, _, hkeep, _⟩ :=
    Document.rules_keep_flags_iff hd hpart hc hoption (.inl (by decide))
  rw [haction] at hjump
  cases hjump
  exact ⟨d, part, c, hd, hpart, hc, hoption, hrules, hkeep.mpr (.inr (by simp [hprotocol]))⟩

/--
Without a protocol the policy is accepted as well, and it drops all packets.
-/
theorem rules_lose_refusals :
    ∃ d part c ls, (Document.ofPolicy epoch (refusals [])).result = .ok d ∧ part ∈ d.parts
      ∧ .chain c ∈ part.blocks
      ∧ "initial" ∈ c.term.option ∧ target? part.family c.term.action = some .drop
      ∧ c.lines part.chain = .ok ls
      ∧ .append c.name [] (some .drop) ∈ ls ∧ ¬KeepsOption "initial" [] := by
  obtain ⟨d, part, c, hd, hpart, hc, h⟩ := Document.exists_chain_of_any epoch (refusals [])
    (fun part c => c.term.option.contains "initial"
      && target? part.family c.term.action == some .drop
      && (c.lineList part.chain).contains (.append c.name [] (some .drop)))
    (by decide +kernel)
  simp only [Bool.and_eq_true, beq_iff_eq, List.contains_iff_mem] at h
  exact ⟨d, part, c, _, hd, hpart, hc, h.1.1, h.1.2, c.lines_eq part.chain, h.2, by decide⟩

end Iptables
end PacketPolicy

import PacketPolicy.Proofs.Iptables.Chain
import PacketPolicy.Proofs.Iptables.Document
import PacketPolicy.Proofs.Iptables.Multiport

namespace PacketPolicy

def Term.portsAt (t : Term) : Side → List PortRange
  | .source => t.sourcePort
  | .destination => t.destinationPort

namespace Iptables
namespace Chain

variable {c : Chain}

def rules (c : Chain) : List Line :=
  match c.plan with
  | .empty _ => []
  | .rules source destination =>
    c.shapeList.flatMap fun shape =>
      source.includes.flatMap fun s => destination.includes.flatMap fun d => c.rulesFor shape s d

theorem mem_rulesFor :
    line ∈ c.rulesFor shape s d ↔
      line = .append c.name (shape.clauses s d) (some c.matching.jump)
        ∨ c.term.logging = true
          ∧ line = .append c.name (shape.clauses s d) (some (.log c.tagged.name)) := by
  unfold rulesFor
  cases c.term.logging with
  | true => simp [or_comm]
  | false => simp

theorem clauses_eq_of_mem_rulesFor (h : .append c.name clauses jump ∈ c.rulesFor shape s d) :
    clauses = shape.clauses s d := by
  obtain heq | ⟨_, heq⟩ := mem_rulesFor.mp h
  . cases heq
    rfl
  . cases heq
    rfl

theorem mem_rules :
    line ∈ c.rules ↔ ∃ s d, c.plan = .rules s d
      ∧ ∃ shape ∈ c.shapeList, ∃ p ∈ s.includes, ∃ q ∈ d.includes,
      line ∈ c.rulesFor shape p q := by
  unfold rules
  split
  . next h => simp [h]
  . next s d h => simp [h, List.mem_flatMap]

theorem mem_shapes :
    shape ∈ c.shapeList ↔
      ∃ p ∈ c.protocols, ∃ flags ∈ c.flagVariants p, ∃ ports ∈ c.portClauseLists p,
      ∃ icmp ∈ c.icmpClauses p,
        shape = ⟨c.protocolClauses p ++ flags ++ ports,
          icmp ++ c.optionClauses ++ c.interfaceClauses⟩ := by
  simp [shapeList, protocolShapes, List.mem_flatMap, eq_comm]

theorem mem_lines (hplan : c.plan = .rules s d) :
    line ∈ c.lineList parent ↔
      line = .declare c.name ∨ line = .append parent [] (some (.chain c.name))
        ∨ (∃ text ∈ Comment.lines c.term.comment c.term.owner, line = c.commentLine text)
        ∨ (∃ p ∈ s.returns, line = c.returnLine .source p)
        ∨ (∃ p ∈ d.returns, line = c.returnLine .destination p)
        ∨ line ∈ c.rules := by
  simp only [lineList, rules, hplan, ruleList, ruleLines, List.mem_append, List.mem_cons,
    List.not_mem_nil, or_false, List.mem_map, or_assoc, eq_comm]

/--
A line of the chain of a term declares the chain, links it, comments on it, leaves it early, or is a
rule.
-/
theorem mem_lines_cases (h : line ∈ c.lineList parent) :
    line = .declare c.name ∨ line = .append parent [] (some (.chain c.name))
      ∨ (∃ text, line = c.commentLine text)
      ∨ (∃ side, ∃ p ∈ c.plan.returns side, line = c.returnLine side p) ∨ line ∈ c.rules := by
  cases hplan : c.plan with
  | empty side => simp [lineList, hplan] at h
  | rules s d =>
    obtain h | h | ⟨text, _, h⟩ | ⟨p, hp, h⟩ | ⟨p, hp, h⟩ | h := (mem_lines hplan).mp h
    . exact .inl h
    . exact .inr (.inl h)
    . exact .inr (.inr (.inl ⟨text, h⟩))
    . exact .inr (.inr (.inr (.inl ⟨.source, p, hp, h⟩)))
    . exact .inr (.inr (.inr (.inl ⟨.destination, p, hp, h⟩)))
    . exact .inr (.inr (.inr (.inr h)))

end Chain

def Clause.limitsPorts (side : Side) (rs : List PortRange) : Clause → Bool
  | .port s r => s == side && rs.contains r
  | .ports s group => s == side && group.all rs.contains
  | _ => false

/--
One of the clauses of a rule limits it to the given ports.
-/
def LimitsPorts (side : Side) (rs : List PortRange) (clauses : List Clause) : Prop :=
  ∃ clause ∈ clauses, clause.limitsPorts side rs = true

@[simp]
theorem limitsPorts_append :
    LimitsPorts side rs (cs ++ ds) ↔ LimitsPorts side rs cs ∨ LimitsPorts side rs ds := by
  simp [LimitsPorts, or_and_right, exists_or]

namespace Chain

variable {c : Chain} {side : Side} {rs : List PortRange}

theorem not_limitsPorts_protocolClauses : ¬LimitsPorts side rs (c.protocolClauses p) := by
  unfold protocolClauses
  repeat' split
  all_goals simp [LimitsPorts, Clause.limitsPorts]

theorem not_limitsPorts_flagVariants (h : flags ∈ c.flagVariants p) :
    ¬LimitsPorts side rs flags := by
  have hbase : ¬LimitsPorts side rs
      ((if c.matching.flags.isEmpty then []
        else [Clause.tcpFlags c.matching.flags c.matching.flags])
        ++ (if c.term.hasOption "initial" then [.syn] else [])) := by
    rw [limitsPorts_append]
    rintro (h | h)
    . split at h <;> simp [LimitsPorts, Clause.limitsPorts] at h
    . split at h <;> simp [LimitsPorts, Clause.limitsPorts] at h
  unfold flagVariants at h
  dsimp only at h
  split at h
  . simp [List.mem_singleton.mp h, LimitsPorts]
  . split at h
    . obtain ⟨e, he, rfl⟩ := List.mem_map.mp h
      rw [limitsPorts_append]
      rintro (h | h)
      . exact hbase h
      . simp only [establishedFlags, List.mem_cons, List.not_mem_nil, or_false] at he
        obtain rfl | rfl := he <;> simp [LimitsPorts, Clause.limitsPorts] at h
    . rw [List.mem_singleton.mp h]
      exact hbase

theorem not_limitsPorts_icmpClauses (h : icmp ∈ c.icmpClauses p) : ¬LimitsPorts side rs icmp := by
  unfold icmpClauses at h
  split at h
  . split at h
    . simp [List.mem_singleton.mp h, LimitsPorts, Clause.limitsPorts]
    . obtain ⟨n, _, rfl⟩ := List.mem_map.mp h
      simp [LimitsPorts, Clause.limitsPorts]
  . split at h
    . split at h
      . simp [List.mem_singleton.mp h, LimitsPorts, Clause.limitsPorts]
      . obtain ⟨n, _, rfl⟩ := List.mem_map.mp h
        simp [LimitsPorts, Clause.limitsPorts]
    . simp [List.mem_singleton.mp h, LimitsPorts]

theorem not_limitsPorts_optionClauses : ¬LimitsPorts side rs c.optionClauses := by
  unfold optionClauses
  simp only [limitsPorts_append]
  rintro (((h | h) | h) | h)
  . split at h <;> simp [LimitsPorts, Clause.limitsPorts] at h
  . cases hlength : c.matching.length <;> simp [hlength, LimitsPorts, Clause.limitsPorts] at h
  . cases hoffset : c.matching.fragmentOffset
      <;> simp [hoffset, LimitsPorts, Clause.limitsPorts] at h
  . repeat' split at h
    all_goals simp [LimitsPorts, Clause.limitsPorts] at h

theorem not_limitsPorts_interfaceClauses : ¬LimitsPorts side rs c.interfaceClauses := by
  unfold interfaceClauses
  rw [limitsPorts_append]
  rintro (h | h)
  . split at h <;> simp [LimitsPorts, Clause.limitsPorts] at h
  . split at h <;> simp [LimitsPorts, Clause.limitsPorts] at h

theorem not_limitsPorts_addressClauses {p : Prefix} :
    ¬LimitsPorts side rs (addressClauses side' p) := by
  unfold addressClauses
  split <;> simp [LimitsPorts, Clause.limitsPorts]

theorem limitsPorts_clauses (hflags : flags ∈ c.flagVariants p) (hicmp : icmp ∈ c.icmpClauses p)
    (s d : Prefix) :
    LimitsPorts side rs (Shape.clauses
        ⟨c.protocolClauses p ++ flags ++ ports,
          icmp ++ c.optionClauses ++ c.interfaceClauses⟩ s d) ↔
      LimitsPorts side rs ports := by
  simp only [Shape.clauses, limitsPorts_append, not_limitsPorts_protocolClauses,
    not_limitsPorts_flagVariants hflags, not_limitsPorts_icmpClauses hicmp,
    not_limitsPorts_optionClauses, not_limitsPorts_interfaceClauses, not_limitsPorts_addressClauses,
    false_or, or_false]

theorem limitsPorts_of_mem_sidePorts (h : clause ∈ sidePorts side rs) :
    clause.limitsPorts side rs = true := by
  unfold sidePorts at h
  split at h
  . rw [List.mem_singleton.mp h]
    simp [Clause.limitsPorts]
  . obtain ⟨group, hgroup, rfl⟩ := List.mem_map.mp h
    obtain ⟨_, k, rfl⟩ := (PortRange.mem_groups (by decide)).mp hgroup
    simp only [Clause.limitsPorts, beq_self_eq_true, Bool.true_and, List.all_eq_true,
      List.contains_iff_mem]
    intro r hr
    exact List.mem_of_mem_drop (List.mem_of_mem_take hr)

theorem limitsPorts_of_mem_portLists (hrs : rs ≠ []) (h : clauses ∈ portLists side rs) :
    LimitsPorts side rs clauses := by
  unfold portLists at h
  rw [if_neg (by simpa using hrs)] at h
  obtain ⟨clause, hclause, rfl⟩ := List.mem_map.mp h
  exact ⟨clause, List.mem_singleton_self clause, limitsPorts_of_mem_sidePorts hclause⟩

theorem destinationPorts_eq (h : c.term.destinationPort ≠ []) :
    c.destinationPorts = c.term.destinationPort := by
  unfold destinationPorts
  rw [if_neg (by simp [h])]

theorem limitsPorts_of_mem_portClauseLists (hprotocol : p = "tcp" ∨ p = "udp")
    (hports : c.term.portsAt side ≠ []) (h : ports ∈ c.portClauseLists p) :
    LimitsPorts side (c.term.portsAt side) ports := by
  unfold portClauseLists at h
  rw [if_pos (by simpa using hprotocol)] at h
  obtain ⟨s, hs, h⟩ := List.mem_flatMap.mp h
  obtain ⟨d, hd, rfl⟩ := List.mem_map.mp h
  have hlimits : LimitsPorts side (c.term.portsAt side) s
      ∨ LimitsPorts side (c.term.portsAt side) d := by
    cases side with
    | source => exact .inl (limitsPorts_of_mem_portLists hports hs)
    | destination =>
      rw [destinationPorts_eq hports] at hd
      exact .inr (limitsPorts_of_mem_portLists hports hd)
  split
  . exact limitsPorts_append.mpr hlimits.symm
  . exact limitsPorts_append.mpr hlimits

theorem portClauseLists_eq (hprotocol : ¬(p = "tcp" ∨ p = "udp")) : c.portClauseLists p = [[]] := by
  unfold portClauseLists
  rw [if_neg (by simpa using hprotocol)]

theorem flagVariants_ne_nil : c.flagVariants p ≠ [] := by
  unfold flagVariants
  dsimp only
  split
  . simp
  . split <;> simp [establishedFlags]

theorem icmpClauses_ne_nil : c.icmpClauses p ≠ [] := by
  unfold icmpClauses
  repeat' split
  all_goals simp_all

theorem exists_mem_rules (hne : c.rules ≠ []) (hp : p ∈ c.protocols)
    (hports : ports ∈ c.portClauseLists p) :
    ∃ flags ∈ c.flagVariants p, ∃ icmp ∈ c.icmpClauses p, ∃ source destination,
      .append c.name (Shape.clauses
          ⟨c.protocolClauses p ++ flags ++ ports, icmp ++ c.optionClauses ++ c.interfaceClauses⟩
            source destination)
        (some c.matching.jump) ∈ c.rules := by
  cases hplan : c.plan with
  | empty _ => exact absurd (by simp [rules, hplan]) hne
  | rules s d =>
    obtain ⟨hs, hd⟩ := Plan.includes_ne_nil_of_rules hplan
    obtain ⟨source, hsource⟩ := List.exists_mem_of_ne_nil _ hs
    obtain ⟨destination, hdestination⟩ := List.exists_mem_of_ne_nil _ hd
    obtain ⟨flags, hflags⟩ := List.exists_mem_of_ne_nil _ (flagVariants_ne_nil (c := c) (p := p))
    obtain ⟨icmp, hicmp⟩ := List.exists_mem_of_ne_nil _ (icmpClauses_ne_nil (c := c) (p := p))
    have hshape := mem_shapes.mpr ⟨p, hp, flags, hflags, ports, hports, icmp, hicmp, rfl⟩
    exact ⟨flags, hflags, icmp, hicmp, source, destination, mem_rules.mpr
      ⟨s, d, hplan, _, hshape, source, hsource, destination, hdestination,
        mem_rulesFor.mpr (.inl rfl)⟩⟩

theorem clauses_of_mem_rules (h : .append c.name clauses jump ∈ c.rules) :
    ∃ p ∈ c.protocols, ∃ flags ∈ c.flagVariants p, ∃ ports ∈ c.portClauseLists p,
      ∃ icmp ∈ c.icmpClauses p,
      ∃ source destination, clauses = Shape.clauses
        ⟨c.protocolClauses p ++ flags ++ ports, icmp ++ c.optionClauses ++ c.interfaceClauses⟩
          source destination := by
  obtain ⟨_, _, _, shape, hshape, source, _, destination, _, hline⟩ := mem_rules.mp h
  obtain ⟨p, hp, flags, hflags, ports, hports, icmp, hicmp, rfl⟩ := mem_shapes.mp hshape
  exact ⟨p, hp, flags, hflags, ports, hports, icmp, hicmp, source, destination,
    clauses_eq_of_mem_rulesFor hline⟩

theorem rules_limitsPorts_iff (hports : c.term.portsAt side ≠ []) :
    (∀ clauses, .append c.name clauses (some c.matching.jump) ∈ c.rules →
        LimitsPorts side (c.term.portsAt side) clauses) ↔
      c.rules = [] ∨ ∀ p ∈ c.protocols, p = "tcp" ∨ p = "udp" := by
  constructor
  . intro h
    by_cases hne : c.rules = []
    . exact .inl hne
    . refine .inr fun p hp => Decidable.byContradiction fun hprotocol => ?_
      -- There is a rule for the protocol, and it has no clause for ports.
      obtain ⟨flags, hflags, icmp, hicmp, source, destination, hrule⟩ :=
        exists_mem_rules hne hp
          (show [] ∈ c.portClauseLists p by simp [portClauseLists_eq hprotocol])
      have hlimits := (limitsPorts_clauses hflags hicmp source destination).mp (h _ hrule)
      simp [LimitsPorts] at hlimits
  . rintro (hnil | hprotocols) clauses hrule
    . simp [hnil] at hrule
    . obtain ⟨p, hp, flags, hflags, ports, hmem, icmp, hicmp, source, destination, rfl⟩ :=
        clauses_of_mem_rules hrule
      rw [limitsPorts_clauses hflags hicmp]
      exact limitsPorts_of_mem_portClauseLists (hprotocols p hp) hports hmem

theorem forall_protocols {P : String → Prop} (hempty : ¬P "") :
    (∀ p ∈ c.protocols, P p) ↔ c.term.protocol ≠ [] ∧ ∀ p ∈ c.term.protocol, P p := by
  simp only [mem_protocols]
  constructor
  . intro h
    exact ⟨fun hnil => hempty (h "" (.inr ⟨hnil, rfl⟩)), fun p hp => h p (.inl hp)⟩
  . rintro ⟨hne, h⟩ p (hp | ⟨hnil, _⟩)
    . exact h p hp
    . exact absurd hnil hne

end Chain

theorem target?_eq_leave_iff : target? f action = some .leave ↔ action = .next := by
  cases action with
  | reject => cases f <;> simp [target?]
  | _ => simp [target?]

theorem target?_ne_chain : target? f action ≠ some (.chain name) := by
  cases action with
  | reject => cases f <;> simp [target?]
  | _ => simp [target?]

theorem Chain.rule_or_return_of_mem_lines {c : Chain} (hjump : target? f c.term.action = some jump)
    (h : .append chain clauses (some jump) ∈ c.lineList parent) :
    .append chain clauses (some jump) ∈ c.rules
      ∨ c.term.action = .next
        ∧ ∃ side, ∃ p ∈ c.plan.returns side, clauses = addressClauses side p := by
  obtain hline | hline | ⟨text, hline⟩ | ⟨side, p, hp, hline⟩ | hline := mem_lines_cases h
  . cases hline
  . cases hline
    exact absurd hjump target?_ne_chain
  . cases hline
  . cases hline
    exact .inr ⟨target?_eq_leave_iff.mp hjump, side, p, hp, rfl⟩
  . exact .inl hline

theorem Chain.mem_rules_of_mem_lines {c : Chain} (hjump : target? f c.term.action = some jump)
    (h : .append c.name clauses (some jump) ∈ c.lineList parent) :
    .append c.name clauses (some jump) ∈ c.rules
      ∨ c.term.action = .next ∧ ∃ side p, clauses = addressClauses side p := by
  obtain hrule | ⟨hnext, side, p, _, hclauses⟩ := rule_or_return_of_mem_lines hjump h
  . exact .inl hrule
  . exact .inr ⟨hnext, side, p, hclauses⟩

/--
The rules of a term keep its ports if the term is about TCP and UDP only. A rule for any other
protocol, or for all of them, is written without the ports.
-/
theorem Document.rules_keep_ports_iff (h : (Document.ofPolicy clock policy).result = .ok d)
    (hpart : part ∈ d.parts) (hblock : .chain c ∈ part.blocks) (side : Side)
    (hports : c.term.portsAt side ≠ []) :
    ∃ jump, target? part.family c.term.action = some jump
      ∧ (∀ parent, ∃ ls, c.lines parent = .ok ls ∧ ∀ clauses,
        .append c.name clauses (some jump) ∈ ls →
          .append c.name clauses (some jump) ∈ c.rules
            ∨ c.term.action = .next ∧ ∃ side p, clauses = Chain.addressClauses side p)
      ∧ ((∀ clauses, .append c.name clauses (some jump) ∈ c.rules →
            LimitsPorts side (c.term.portsAt side) clauses) ↔
          c.rules = [] ∨ c.term.protocol ≠ [] ∧ ∀ p ∈ c.term.protocol, p = "tcp" ∨ p = "udp") := by
  obtain ⟨f, _, _, o, hrenders⟩ := exists_renders_of_mem h hpart
  obtain ⟨t, _, _, _, hchain⟩ := hrenders.exists_chain hblock
  have hjump : target? part.family c.term.action = some c.matching.jump := by
    rw [hchain.term_eq]
    exact hchain.accepts.jump
  refine ⟨c.matching.jump, hjump, fun parent => ⟨_, c.lines_eq parent, fun clauses hline => ?_⟩, ?_⟩
  . exact Chain.mem_rules_of_mem_lines hjump hline
  . rw [Chain.rules_limitsPorts_iff hports, Chain.forall_protocols (by simp)]

def oddPorts (protocols : List String) : Policy where
  filters := [{
    comment := []
    targets := [⟨platform, ["INPUT"]⟩]
    terms := [{
      name := "odd-ports"
      protocol := protocols
      destinationPort := (List.range 15).map fun n => .ofNat (2 * n + 1) (2 * n + 1)
      action := .accept }] }]

theorem rules_keep_oddPorts :
    ∃ d part c, (Document.ofPolicy epoch (oddPorts ["tcp", "udp"])).result = .ok d ∧ part ∈ d.parts
      ∧ .chain c ∈ part.blocks ∧ c.term.portsAt .destination ≠ [] ∧ c.rules ≠ []
      ∧ ∀ clauses, .append c.name clauses (some .accept) ∈ c.rules →
          LimitsPorts .destination (c.term.portsAt .destination) clauses := by
  obtain ⟨d, part, c, hd, hpart, hc, h⟩ :=
    Document.exists_chain_of_any epoch (oddPorts ["tcp", "udp"])
    (fun _ c => c.term.action == .accept && c.term.protocol == ["tcp", "udp"]
      && !(c.term.portsAt .destination).isEmpty && !c.rules.isEmpty) (by decide +kernel)
  simp only [Bool.and_eq_true, beq_iff_eq, Bool.not_eq_eq_eq_not, Bool.not_true,
    List.isEmpty_eq_false_iff] at h
  obtain ⟨⟨⟨haction, hprotocol⟩, hports⟩, hrules⟩ := h
  obtain ⟨jump, hjump, _, hkeep⟩ := Document.rules_keep_ports_iff hd hpart hc .destination hports
  rw [haction] at hjump
  cases hjump
  exact ⟨d, part, c, hd, hpart, hc, hports, hrules, hkeep.mpr (.inr (by simp [hprotocol]))⟩

/--
With a third protocol the term is accepted as well, and one of its rules lets packets to any port
pass.
-/
theorem rules_lose_oddPorts :
    ∃ d part c ls, (Document.ofPolicy epoch (oddPorts ["tcp", "udp", "sctp"])).result = .ok d
      ∧ part ∈ d.parts
      ∧ .chain c ∈ part.blocks ∧ c.term.portsAt .destination ≠ [] ∧ c.lines part.chain = .ok ls
      ∧ .append c.name [.protocol "sctp", .state true] (some .accept) ∈ ls
      ∧ ¬LimitsPorts .destination (c.term.portsAt .destination)
        [.protocol "sctp", .state true] := by
  obtain ⟨d, part, c, hd, hpart, hc, h⟩ :=
    Document.exists_chain_of_any epoch (oddPorts ["tcp", "udp", "sctp"])
    (fun part c => !(c.term.portsAt .destination).isEmpty
      && (c.lineList part.chain).contains
        (.append c.name [.protocol "sctp", .state true] (some .accept)))
    (by decide +kernel)
  simp only [Bool.and_eq_true, Bool.not_eq_eq_eq_not, Bool.not_true, List.isEmpty_eq_false_iff,
    List.contains_iff_mem] at h
  exact ⟨d, part, c, _, hd, hpart, hc, h.1, c.lines_eq part.chain, h.2,
    by simp [LimitsPorts, Clause.limitsPorts]⟩

end Iptables
end PacketPolicy

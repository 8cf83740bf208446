import PacketPolicy.Proofs.Iptables.Rules

/-!
This module contains the clauses and jumps that a line of a chain can have, with where each of them
comes from.
-/

namespace PacketPolicy

namespace Iptables
namespace Chain

def Uses (c : Chain) : Clause → Prop
  | .protocol name => name = "icmp" ∨ name = "ipv6-icmp" ∨ name ≠ "" ∧ name ∈ c.term.protocol
  | .tcpFlags mask set => mask ≠ [] ∧ set ≠ []
  | .ports _ ranges => ranges ≠ []
  | .state _ => c.stateful = true
  | .inInterface name => name ≠ "" ∧ name = c.term.sourceInterface
  | .outInterface name => name ≠ "" ∧ name = c.term.destinationInterface
  | .address _ _ => False
  | .comment _ => False
  | _ => True

variable {c : Chain}

theorem uses_of_mem_protocolClauses (hp : p ∈ c.protocols) (h : clause ∈ c.protocolClauses p) :
    c.Uses clause := by
  unfold protocolClauses at h
  split at h
  . simp at h
  . split at h
    . rw [List.mem_singleton.mp h]
      trivial
    . split at h
      . rw [List.mem_singleton.mp h]
        trivial
      . split at h
        . simp at h
        . next hnone =>
          simp only [Bool.or_eq_true, beq_iff_eq, not_or] at hnone
          rw [List.mem_singleton.mp h]
          refine .inr (.inr ⟨hnone.1, ?_⟩)
          unfold protocols at hp
          split at hp
          . exact absurd (List.mem_singleton.mp hp) hnone.1
          . exact hp

theorem uses_of_mem_flagVariants (hflags : flags ∈ c.flagVariants p) (h : clause ∈ flags) :
    c.Uses clause := by
  have hbase : ∀ clause
    ∈ (if c.matching.flags.isEmpty then [] else [Clause.tcpFlags c.matching.flags c.matching.flags])
      ++ (if c.term.hasOption "initial" then [.syn] else []), c.Uses clause := by
    rw [List.forall_mem_append]
    constructor
    . split
      . simp
      . next hne =>
        rw [List.forall_mem_singleton]
        rw [List.isEmpty_iff] at hne
        exact ⟨hne, hne⟩
    . split
      . rw [List.forall_mem_singleton]
        trivial
      . simp
  unfold flagVariants at hflags
  split at hflags
  . rw [List.mem_singleton.mp hflags] at h
    simp at h
  . dsimp only at hflags
    split at hflags
    . obtain ⟨e, he, rfl⟩ := List.mem_map.mp hflags
      cases List.mem_append.mp h with
      | inl h => exact hbase clause h
      | inr h =>
        rw [List.mem_singleton.mp h]
        simp only [establishedFlags, List.mem_cons, List.not_mem_nil, or_false] at he
        cases he <;> subst e <;> simp [Uses]
    . rw [List.mem_singleton.mp hflags] at h
      exact hbase clause h

theorem mem_sidePorts_of_mem_portLists (hports : ports ∈ portLists side rs) (h : clause ∈ ports) :
    clause ∈ sidePorts side rs := by
  unfold portLists at hports
  split at hports
  . rw [List.mem_singleton.mp hports] at h
    simp at h
  . obtain ⟨port, hport, rfl⟩ := List.mem_map.mp hports
    rw [List.mem_singleton.mp h]
    exact hport

def portsAt (c : Chain) : Side → List PortRange
  | .source => c.term.sourcePort
  | .destination => c.destinationPorts

theorem exists_mem_sidePorts_of_mem_portClauseLists (hports : ports ∈ c.portClauseLists p)
    (h : clause ∈ ports) :
    ∃ side, clause ∈ sidePorts side (c.portsAt side) := by
  unfold portClauseLists at hports
  split at hports
  . obtain ⟨s, hs, hports⟩ := List.mem_flatMap.mp hports
    obtain ⟨d, hd, rfl⟩ := List.mem_map.mp hports
    have hmem : clause ∈ s ∨ clause ∈ d := by
      split at h
      . exact (List.mem_append.mp h).symm
      . exact List.mem_append.mp h
    cases hmem with
    | inl hmem => exact ⟨.source, mem_sidePorts_of_mem_portLists hs hmem⟩
    | inr hmem => exact ⟨.destination, mem_sidePorts_of_mem_portLists hd hmem⟩
  . rw [List.mem_singleton.mp hports] at h
    simp at h

theorem uses_of_mem_portClauseLists (hports : ports ∈ c.portClauseLists p) (h : clause ∈ ports) :
    c.Uses clause := by
  obtain ⟨side, hmem⟩ := exists_mem_sidePorts_of_mem_portClauseLists hports h
  unfold sidePorts at hmem
  split at hmem
  . rw [List.mem_singleton.mp hmem]
    trivial
  . obtain ⟨group, hgroup, rfl⟩ := List.mem_map.mp hmem
    exact ((PortRange.mem_groups (by decide)).mp hgroup).1

theorem uses_of_mem_icmpClauses (hicmp : icmp ∈ c.icmpClauses p) (h : clause ∈ icmp) :
    c.Uses clause := by
  unfold icmpClauses at hicmp
  grind [Uses]

theorem uses_of_mem_optionClauses (h : clause ∈ c.optionClauses) : c.Uses clause := by
  simp only [optionClauses, List.mem_append, Option.mem_toList, Option.map_eq_some_iff] at h
  obtain ((h | ⟨range, _, rfl⟩) | ⟨range, _, rfl⟩) | h := h
  . grind [Uses]
  . trivial
  . trivial
  . grind [Uses]

theorem uses_of_mem_interfaceClauses (h : clause ∈ c.interfaceClauses) : c.Uses clause := by
  unfold interfaceClauses at h
  grind [Uses]

theorem uses_of_mem_shapes (hshape : shape ∈ c.shapeList)
    (h : clause ∈ shape.before ∨ clause ∈ shape.after) :
    c.Uses clause := by
  obtain ⟨p, hp, flags, hflags, ports, hports, icmp, hicmp, rfl⟩ := mem_shapes.mp hshape
  simp only [List.mem_append] at h
  obtain ((h | h) | h) | (h | h) | h := h
  . exact uses_of_mem_protocolClauses hp h
  . exact uses_of_mem_flagVariants hflags h
  . exact uses_of_mem_portClauseLists hports h
  . exact uses_of_mem_icmpClauses hicmp h
  . exact uses_of_mem_optionClauses h
  . exact uses_of_mem_interfaceClauses h

theorem mem_addressClauses {p : Prefix} (h : clause ∈ addressClauses side p) :
    clause = .address side p := by
  unfold addressClauses at h
  split at h
  . simp at h
  . exact List.mem_singleton.mp h

theorem clause_of_mem_lines (hline : .append chain clauses jump ∈ c.lineList parent)
    (h : clause ∈ clauses) :
    c.Uses clause ∨ (∃ side, ∃ p ∈ c.plan.prefixes side, clause = .address side p)
      ∨ ∃ text ∈ Comment.lines c.term.comment c.term.owner, clause = .comment text := by
  cases hplan : c.plan with
  | empty side => simp [lineList, hplan] at hline
  | rules s d =>
    obtain hline | hline | ⟨text, htext, hline⟩ | ⟨p, hp, hline⟩ | ⟨p, hp, hline⟩ | hline :=
      (mem_lines hplan).mp hline
    . cases hline
    . cases hline
      simp at h
    . cases hline
      exact .inr (.inr ⟨text, htext, List.mem_singleton.mp h⟩)
    . cases hline
      exact .inr (.inl ⟨.source, p, List.mem_append_right _ hp, mem_addressClauses h⟩)
    . cases hline
      exact .inr (.inl ⟨.destination, p, List.mem_append_right _ hp, mem_addressClauses h⟩)
    . obtain ⟨s', d', hplan', shape, hshape, p, hp, q, hq, hrule⟩ := mem_rules.mp hline
      cases hplan.symm.trans hplan'
      have hclauses : clauses = shape.clauses p q := by
        obtain hrule | ⟨_, hrule⟩ := mem_rulesFor.mp hrule <;> cases hrule <;> rfl
      rw [hclauses, Shape.clauses] at h
      simp only [List.mem_append] at h
      obtain ((h | h) | h) | h := h
      . exact .inl (uses_of_mem_shapes hshape (.inl h))
      . exact .inr (.inl ⟨.source, p, List.mem_append_left _ hp, mem_addressClauses h⟩)
      . exact .inr (.inl ⟨.destination, q, List.mem_append_left _ hq, mem_addressClauses h⟩)
      . exact .inl (uses_of_mem_shapes hshape (.inr h))

theorem shape_of_mem_lines (h : line ∈ c.lineList parent) :
    line = .declare c.name
      ∨ ∃ chain clauses jump, line = .append chain clauses jump ∧ (clauses ≠ [] ∨ jump ≠ none) := by
  obtain h | h | ⟨text, h⟩ | ⟨side, p, _, h⟩ | h := mem_lines_cases h
  . exact .inl h
  . exact .inr ⟨_, _, _, h, .inr (by simp)⟩
  . exact .inr ⟨_, _, _, h, .inl (by simp)⟩
  . exact .inr ⟨_, _, _, h, .inr (by simp)⟩
  . obtain ⟨_, _, _, shape, _, p, _, q, _, hrule⟩ := mem_rules.mp h
    obtain h | ⟨_, h⟩ := mem_rulesFor.mp hrule
    . exact .inr ⟨_, _, _, h, .inr (by simp)⟩
    . exact .inr ⟨_, _, _, h, .inr (by simp)⟩

theorem jump_of_mem_lines (h : .append chain clauses jump ∈ c.lineList parent) :
    chain = parent ∧ jump = some (.chain c.name)
      ∨ chain = c.name ∧ jump
        ∈ [none, some .leave, some (.log c.tagged.name), some c.matching.jump] := by
  obtain h | h | ⟨text, h⟩ | ⟨side, p, _, h⟩ | h := mem_lines_cases h
  . cases h
  . cases h
    exact .inl ⟨rfl, rfl⟩
  . cases h
    exact .inr ⟨rfl, by simp⟩
  . cases h
    exact .inr ⟨rfl, by simp⟩
  . obtain ⟨_, _, _, shape, _, p, _, q, _, hrule⟩ := mem_rules.mp h
    obtain hrule | ⟨_, hrule⟩ := mem_rulesFor.mp hrule
    . cases hrule
      exact .inr ⟨rfl, by simp⟩
    . cases hrule
      exact .inr ⟨rfl, by simp⟩

end Chain
end Iptables
end PacketPolicy

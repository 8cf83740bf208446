import PacketPolicy.Proofs.Iptables.Flags

namespace PacketPolicy

namespace Iptables

def Line.clauseList : Line → List Clause
  | .append _ clauses _ => clauses
  | _ => []

namespace Chain

variable {c : Chain} {packet : Packet f}

theorem addressClauses_of_mem_returns (h : p ∈ c.plan.returns side) :
    addressClauses side p = [.address side p] := by
  have hlength : p.isAll = false := by
    simpa [Prefix.isAll] using Plan.length_ne_zero_of_mem_returns h
  simp [addressClauses, hlength]

theorem exists_clauses_of_mem_rules (h : line ∈ c.rules) :
    ∃ p ∈ c.protocols, ∃ flags ∈ c.flagVariants p, ∃ ports ∈ c.portClauseLists p,
      ∃ icmp ∈ c.icmpClauses p,
      ∃ source destination, line.clauseList = Shape.clauses
        ⟨c.protocolClauses p ++ flags ++ ports, icmp ++ c.optionClauses ++ c.interfaceClauses⟩
          source destination := by
  obtain ⟨_, _, _, shape, _, source, _, destination, _, hline⟩ := mem_rules.mp h
  have hform : ∃ jump, line = .append c.name (shape.clauses source destination) jump := by
    obtain hline | ⟨_, hline⟩ := mem_rulesFor.mp hline
    . exact ⟨_, hline⟩
    . exact ⟨_, hline⟩
  obtain ⟨jump, rfl⟩ := hform
  exact clauses_of_mem_rules h

theorem continues_of_passes (hestablished : c.matching.established = true)
    (hstateless : c.stateful = false) (hline : line ∈ c.rules)
    (htcp : .protocol "tcp" ∈ line.clauseList) (hpasses : Passes packet line.clauseList) :
    packet.Continues := by
  obtain ⟨p, _, flags, hflags, ports, hports, icmp, hicmp, source, destination, hclauses⟩ :=
    exists_clauses_of_mem_rules hline
  rw [hclauses] at htcp hpasses
  have hprotocol := protocol_of_mem_clauses hflags hports hicmp htcp
  obtain rfl : p = "tcp" := by simpa [eq_comm] using hprotocol
  have hvariant : Passes packet flags := by
    intro clause hclause
    apply hpasses
    simp [Shape.clauses, hclause]
  exact (exists_flagVariants.mp ⟨flags, hflags, hvariant⟩ rfl).2.2 hestablished hstateless

theorem protocol_mem_of_mem_rules (hprotocols : ∀ p ∈ c.protocols, p = "tcp" ∨ p = "udp")
    (hline : line ∈ c.rules) :
    .protocol "tcp" ∈ line.clauseList ∨ .protocol "udp" ∈ line.clauseList := by
  obtain ⟨p, hp, flags, _, ports, _, icmp, _, source, destination, hclauses⟩ :=
    exists_clauses_of_mem_rules hline
  rw [hclauses]
  obtain rfl | rfl := hprotocols p hp
  . exact .inl (by simp [Shape.clauses, protocolClauses_eq])
  . exact .inr (by simp [Shape.clauses, protocolClauses_eq])

theorem state_not_mem_of_mem_lines (hstateless : c.stateful = false)
    (hline : line ∈ c.lineList parent) (new : Bool) :
    .state new ∉ line.clauseList := by
  intro h
  cases line with
  | append chain clauses jump =>
    obtain huses | ⟨_, _, _, h⟩ | ⟨_, _, h⟩ := clause_of_mem_lines hline h
    . have hstateful : c.stateful = true := huses
      simp [hstateless] at hstateful
    . cases h
    . cases h
  | _ => simp [Line.clauseList] at h

end Chain

/--
Without connection tracking, no line for TCP of a term for established connections lets a packet
pass that opens a connection. The rules of the term are for TCP or UDP, and no line asks for the
state of a connection. Besides the rules, only the early returns of a term that goes on with the
next one have its action.
-/
theorem Block.established_never_opens {t : Term} (hverbatim : t.isVerbatim = false)
    (hestablished : t.hasOption "established" = true ∨ t.hasOption "tcp-established" = true)
    (h : Block.ofTerm filter f false shortening t = .ok b) (parent : String) :
    ∃ c ls jump, b = .chain c ∧ b.lines parent = .ok ls ∧ target? f t.action = some jump
      ∧ (∀ line ∈ ls, .protocol "tcp" ∈ line.clauseList →
        ∀ packet : Packet f, packet.flag .syn = true →
          packet.flag .ack = false → packet.flag .rst = false → ¬Passes packet line.clauseList)
      ∧ (∀ line ∈ c.rules, .protocol "tcp" ∈ line.clauseList ∨ .protocol "udp" ∈ line.clauseList)
      ∧ (∀ chain clauses, .append chain clauses (some jump) ∈ ls →
          .append chain clauses (some jump) ∈ c.rules
            ∨ t.action = .next ∧ ∃ side, ∃ p ∈ c.plan.returns side, clauses = [.address side p])
      ∧ ∀ line ∈ ls, ∀ new, .state new ∉ line.clauseList := by
  obtain ⟨c, rfl, hc⟩ := exists_renders_of_ofTerm hverbatim h
  have hestablished' : Matching.isEstablished t = true := by
    simpa [Matching.isEstablished] using hestablished
  obtain ⟨hne, honly, _⟩ := hc.accepts.stateless hestablished' rfl
  rw [onlyTcpUdp_eq_true] at honly
  have hprotocols : ∀ p ∈ c.protocols, p = "tcp" ∨ p = "udp" := by
    rw [Chain.forall_protocols (by simp), hc.term_eq]
    exact ⟨hne, honly⟩
  refine ⟨c, _, c.matching.jump, rfl, c.lines_eq parent, hc.accepts.jump, ?_, ?_, ?_, ?_⟩
  . intro line hline htcp packet _ hack hrst hpasses
    obtain rfl | rfl | ⟨text, rfl⟩ | ⟨side, p, _, rfl⟩ | hrule := Chain.mem_lines_cases hline
    . simp [Line.clauseList] at htcp
    . simp [Line.clauseList] at htcp
    . simp [Line.clauseList, Chain.commentLine] at htcp
    . cases Chain.mem_addressClauses htcp
    . have hmatching : c.matching.established = true := by
        rw [hc.accepts.established, hestablished']
      have hcontinues := Chain.continues_of_passes hmatching hc.stateful_eq hrule htcp hpasses
      simp [Packet.Continues, hack, hrst] at hcontinues
  . intro line hline
    exact Chain.protocol_mem_of_mem_rules hprotocols hline
  . rw [← hc.term_eq]
    intro chain clauses hline
    obtain hrule | ⟨hnext, side, p, hp, hclauses⟩ :=
      Chain.rule_or_return_of_mem_lines (hc.term_eq ▸ hc.accepts.jump) hline
    . exact .inl hrule
    . exact .inr ⟨hnext, side, p, hp, hclauses.trans (Chain.addressClauses_of_mem_returns hp)⟩
  . intro line hline
    exact Chain.state_not_mem_of_mem_lines hc.stateful_eq hline

theorem proxyReplies_never_open :
    ∃ ls, Block.ofTerm "edge" .v4 false {} proxyReplies = .ok (.chain proxyChain)
      ∧ (Block.chain proxyChain).lines "INPUT" = .ok ls
      ∧ ∃ line ∈ ls, .protocol "tcp" ∈ line.clauseList
          ∧ ∀ packet : Packet .v4, packet.flag .syn = true → packet.flag .ack = false →
            packet.flag .rst = false →
              ¬Passes packet line.clauseList := by
  obtain ⟨_, ls, _, _, hls, _, hopens, _⟩ :=
    Block.established_never_opens rfl (.inr (by decide)) ofTerm_proxyReplies "INPUT"
  obtain ⟨ls', hls', hline⟩ := exists_ok_of_any (x := (Block.chain proxyChain).lines "INPUT")
    (p := fun ls => ls.any fun line => line.clauseList.contains (.protocol "tcp"))
    (by decide +kernel)
  obtain rfl : ls' = ls := Except.ok.inj (hls'.symm.trans hls)
  obtain ⟨line, hline, htcp⟩ := List.any_eq_true.mp hline
  rw [List.contains_iff_mem] at htcp
  exact ⟨ls', ofTerm_proxyReplies, hls, line, hline, htcp, hopens line hline htcp⟩

end Iptables
end PacketPolicy

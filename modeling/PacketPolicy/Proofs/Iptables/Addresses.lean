import PacketPolicy.Proofs.Address.Written
import PacketPolicy.Proofs.Iptables.Lines

namespace PacketPolicy

namespace Iptables

/--
The address of a rule is a prefix of the plan at its side. It is read back unless it stands for a
prefix of IPv4: then it is written as that one, which a filter for IPv6 cannot match.
-/
theorem address_read_back_iff (hverbatim : t.isVerbatim = false)
    (hblock : Block.ofTerm filter f stateful shortening t = .ok b)
    (hlines : b.lines parent = .ok ls) (hline : .append chain clauses jump ∈ ls)
    (hclause : .address side p ∈ clauses) :
    p ∈ (Plan.ofRequest f t.request).prefixes side ∧ p.family = f
      ∧ Prefix.read p.text = .ok p.written
      ∧ (Prefix.read p.text = .ok p ↔ p.isMapped = false) := by
  obtain ⟨c, rfl, hrenders⟩ := Block.exists_renders_of_ofTerm hverbatim hblock
  obtain rfl := Except.ok.inj ((Block.lines_eq _ parent).symm.trans hlines)
  have hp : p ∈ (Plan.ofRequest f t.request).prefixes side := by
    rw [← hrenders.family_eq, ← hrenders.term_eq]
    obtain h | ⟨_, _, hp, h⟩ | ⟨_, _, h⟩ := Chain.clause_of_mem_lines hline hclause
    . exact h.elim
    . cases h
      exact hp
    . cases h
  obtain ⟨hfamily, hclear⟩ := Plan.masked_of_mem_prefixes hp
  refine ⟨hp, hfamily, Prefix.read_text hclear, ?_⟩
  rw [Prefix.read_text hclear, Except.ok.injEq]
  exact Prefix.written_eq_self_iff

def halfRule (p : Prefix) : Line :=
  .append "I_half" [.address .source p, .state true] (some .accept)

theorem exists_halfRule (taken excluded : Prefix)
    (h : (Block.ofTerm "INPUT" .v6 true {} (halfTerm excluded)).toOption.any (fun b =>
      decide (halfRule taken ∈ b.lineList "INPUT")) = true) :
    ∃ b ls, Block.ofTerm "INPUT" .v6 true {} (halfTerm excluded) = .ok b ∧ b.lines "INPUT" = .ok ls
      ∧ halfRule taken ∈ ls := by
  obtain ⟨b, hb, hline⟩ := exists_ok_of_any h
  exact ⟨b, _, hb, b.lines_eq "INPUT", of_decide_eq_true hline⟩

theorem address_read_back_lowerHalf :
    ∃ b ls, Block.ofTerm "INPUT" .v6 true {} (halfTerm upperHalf) = .ok b ∧ b.lines "INPUT" = .ok ls
      ∧ halfRule lowerHalf ∈ ls ∧ lowerHalf.text = "::fffe:0:0/96"
      ∧ Prefix.read "::fffe:0:0/96" = .ok lowerHalf := by
  obtain ⟨b, ls, hb, hlines, hline⟩ := exists_halfRule lowerHalf upperHalf (by decide +kernel)
  have htext : lowerHalf.text = "::fffe:0:0/96" := by decide +kernel
  have hread := (address_read_back_iff rfl hb hlines hline List.mem_cons_self).2.2.2.mpr (by decide)
  exact ⟨b, ls, hb, hlines, hline, htext, htext ▸ hread⟩

/--
The upper half is written as the prefix of all addresses of IPv4.
-/
theorem address_lost_upperHalf :
    ∃ b ls, Block.ofTerm "INPUT" .v6 true {} (halfTerm lowerHalf) = .ok b ∧ b.lines "INPUT" = .ok ls
      ∧ halfRule upperHalf ∈ ls ∧ upperHalf.text = "0.0.0.0/0"
      ∧ Prefix.read "0.0.0.0/0" = .ok (Prefix.all .v4) := by
  obtain ⟨b, ls, hb, hlines, hline⟩ := exists_halfRule upperHalf lowerHalf (by decide +kernel)
  have htext : upperHalf.text = "0.0.0.0/0" := by decide +kernel
  have hread := Prefix.read_text (by decide +kernel : upperHalf.masked = upperHalf)
  exact ⟨b, ls, hb, hlines, hline, htext, htext ▸ hread⟩

end Iptables
end PacketPolicy

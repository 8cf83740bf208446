import PacketPolicy.Iptables.Block
import PacketPolicy.Proofs.Basic

namespace PacketPolicy
namespace Iptables

namespace Matching

variable {t : Term}

theorem checkProtocols_eq_ok : checkProtocols t = .ok () ↔ t.protocolExcept = [] := by
  unfold checkProtocols
  split
  . next h => simpa using h
  . next h => split <;> simpa using h

theorem checkKeywords_eq_ok :
    checkKeywords t = .ok () ↔ ∀ k ∈ t.optionalKeywords, k ∈ supportedKeywords := by
  have hfind : t.unsupportedKeyword? supportedKeywords = none ↔
      ∀ k ∈ t.optionalKeywords, k ∈ supportedKeywords := by
    simp [Term.unsupportedKeyword?]
  unfold checkKeywords
  split
  . next h => simp [← hfind, h]
  . next h => simp [← hfind, h]

theorem jumpOf_eq_ok : jumpOf f t = .ok j ↔ target? f t.action = some j := by
  unfold jumpOf
  split
  . next h => simp [h]
  . next h => simp [h]

theorem checkOptions_eq_ok :
    checkOptions t = .ok () ↔ ∀ o ∈ t.option, (TcpFlag.ofOption? o).isSome ∨ o ∈ otherOptions := by
  have hknown : ∀ o, ((TcpFlag.ofOption? o).isNone && !otherOptions.contains o) = false
      ↔ (TcpFlag.ofOption? o).isSome ∨ o ∈ otherOptions := by
    intro o
    cases TcpFlag.ofOption? o <;> simp
  unfold checkOptions
  split
  . next o h =>
    simp only [reduceCtorEq, false_iff]
    intro hall
    have hunknown := List.find?_some h
    rw [(hknown o).mpr (hall o (List.mem_of_find?_eq_some h))] at hunknown
    contradiction
  . next h =>
    simp only [true_iff]
    intro o ho
    rw [← hknown, ← Bool.not_eq_true]
    exact List.find?_eq_none.mp h o ho

theorem readRange_eq_ok :
    readRange t feature value = .ok r ↔
      (value = "" ∧ r = none)
        ∨ (value ≠ "" ∧ ∃ range, PortRange.read value = .ok range ∧ r = some range) := by
  unfold readRange
  split
  . next h =>
    have : value = "" := by simpa using h
    cases r <;> simp [this]
  . next h =>
    have : value ≠ "" := by simpa using h
    split
    . next hread => cases r <;> simp [this, hread, eq_comm]
    . next hread => simp [this, hread]

theorem checkStateless_eq_ok :
    checkStateless t fs = .ok () ↔ t.protocol ≠ [] ∧ onlyTcpUdp t.protocol = true ∧ fs = [] := by
  unfold checkStateless
  split
  . next h =>
    simp only [reduceCtorEq, false_iff]
    rintro ⟨hprotocol, honly, _⟩
    simp [hprotocol, honly] at h
  . next h => split <;> simp_all

/--
The options `m` of an accepted term: every check has passed and every part of `m` is the one that
the term asks for.
-/
structure Accepts (f : Family) (stateful : Bool) (t : Term) (m : Matching) : Prop where
  protocolExcept : t.protocolExcept = []
  keywords : ∀ k ∈ t.optionalKeywords, k ∈ supportedKeywords
  jump : target? f t.action = some m.jump
  options : ∀ o ∈ t.option, (TcpFlag.ofOption? o).isSome ∨ o ∈ otherOptions
  flags : m.flags = flagsOf t
  established : m.established = isEstablished t
  length : readRange t "packet-length" t.packetLength = .ok m.length
  fragmentOffset : readRange t "fragment-offset" t.fragmentOffset = .ok m.fragmentOffset
  stateless : isEstablished t = true → stateful = false →
    t.protocol ≠ [] ∧ onlyTcpUdp t.protocol = true ∧ flagsOf t = []

theorem ofTerm_eq_ok (hverbatim : t.isVerbatim = false) :
    ofTerm f stateful t = .ok m ↔ Accepts f stateful t m := by
  unfold ofTerm
  simp only [hverbatim, Bool.false_eq_true, ↓reduceIte, bind_eq_ok]
  constructor
  . rintro ⟨_, hprotocols, _, hkeywords, j, hjump, _, hoptions, l, hlength, o, hoffset, h⟩
    have hlast : (isEstablished t = true → stateful = false →
        t.protocol ≠ [] ∧ onlyTcpUdp t.protocol = true ∧ flagsOf t = []) ∧
        ⟨j, flagsOf t, isEstablished t, l, o⟩ = m := by
      split at h
      . obtain ⟨_, hstateless, hm⟩ := bind_eq_ok.mp h
        exact ⟨fun _ _ => checkStateless_eq_ok.mp hstateless, pure_eq_ok.mp hm⟩
      . next hguard => exact ⟨fun he hs => absurd (by simp [he, hs]) hguard, pure_eq_ok.mp h⟩
    obtain ⟨hstateless, rfl⟩ := hlast
    exact ⟨checkProtocols_eq_ok.mp hprotocols, checkKeywords_eq_ok.mp hkeywords,
      jumpOf_eq_ok.mp hjump, checkOptions_eq_ok.mp hoptions, rfl, rfl, hlength, hoffset, hstateless⟩
  . intro h
    refine ⟨(), checkProtocols_eq_ok.mpr h.protocolExcept, (), checkKeywords_eq_ok.mpr h.keywords,
      m.jump, jumpOf_eq_ok.mpr h.jump, (), checkOptions_eq_ok.mpr h.options, m.length, h.length,
      m.fragmentOffset, h.fragmentOffset, ?_⟩
    rw [← h.flags, ← h.established]
    split
    . next hguard =>
      have hstateless := h.stateless (by simp_all [h.established]) (by simp_all)
      refine bind_eq_ok.mpr ⟨(), checkStateless_eq_ok.mpr ?_, rfl⟩
      rw [h.flags]
      exact hstateless
    . rfl

end Matching

structure Chain.Renders (c : Chain) (filter : String) (f : Family) (stateful : Bool)
    (shortening : TermName.Shortening) (t : Term) : Prop where
  term_eq : c.term = t
  family_eq : c.family = f
  stateful_eq : c.stateful = stateful
  accepts : Matching.Accepts f stateful t c.matching
  codes : Icmp.codes f t.icmpType t.protocol = .ok c.codes
  name : TermName.fit maxNameBytes shortening t.name = .ok c.tagged.name
  tagged : c.tagged = TaggedName.ofFilter filter c.tagged.name

theorem Block.finish_eq_ok (hverbatim : t.isVerbatim = false) :
    finish filter f stateful shortening t m = .ok b ↔
      ∃ codes name, Icmp.codes f t.icmpType t.protocol = .ok codes
      ∧ TermName.fit maxNameBytes shortening t.name = .ok name
      ∧ .chain ⟨t, f, stateful, m, codes, TaggedName.ofFilter filter name⟩ = b := by
  unfold finish
  simp only [hverbatim, Bool.false_eq_true, ↓reduceIte]
  split
  . next h => simp [h]
  . next codes h =>
    split
    . next h' => simp [h, h']
    . next name h' => simp [h, h']

theorem Block.exists_renders_of_ofTerm (hverbatim : t.isVerbatim = false)
    (h : ofTerm filter f stateful shortening t = .ok b) :
    ∃ c, b = .chain c ∧ c.Renders filter f stateful shortening t := by
  obtain ⟨m, hm, hb⟩ := bind_eq_ok.mp h
  obtain ⟨codes, name, hcodes, hname, rfl⟩ := (finish_eq_ok hverbatim).mp hb
  exact ⟨_, rfl, rfl, rfl, rfl, (Matching.ofTerm_eq_ok hverbatim).mp hm, hcodes, hname, rfl⟩

end Iptables
end PacketPolicy

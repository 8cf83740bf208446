import PacketPolicy.Ipsec.Block
import PacketPolicy.Proofs.Basic

namespace PacketPolicy
namespace Ipsec

structure Accepts (t : Term) (a : FilterAction) : Prop where
  protocolExcept : t.protocolExcept = []
  keywords : checkKeywords t = .ok ()
  action : filterAction? t.action = some a
  option : t.option = []
  portProtocols : checkPortProtocols t = .ok ()
  singlePorts : checkSinglePorts t = .ok ()

theorem checkAction_eq_ok : checkAction t = .ok a ↔ filterAction? t.action = some a := by
  unfold checkAction
  split
  . next h => simp [h]
  . next h => simp [h]

theorem accepts_of_check {t : Term} (hverbatim : t.isVerbatim = false) (h : check t = .ok a) :
    Accepts t a := by
  unfold check at h
  simp only [hverbatim, Bool.false_eq_true, ↓reduceIte] at h
  split at h
  . exact absurd h throw_bind_ne_ok
  . next hexcept =>
    obtain ⟨_, hkeywords, h⟩ := bind_eq_ok.mp h
    obtain ⟨action, haction, h⟩ := bind_eq_ok.mp h
    split at h
    . exact absurd h throw_bind_ne_ok
    . next hoption =>
      obtain ⟨_, hprotocols, h⟩ := bind_eq_ok.mp h
      obtain ⟨_, hsingle, h⟩ := bind_eq_ok.mp h
      obtain rfl := pure_eq_ok.mp h
      exact ⟨by simpa using hexcept, hkeywords, checkAction_eq_ok.mp haction,
        by simpa using hoption, hprotocols, hsingle⟩

structure Block.Renders (b : Block) (filter : String) (f : Family)
    (shortening : TermName.Shortening) (t : Term) :
    Prop where
  term_eq : b.term = t
  family_eq : b.family = f
  check : check t = .ok b.action
  name : TermName.fit maxNameBytes shortening t.name = .ok b.tagged.name
  tagged : b.tagged = TaggedName.ofFilter filter b.tagged.name

theorem Block.renders_of_finish {t : Term} (hcheck : Ipsec.check t = .ok a)
    (h : finish filter f shortening t a = .ok b) : b.Renders filter f shortening t := by
  unfold finish at h
  split at h
  . cases h
  . next hname =>
    cases h
    exact ⟨rfl, rfl, hcheck, hname, rfl⟩

theorem Block.renders_of_ofTerm {t : Term} (h : ofTerm filter f shortening t = .ok b) :
    b.Renders filter f shortening t := by
  obtain ⟨a, hcheck, hfinish⟩ := bind_eq_ok.mp h
  exact renders_of_finish hcheck hfinish

end Ipsec
end PacketPolicy

import PacketPolicy.Proofs.Iptables.Acceptance
import PacketPolicy.Proofs.Iptables.ChainNames
import PacketPolicy.Proofs.Render.Abbreviation

namespace PacketPolicy

theorem TaggedName.length_bytes (n : TaggedName) : n.bytes.length = n.byteSize := by
  rw [bytes, List.length_cons, List.length_cons, Text.length_bytesOfText, byteSize]
  omega

namespace Iptables

open TermName (Fitted Occurs Shortening abbreviate abbreviations fit)

theorem length_bytes_of_finish
    (h : Block.finish filter f stateful shortening t m = .ok (.chain c)) :
    c.tagged.bytes.length ≤ 26 := by
  have hverbatim : t.isVerbatim = false := by
    cases hverbatim : t.isVerbatim with
    | true => simp [Block.finish, hverbatim] at h
    | false => rfl
  obtain ⟨codes, name, _, hname, hc⟩ := (Block.finish_eq_ok hverbatim).mp h
  cases hc
  have hsize : name.utf8ByteSize ≤ maxNameBytes := TermName.utf8ByteSize_le_of_fit hname
  rw [TaggedName.length_bytes]
  show 2 + name.utf8ByteSize ≤ 2 + maxNameBytes
  omega

/--
A name is kept if it fits, else abbreviated if that is allowed and enough, else cut behind the last
character that fits if that is allowed, and else refused. Abbreviations never make a name longer,
and they change it exactly if it has one of their words. So the name of a chain takes 26 bytes at
most.
-/
theorem names_fit_or_refused (size : Nat) (allowed : Shortening) (name : String) :
    Fitted size allowed name (fit size allowed name)
      ∧ (∀ shorter, fit size allowed name = .ok shorter → shorter.utf8ByteSize ≤ size)
      ∧ (abbreviate name).utf8ByteSize ≤ name.utf8ByteSize
      ∧ (abbreviate name = name ↔ ∀ e ∈ abbreviations, ¬Occurs e.1.toList name.toList)
      ∧ ∀ filter f stateful t m c, Block.finish filter f stateful allowed t m = .ok (.chain c) →
          c.tagged.bytes.length ≤ 26 := by
  refine ⟨TermName.fitted_fit .., ?_, TermName.utf8ByteSize_abbreviate_le name,
    TermName.abbreviate_eq_self_iff name, ?_⟩
  . intro shorter h
    apply TermName.utf8ByteSize_le_of_fit h
  . intro filter f stateful t m c h
    apply length_bytes_of_finish h

/--
A term whose name has two words to abbreviate, one of them with a long s, and a character of two
bytes where it is cut.
-/
def guestService : Term :=
  { name := "guest-ſervice-internal-von-außen", protocol := ["tcp"], action := .accept }

theorem guestService_fits :
    fit 21 ⟨true, true⟩ guestService.name = .ok "guest-SVC-INT-von-au"
      ∧ Fitted 21 ⟨true, true⟩ guestService.name (.ok "guest-SVC-INT-von-au")
      ∧ "guest-SVC-INT-von-au".utf8ByteSize ≤ 21
      ∧ ∃ c, Block.finish "edge" .v4 true ⟨true, false⟩ guestService {} = .ok (.chain c)
          ∧ c.name = "e_guest-SVC-INT-von-außen" ∧ c.tagged.bytes.length ≤ 26 := by
  have hfit : fit 21 ⟨true, true⟩ guestService.name = .ok "guest-SVC-INT-von-au" := by
    decide +kernel
  have hname : fit maxNameBytes ⟨true, false⟩ guestService.name
      = .ok "guest-SVC-INT-von-außen" := by
    decide +kernel
  have hfinish : Block.finish "edge" .v4 true ⟨true, false⟩ guestService {}
      = .ok (.chain ⟨guestService, .v4, true, {}, [],
        TaggedName.ofFilter "edge" "guest-SVC-INT-von-außen"⟩) :=
    (Block.finish_eq_ok rfl).mpr ⟨[], _, rfl, hname, rfl⟩
  obtain ⟨hfitted, hsize, _⟩ := names_fit_or_refused 21 ⟨true, true⟩ guestService.name
  obtain ⟨_, _, _, _, hchain⟩ := names_fit_or_refused maxNameBytes ⟨true, false⟩ guestService.name
  rw [hfit] at hfitted
  exact ⟨hfit, hfitted, hsize _ hfit, _, hfinish, by decide +kernel, hchain _ _ _ _ _ _ hfinish⟩

end Iptables
end PacketPolicy

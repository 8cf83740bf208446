import PacketPolicy.Proofs.Address.Plan
import PacketPolicy.Proofs.Address.Text
import PacketPolicy.Proofs.Basic
import PacketPolicy.Proofs.Text.Blank

/-!
This module contains the proof that written prefixes are read back. The exception are the prefixes
of IPv6 that stand for IPv4: they are written as prefixes of IPv4 and read as such.
-/

namespace PacketPolicy

namespace Address

theorem forall_mem_joined {P : Char → Prop} (h : ∀ d < 16, P (Nat.digitChar d))
    (hseparator : P separator) (hbase : 1 < base) (hsixteen : base ≤ 16) (ns : List Nat) :
    ∀ c ∈ joined separator base ns, P c := by
  intro c hc
  obtain hc | ⟨cs, hcs, hc⟩ := mem_intercalate hc
  . rwa [List.mem_singleton.mp hc]
  . obtain ⟨n, -, rfl⟩ := List.mem_map.mp hcs
    exact Text.forall_mem_toDigits h hbase hsixteen n c hc

theorem forall_mem_quad {P : Char → Prop} (h : ∀ d < 16, P (Nat.digitChar d)) (hdot : P '.')
    (n : Nat) :
    ∀ c ∈ (quad n).toList, P c := by
  rw [toList_quad]
  exact forall_mem_joined h hdot (by decide) (by decide) _

theorem forall_mem_grouped {P : Char → Prop} (h : ∀ d < 16, P (Nat.digitChar d)) (hcolon : P ':')
    (n : Nat) :
    ∀ c ∈ (grouped n).toList, P c := by
  have hjoined (gs : List Nat) : ∀ c ∈ (joinGroups gs).toList, P c := by
    rw [toList_joinGroups]
    exact forall_mem_joined h hcolon (by decide) (by decide) gs
  simp only [grouped]
  split
  . simp only [String.toList_append, List.forall_mem_append]
    exact ⟨⟨hjoined _, by simpa using hcolon⟩, hjoined _⟩
  . exact hjoined _

theorem colon_mem_grouped (n : Nat) : ':' ∈ (grouped n).toList := by
  simp only [grouped]
  split
  . simp
  . -- There are eight groups, so a colon stands behind the first one.
    obtain ⟨g, g', gs, hgs⟩ : ∃ g g' gs, groups n = g :: g' :: gs := ⟨_, _, _, rfl⟩
    rw [toList_joinGroups, hgs, joined_cons_cons]
    simp

end Address

namespace Prefix

variable {p : Prefix}

def written (p : Prefix) : Prefix :=
  if p.isMapped then .ofNat .v4 (p.address % 2 ^ 32) (p.length - 96) else p

theorem isMapped_eq_true : p.isMapped = true ↔ p.family = .v6 ∧ p.address / 2 ^ 32 = 65535 := by
  simp [isMapped]

/--
The last bit of the block that stands for IPv4 is set, so a prefix without host bits is no shorter
than the block.
-/
theorem le_length_of_isMapped (hmapped : p.isMapped = true) (hclear : p.masked = p) :
    96 ≤ p.length := by
  obtain ⟨hfamily, hblock⟩ := isMapped_eq_true.mp hmapped
  apply Classical.byContradiction
  intro hlt
  have hsize : 2 ^ 33 ∣ p.size := by
    rw [size, hostBits, hfamily]
    exact Nat.pow_dvd_pow 2 (by simp only [Family.width]; omega)
  obtain ⟨k, hk⟩ := Nat.dvd_trans hsize (masked_eq_self_iff.mp hclear)
  omega

theorem written_of_isMapped (hmapped : p.isMapped = true) :
    p.written.family = .v4 ∧ p.written.address = p.address % 2 ^ 32
      ∧ p.written.length = p.length - 96 := by
  have hlength := p.length_le
  rw [(isMapped_eq_true.mp hmapped).1, Family.width] at hlength
  rw [written, if_pos hmapped]
  refine ⟨rfl, Nat.mod_mod _ _, ?_⟩
  simp only [ofNat, Family.width]
  omega

theorem masked_written (hclear : p.masked = p) : p.written.masked = p.written := by
  by_cases hmapped : p.isMapped = true
  . obtain ⟨hfamily, haddress, hlength⟩ := written_of_isMapped hmapped
    have hle := le_length_of_isMapped hmapped hclear
    have hwidth := p.length_le
    rw [(isMapped_eq_true.mp hmapped).1, Family.width] at hwidth
    rw [masked_eq_self_iff, size, hostBits, (isMapped_eq_true.mp hmapped).1, Family.width] at hclear
    rw [masked_eq_self_iff, size, hostBits, hfamily, haddress, hlength, Family.width]
    have hbits : 32 - (p.length - 96) = 128 - p.length := by omega
    have hblock : 2 ^ (128 - p.length) ∣ 2 ^ 32 := Nat.pow_dvd_pow 2 (by omega)
    rw [hbits]
    exact (Nat.dvd_mod_iff hblock).mpr hclear
  . rw [written, if_neg hmapped]
    exact hclear

theorem forall_mem_addressText {P : Char → Prop} (h : ∀ d < 16, P (Nat.digitChar d)) (hdot : P '.')
    (hcolon : P ':') :
    ∀ c ∈ p.addressText.toList, P c := by
  unfold addressText
  split
  . exact Address.forall_mem_quad h hdot _
  . split
    . exact Address.forall_mem_quad h hdot _
    . exact Address.forall_mem_grouped h hcolon _

theorem readAddress_quad (h : n < 2 ^ 32) :
    readAddress (Address.quad n).toList = some (.v4, n) := by
  have hcolon : ':' ∉ (Address.quad n).toList := by
    intro hmem
    exact Address.forall_mem_quad (P := (· ≠ ':')) (by decide) (by decide) n ':' hmem rfl
  simp [readAddress, hcolon, Address.readQuad_quad h]

theorem readAddress_grouped (h : n < 2 ^ 128) :
    readAddress (Address.grouped n).toList = some (.v6, n) := by
  simp [readAddress, Address.colon_mem_grouped, Address.readGrouped_grouped h]

theorem readAddress_addressText (p : Prefix) :
    readAddress p.addressText.toList = some (p.written.family, p.written.address) := by
  have haddress : p.address < 2 ^ p.family.width := p.address_lt
  by_cases hmapped : p.isMapped = true
  . obtain ⟨hfamily, hwritten, _⟩ := written_of_isMapped hmapped
    rw [hfamily, hwritten, addressText, (isMapped_eq_true.mp hmapped).1]
    dsimp only
    rw [if_pos hmapped]
    exact readAddress_quad (Nat.mod_lt _ (by decide))
  . rw [written, if_neg hmapped]
    unfold addressText
    split
    . next hfamily =>
      rw [hfamily] at haddress ⊢
      exact readAddress_quad haddress
    . next hfamily =>
      rw [hfamily] at haddress ⊢
      rw [if_neg hmapped]
      exact readAddress_grouped haddress

theorem toList_text (p : Prefix) :
    p.text.toList = p.addressText.toList ++ '/' :: Nat.toDigits 10 p.written.length := by
  have hlength : (if p.isMapped = true then p.length - 96 else p.length) = p.written.length := by
    by_cases hmapped : p.isMapped = true
    . rw [if_pos hmapped, (written_of_isMapped hmapped).2.2]
    . rw [if_neg hmapped, written, if_neg hmapped]
  unfold text
  rw [hlength]
  simp

theorem forall_mem_text {P : Char → Prop} (h : ∀ d < 16, P (Nat.digitChar d)) (hdot : P '.')
    (hcolon : P ':') (hslash : P '/') :
    ∀ c ∈ p.text.toList, P c := by
  rw [toList_text, List.forall_mem_append, List.forall_mem_cons]
  exact ⟨forall_mem_addressText h hdot hcolon, hslash,
    Text.forall_mem_toDigits h (by decide) (by decide) _⟩

theorem ofNat_self (p : Prefix) : ofNat p.family p.address p.length = p := by
  cases p with
  | mk f a l haddress hlength =>
    rw [ofNat, Prefix.mk.injEq]
    exact ⟨rfl, Nat.mod_eq_of_lt haddress, Nat.min_eq_left hlength⟩

theorem read_text (h : p.masked = p) : read p.text = .ok p.written := by
  have hblank : ∀ c ∈ p.text.toList, Text.isBlank c = false :=
    forall_mem_text (by decide) (by decide) (by decide) (by decide)
  have hslash : ∀ c ∈ p.addressText.toList, (c != '/') = true :=
    forall_mem_addressText (by decide) (by decide) (by decide)
  have htrim : Text.trimChars p.text.toList = p.text.toList :=
    Text.trimChars_eq_self (fun c hc => hblank c (List.mem_of_mem_head? hc))
      (fun c hc => hblank c (List.mem_of_mem_getLast? hc))
  have hlength : Text.readNatural 10 p.written.family.width (Nat.toDigits 10 p.written.length)
      = .ok p.written.length :=
    Text.readNatural_toDigits (by decide) (by decide) p.written.length_le
  have hparts : readParts p.addressText.toList (Nat.toDigits 10 p.written.length)
      = some p.written := by
    simp [readParts, readAddress_addressText, hlength, Except.toOption,
      ofNat_self, masked_written h]
  simp only [read, htrim]
  rw [toList_text, List.takeWhile_append_of_pos hslash, List.dropWhile_append_of_pos hslash]
  simp [hparts]

theorem written_eq_self_iff : p.written = p ↔ p.isMapped = false := by
  unfold written
  split
  . next hmapped =>
    simp only [hmapped, Bool.true_eq_false, iff_false]
    intro heq
    have hfamily := (isMapped_eq_true.mp hmapped).1
    rw [← heq] at hfamily
    simp [ofNat] at hfamily
  . next hmapped => simp [hmapped]

theorem covers_written {a : Address f} (hp : p.family = f) :
    p.written.Covers a ↔ p.isMapped = false ∧ p.Covers a := by
  unfold written
  split
  . next hmapped =>
    have hfamily := (isMapped_eq_true.mp hmapped).1
    simp only [hmapped, Bool.true_eq_false, false_and, iff_false]
    rintro ⟨hv4, _⟩
    have hv6 := hfamily.symm.trans hp
    simp [← hv4, ofNat] at hv6
  . next hmapped => simp [hmapped]

theorem isMapped_of_isAll (h : p.masked = p) (hall : p.isAll = true) : p.isMapped = false := by
  rw [Bool.eq_false_iff]
  intro hmapped
  have hlength : p.length = 0 := by simpa [isAll] using hall
  have := le_length_of_isMapped hmapped h
  omega

theorem masked_all (f : Family) : (all f).masked = all f := by
  cases f <;> rfl

end Prefix

namespace Encoding

theorem masked_of_mem_included (hp : p ∈ included f inclusion) : p.masked = p := by
  cases inclusion with
  | none =>
    rw [List.mem_singleton.mp hp]
    exact Prefix.masked_all f
  | some ps => exact (Prefix.normalForm_collapse _).hostBitsClear p hp

theorem masked_of_mem_candidates (he : e ∈ candidates f inclusion exclusion)
    (hp : p ∈ e.includes ++ e.returns) :
    p.masked = p := by
  rw [List.mem_append] at hp
  obtain rfl | rfl | rfl := mem_candidates_cases he
  . cases hp with
    | inl hp => exact (Prefix.normalForm_subtract _ _).hostBitsClear p hp
    | inr hp => simp [subtracted] at hp
  . cases hp with
    | inl hp => exact masked_of_mem_included hp
    | inr hp => exact (Prefix.normalForm_intersect _ _).hostBitsClear p hp
  . cases hp with
    | inl hp =>
      rw [List.mem_singleton.mp hp]
      exact Prefix.masked_all f
    | inr hp => exact (Prefix.normalForm_complement _ _).hostBitsClear p hp

/--
What is left of an encoding without the prefixes that are written in the other family.
-/
def unmapped (e : Encoding) : Encoding where
  includes := e.includes.filter fun p => !p.isMapped
  returns := e.returns.filter fun p => !p.isMapped

theorem covered_filter_unmapped {ps : List Prefix} {a : Address f}
    (h : ∀ p ∈ ps, p.isMapped = true → ¬p.Covers a) :
    Prefix.Covered (ps.filter fun p => !p.isMapped) a ↔ Prefix.Covered ps a := by
  constructor
  . rintro ⟨p, hp, hcovers⟩
    exact ⟨p, (List.mem_filter.mp hp).1, hcovers⟩
  . rintro ⟨p, hp, hcovers⟩
    refine ⟨p, List.mem_filter.mpr ⟨hp, ?_⟩, hcovers⟩
    cases hmapped : p.isMapped with
    | false => rfl
    | true => exact absurd hcovers (h p hp hmapped)

theorem matches_unmapped {e : Encoding} {a : Address f}
    (h : ∀ p ∈ e.includes ++ e.returns, p.isMapped = true → ¬p.Covers a) :
    e.unmapped.Matches a ↔ e.Matches a := by
  rw [List.forall_mem_append] at h
  exact and_congr (not_congr (covered_filter_unmapped h.2)) (covered_filter_unmapped h.1)

end Encoding

namespace Plan

theorem masked_of_mem_prefixes (hp : p ∈ (ofRequest f r).prefixes side) :
    p.family = f ∧ p.masked = p := by
  obtain ⟨e, he, hmem⟩ := exists_candidate_of_mem_prefixes hp
  refine ⟨?_, Encoding.masked_of_mem_candidates he hmem⟩
  cases List.mem_append.mp hmem with
  | inl hmem => exact (Encoding.family_of_mem_candidates he).1 p hmem
  | inr hmem => exact (Encoding.family_of_mem_candidates he).2 p hmem

def unmapped : Plan → Plan
  | .empty side => .empty side
  | .rules s d => .rules s.unmapped d.unmapped

theorem matches_unmapped {plan : Plan} {a : Address f}
    (h : ∀ p ∈ plan.prefixes side, p.isMapped = true → ¬p.Covers a) :
    plan.unmapped.Matches side a ↔ plan.Matches side a := by
  cases plan with
  | empty _ => rfl
  | rules s d =>
    cases side with
    | source => exact Encoding.matches_unmapped h
    | destination => exact Encoding.matches_unmapped h

end Plan
end PacketPolicy

import PacketPolicy.Proofs.Port.Text
import PacketPolicy.Proofs.Text.Blank

namespace PacketPolicy
namespace PortRange

open Text (Numeral isBlank isDigit_iff_le numeral_toDigits readNatural_eq_ok_iff trimChars
  trimChars_append trimChars_eq_self)

def Spelled (cs : List Char) (r : PortRange) : Prop :=
  (Numeral cs r.low ∧ r.high = r.low)
    ∨ ∃ low high, cs = low ++ '-' :: high ∧ Numeral low r.low ∧ Numeral high r.high

theorem readPort_eq_ok_iff : readPort range port = .ok n ↔ Numeral port n := by
  rw [readPort_eq_ok, readNatural_eq_ok_iff]
  exact and_iff_left (Nat.le_of_lt_succ n.isLt)

theorem dash_not_mem (h : Numeral cs n) : '-' ∉ cs := by
  intro hmem
  have hdigit := h.2.1 _ hmem
  simp at hdigit

theorem splitEnds_of_not_mem (h : '-' ∉ cs) : splitEnds cs = (cs, cs) := by
  simp [splitEnds, h]

theorem splitEnds_append {low : List Char} (h : '-' ∉ low) (high : List Char) :
    splitEnds (low ++ '-' :: high) = (low, high) := by
  have hlow : ∀ c ∈ low, (c != '-') = true := by
    intro c hc
    simpa using ne_of_mem_of_not_mem hc h
  simp [splitEnds, List.takeWhile_append_of_pos hlow, List.dropWhile_append_of_pos hlow]

theorem spelled_iff_splitEnds (cs : List Char) (r : PortRange) :
    Spelled cs r ↔ Numeral (splitEnds cs).1 r.low ∧ Numeral (splitEnds cs).2 r.high := by
  constructor
  . rintro (⟨hport, hsame⟩ | ⟨low, high, rfl, hlow, hhigh⟩)
    . rw [splitEnds_of_not_mem (dash_not_mem hport), hsame]
      exact ⟨hport, hport⟩
    . rw [splitEnds_append (dash_not_mem hlow)]
      exact ⟨hlow, hhigh⟩
  . rintro ⟨hlow, hhigh⟩
    by_cases hdash : '-' ∈ cs
    . obtain ⟨low, high, rfl, hnew⟩ := List.eq_append_cons_of_mem hdash
      rw [splitEnds_append hnew] at hlow hhigh
      exact .inr ⟨low, high, rfl, hlow, hhigh⟩
    . rw [splitEnds_of_not_mem hdash] at hlow hhigh
      exact .inl ⟨hlow, Fin.ext (hhigh.2.2.symm.trans hlow.2.2)⟩

theorem read_eq_ok_iff_spelled :
    read s = .ok r ↔ Spelled (trimChars s.toList) r ∧ r.low ≤ r.high := by
  rw [spelled_iff_splitEnds]
  unfold read
  simp only [bind_eq_ok, readPort_eq_ok_iff]
  generalize trimChars s.toList = cs
  constructor
  . rintro ⟨low, hlow, high, hhigh, h⟩
    split at h
    . cases h
    . next hle =>
      cases h
      exact ⟨⟨hlow, hhigh⟩, Fin.not_lt.mp hle⟩
  . rintro ⟨⟨hlow, hhigh⟩, hle⟩
    refine ⟨r.low, hlow, r.high, hhigh, ?_⟩
    rw [if_neg (Fin.not_lt.mpr hle)]

theorem isBlank_of_isDigit {c : Char} (h : c.isDigit = true) : isBlank c = false := by
  have hle : '0'.toNat ≤ c.toNat := (isDigit_iff_le.mp h).1
  have hle' : c.toNat ≤ '9'.toNat := (isDigit_iff_le.mp h).2
  have hzero : '0'.toNat = 48 := rfl
  have hnine : '9'.toNat = 57 := rfl
  simp only [isBlank, Bool.or_eq_false_iff, Bool.and_eq_false_iff, decide_eq_false_iff_not,
    beq_eq_false_iff_ne]
  omega

theorem isBlank_of_spelled (h : Spelled cs r) : ∀ c ∈ cs, isBlank c = false := by
  have hnumeral : ∀ {ds n}, Numeral ds n → ∀ c ∈ ds, isBlank c = false := by
    intro ds n hds c hc
    apply isBlank_of_isDigit
    exact hds.2.1 c hc
  obtain ⟨hport, _⟩ | ⟨low, high, rfl, hlow, hhigh⟩ := h
  . apply hnumeral hport
  . rw [List.forall_mem_append, List.forall_mem_cons]
    exact ⟨hnumeral hlow, by decide, hnumeral hhigh⟩

theorem trimChars_of_spelled (h : Spelled cs r) : trimChars cs = cs := by
  apply trimChars_eq_self
  . intro c hc
    apply isBlank_of_spelled h
    apply List.mem_of_mem_head? hc
  . intro c hc
    apply isBlank_of_spelled h
    apply List.mem_of_getLast? hc

theorem read_eq_ok_iff :
    read s = .ok r ↔
      ∃ before cs after, s.toList = before ++ cs ++ after
        ∧ (∀ c ∈ before, isBlank c = true) ∧ (∀ c ∈ after, isBlank c = true) ∧ Spelled cs r
        ∧ r.low ≤ r.high := by
  rw [read_eq_ok_iff_spelled]
  constructor
  . rintro ⟨hspelled, hordered⟩
    obtain ⟨before, after, hs, hbefore, hafter⟩ := Text.exists_trimChars s.toList
    exact ⟨before, _, after, hs, hbefore, hafter, hspelled, hordered⟩
  . rintro ⟨before, cs, after, hs, hbefore, hafter, hspelled, hordered⟩
    rw [hs, trimChars_append hbefore hafter, trimChars_of_spelled hspelled]
    exact ⟨hspelled, hordered⟩

theorem spelled_text (r : PortRange) : Spelled r.text.toList r := by
  unfold text textWith
  split
  . next hsingle =>
    left
    show Numeral (toString r.low.val).toList r.low ∧ _
    rw [Nat.toString_eq_ofList_toDigits, String.toList_ofList]
    exact ⟨numeral_toDigits r.low, (beq_iff_eq.mp hsingle).symm⟩
  . right
    refine ⟨_, _, ?_, numeral_toDigits r.low, numeral_toDigits r.high⟩
    show (toString r.low.val ++ "-" ++ toString r.high.val).toList = _
    simp

theorem read_text {r : PortRange} (h : r.low ≤ r.high) : read r.text = .ok r := by
  rw [read_eq_ok_iff_spelled, trimChars_of_spelled (spelled_text r)]
  exact ⟨spelled_text r, h⟩

/--
A text is read as a range exactly if, between white space, it is a number or two numbers with a
dash, neither of them too large nor in the wrong order; leading zeros do not count. Ranges are read
back from their texts, with a dash as well as with a colon.
-/
theorem read_exactly_spelled :
    (∀ s r, read s = .ok r ↔
        ∃ before cs after, s.toList = before ++ cs ++ after
          ∧ (∀ c ∈ before, isBlank c = true) ∧ (∀ c ∈ after, isBlank c = true) ∧ Spelled cs r
          ∧ r.low ≤ r.high)
      ∧ ∀ r : PortRange, (r.low ≤ r.high → read r.text = .ok r)
        ∧ readEntry (r.textWith ":").toList = some r := by
  constructor
  . intro s r
    exact read_eq_ok_iff
  . intro r
    exact ⟨read_text, readEntry_textWith r⟩

theorem read_exactly_spelled_paddedRange :
    read "\t0080-00000000000000000065535\u00a0" = .ok ⟨80, 65535⟩
      ∧ read (text ⟨80, 65535⟩) = .ok ⟨80, 65535⟩
      ∧ readEntry (textWith ":" ⟨80, 65535⟩).toList = some ⟨80, 65535⟩ := by
  obtain ⟨hread, hentry⟩ := read_exactly_spelled.2 ⟨80, 65535⟩
  refine ⟨?_, hread (by decide), hentry⟩
  apply (read_exactly_spelled.1 _ _).mpr
  refine ⟨['\t'], "0080".toList ++ '-' :: "00000000000000000065535".toList, ['\u00a0'], rfl, ?_, ?_,
    .inr ⟨_, _, rfl, ?_, ?_⟩, by decide⟩
  . exact List.all_eq_true.mp rfl
  . exact List.all_eq_true.mp rfl
  . exact ⟨by simp, List.all_eq_true.mp rfl, rfl⟩
  . exact ⟨by simp, List.all_eq_true.mp rfl, rfl⟩

end PortRange
end PacketPolicy

import PacketPolicy.Text.Blank

namespace PacketPolicy
namespace Text

/--
The visible ASCII characters without the two quotes, the backslash and the number sign.
-/
def isPlain (c : Char) : Bool :=
  0x21 ≤ c.toNat && c.toNat ≤ 0x7E && c != '"' && c != '\'' && c != '\\' && c != '#'

def Plain (s : String) : Prop :=
  s ≠ "" ∧ ∀ c ∈ s.toList, isPlain c = true

-- The instance is spelled out, so that the characters of the word are tested and not all that there
-- are.
instance (s : String) : Decidable (Plain s) :=
  @instDecidableAnd _ _ inferInstance (List.decidableBAll (isPlain · = true) s.toList)

theorem ne_of_isPlain (h : isPlain c = true) : c ≠ '"' ∧ c ≠ '\'' ∧ c ≠ '\\' ∧ c ≠ '#' := by
  simp only [isPlain, Bool.and_eq_true, bne_iff_ne] at h
  exact ⟨h.1.1.1.2, h.1.1.2, h.1.2, h.2⟩

theorem not_isBlank_of_isPlain (h : isPlain c = true) : isBlank c = false := by
  simp only [isPlain, Bool.and_eq_true, decide_eq_true_eq] at h
  simp only [isBlank, Bool.or_eq_false_iff, Bool.and_eq_false_iff, decide_eq_false_iff_not,
    beq_eq_false_iff_ne]
  omega

theorem utf8Size_of_isPlain (h : isPlain c = true) : c.utf8Size = 1 := by
  simp only [isPlain, Bool.and_eq_true, decide_eq_true_eq] at h
  rw [Char.utf8Size_eq_one_iff, UInt32.le_iff_toNat_le]
  show c.toNat ≤ 127
  omega

theorem plain_ofList {cs : List Char} (hne : cs ≠ []) (h : ∀ c ∈ cs, isPlain c = true) :
    Plain (String.ofList cs) := by
  constructor
  . rw [ne_eq, ← String.toList_inj]
    simpa using hne
  . rwa [String.toList_ofList]

theorem Plain.append (hs : Plain s) (ht : Plain t) : Plain (s ++ t) := by
  constructor
  . simp [hs.1]
  . rw [String.toList_append, List.forall_mem_append]
    exact ⟨hs.2, ht.2⟩

theorem Plain.intercalate (hseparator : Plain separator) (hne : ss ≠ []) (h : ∀ s ∈ ss, Plain s) :
    Plain (String.intercalate separator ss) := by
  induction ss with
  | nil => exact absurd rfl hne
  | cons s ss ih =>
    rw [List.forall_mem_cons] at h
    by_cases hnil : ss = []
    . rw [hnil, String.intercalate_singleton]
      exact h.1
    . rw [String.intercalate_cons_of_ne_nil hnil]
      apply Plain.append
      . exact h.1.append hseparator
      . exact ih hnil h.2

end Text
end PacketPolicy

import PacketPolicy.Proofs.Text.Plain
import PacketPolicy.Text.Number

namespace PacketPolicy
namespace Text

theorem forall_mem_toDigits {P : Char → Prop} (h : ∀ d < 16, P (Nat.digitChar d)) (hbase : 1 < base)
    (hsixteen : base ≤ 16) (n : Nat) : ∀ c ∈ Nat.toDigits base n, P c := by
  induction n using Nat.strongRecOn with
  | ind n ih =>
    by_cases hlt : n < base
    . rw [Nat.toDigits_of_lt_base hlt, List.forall_mem_singleton]
      exact h n (by omega)
    . have hmod := Nat.mod_lt n (by omega : base > 0)
      rw [Nat.toDigits_of_base_le hbase (by omega), List.forall_mem_append,
        List.forall_mem_singleton]
      exact ⟨ih _ (Nat.div_lt_self (by omega) hbase), h _ (by omega)⟩

theorem not_mem_toDigits (h : ∀ d < 16, Nat.digitChar d ≠ c) (hbase : 1 < base)
    (hsixteen : base ≤ 16) :
    c ∉ Nat.toDigits base n := by
  intro hmem
  exact forall_mem_toDigits (P := (· ≠ c)) h hbase hsixteen n c hmem rfl

theorem plain_toString (n : Nat) : Plain (toString n) := by
  rw [Nat.toString_eq_ofList_toDigits]
  apply plain_ofList
  . exact Nat.toDigits_ne_nil
  . exact forall_mem_toDigits (by decide) (by decide) (by decide) n

theorem digitValue_digitChar : ∀ d < 16, digitValue (Nat.digitChar d) = some d := by
  decide

theorem readDigits_concat (h : readDigits base limit m cs = .ok n) (hd : d < base)
    (hsixteen : base ≤ 16) (hlimit : n * base + d ≤ limit) :
    readDigits base limit m (cs ++ [Nat.digitChar d]) = .ok (n * base + d) := by
  fun_induction readDigits base limit m cs with
  | case1 m =>
    cases h
    simp [readDigits, digitValue_digitChar d (by omega), Nat.not_le.mpr hd, Nat.not_lt.mpr hlimit]
  | case2 | case3 | case4 => cases h
  | case5 m c cs e he hbase hle ih =>
    rw [List.cons_append, readDigits]
    simp only [he, hbase, hle, if_false]
    exact ih h

/--
A number is read digit by digit, so that every digit but the last belongs to a number that was read
before.
-/
theorem readDigits_toDigits (hbase : 1 < base) (hsixteen : base ≤ 16) (hlimit : n ≤ limit) :
    readDigits base limit 0 (Nat.toDigits base n) = .ok n := by
  induction n using Nat.strongRecOn with
  | ind n ih =>
    by_cases hlt : n < base
    . rw [Nat.toDigits_of_lt_base hlt]
      have := readDigits_concat (rfl : readDigits base limit 0 [] = .ok 0) hlt hsixteen (by omega)
      rwa [Nat.zero_mul, Nat.zero_add] at this
    . have hdiv : n / base < n := Nat.div_lt_self (by omega) hbase
      have hsplit : n / base * base + n % base = n := Nat.div_add_mod' n base
      rw [Nat.toDigits_of_base_le hbase (by omega),
        readDigits_concat (ih _ hdiv (by omega)) (Nat.mod_lt n (by omega)) hsixteen (by omega),
        hsplit]

theorem readNatural_toDigits (hbase : 1 < base) (hsixteen : base ≤ 16) (hlimit : n ≤ limit) :
    readNatural base limit (Nat.toDigits base n) = .ok n := by
  rw [readNatural]
  . exact readDigits_toDigits hbase hsixteen hlimit
  . exact Nat.toDigits_ne_nil

def Numeral (cs : List Char) (n : Nat) : Prop :=
  cs ≠ [] ∧ (∀ c ∈ cs, c.isDigit = true) ∧ Nat.ofDigitChars 10 cs 0 = n

theorem isDigit_iff_le : c.isDigit = true ↔ '0' ≤ c ∧ c ≤ '9' := by
  rw [Char.isDigit, Bool.and_eq_true, decide_eq_true_eq, decide_eq_true_eq]
  exact Iff.rfl

theorem digitValue_of_isDigit (h : c.isDigit = true) :
    digitValue c = some (c.toNat - '0'.toNat) := by
  rw [digitValue, if_pos (isDigit_iff_le.mp h)]

theorem digitValue_lt {c : Char} (h : c.isDigit = true) : c.toNat - '0'.toNat < 10 := by
  have hle : c.toNat ≤ '9'.toNat := (isDigit_iff_le.mp h).2
  have hnine : '9'.toNat = 57 := rfl
  have hzero : '0'.toNat = 48 := rfl
  omega

theorem le_digitValue (h : c.isDigit = false) (hd : digitValue c = some d) : 10 ≤ d := by
  have hnot : ¬('0' ≤ c ∧ c ≤ '9') := by simp [← isDigit_iff_le, h]
  rw [digitValue, if_neg hnot] at hd
  grind

theorem le_ofDigitChars (cs : List Char) (n : Nat) : n ≤ Nat.ofDigitChars 10 cs n := by
  induction cs generalizing n with
  | nil => simp
  | cons c cs ih =>
    rw [Nat.ofDigitChars_cons]
    exact Nat.le_trans (by omega) (ih _)

theorem readDigits_cons_of_isDigit (h : c.isDigit = true) :
    readDigits 10 limit m (c :: cs) =
      if limit < 10 * m + (c.toNat - '0'.toNat) then .error .outOfRange
      else readDigits 10 limit (10 * m + (c.toNat - '0'.toNat)) cs := by
  rw [readDigits, digitValue_of_isDigit h]
  simp only [Nat.not_le.mpr (digitValue_lt h), if_false, Nat.mul_comm m 10]

theorem readDigits_cons_of_not_isDigit (h : c.isDigit = false) :
    readDigits 10 limit m (c :: cs) = .error .malformed := by
  rw [readDigits]
  split
  . rfl
  . next d hd => rw [if_pos (le_digitValue h hd)]

/--
The limit may be checked at every digit, since more digits do not make a number smaller.
-/
theorem readDigits_eq_ok_iff (h : m ≤ limit) :
    readDigits 10 limit m cs = .ok n ↔
      (∀ c ∈ cs, c.isDigit = true) ∧ Nat.ofDigitChars 10 cs m = n ∧ n ≤ limit := by
  induction cs generalizing m with
  | nil =>
    simp only [readDigits, Except.ok.injEq, List.not_mem_nil, false_imp_iff, implies_true,
      Nat.ofDigitChars_nil, true_and]
    constructor
    . rintro rfl
      exact ⟨rfl, h⟩
    . exact And.left
  | cons c cs ih =>
    rw [List.forall_mem_cons, Nat.ofDigitChars_cons]
    cases hc : c.isDigit with
    | false => simp [readDigits_cons_of_not_isDigit hc]
    | true =>
      have hle := le_ofDigitChars cs (10 * m + (c.toNat - '0'.toNat))
      rw [readDigits_cons_of_isDigit hc]
      split
      . next hlimit =>
        simp only [reduceCtorEq, true_and, false_iff, not_and]
        omega
      . next hlimit => simpa using ih (Nat.not_lt.mp hlimit)

theorem readNatural_eq_ok_iff : readNatural 10 limit cs = .ok n ↔ Numeral cs n ∧ n ≤ limit := by
  unfold Numeral
  cases cs with
  | nil => simp [readNatural]
  | cons c cs =>
    rw [readNatural, readDigits_eq_ok_iff (Nat.zero_le limit)]
    . simp only [ne_eq, reduceCtorEq, not_false_eq_true, true_and, and_assoc]
    . simp

theorem numeral_toDigits (n : Nat) : Numeral (Nat.toDigits 10 n) n := by
  exact ⟨Nat.toDigits_ne_nil, fun c hc => Nat.isDigit_of_mem_toDigits (by decide) (by decide) hc,
    Nat.ofDigitChars_ten_toDigits⟩

end Text
end PacketPolicy

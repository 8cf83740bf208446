import PacketPolicy.Proofs.Address.Tree

/-!
This module contains the proof that the leaves of a normal tree are a partition of its set into
blocks, in ascending order, and that every block inside the set lies in one of the leaves.
-/

namespace PacketPolicy

structure Subnet where
  hostBits : Nat
  number : Nat

namespace Subnet

def Has (s : Subnet) (x : Nat) : Prop :=
  x / 2 ^ s.hostBits = s.number

def first (s : Subnet) : Nat :=
  2 ^ s.hostBits * s.number

theorem first_div (s : Subnet) : s.first / 2 ^ s.hostBits = s.number := by
  simp [first]

theorem has_first (s : Subnet) : s.Has s.first := by
  exact s.first_div

theorem div_of_has {s : Subnet} (hx : s.Has x) (hw : s.hostBits ≤ w) :
    x / 2 ^ w = s.number / 2 ^ (w - s.hostBits) := by
  rw [← hx, Nat.div_div_eq_div_mul, ← Nat.pow_add]
  congr 2
  omega

theorem first_lt {s : Subnet} (hle : s.hostBits ≤ w)
    (hnumber : s.number / 2 ^ (w - s.hostBits) = 0) :
    s.first < 2 ^ w := by
  have hlt : s.number < 2 ^ (w - s.hostBits) := by
    simpa [Nat.div_eq_zero_iff, Nat.two_pow_pos] using hnumber
  calc
    2 ^ s.hostBits * s.number < 2 ^ s.hostBits * 2 ^ (w - s.hostBits) :=
      Nat.mul_lt_mul_of_pos_left hlt (Nat.two_pow_pos _)
    _ = 2 ^ w := by rw [← Nat.pow_add, Nat.add_sub_cancel' hle]

end Subnet

namespace PrefixTree

/--
The full leaves of a tree from left to right, as blocks of the numbers with `k` in front of their
last `w` bits.
-/
def subnets : PrefixTree → (w k : Nat) → List Subnet
  | .empty, _, _ => []
  | .full, w, k => [⟨w, k⟩]
  | .split low high, w, k => subnets low (w - 1) (2 * k) ++ subnets high (w - 1) (2 * k + 1)

theorem bounds_of_mem_subnets (ht : Normal w t) (hs : s ∈ subnets t w k) :
    s.hostBits ≤ w ∧ s.number / 2 ^ (w - s.hostBits) = k := by
  induction t generalizing w k with
  | empty => simp [subnets] at hs
  | full => simp_all [subnets]
  | split low high lih hih =>
    cases w with
    | zero => cases ht
    | succ w =>
      have hhalf : ∀ j, s.hostBits ≤ w → s.number / 2 ^ (w - s.hostBits) = j →
          s.number / 2 ^ (w + 1 - s.hostBits) = j / 2 := by
        intro j hle hj
        rw [Nat.succ_sub hle, Nat.pow_succ, ← Nat.div_div_eq_div_mul, hj]
      simp only [subnets, List.mem_append, Nat.add_sub_cancel] at hs
      cases hs with
      | inl hs =>
        obtain ⟨hle, hnumber⟩ := lih ht.1 hs
        have := hhalf _ hle hnumber
        omega
      | inr hs =>
        obtain ⟨hle, hnumber⟩ := hih ht.2.1 hs
        have := hhalf _ hle hnumber
        omega

theorem exists_mem_subnets (ht : Normal w t) :
    (∃ s ∈ subnets t w k, s.Has x) ↔ x / 2 ^ w = k ∧ t.contains w x = true := by
  induction t generalizing w k with
  | empty => simp [subnets]
  | full => simp [subnets, Subnet.Has]
  | split low high lih hih =>
    cases w with
    | zero => cases ht
    | succ w =>
      simp only [subnets, List.mem_append, Nat.add_sub_cancel, or_and_right, exists_or]
      rw [lih ht.1, hih ht.2.1, contains_split, Nat.testBit_eq_decide_div_mod_eq]
      rw [Nat.pow_succ, ← Nat.div_div_eq_div_mul]
      split
      . next hbit =>
        have : x / 2 ^ w % 2 = 1 := by simpa using hbit
        have : x / 2 ^ w ≠ 2 * k := by omega
        have : x / 2 ^ w = 2 * k + 1 ↔ x / 2 ^ w / 2 = k := by omega
        simp_all
      . next hbit =>
        have : x / 2 ^ w % 2 = 0 := by simpa using hbit
        have : x / 2 ^ w ≠ 2 * k + 1 := by omega
        have : x / 2 ^ w = 2 * k ↔ x / 2 ^ w / 2 = k := by omega
        simp_all

theorem pairwise_subnets (ht : Normal w t) :
    (subnets t w k).Pairwise fun s r => ∀ x y, s.Has x → r.Has y → x < y := by
  induction t generalizing w k with
  | empty => simp [subnets]
  | full => simp [subnets]
  | split low high lih hih =>
    cases w with
    | zero => cases ht
    | succ w =>
      simp only [subnets, Nat.add_sub_cancel]
      rw [List.pairwise_append]
      refine ⟨lih ht.1, hih ht.2.1, ?_⟩
      intro s hs r hr x y hx hy
      have hlow := ((exists_mem_subnets ht.1).mp ⟨s, hs, hx⟩).1
      have hhigh := ((exists_mem_subnets ht.2.1).mp ⟨r, hr, hy⟩).1
      apply Nat.lt_of_div_lt_div (c := 2 ^ w)
      omega

theorem eq_full_of_contains (ht : Normal w t) (h : ∀ x, x / 2 ^ w = k → t.contains w x = true) :
    t = .full := by
  apply eq_of_contains_eq ht normal_full
  intro x
  have hlt : x % 2 ^ w < 2 ^ w := Nat.mod_lt _ (Nat.two_pow_pos w)
  have hcongr : t.contains w x = t.contains w (2 ^ w * k + x % 2 ^ w) := by
    apply contains_congr
    intro i hi
    simp [Nat.testBit_two_pow_mul_add, hlt, hi]
  rw [hcongr, contains_full]
  apply h
  rw [Nat.mul_add_div (Nat.two_pow_pos w), Nat.div_eq_of_lt hlt, Nat.add_zero]

theorem exists_subnet_of_subset (ht : Normal w t) {u : Subnet} (hu : u.hostBits ≤ w)
    (hsub : ∀ x, u.Has x → x / 2 ^ w = k ∧ t.contains w x = true) :
    ∃ s ∈ subnets t w k, ∀ x, u.Has x → s.Has x := by
  induction t generalizing w k with
  | empty => simpa using hsub _ u.has_first
  | full => exact ⟨⟨w, k⟩, by simp [subnets], fun x hx => (hsub x hx).1⟩
  | split low high lih hih =>
    cases w with
    | zero => cases ht
    | succ w =>
      cases Nat.lt_or_eq_of_le hu with
      | inr heq =>
        -- The block is all of the node, which would have to be a leaf.
        have hnumber : u.number = k := by
          have := (hsub _ u.has_first).1
          rwa [← heq, u.has_first] at this
        have : PrefixTree.split low high = .full := by
          apply eq_full_of_contains ht
          intro x hx
          apply (hsub x _).2
          rw [Subnet.Has, heq, hx, hnumber]
        contradiction
      | inl hlt =>
        -- The bit in front of the host bits of the node decides on which side the block lies.
        have hle : u.hostBits ≤ w := by omega
        have hdiv := fun x (hx : u.Has x) => Subnet.div_of_has hx hle
        generalize u.number / 2 ^ (w - u.hostBits) = j at hdiv
        have hsplit : ∀ x, u.Has x →
            j / 2 = k ∧ (if j % 2 = 1 then high else low).contains w x = true := by
          intro x hx
          have hx' := hsub x hx
          rw [contains_split, Nat.testBit_eq_decide_div_mod_eq, Nat.pow_succ,
            ← Nat.div_div_eq_div_mul, hdiv x hx]
            at hx'
          simpa [apply_ite (PrefixTree.contains · w x)] using hx'
        have hk := (hsplit _ u.has_first).1
        simp only [subnets, Nat.add_sub_cancel, List.mem_append]
        split at hsplit
        . obtain ⟨s, hs, hsu⟩ := hih (k := 2 * k + 1) ht.2.1 hle
            (fun x hx => ⟨by rw [hdiv x hx]; omega, (hsplit x hx).2⟩)
          exact ⟨s, .inr hs, hsu⟩
        . obtain ⟨s, hs, hsu⟩ := lih (k := 2 * k) ht.1 hle
            (fun x hx => ⟨by rw [hdiv x hx]; omega, (hsplit x hx).2⟩)
          exact ⟨s, .inl hs, hsu⟩

end PrefixTree
end PacketPolicy

import Mathlib
import PacketPolicy.Address.Tree

/-!
This module contains the proof that the operations on prefix trees are the operations on the sets
that the trees stand for, and that they keep trees normal. Two normal trees of one set are equal.
-/

namespace PacketPolicy
namespace PrefixTree

/--
No path of the tree is longer than `width`, and no node has two empty or two full children.
-/
def Normal : (width : Nat) → PrefixTree → Prop
  | _, .empty => True
  | _, .full => True
  | 0, .split _ _ => False
  | w + 1, .split low high =>
    Normal w low ∧ Normal w high ∧ ¬(low = .empty ∧ high = .empty) ∧ ¬(low = .full ∧ high = .full)

@[simp]
theorem normal_empty : Normal w .empty := by
  cases w <;> trivial

@[simp]
theorem normal_full : Normal w .full := by
  cases w <;> trivial

@[simp]
theorem contains_empty : PrefixTree.empty.contains w x = false := by
  cases w <;> rfl

@[simp]
theorem contains_full : PrefixTree.full.contains w x = true := by
  cases w <;> rfl

theorem contains_split (low high : PrefixTree) (w x : Nat) :
    (PrefixTree.split low high).contains (w + 1) x = if x.testBit w then high.contains w x
      else low.contains w x := by
  rfl

theorem contains_congr (t : PrefixTree) (h : ∀ i < w, x.testBit i = y.testBit i) :
    t.contains w x = t.contains w y := by
  induction t generalizing w with
  | empty => simp
  | full => simp
  | split low high lih hih =>
    cases w with
    | zero => rfl
    | succ w =>
      simp only [contains_split]
      rw [h w (by omega)]
      rw [lih (fun i hi => h i (by omega))]
      rw [hih (fun i hi => h i (by omega))]

theorem normal_join (hl : Normal w low) (hh : Normal w high) : Normal (w + 1) (join low high) := by
  unfold join
  split
  . simp
  . simp
  . next hempty hfull => exact ⟨hl, hh, fun h => hempty h.1 h.2, fun h => hfull h.1 h.2⟩

theorem contains_join (low high : PrefixTree) (w x : Nat) :
    (join low high).contains (w + 1) x = if x.testBit w then high.contains w x
      else low.contains w x := by
  unfold join
  split
  . simp
  . simp
  . rw [contains_split]

structure Combines (op : Bool → Bool → Bool) (width : Nat) (s t r : PrefixTree) : Prop where
  normal : Normal width r
  contains : ∀ x, r.contains width x = op (s.contains width x) (t.contains width x)

namespace Combines

theorem join (hlow : Combines op w a c low) (hhigh : Combines op w b d high)
    (hs : ∀ x, s.contains (w + 1) x = if x.testBit w then b.contains w x else a.contains w x)
    (ht : ∀ x, t.contains (w + 1) x = if x.testBit w then d.contains w x else c.contains w x)
    : Combines op (w + 1) s t (join low high) := by
  -- A full tree counts as a node with full children here, so `s` and `t` need not be nodes.
  constructor
  . exact normal_join hlow.normal hhigh.normal
  . intro x
    rw [contains_join, hs, ht]
    split
    . exact hhigh.contains x
    . exact hlow.contains x

theorem union (hs : Normal w s) (ht : Normal w t) : Combines or w s t (union s t) := by
  fun_induction PrefixTree.union s t generalizing w with
  | case1 => exact ⟨ht, by simp⟩
  | case2 => exact ⟨by simp, by simp⟩
  | case3 => exact ⟨hs, by simp⟩
  | case4 => exact ⟨by simp, by simp⟩
  | case5 a b c d lih hih =>
    cases w with
    | zero => cases hs
    | succ w =>
      apply join (lih hs.1 ht.1) (hih hs.2.1 ht.2.1)
      . exact contains_split a b w
      . exact contains_split c d w

theorem inter (hs : Normal w s) (ht : Normal w t) : Combines and w s t (inter s t) := by
  fun_induction PrefixTree.inter s t generalizing w with
  | case1 => exact ⟨by simp, by simp⟩
  | case2 => exact ⟨ht, by simp⟩
  | case3 => exact ⟨by simp, by simp⟩
  | case4 => exact ⟨hs, by simp⟩
  | case5 a b c d lih hih =>
    cases w with
    | zero => cases hs
    | succ w =>
      apply join (lih hs.1 ht.1) (hih hs.2.1 ht.2.1)
      . exact contains_split a b w
      . exact contains_split c d w

theorem diff (hs : Normal w s) (ht : Normal w t) :
    Combines (fun x y => x && !y) w s t (diff s t) := by
  fun_induction PrefixTree.diff s t generalizing w with
  | case1 => exact ⟨hs, by simp⟩
  | case2 => exact ⟨by simp, by simp⟩
  | case3 => exact ⟨by simp, by simp⟩
  | case4 c d lih hih =>
    cases w with
    | zero => cases ht
    | succ w =>
      apply join (lih normal_full ht.1) (hih normal_full ht.2.1)
      . simp
      . exact contains_split c d w
  | case5 a b c d lih hih =>
    cases w with
    | zero => cases hs
    | succ w =>
      apply join (lih hs.1 ht.1) (hih hs.2.1 ht.2.1)
      . exact contains_split a b w
      . exact contains_split c d w

end Combines

theorem block_ne_empty : block w l n ≠ .empty := by
  fun_cases block w l n <;> simp

theorem normal_block : Normal w (block w l n) := by
  fun_induction block w l n with
  | case1 => simp
  | case2 => simp
  | case3 w l n hbit ih => simp [Normal, ih, block_ne_empty]
  | case4 w l n hbit ih => simp [Normal, ih, block_ne_empty]

theorem forall_bits_succ {P : Nat → Prop} :
    (∀ i, w + 1 - (l + 1) ≤ i → i < w + 1 → P i) ↔ P w ∧ ∀ i, w - l ≤ i → i < w → P i := by
  constructor
  . intro h
    exact ⟨h w (by omega) (by omega), fun i hle hlt => h i (by omega) (by omega)⟩
  . rintro ⟨hw, h⟩ i hle hlt
    cases Nat.lt_succ_iff_lt_or_eq.mp hlt with
    | inl hlt => exact h i (by omega) hlt
    | inr heq => exact heq ▸ hw

theorem contains_block :
    (block w l n).contains w x = true ↔ ∀ i, w - l ≤ i → i < w → x.testBit i = n.testBit i := by
  fun_induction block w l n with
  | case1 =>
    simp only [contains_full, true_iff]
    omega
  | case2 =>
    simp only [contains_full, true_iff]
    omega
  | case3 w l n hbit ih =>
    rw [contains_split, forall_bits_succ, hbit, ← ih]
    cases x.testBit w <;> simp
  | case4 w l n hbit ih =>
    rw [contains_split, forall_bits_succ, Bool.eq_false_iff.mpr hbit, ← ih]
    cases x.testBit w <;> simp

theorem foldl_union_block (ps : List Prefix) (ht : Normal w t) :
    Normal w (ps.foldl (fun t p => union t (block w p.length p.address)) t) ∧
      ∀ x, (ps.foldl (fun t p => union t (block w p.length p.address)) t).contains w x = true ↔
        t.contains w x = true ∨ ∃ p ∈ ps, (block w p.length p.address).contains w x = true := by
  induction ps generalizing t with
  | nil => simp [ht]
  | cons p ps ih =>
    have hunion : Combines or w t (block w p.length p.address) _ := Combines.union ht normal_block
    obtain ⟨hnormal, hcontains⟩ := ih hunion.normal
    constructor
    . exact hnormal
    . intro x
      rw [List.foldl_cons, hcontains, hunion.contains]
      simp [or_assoc]

theorem normal_ofPrefixes (f : Family) (ps : List Prefix) : Normal f.width (ofPrefixes f ps) := by
  exact (foldl_union_block _ normal_empty).1

theorem contains_ofPrefixes (f : Family) (ps : List Prefix) (x : Nat) :
    (ofPrefixes f ps).contains f.width x = true ↔
      ∃ p ∈ ps, p.family = f ∧ (block f.width p.length p.address).contains f.width x = true := by
  rw [ofPrefixes, (foldl_union_block _ normal_empty).2]
  simp [and_assoc]

def child (bit : Bool) : PrefixTree → PrefixTree
  | .split low high => if bit then high else low
  | t => t

theorem normal_child (ht : Normal (w + 1) t) : Normal w (t.child bit) := by
  cases t with
  | empty => exact normal_empty
  | full => exact normal_full
  | split low high =>
    cases bit
    . exact ht.1
    . exact ht.2.1

theorem join_child (ht : Normal (w + 1) t) : join (t.child false) (t.child true) = t := by
  cases t with
  | empty => rfl
  | full => rfl
  | split low high =>
    simp only [child, join]
    split
    . next hlow hhigh => exact absurd ⟨hlow, hhigh⟩ ht.2.2.1
    . next hlow hhigh => exact absurd ⟨hlow, hhigh⟩ ht.2.2.2
    . rfl

theorem contains_child (t : PrefixTree) (bit : Bool) (w x : Nat) :
    (t.child bit).contains w x = t.contains (w + 1) (2 ^ w * bit.toNat + x % 2 ^ w) := by
  have hlt : x % 2 ^ w < 2 ^ w := Nat.mod_lt _ (Nat.two_pow_pos w)
  have hlast : ∀ i < w, x.testBit i = (2 ^ w * bit.toNat + x % 2 ^ w).testBit i := by
    intro i hi
    simp [Nat.testBit_two_pow_mul_add, hlt, hi]
  have hfirst : (2 ^ w * bit.toNat + x % 2 ^ w).testBit w = bit := by
    rw [Nat.testBit_two_pow_mul_add _ hlt]
    cases bit <;> simp
  cases t with
  | empty => simp [child]
  | full => simp [child]
  | split low high =>
    rw [contains_split, hfirst, contains_congr _ hlast]
    cases bit <;> rfl

theorem eq_of_contains_eq (hs : Normal w s) (ht : Normal w t)
    (h : ∀ x, s.contains w x = t.contains w x) :
    s = t := by
  induction w generalizing s t with
  | zero => cases s <;> cases t <;> simp_all [Normal]
  | succ w ih =>
    -- A normal tree is joined from its children, and by induction these are equal.
    have hchild : ∀ bit, s.child bit = t.child bit := by
      intro bit
      apply ih (normal_child hs) (normal_child ht)
      intro x
      rw [contains_child, contains_child, h]
    rw [← join_child hs, ← join_child ht, hchild, hchild]

end PrefixTree
end PacketPolicy

import Mathlib.Algebra.GroupWithZero.Nat
import PacketPolicy.Iptables.Block

namespace PacketPolicy

namespace PortRange

/--
A single port takes one slot, the two ends of another range take one each.
-/
def slots (r : PortRange) : Nat :=
  if r.isSingle then 1 else 2

def wideCount (rs : List PortRange) : Nat :=
  rs.countP fun r => !r.isSingle

theorem sum_slots (rs : List PortRange) : (rs.map slots).sum = rs.length + wideCount rs := by
  induction rs with
  | nil => rfl
  | cons r rs ih =>
    rw [List.map_cons, List.sum_cons, ih]
    simp only [wideCount, List.countP_cons, List.length_cons]
    unfold slots
    cases r.isSingle with
    | true =>
      simp only [↓reduceIte, Bool.not_true, Bool.false_eq_true]
      omega
    | false =>
      simp only [Bool.false_eq_true, ↓reduceIte, Bool.not_false]
      omega

def window (size k : Nat) (rs : List α) : List α :=
  (rs.drop (k * size)).take size

theorem length_window_le (size k : Nat) (rs : List α) : (window size k rs).length ≤ size := by
  unfold window
  apply List.length_take_le

theorem window_zero (size : Nat) (rs : List α) : window size 0 rs = rs.take size := by
  simp [window]

theorem window_succ (size k : Nat) (rs : List α) :
    window size (k + 1) rs = window size k (rs.drop size) := by
  unfold window
  rw [List.drop_drop, Nat.succ_mul, Nat.add_comm]

theorem window_eq_nil (hsize : 0 < size) {rs : List α} :
    window size k rs = [] ↔ rs.length ≤ k * size := by
  unfold window
  rw [List.take_eq_nil_iff, List.drop_eq_nil_iff]
  omega

theorem mem_groups (hsize : 0 < size) {rs : List α} :
    group ∈ groups size rs ↔ group ≠ [] ∧ ∃ k, group = window size k rs := by
  fun_induction groups size rs with
  | case1 rs hrs ih =>
    rw [List.mem_cons, ih]
    constructor
    . intro h
      cases h with
      | inl hfirst =>
        refine ⟨?_, 0, by rw [hfirst, window_zero]⟩
        rw [hfirst, ne_eq, List.take_eq_nil_iff]
        rintro (hzero | hnil)
        . omega
        . exact hrs.2 hnil
      | inr hrest =>
        obtain ⟨hne, k, hk⟩ := hrest
        exact ⟨hne, k + 1, by rw [hk, window_succ]⟩
    . rintro ⟨hne, k, hk⟩
      cases k with
      | zero => exact .inl (by rw [hk, window_zero])
      | succ k => exact .inr ⟨hne, k, by rw [hk, window_succ]⟩
  | case2 rs hrs =>
    have hnil : rs = [] := by simpa [hsize] using hrs
    simp only [List.not_mem_nil, false_iff, not_and, not_exists]
    intro hne k hk
    rw [hk, ne_eq, window_eq_nil hsize, hnil] at hne
    simp at hne

end PortRange

namespace Iptables

def slotLimit : Nat := 15

def Clause.slots : Clause → Nat
  | .ports _ ranges => (ranges.map PortRange.slots).sum
  | _ => 0

open PortRange (window wideCount maxEntries)

theorem Clause.slots_ports (side : Side) (rs : List PortRange) :
    (Clause.ports side rs).slots = rs.length + wideCount rs := by
  exact PortRange.sum_slots rs

theorem Chain.forall_sidePorts_slots_le (hlimit : 2 ≤ limit) (side : Side) (rs : List PortRange) :
    (∀ clause ∈ sidePorts side rs, clause.slots ≤ limit) ↔
      ∀ k, (window maxEntries k rs).length + wideCount (window maxEntries k rs) ≤ limit := by
  have hwide : ∀ ranges, wideCount ranges ≤ ranges.length := fun ranges => List.countP_le_length
  have hsize : 0 < maxEntries := by decide
  unfold sidePorts
  split
  . next r =>
    -- The only range stands in no group, and it would take two slots at most.
    have hlength : ∀ k, (window maxEntries k [r]).length ≤ 1 := by
      intro k
      simp only [window, List.length_take, List.length_drop, List.length_singleton]
      omega
    constructor
    . intro _ k
      have := hwide (window maxEntries k [r])
      have := hlength k
      omega
    . intro _ clause hclause
      rw [List.mem_singleton.mp hclause]
      exact Nat.zero_le limit
  . simp only [List.forall_mem_map, Clause.slots_ports, PortRange.mem_groups hsize]
    constructor
    . intro h k
      by_cases hnil : window maxEntries k rs = []
      . simp [hnil, wideCount]
      . exact h _ ⟨hnil, k, rfl⟩
    . rintro h group ⟨_, k, rfl⟩
      exact h k

/--
The clauses for the ports of one side have enough slots if in every group the entries and the ranges
of several ports among them are together no more than the limit, and not otherwise. In the worst
case a clause takes two slots for each of its entries.
-/
theorem portStatement_fits_iff (side : Side) (rs : List PortRange) :
    ∃ clauses, portStatement rs (side == .source) (side == .destination) = .ok clauses
      ∧ (∀ clause ∈ clauses, clause.slots ≤ 2 * maxEntries)
      ∧ ((∀ clause ∈ clauses, clause.slots ≤ slotLimit) ↔
          ∀ k, (window maxEntries k rs).length + wideCount (window maxEntries k rs)
            ≤ slotLimit) := by
  refine ⟨sidePorts side rs, by cases side <;> rfl, ?_, ?_⟩
  . rw [Chain.forall_sidePorts_slots_le (by decide)]
    intro k
    have hlength := PortRange.length_window_le maxEntries k rs
    have hwide : wideCount (window maxEntries k rs) ≤ _ := List.countP_le_length
    omega
  . apply Chain.forall_sidePorts_slots_le
    decide

def portPairs : List PortRange :=
  [.ofNat 1 2, .ofNat 4 5, .ofNat 7 8, .ofNat 10 11, .ofNat 13 14, .ofNat 16 17,
    .ofNat 19 20, .ofNat 22 23]

/--
Fewer ranges than a clause may have take more slots than there are.
-/
theorem portStatement_portPairs :
    (∀ r ∈ portPairs, r.low ≤ r.high ∧ r.high ≤ PortRange.maxPort) ∧ portPairs.length ≤ maxEntries
      ∧ portStatement portPairs false true = .ok [.ports .destination portPairs]
      ∧ slotLimit < (Clause.ports .destination portPairs).slots := by
  have hclauses : sidePorts .destination portPairs = [.ports .destination portPairs] := by
    decide +kernel
  exact ⟨by decide, by decide, congrArg Except.ok hclauses, by decide⟩

end Iptables
end PacketPolicy

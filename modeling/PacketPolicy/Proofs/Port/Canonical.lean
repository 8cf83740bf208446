import PacketPolicy.Port.Range
import PacketPolicy.Proofs.Basic

namespace PacketPolicy
namespace PortRange

def Covered (rs : List PortRange) (n : Nat) : Prop :=
  ∃ r ∈ rs, r.contains n = true

instance (rs : List PortRange) (n : Nat) : Decidable (Covered rs n) :=
  inferInstanceAs (Decidable (∃ r ∈ rs, r.contains n = true))

theorem contains_iff {r : PortRange} : r.contains n = true ↔ r.low ≤ n ∧ n ≤ r.high := by
  simp [contains]

@[simp]
theorem covered_nil : ¬Covered [] n := by
  simp [Covered]

@[simp]
theorem covered_cons : Covered (r :: rs) n ↔ r.contains n = true ∨ Covered rs n := by
  simp [Covered]

/--
What the list `rs` must be to be the canonical form of the set `S` of ports. Between two of its
ranges there is a port outside of the set.
-/
structure Canonical (rs : List PortRange) (S : Nat → Prop) : Prop where
  exact : ∀ n, Covered rs n ↔ S n
  ordered : ∀ r ∈ rs, r.low ≤ r.high
  separated : rs.Pairwise fun a b => ∃ n : Nat, a.high < n ∧ n < b.low ∧ ¬S n
  shortest : ∀ ss : List PortRange, (∀ n, Covered ss n ↔ S n) → rs.length ≤ ss.length

theorem pairwise_mergeSort_low (rs : List PortRange) :
    (rs.mergeSort before).Pairwise fun a b => a.low ≤ b.low := by
  have htrans : ∀ a b c : PortRange, before a b = true → before b c = true → before a c = true := by
    intro a b c
    simp only [before, Bool.or_eq_true, Bool.and_eq_true, beq_iff_eq, decide_eq_true_eq]
    omega
  have htotal : ∀ a b : PortRange, (before a b || before b a) = true := by
    intro a b
    simp only [before, Bool.or_eq_true, Bool.and_eq_true, beq_iff_eq, decide_eq_true_eq]
    omega
  apply (List.pairwise_mergeSort htrans htotal rs).imp
  intro a b hab
  simp only [before, Bool.or_eq_true, Bool.and_eq_true, beq_iff_eq, decide_eq_true_eq] at hab
  omega

section Merge

variable {last r : PortRange} {rs : List PortRange}

theorem pairwise_merged (h : (last :: r :: rs).Pairwise fun a b => a.low ≤ b.low) :
    (⟨last.low, if last.high < r.high then r.high else last.high⟩ :: rs).Pairwise
      fun a b : PortRange => a.low ≤ b.low := by
  obtain ⟨hlast, hrest⟩ := List.pairwise_cons.mp h
  rw [List.forall_mem_cons] at hlast
  exact List.pairwise_cons.mpr ⟨hlast.2, (List.pairwise_cons.mp hrest).2⟩

theorem contains_merged (hlow : last.low ≤ r.low) (htouch : r.low.val ≤ last.high.val + 1) :
    PortRange.contains ⟨last.low, if last.high < r.high then r.high else last.high⟩ n = true ↔
      last.contains n = true ∨ r.contains n = true := by
  simp only [contains_iff]
  split <;> omega

theorem covered_mergeFrom (h : (last :: rs).Pairwise fun a b => a.low ≤ b.low) :
    Covered (mergeFrom last rs) n ↔ Covered (last :: rs) n := by
  fun_induction mergeFrom last rs with
  | case1 last => rfl
  | case2 last r rs htouch ih =>
    have hlow : last.low ≤ r.low := (List.pairwise_cons.mp h).1 r List.mem_cons_self
    rw [ih (pairwise_merged h), covered_cons, contains_merged hlow htouch, covered_cons,
      covered_cons, or_assoc]
  | case3 last r rs htouch ih =>
    rw [covered_cons, ih (List.pairwise_cons.mp h).2]
    exact covered_cons.symm

theorem low_le_of_mem_mergeFrom (h : (last :: rs).Pairwise fun a b => a.low ≤ b.low) :
    ∀ s ∈ mergeFrom last rs, last.low ≤ s.low := by
  fun_induction mergeFrom last rs with
  | case1 last => simp
  | case2 last r rs htouch ih => exact ih (pairwise_merged h)
  | case3 last r rs htouch ih =>
    obtain ⟨hlast, hrest⟩ := List.pairwise_cons.mp h
    have hlow : last.low ≤ r.low := hlast r List.mem_cons_self
    rw [List.forall_mem_cons]
    refine ⟨Nat.le_refl _, fun s hs => ?_⟩
    exact Nat.le_trans hlow (ih hrest s hs)

theorem ordered_of_mem_mergeFrom (h : ∀ r ∈ last :: rs, r.low ≤ r.high) :
    ∀ s ∈ mergeFrom last rs, s.low ≤ s.high := by
  fun_induction mergeFrom last rs with
  | case1 last => exact h
  | case2 last r rs htouch ih =>
    apply ih
    rw [List.forall_mem_cons, List.forall_mem_cons] at h
    rw [List.forall_mem_cons]
    refine ⟨?_, h.2.2⟩
    have hlast := h.1
    dsimp only
    split <;> omega
  | case3 last r rs htouch ih =>
    rw [List.forall_mem_cons] at h ⊢
    exact ⟨h.1, ih h.2⟩

theorem pairwise_mergeFrom (h : (last :: rs).Pairwise fun a b => a.low ≤ b.low) :
    (mergeFrom last rs).Pairwise fun a b => a.high.val + 1 < b.low.val := by
  fun_induction mergeFrom last rs with
  | case1 last => exact List.pairwise_singleton _ _
  | case2 last r rs htouch ih => exact ih (pairwise_merged h)
  | case3 last r rs htouch ih =>
    have hrest := (List.pairwise_cons.mp h).2
    refine List.pairwise_cons.mpr ⟨fun s hs => ?_, ih hrest⟩
    have := low_le_of_mem_mergeFrom hrest s hs
    omega

end Merge

section Collapse

variable {rs ss : List PortRange}

theorem covered_of_perm (h : rs.Perm ss) : Covered rs n ↔ Covered ss n := by
  simp only [Covered, h.mem_iff]

theorem covered_collapse : Covered (collapse rs) n ↔ Covered rs n := by
  rw [← covered_of_perm (List.mergeSort_perm rs before)]
  have hsorted := pairwise_mergeSort_low rs
  unfold collapse
  split
  . next hsort => rw [hsort]
  . next r rs hsort =>
    rw [hsort] at hsorted ⊢
    exact covered_mergeFrom hsorted

theorem ordered_of_mem_collapse (h : ∀ r ∈ rs, r.low ≤ r.high) :
    ∀ r ∈ collapse rs, r.low ≤ r.high := by
  have hordered : ∀ r ∈ rs.mergeSort before, r.low ≤ r.high := by
    intro r hr
    exact h r ((List.mergeSort_perm rs before).mem_iff.mp hr)
  unfold collapse
  split
  . simp
  . next hsort =>
    rw [hsort] at hordered
    exact ordered_of_mem_mergeFrom hordered

theorem pairwise_collapse (rs : List PortRange) :
    (collapse rs).Pairwise fun a b => a.high.val + 1 < b.low.val := by
  have hsorted := pairwise_mergeSort_low rs
  unfold collapse
  split
  . exact List.Pairwise.nil
  . next hsort =>
    rw [hsort] at hsorted
    exact pairwise_mergeFrom hsorted

end Collapse

section Apart

variable {as bs : List PortRange}

theorem covered_tail (h : (a :: as).Pairwise fun a b => a.high.val + 1 < b.low.val) :
    Covered as n ↔ Covered (a :: as) n ∧ a.high < n := by
  rw [covered_cons, contains_iff]
  constructor
  . rintro ⟨r, hr, hn⟩
    have hlow := (List.pairwise_cons.mp h).1 r hr
    have hrange := contains_iff.mp hn
    exact ⟨.inr ⟨r, hr, hn⟩, by omega⟩
  . rintro ⟨hn | hn, hlt⟩
    . omega
    . exact hn

theorem low_le_of_covered (h : (a :: as).Pairwise fun a b => a.high.val + 1 < b.low.val)
    (ha : a.low ≤ a.high) (hn : Covered (a :: as) n) :
    a.low ≤ n := by
  rw [covered_cons, covered_tail h, contains_iff] at hn
  omega

theorem not_covered_succ_high (h : (a :: as).Pairwise fun a b => a.high.val + 1 < b.low.val) :
    ¬Covered (a :: as) (a.high.val + 1) := by
  rw [covered_cons, contains_iff]
  rintro (hn | ⟨r, hr, hn⟩)
  . omega
  . have hlow := (List.pairwise_cons.mp h).1 r hr
    rw [contains_iff] at hn
    omega

theorem separated_of_apart (h : as.Pairwise fun a b => a.high.val + 1 < b.low.val)
    (hordered : ∀ a ∈ as, a.low ≤ a.high) :
    as.Pairwise fun a b => ∃ n : Nat, a.high < n ∧ n < b.low ∧ ¬Covered as n := by
  induction h with
  | nil => exact List.Pairwise.nil
  | @cons a as hhead htail ih =>
    have hpairwise := List.pairwise_cons.mpr ⟨hhead, htail⟩
    rw [List.forall_mem_cons] at hordered
    refine List.pairwise_cons.mpr ⟨fun b hb => ?_, ?_⟩
    . exact ⟨a.high.val + 1, by omega, hhead b hb, not_covered_succ_high hpairwise⟩
    . apply (ih hordered.2).imp_of_mem
      rintro b c hb _ ⟨n, hbn, hnc, hn⟩
      refine ⟨n, hbn, hnc, ?_⟩
      -- The first range ends before the port, as it does before the range in front of it.
      have hlow := hhead b hb
      have hle := hordered.2 b hb
      rw [covered_cons, contains_iff]
      rintro (hin | hin)
      . omega
      . exact hn hin

/--
The first range of a list is given by the ports of the list: it starts at the first of them and ends
before the first gap.
-/
theorem head_eq_of_covered_iff (has : (a :: as).Pairwise fun a b => a.high.val + 1 < b.low.val)
    (hbs : (b :: bs).Pairwise fun a b => a.high.val + 1 < b.low.val) (ha : a.low ≤ a.high)
    (hb : b.low ≤ b.high)
    (h : ∀ n, Covered (a :: as) n ↔ Covered (b :: bs) n) : a = b := by
  have hself {c : PortRange} {cs : List PortRange} {n : Nat} (hn : c.low ≤ n ∧ n ≤ c.high) :
      Covered (c :: cs) n :=
    covered_cons.mpr (.inl (contains_iff.mpr hn))
  have hlow : a.low = b.low := by
    have hab := low_le_of_covered has ha ((h b.low).mpr (hself ⟨Nat.le_refl _, hb⟩))
    have hba := low_le_of_covered hbs hb ((h a.low).mp (hself ⟨Nat.le_refl _, ha⟩))
    omega
  have hhigh : a.high = b.high := by
    -- If one range ended first, the port behind its end would be in the other.
    have hab : ¬a.high < b.high := fun hlt =>
      not_covered_succ_high has ((h _).mpr (hself ⟨by omega, hlt⟩))
    have hba : ¬b.high < a.high := fun hlt =>
      not_covered_succ_high hbs ((h _).mp (hself ⟨by omega, hlt⟩))
    omega
  cases a
  cases b
  rw [PortRange.mk.injEq]
  exact ⟨hlow, hhigh⟩

theorem eq_of_covered_iff (has : as.Pairwise fun a b => a.high.val + 1 < b.low.val)
    (hbs : bs.Pairwise fun a b => a.high.val + 1 < b.low.val) (ha : ∀ a ∈ as, a.low ≤ a.high)
    (hb : ∀ b ∈ bs, b.low ≤ b.high) (h : ∀ n, Covered as n ↔ Covered bs n) : as = bs := by
  induction as generalizing bs with
  | nil =>
    cases bs with
    | nil => rfl
    | cons b bs =>
      have hlow := hb b List.mem_cons_self
      have hcovered : Covered (b :: bs) b.low :=
        ⟨b, List.mem_cons_self, contains_iff.mpr ⟨Nat.le_refl _, hlow⟩⟩
      exact absurd ((h _).mpr hcovered) covered_nil
  | cons a as ih =>
    have hlow := ha a List.mem_cons_self
    cases bs with
    | nil =>
      have hcovered : Covered (a :: as) a.low :=
        ⟨a, List.mem_cons_self, contains_iff.mpr ⟨Nat.le_refl _, hlow⟩⟩
      exact absurd ((h _).mp hcovered) covered_nil
    | cons b bs =>
      have hhead : a = b := head_eq_of_covered_iff has hbs hlow (hb b List.mem_cons_self) h
      subst hhead
      rw [List.forall_mem_cons] at ha hb
      rw [ih (List.pairwise_cons.mp has).2 (List.pairwise_cons.mp hbs).2 ha.2 hb.2]
      intro n
      rw [covered_tail has, covered_tail hbs, h]

/--
No range covers the starts of two ranges that lie apart, so each of these needs a range of its own.
-/
theorem length_le_of_covered_iff
    (hgap : as.Pairwise fun a b => ∃ n : Nat, a.high < n ∧ n < b.low ∧ ¬Covered as n)
    (ha : ∀ a ∈ as, a.low ≤ a.high) (h : ∀ n, Covered bs n ↔ Covered as n) :
    as.length ≤ bs.length := by
  apply length_le_of_choice (R := fun a b => b.contains a.low = true)
  . intro a hmem
    exact (h a.low).mpr ⟨a, hmem, contains_iff.mpr ⟨Nat.le_refl _, ha a hmem⟩⟩
  . apply hgap.imp_of_mem
    rintro a a' hmem _ ⟨n, hn, hn', hnone⟩ b hb ⟨hba, hba'⟩
    apply hnone
    have hlow := ha a hmem
    rw [contains_iff] at hba hba'
    exact (h n).mp ⟨b, hb, contains_iff.mpr (by omega)⟩

end Apart

theorem canonical_of_apart {as : List PortRange}
    (h : as.Pairwise fun a b => a.high.val + 1 < b.low.val) (hordered : ∀ a ∈ as, a.low ≤ a.high) :
    Canonical as (Covered as) where
  exact _ := Iff.rfl
  ordered := hordered
  separated := separated_of_apart h hordered
  shortest _ hss := length_le_of_covered_iff (separated_of_apart h hordered) hordered hss

/--
Whatever the order and overlap of the ranges in a list, it is merged to the canonical form of its
ports, and two lists are merged to the same list if they have the same ports and not otherwise.
-/
theorem collapse_canonical {rs : List PortRange} (h : ∀ r ∈ rs, r.low ≤ r.high) :
    Canonical (collapse rs) (Covered rs)
      ∧ ∀ ss : List PortRange, (∀ s ∈ ss, s.low ≤ s.high) →
          (collapse rs = collapse ss ↔ ∀ n, Covered rs n ↔ Covered ss n) := by
  have hports : Covered (collapse rs) = Covered rs := funext fun n => propext covered_collapse
  constructor
  . rw [← hports]
    exact canonical_of_apart (pairwise_collapse rs) (ordered_of_mem_collapse h)
  . intro ss hss
    constructor
    . intro heq n
      rw [← covered_collapse, heq, covered_collapse]
    . intro hcovered
      apply eq_of_covered_iff (pairwise_collapse rs) (pairwise_collapse ss)
      . exact ordered_of_mem_collapse h
      . exact ordered_of_mem_collapse hss
      . intro n
        rw [covered_collapse, covered_collapse, hcovered]

def scattered : List PortRange :=
  [⟨65534, 65535⟩, ⟨85, 86⟩, .single 80, ⟨81, 90⟩, .single 80, .single 65535, ⟨0, 3⟩]

theorem collapse_scattered :
    (∀ r ∈ scattered, r.low ≤ r.high) ∧ Canonical (collapse scattered) (Covered scattered)
      ∧ collapse scattered = collapse [⟨0, 1⟩, ⟨65534, 65535⟩, ⟨80, 90⟩, ⟨2, 3⟩] := by
  have hordered : ∀ r ∈ scattered, r.low ≤ r.high := by decide
  obtain ⟨hcanonical, heq⟩ := collapse_canonical hordered
  refine ⟨hordered, hcanonical, (heq _ (by decide)).mpr fun n => ?_⟩
  simp only [scattered, single, covered_cons, covered_nil, contains_iff, or_false]
  omega

end PortRange
end PacketPolicy

import PacketPolicy.Proofs.Address.Cover
import PacketPolicy.Proofs.Basic

namespace PacketPolicy
namespace Prefix

def Within (p q : Prefix) : Prop :=
  ∀ f (a : Address f), p.Covers a → q.Covers a

def Disjoint (p q : Prefix) : Prop :=
  ∀ f (a : Address f), ¬(p.Covers a ∧ q.Covers a)

/--
The addresses of two prefixes are together those of one prefix, as they are for the two halves of a
prefix.
-/
def Mergeable (p q : Prefix) : Prop :=
  ∃ r : Prefix, ∀ f (a : Address f), r.Covers a ↔ p.Covers a ∨ q.Covers a

def Before (p q : Prefix) : Prop :=
  p.family = .v4 ∧ q.family = .v6 ∨ p.family = q.family ∧ p.address < q.address

/--
What the list `ps` must be to be the normal form of the set `S` of addresses.
-/
structure NormalForm (ps : List Prefix) (S : (f : Family) → Address f → Prop) : Prop where
  exact : ∀ f (a : Address f), Covered ps a ↔ S f a
  hostBitsClear : ∀ p ∈ ps, p.masked = p
  ascending : ps.Pairwise Before
  disjoint : ps.Pairwise Disjoint
  unmergeable : ps.Pairwise fun p q => ¬p.Mergeable q
  shortest : ∀ qs : List Prefix, (∀ f (a : Address f), Covered qs a ↔ S f a) → ps.length ≤ qs.length

theorem NormalForm.congr {S T : (f : Family) → Address f → Prop} (h : NormalForm ps S)
    (hcongr : ∀ f (a : Address f), S f a ↔ T f a) : NormalForm ps T := by
  have heq : S = T := by
    funext f a
    exact propext (hcongr f a)
  exact heq ▸ h

theorem eq_of_covers {ps : List Prefix} (hdisjoint : ps.Pairwise Disjoint) (hp : p ∈ ps)
    (hq : q ∈ ps) {a : Address f} (hpa : p.Covers a) (hqa : q.Covers a) :
    p = q := by
  induction hdisjoint with
  | nil => simp at hp
  | cons hhead _ ih =>
    cases hp with
    | head =>
      cases hq with
      | head => rfl
      | tail _ hq => exact absurd ⟨hpa, hqa⟩ (hhead q hq f a)
    | tail _ hp =>
      cases hq with
      | head => exact absurd ⟨hqa, hpa⟩ (hhead p hp f a)
      | tail _ hq => exact ih hp hq

theorem length_le_of_within {ps qs : List Prefix} (hdisjoint : ps.Pairwise Disjoint)
    (hwithin : ∀ p ∈ ps, ∃ q ∈ qs, q.Within p) : ps.length ≤ qs.length := by
  apply length_le_of_choice hwithin
  apply hdisjoint.imp
  rintro p r hpr q _ ⟨hqp, hqr⟩
  exact hpr _ _ ⟨hqp _ _ q.covers_self, hqr _ _ q.covers_self⟩

end Prefix

namespace AddressSet

open Prefix (Covered Within Disjoint Before NormalForm)

variable {s : AddressSet}

theorem masked_of_mem_prefixes (hs : s.Normal) (hp : p ∈ s.prefixes) : p.masked = p := by
  obtain ⟨f, u, hu, rfl⟩ := (mem_prefixes hs).mp hp
  obtain ⟨hle, hnumber⟩ := PrefixTree.bounds_of_mem_subnets (hs f) hu
  exact Prefix.masked_ofSubnet hle hnumber

theorem pairwise_prefixes (hs : s.Normal) {R : Prefix → Prefix → Prop}
    (hsame : ∀ f, ∀ u ∈ (s.tree f).subnets f.width 0, ∀ v ∈ (s.tree f).subnets f.width 0,
      (∀ x y, u.Has x → v.Has y → x < y) → R (Prefix.ofSubnet f u) (Prefix.ofSubnet f v))
    (hother : ∀ p q : Prefix, p.family = .v4 → q.family = .v6 → R p q)
    : s.prefixes.Pairwise R := by
  have hfamily : ∀ f, (((s.tree f).subnets f.width 0).map (Prefix.ofSubnet f)).Pairwise R := by
    intro f
    rw [List.pairwise_map]
    apply (PrefixTree.pairwise_subnets (hs f)).imp_of_mem
    intro u v hu hv huv
    exact hsame f u hu v hv huv
  rw [prefixes_eq hs, List.pairwise_append]
  refine ⟨hfamily .v4, hfamily .v6, ?_⟩
  intro p hp q hq
  obtain ⟨u, _, rfl⟩ := List.mem_map.mp hp
  obtain ⟨v, _, rfl⟩ := List.mem_map.mp hq
  exact hother _ _ rfl rfl

theorem ascending_prefixes (hs : s.Normal) : s.prefixes.Pairwise Before := by
  apply pairwise_prefixes hs
  . intro f u hu v hv huv
    obtain ⟨hule, hunumber⟩ := PrefixTree.bounds_of_mem_subnets (hs f) hu
    obtain ⟨hvle, hvnumber⟩ := PrefixTree.bounds_of_mem_subnets (hs f) hv
    refine .inr ⟨rfl, ?_⟩
    rw [Prefix.address_ofSubnet hule hunumber, Prefix.address_ofSubnet hvle hvnumber]
    exact huv _ _ u.has_first v.has_first
  . intro p q hp hq
    exact .inl ⟨hp, hq⟩

theorem disjoint_prefixes (hs : s.Normal) : s.prefixes.Pairwise Disjoint := by
  apply pairwise_prefixes hs
  . rintro f u hu v hv huv g a ⟨hua, hva⟩
    obtain ⟨hule, hunumber⟩ := PrefixTree.bounds_of_mem_subnets (hs f) hu
    obtain ⟨hvle, hvnumber⟩ := PrefixTree.bounds_of_mem_subnets (hs f) hv
    have hlt := huv _ _ ((Prefix.covers_ofSubnet hule hunumber a).mp hua).2
      ((Prefix.covers_ofSubnet hvle hvnumber a).mp hva).2
    exact Nat.lt_irrefl _ hlt
  . rintro p q hp hq g a ⟨hpa, hqa⟩
    have : p.family = q.family := hpa.1.trans hqa.1.symm
    simp [hp, hq] at this

theorem unmergeable_prefixes (hs : s.Normal) : s.prefixes.Pairwise fun p q => ¬p.Mergeable q := by
  have hdisjoint := disjoint_prefixes hs
  apply hdisjoint.imp_of_mem
  rintro p q hp hq hpq ⟨r, hr⟩
  -- The merged prefix would lie in a prefix of the set that overlaps both.
  obtain ⟨t, ht, hrt⟩ := exists_prefix_of_subset hs r (by
    intro a ha
    rw [← covered_prefixes hs]
    cases (hr _ a).mp ha with
    | inl hpa => exact ⟨p, hp, hpa⟩
    | inr hqa => exact ⟨q, hq, hqa⟩)
  have hpt : p = t :=
    Prefix.eq_of_covers hdisjoint hp ht p.covers_self (hrt _ _ ((hr _ _).mpr (.inl p.covers_self)))
  have hqt : q = t :=
    Prefix.eq_of_covers hdisjoint hq ht q.covers_self (hrt _ _ ((hr _ _).mpr (.inr q.covers_self)))
  apply hpq _ _ ⟨p.covers_self, _⟩
  rw [hqt, ← hpt]
  exact p.covers_self

theorem shortest_prefixes (hs : s.Normal) (qs : List Prefix)
    (hqs : ∀ f (a : Address f), Covered qs a ↔ s.contains f a.toNat = true) :
    s.prefixes.length ≤ qs.length := by
  have hdisjoint := disjoint_prefixes hs
  apply Prefix.length_le_of_within hdisjoint
  intro p hp
  have hself := p.covers_self
  obtain ⟨q, hq, hqa⟩ := (hqs _ _).mpr ((covered_prefixes hs _).mp ⟨p, hp, hself⟩)
  obtain ⟨t, ht, hqt⟩ := exists_prefix_of_subset hs q (fun a ha => (hqs _ a).mp ⟨q, hq, ha⟩)
  have hpt : p = t := Prefix.eq_of_covers hdisjoint hp ht hself (hqt _ _ hqa)
  exact ⟨q, hq, hpt ▸ hqt⟩

theorem normalForm_prefixes (hs : s.Normal) :
    NormalForm s.prefixes fun f a => s.contains f a.toNat = true where
  exact := fun _ a => covered_prefixes hs a
  hostBitsClear := fun _ hp => masked_of_mem_prefixes hs hp
  ascending := ascending_prefixes hs
  disjoint := disjoint_prefixes hs
  unmergeable := unmergeable_prefixes hs
  shortest := shortest_prefixes hs

end AddressSet

namespace Prefix

theorem normalForm_collapse (ps : List Prefix) :
    NormalForm (collapse ps) fun _ a => Covered ps a := by
  apply (AddressSet.normalForm_prefixes (AddressSet.normal_ofPrefixes ps)).congr
  intro f a
  exact AddressSet.contains_ofPrefixes ps a

theorem normalForm_of_combines {s : AddressSet} {ps qs : List Prefix}
    (h : ∀ f, PrefixTree.Combines op f.width ((AddressSet.ofPrefixes ps).tree f)
      ((AddressSet.ofPrefixes qs).tree f)
      (s.tree f)) :
    NormalForm s.prefixes fun _ a => op (decide (Covered ps a)) (decide (Covered qs a)) = true := by
  apply (AddressSet.normalForm_prefixes fun f => (h f).normal).congr
  intro f a
  rw [AddressSet.contains_eq_tree, (h f).contains, ← AddressSet.contains_eq_tree,
    ← AddressSet.contains_eq_tree]
  simp only [← AddressSet.contains_ofPrefixes, Bool.decide_eq_true]

theorem normalForm_subtract (ps qs : List Prefix) :
    NormalForm (subtract ps qs) fun _ a => Covered ps a ∧ ¬Covered qs a := by
  have hdiff :=
    AddressSet.combines_diff (AddressSet.normal_ofPrefixes ps) (AddressSet.normal_ofPrefixes qs)
  apply (normalForm_of_combines hdiff).congr
  intro f a
  simp

theorem normalForm_intersect (ps qs : List Prefix) :
    NormalForm (intersect ps qs) fun _ a => Covered ps a ∧ Covered qs a := by
  have hinter :=
    AddressSet.combines_inter (AddressSet.normal_ofPrefixes ps) (AddressSet.normal_ofPrefixes qs)
  apply (normalForm_of_combines hinter).congr
  intro f a
  simp

theorem covered_ofFamily {ps : List Prefix} {a : Address f} :
    Covered (ofFamily f ps) a ↔ Covered ps a := by
  simp only [Covered, ofFamily, List.mem_filter, beq_iff_eq]
  constructor
  . rintro ⟨p, hp, ha⟩
    exact ⟨p, hp.1, ha⟩
  . rintro ⟨p, hp, ha⟩
    exact ⟨p, ⟨hp, ha.1⟩, ha⟩

theorem covered_singleton_all {a : Address g} : Covered [all f] a ↔ g = f := by
  constructor
  . rintro ⟨p, hp, ha⟩
    rw [List.mem_singleton.mp hp] at ha
    exact ha.1.symm
  . intro h
    subst h
    exact ⟨all g, List.mem_singleton_self _, covers_of_length_eq_zero (f := g) rfl rfl a⟩

theorem normalForm_complement (f : Family) (ps : List Prefix) :
    NormalForm (complement f ps) fun g a => g = f ∧ ¬Covered ps a := by
  apply (normalForm_subtract [all f] (ofFamily f ps)).congr
  intro g a
  rw [covered_singleton_all]
  apply and_congr_right
  intro h
  subst h
  rw [covered_ofFamily]

/--
Every operation on lists of prefixes is exact, whatever the order, overlap and families of its
arguments, and gives the normal form of its set.
-/
theorem normalForm_operations (ps qs : List Prefix) :
    NormalForm (collapse ps) (fun _ a => Covered ps a)
      ∧ NormalForm (subtract ps qs) (fun _ a => Covered ps a ∧ ¬Covered qs a)
      ∧ NormalForm (intersect ps qs) (fun _ a => Covered ps a ∧ Covered qs a)
      ∧ ∀ f, NormalForm (complement f ps) (fun g a => g = f ∧ ¬Covered ps a) := by
  exact ⟨normalForm_collapse ps, normalForm_subtract ps qs, normalForm_intersect ps qs,
    fun f => normalForm_complement f ps⟩

end Prefix
end PacketPolicy

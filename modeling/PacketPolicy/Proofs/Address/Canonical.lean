import PacketPolicy.Proofs.Address.Plan

/-!
This module contains the proof that a plan depends on the sets of its request alone: whatever the
lists of prefixes look like, they are brought to the normal forms of their sets before anything else
is done with them.
-/

namespace PacketPolicy

open Prefix (Covered)

theorem AddressSet.eq_of_contains_eq {s t : AddressSet} (hs : s.Normal) (ht : t.Normal)
    (h : ∀ f (a : Address f), s.contains f a.toNat = t.contains f a.toNat) : s = t := by
  have htree : ∀ f, s.tree f = t.tree f := by
    intro f
    apply PrefixTree.eq_of_contains_eq (hs f) (ht f)
    intro x
    -- Only the last bits of a number count, so that it can be taken for an address.
    have hcongr (r : PrefixTree) : r.contains f.width x = r.contains f.width (x % 2 ^ f.width) := by
      apply PrefixTree.contains_congr
      intro i hi
      simp [Nat.testBit_mod_two_pow, hi]
    have hbits := h f (BitVec.ofNat f.width x)
    rw [contains_eq_tree, contains_eq_tree, BitVec.toNat_ofNat] at hbits
    rw [hcongr, hcongr (t.tree f), hbits]
  cases s
  cases t
  rw [AddressSet.mk.injEq]
  exact ⟨htree .v4, htree .v6⟩

namespace Prefix

theorem collapse_eq_iff {ps qs : List Prefix} :
    collapse ps = collapse qs ↔ ∀ f (a : Address f), Covered ps a ↔ Covered qs a := by
  constructor
  . intro h f a
    rw [← (normalForm_collapse ps).exact, ← (normalForm_collapse qs).exact, h]
  . intro h
    unfold collapse
    congr 1
    apply AddressSet.eq_of_contains_eq (AddressSet.normal_ofPrefixes ps)
      (AddressSet.normal_ofPrefixes qs)
    intro f a
    rw [Bool.eq_iff_iff, AddressSet.contains_ofPrefixes, AddressSet.contains_ofPrefixes]
    apply h

theorem collapse_ofFamily_eq_iff {ps qs : List Prefix} :
    collapse (ofFamily f ps) = collapse (ofFamily f qs) ↔
      ∀ a : Address f, Covered ps a ↔ Covered qs a := by
  rw [collapse_eq_iff]
  constructor
  . intro h a
    rw [← covered_ofFamily, h, covered_ofFamily]
  . intro h g a
    rw [← (normalForm_collapse (ofFamily f ps)).exact,
      ← (normalForm_collapse (ofFamily f qs)).exact, Encoding.covered_collapse_ofFamily,
      Encoding.covered_collapse_ofFamily]
    apply and_congr_right
    intro hfamily
    subst hfamily
    apply h

theorem collapse_ofFamily_all (f : Family) : collapse (ofFamily f [all f]) = [all f] := by
  cases f <;> rfl

end Prefix

namespace Encoding

theorem included_eq (f : Family) (inclusion : Option (List Prefix)) :
    included f inclusion = Prefix.collapse (Prefix.ofFamily f (inclusion.getD [Prefix.all f])) := by
  cases inclusion with
  | none => exact (Prefix.collapse_ofFamily_all f).symm
  | some ps => rfl

theorem included_eq_iff :
    included f i = included f j ↔ ∀ a : Address f, Included i a ↔ Included j a := by
  have hcovered (inclusion : Option (List Prefix)) (a : Address f) :
      Covered (inclusion.getD [Prefix.all f]) a ↔ Included inclusion a := by
    cases inclusion with
    | none => simp [Included, Prefix.covered_singleton_all]
    | some ps => rfl
  rw [included_eq, included_eq, Prefix.collapse_ofFamily_eq_iff]
  simp only [hcovered]

end Encoding

/--
The lists of two requests stand for the same addresses of a family, list by list.
-/
structure Request.Equivalent (f : Family) (r s : Request) : Prop where
  included : ∀ side (a : Address f), Included (r.inclusion side) a ↔ Included (s.inclusion side) a
  excluded : ∀ side (a : Address f), Covered (r.exclusion side) a ↔ Covered (s.exclusion side) a

namespace Request

theorem equivalent_iff {r s : Request} : r.Equivalent f s ↔
    ∀ side ∈ [Side.source, Side.destination],
      Encoding.included f (r.inclusion side) = Encoding.included f (s.inclusion side)
        ∧ Prefix.collapse (Prefix.ofFamily f (r.exclusion side))
          = Prefix.collapse (Prefix.ofFamily f (s.exclusion side)) := by
  simp only [Encoding.included_eq_iff, Prefix.collapse_ofFamily_eq_iff]
  constructor
  . intro h side _
    exact ⟨h.included side, h.excluded side⟩
  . intro h
    have hside (side : Side) : side ∈ [Side.source, Side.destination] := by cases side <;> simp
    exact ⟨fun side => (h side (hside side)).1, fun side => (h side (hside side)).2⟩

instance (f : Family) (r s : Request) : Decidable (r.Equivalent f s) :=
  decidable_of_iff' _ equivalent_iff

variable {r s : Request}

theorem Equivalent.included_eq (h : r.Equivalent f s) (side : Side) :
    Encoding.included f (r.inclusion side) = Encoding.included f (s.inclusion side) := by
  rw [Encoding.included_eq_iff]
  exact h.included side

theorem Equivalent.excluded_eq (h : r.Equivalent f s) (side : Side) :
    Prefix.collapse (Prefix.ofFamily f (r.exclusion side))
      = Prefix.collapse (Prefix.ofFamily f (s.exclusion side)) := by
  rw [Prefix.collapse_ofFamily_eq_iff]
  exact h.excluded side

theorem Equivalent.difference_eq (h : r.Equivalent f s) (side : Side) :
    Encoding.difference f (r.inclusion side) (r.exclusion side)
      = Encoding.difference f (s.inclusion side) (s.exclusion side) := by
  unfold Encoding.difference
  rw [h.included_eq, h.excluded_eq]

theorem Equivalent.candidates_eq (h : r.Equivalent f s) (side : Side) :
    Encoding.candidates f (r.inclusion side) (r.exclusion side)
      = Encoding.candidates f (s.inclusion side) (s.exclusion side) := by
  rw [Encoding.candidates_eq, Encoding.candidates_eq]
  unfold Encoding.subtracted Encoding.returned Encoding.inverted
  rw [h.difference_eq, h.included_eq, h.excluded_eq]

end Request

namespace Plan

theorem ofRequest_eq_of_equivalent {r s : Request} (h : r.Equivalent f s) :
    ofRequest f r = ofRequest f s := by
  have hsource : Encoding.candidates f r.source r.sourceExclude
      = Encoding.candidates f s.source s.sourceExclude :=
    h.candidates_eq .source
  have hdestination : Encoding.candidates f r.destination r.destinationExclude
      = Encoding.candidates f s.destination s.destinationExclude :=
    h.candidates_eq .destination
  unfold ofRequest
  rw [hsource, hdestination]

theorem emptySide?_ofRequest (f : Family) (r : Request) :
    (ofRequest f r).emptySide? =
      if Encoding.difference f r.source r.sourceExclude = [] then some .source
      else if Encoding.difference f r.destination r.destinationExclude = [] then some .destination
      else none := by
  simp only [Encoding.difference_eq_nil, ← Encoding.candidates_eq_nil]
  obtain ⟨hplan, hs⟩ | ⟨hplan, hs, hd⟩ | ⟨s, d, hplan, hs, hd⟩ := ofRequest_cases f r
  . rw [hplan, if_pos hs]
    rfl
  . rw [hplan, if_neg hs, if_pos hd]
    rfl
  . rw [hplan, if_neg (List.ne_nil_of_mem hs), if_neg (List.ne_nil_of_mem hd)]
    rfl

theorem isSome_emptySide?_ofRequest :
    (ofRequest f r).emptySide?.isSome = true ↔ ∃ side, ∀ a : Address f, ¬r.Matches side a := by
  have hsource : Encoding.difference f r.source r.sourceExclude = [] ↔
      ∀ a : Address f, ¬r.Matches .source a :=
    Encoding.difference_eq_nil
  have hdestination : Encoding.difference f r.destination r.destinationExclude = []
      ↔ ∀ a : Address f, ¬r.Matches .destination a :=
    Encoding.difference_eq_nil
  have hside (P : Side → Prop) : (∃ side, P side) ↔ P .source ∨ P .destination := by
    constructor
    . rintro ⟨side, h⟩
      cases side with
      | source => exact .inl h
      | destination => exact .inr h
    . rintro (h | h)
      . exact ⟨_, h⟩
      . exact ⟨_, h⟩
  rw [emptySide?_ofRequest, hside, ← hsource, ← hdestination]
  split
  . next h => simp [h]
  . next h => split <;> simp_all

end Plan
end PacketPolicy

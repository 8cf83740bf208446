import PacketPolicy.Address.Set
import PacketPolicy.Proofs.Address.Leaves

namespace PacketPolicy

abbrev Address (f : Family) : Type :=
  BitVec f.width

namespace Prefix

/--
An address is covered by the prefixes of its family that agree with it in all but the host bits.
-/
def Covers (p : Prefix) (a : Address f) : Prop :=
  p.family = f ∧ a >>> p.hostBits = BitVec.ofNat f.width p.address >>> p.hostBits

instance (p : Prefix) (a : Address f) : Decidable (p.Covers a) :=
  inferInstanceAs (Decidable (_ ∧ _))

def Covered (ps : List Prefix) (a : Address f) : Prop :=
  ∃ p ∈ ps, p.Covers a

instance (ps : List Prefix) (a : Address f) : Decidable (Covered ps a) :=
  inferInstanceAs (Decidable (∃ p ∈ ps, p.Covers a))

theorem covers_self (p : Prefix) : p.Covers (BitVec.ofNat p.family.width p.address) := by
  exact ⟨rfl, rfl⟩

def subnet (p : Prefix) : Subnet where
  hostBits := p.hostBits
  number := p.address % 2 ^ p.family.width / 2 ^ p.hostBits

def ofSubnet (f : Family) (s : Subnet) : Prefix :=
  .ofNat f s.first (f.width - s.hostBits)

theorem covers_iff_has {p : Prefix} {a : Address f} :
    p.Covers a ↔ p.family = f ∧ p.subnet.Has a.toNat := by
  unfold Covers Subnet.Has subnet
  constructor
  . rintro ⟨hf, h⟩
    subst hf
    simpa [Nat.shiftRight_eq_div_pow] using congrArg BitVec.toNat h
  . rintro ⟨hf, h⟩
    subst hf
    refine ⟨rfl, ?_⟩
    apply BitVec.eq_of_toNat_eq
    simpa [Nat.shiftRight_eq_div_pow] using h

theorem covers_iff_contains_block {p : Prefix} {a : Address f} :
    p.Covers a ↔ p.family = f
      ∧ (PrefixTree.block f.width p.length p.address).contains f.width a.toNat = true := by
  unfold Covers hostBits
  apply and_congr_right
  intro hf
  subst hf
  rw [PrefixTree.contains_block]
  constructor
  . intro h i hle hlt
    have hbit := congrArg (BitVec.getLsbD · (i - (p.family.width - p.length))) h
    simp only [BitVec.getLsbD_ushiftRight, BitVec.getLsbD_ofNat, Nat.add_sub_cancel' hle] at hbit
    simpa [hlt, BitVec.testBit_toNat] using hbit
  . intro h
    apply BitVec.eq_of_getLsbD_eq
    intro i hi
    simp only [BitVec.getLsbD_ushiftRight, BitVec.getLsbD_ofNat]
    by_cases hlt : p.family.width - p.length + i < p.family.width
    . rw [← BitVec.testBit_toNat, h _ (Nat.le_add_right _ _) hlt]
      simp [hlt]
    . simp [hlt, BitVec.getLsbD_of_ge a _ (Nat.le_of_not_lt hlt)]

theorem covers_of_length_eq_zero {p : Prefix} (hf : p.family = f) (hl : p.length = 0)
    (a : Address f) :
    p.Covers a := by
  subst hf
  refine ⟨rfl, ?_⟩
  apply BitVec.eq_of_toNat_eq
  simp [hostBits, hl, Nat.shiftRight_eq_div_pow, Nat.div_eq_of_lt a.isLt]

theorem div_of_subnet_has {p : Prefix} (hx : p.subnet.Has x) : x / 2 ^ p.family.width = 0 := by
  have hle : p.hostBits ≤ p.family.width := Nat.sub_le _ _
  rw [Subnet.div_of_has hx hle]
  simp only [subnet]
  rw [Nat.div_div_eq_div_mul, ← Nat.pow_add, Nat.add_sub_cancel' hle]
  exact Nat.div_eq_of_lt (Nat.mod_lt _ (Nat.two_pow_pos _))

theorem hostBits_ofSubnet (hle : s.hostBits ≤ f.width) : (ofSubnet f s).hostBits = s.hostBits := by
  simp only [hostBits, ofSubnet, ofNat]
  omega

theorem address_ofSubnet (hle : s.hostBits ≤ f.width)
    (hnumber : s.number / 2 ^ (f.width - s.hostBits) = 0) :
    (ofSubnet f s).address = s.first :=
  Nat.mod_eq_of_lt (Subnet.first_lt hle hnumber)

theorem subnet_ofSubnet (hle : s.hostBits ≤ f.width)
    (hnumber : s.number / 2 ^ (f.width - s.hostBits) = 0) :
    (ofSubnet f s).subnet = s := by
  simp only [subnet, hostBits_ofSubnet hle, address_ofSubnet hle hnumber]
  show Subnet.mk _ (s.first % 2 ^ f.width / _) = s
  simp only [Nat.mod_eq_of_lt (Subnet.first_lt hle hnumber), Subnet.first_div]

theorem covers_ofSubnet (hle : s.hostBits ≤ g.width)
    (hnumber : s.number / 2 ^ (g.width - s.hostBits) = 0) (a : Address f) :
    (ofSubnet g s).Covers a ↔ g = f ∧ s.Has a.toNat := by
  rw [covers_iff_has, subnet_ofSubnet hle hnumber]
  rfl

theorem masked_eq_self_iff {p : Prefix} : p.masked = p ↔ p.size ∣ p.address := by
  cases p with
  | mk f a l =>
    rw [masked, Prefix.mk.injEq, Nat.dvd_iff_div_mul_eq]
    simp

theorem masked_ofSubnet (hle : s.hostBits ≤ f.width)
    (hnumber : s.number / 2 ^ (f.width - s.hostBits) = 0) :
    (ofSubnet f s).masked = ofSubnet f s := by
  rw [masked_eq_self_iff, size, hostBits_ofSubnet hle, address_ofSubnet hle hnumber]
  exact Nat.dvd_mul_right _ _

end Prefix

namespace PrefixTree

theorem leaves.go_eq_map_subnets (ht : Normal w t) (hl : l + w = f.width) :
    go f t w (2 ^ w * k) l = (subnets t w k).map (Prefix.ofSubnet f) := by
  induction t generalizing w k l with
  | empty => rfl
  | full =>
    simp only [go, subnets, List.map_cons, List.map_nil, Prefix.ofSubnet, Subnet.first]
    congr 2
    omega
  | split low high lih hih =>
    cases w with
    | zero => cases ht
    | succ w =>
      have hlow : 2 ^ (w + 1) * k = 2 ^ w * (2 * k) := by
        rw [Nat.pow_succ, Nat.mul_assoc]
      have hhigh : 2 ^ (w + 1) * k + Nat.pow 2 w = 2 ^ w * (2 * k + 1) := by
        rw [hlow, Nat.mul_add, Nat.mul_one]
        rfl
      simp only [go, subnets, Nat.add_sub_cancel, List.map_append]
      rw [hhigh, hlow, lih ht.1 (by omega), hih ht.2.1 (by omega)]

theorem leaves_eq_map_subnets (ht : Normal f.width t) :
    leaves f t = (subnets t f.width 0).map (Prefix.ofSubnet f) := by
  simpa [leaves] using leaves.go_eq_map_subnets (k := 0) ht (Nat.zero_add f.width)

end PrefixTree

namespace AddressSet

variable {s t : AddressSet}

def tree (s : AddressSet) : Family → PrefixTree
  | .v4 => s.v4
  | .v6 => s.v6

def Normal (s : AddressSet) : Prop :=
  ∀ f, (s.tree f).Normal f.width

theorem contains_eq_tree (s : AddressSet) (f : Family) (x : Nat) :
    s.contains f x = (s.tree f).contains f.width x := by
  cases f <;> rfl

theorem tree_ofPrefixes (ps : List Prefix) (f : Family) :
    (ofPrefixes ps).tree f = PrefixTree.ofPrefixes f ps := by
  cases f <;> rfl

theorem normal_ofPrefixes (ps : List Prefix) : (ofPrefixes ps).Normal := by
  intro f
  rw [tree_ofPrefixes]
  exact PrefixTree.normal_ofPrefixes f ps

theorem contains_ofPrefixes (ps : List Prefix) (a : Address f) :
    (ofPrefixes ps).contains f a.toNat = true ↔ Prefix.Covered ps a := by
  rw [contains_eq_tree, tree_ofPrefixes, PrefixTree.contains_ofPrefixes]
  simp only [Prefix.Covered, Prefix.covers_iff_contains_block]

theorem combines_diff (hs : s.Normal) (ht : t.Normal) (f : Family) :
    PrefixTree.Combines (fun x y => x && !y) f.width (s.tree f) (t.tree f) ((s.diff t).tree f) := by
  cases f
  . exact .diff (hs .v4) (ht .v4)
  . exact .diff (hs .v6) (ht .v6)

theorem combines_inter (hs : s.Normal) (ht : t.Normal) (f : Family) :
    PrefixTree.Combines and f.width (s.tree f) (t.tree f) ((s.inter t).tree f) := by
  cases f
  . exact .inter (hs .v4) (ht .v4)
  . exact .inter (hs .v6) (ht .v6)

theorem prefixes_eq (hs : s.Normal) :
    s.prefixes = ((s.tree .v4).subnets Family.v4.width 0).map (Prefix.ofSubnet .v4)
      ++ ((s.tree .v6).subnets Family.v6.width 0).map (Prefix.ofSubnet .v6) := by
  rw [← PrefixTree.leaves_eq_map_subnets (hs .v4), ← PrefixTree.leaves_eq_map_subnets (hs .v6)]
  rfl

theorem mem_prefixes (hs : s.Normal) :
    p ∈ s.prefixes ↔ ∃ f, ∃ u ∈ (s.tree f).subnets f.width 0, Prefix.ofSubnet f u = p := by
  rw [prefixes_eq hs]
  simp only [List.mem_append, List.mem_map]
  constructor
  . intro h
    cases h with
    | inl h => exact ⟨.v4, h⟩
    | inr h => exact ⟨.v6, h⟩
  . rintro ⟨f, h⟩
    cases f with
    | v4 => exact .inl h
    | v6 => exact .inr h

theorem covered_prefixes (hs : s.Normal) (a : Address f) :
    Prefix.Covered s.prefixes a ↔ s.contains f a.toNat = true := by
  have hleaves : (∃ u ∈ (s.tree f).subnets f.width 0, u.Has a.toNat) ↔
      s.contains f a.toNat = true := by
    rw [PrefixTree.exists_mem_subnets (hs f), contains_eq_tree]
    simp [Nat.div_eq_of_lt a.isLt]
  rw [← hleaves]
  constructor
  . rintro ⟨p, hp, hcovers⟩
    obtain ⟨g, u, hu, rfl⟩ := (mem_prefixes hs).mp hp
    have hbounds := PrefixTree.bounds_of_mem_subnets (hs g) hu
    obtain ⟨rfl, hhas⟩ := (Prefix.covers_ofSubnet hbounds.1 hbounds.2 a).mp hcovers
    exact ⟨u, hu, hhas⟩
  . rintro ⟨u, hu, hhas⟩
    have hbounds := PrefixTree.bounds_of_mem_subnets (hs f) hu
    refine ⟨Prefix.ofSubnet f u, (mem_prefixes hs).mpr ⟨f, u, hu, rfl⟩, ?_⟩
    exact (Prefix.covers_ofSubnet hbounds.1 hbounds.2 a).mpr ⟨rfl, hhas⟩

theorem exists_prefix_of_subset (hs : s.Normal) (q : Prefix)
    (hq : ∀ a : Address q.family, q.Covers a → s.contains q.family a.toNat = true) :
    ∃ p ∈ s.prefixes, ∀ f (a : Address f), q.Covers a → p.Covers a := by
  have hsub : ∀ x, q.subnet.Has x →
      x / 2 ^ q.family.width = 0 ∧ (s.tree q.family).contains q.family.width x = true := by
    intro x hx
    have hdiv := Prefix.div_of_subnet_has hx
    have hlt : x < 2 ^ q.family.width := by
      simpa [Nat.div_eq_zero_iff, Nat.two_pow_pos] using hdiv
    refine ⟨hdiv, ?_⟩
    have hcontains := hq (BitVec.ofNat q.family.width x)
    rw [Prefix.covers_iff_has, contains_eq_tree, BitVec.toNat_ofNat,
      Nat.mod_eq_of_lt hlt] at hcontains
    exact hcontains ⟨rfl, hx⟩
  obtain ⟨u, hu, hqu⟩ := PrefixTree.exists_subnet_of_subset (hs q.family) (Nat.sub_le _ _) hsub
  have hbounds := PrefixTree.bounds_of_mem_subnets (hs q.family) hu
  refine ⟨Prefix.ofSubnet q.family u, (mem_prefixes hs).mpr ⟨_, u, hu, rfl⟩, ?_⟩
  intro f a ha
  obtain ⟨hf, hhas⟩ := Prefix.covers_iff_has.mp ha
  exact (Prefix.covers_ofSubnet hbounds.1 hbounds.2 a).mpr ⟨hf, hqu _ hhas⟩

end AddressSet
end PacketPolicy

import Mathlib.Algebra.GroupWithZero.Nat
import PacketPolicy.Address.Text
import PacketPolicy.Proofs.Text.Number

namespace PacketPolicy
namespace Address

open Text (not_mem_toDigits readNatural_toDigits)

def joined (separator : Char) (base : Nat) (ns : List Nat) : List Char :=
  [separator].intercalate (ns.map (Nat.toDigits base))

theorem splitOn_joined (h : ∀ d < 16, Nat.digitChar d ≠ separator) (hbase : 1 < base)
    (hsixteen : base ≤ 16) (hns : ns ≠ []) :
    (joined separator base ns).splitOn separator = ns.map (Nat.toDigits base) := by
  apply List.splitOn_intercalate
  . intro cs hcs hmem
    obtain ⟨n, -, rfl⟩ := List.mem_map.mp hcs
    exact not_mem_toDigits h hbase hsixteen hmem
  . simpa using hns

theorem readOctet_toDigits : ∀ n < 256, readOctet (Nat.toDigits 10 n) = some n := by
  decide +kernel

theorem toList_quad (n : Nat) :
    (quad n).toList = joined '.' 10
      [n / 16777216 % 256, n / 65536 % 256, n / 256 % 256, n % 256] := by
  simp [quad, joined]

theorem readQuad_quad (h : n < 2 ^ 32) : readQuad (quad n).toList = some n := by
  rw [readQuad, toList_quad, splitOn_joined (by decide) (by decide) (by decide) (by simp)]
  simp only [List.map_cons, List.map_nil]
  rw [readOctet_toDigits _ (Nat.mod_lt _ (by decide)),
    readOctet_toDigits _ (Nat.mod_lt _ (by decide)),
    readOctet_toDigits _ (Nat.mod_lt _ (by decide)),
    readOctet_toDigits _ (Nat.mod_lt _ (by decide))]
  simp only [Option.bind_eq_bind, Option.bind_some, Option.pure_def, Option.some.injEq]
  omega

theorem readGroup_toDigits (h : g < 65536) : readGroup (Nat.toDigits 16 g) = some g := by
  have hlength : (Nat.toDigits 16 g).length ≤ 4 :=
    (Nat.length_toDigits_le_iff (by decide) (by decide)).mpr h
  rw [readGroup, if_pos hlength, readNatural_toDigits (by decide) (by decide) (by omega)]
  rfl

theorem readGroups_toDigits (h : ∀ g ∈ gs, g < 65536) :
    readGroups tail (gs.map (Nat.toDigits 16)) = some gs := by
  induction gs with
  | nil => rfl
  | cons g gs ih =>
    rw [List.forall_mem_cons] at h
    cases gs with
    | nil =>
      have hdot : '.' ∉ Nat.toDigits 16 g := not_mem_toDigits (by decide) (by decide) (by decide)
      simp [readGroups, hdot, readGroup_toDigits h.1]
    | cons g' gs =>
      specialize ih h.2
      simp only [List.map_cons] at ih ⊢
      simp [readGroups, ih, readGroup_toDigits h.1]

theorem toList_joinGroups (gs : List Nat) : (joinGroups gs).toList = joined ':' 16 gs := by
  simp [joinGroups, joined, groupText, String.toList_intercalate, Function.comp_def]

theorem joined_cons_cons (separator : Char) (base n m : Nat) (ns : List Nat) :
    joined separator base (n :: m :: ns)
      = Nat.toDigits base n ++ separator :: joined separator base (m :: ns) := by
  simp [joined]

theorem exists_joined_cons (separator : Char) (base n : Nat) (ns : List Nat) :
    ∃ rest, joined separator base (n :: ns) = Nat.toDigits base n ++ rest := by
  cases ns with
  | nil => exact ⟨[], by simp [joined]⟩
  | cons m ns => exact ⟨_, joined_cons_cons separator base n m ns⟩

theorem head?_joined_ne (g : Nat) (gs : List Nat) (rest : List Char) :
    (joined ':' 16 (g :: gs) ++ rest).head? ≠ some ':' := by
  obtain ⟨more, hmore⟩ := exists_joined_cons ':' 16 g gs
  obtain ⟨c, cs, hcs⟩ := List.exists_cons_of_ne_nil (Nat.toDigits_ne_nil (n := g) (b := 16))
  have hcolon : ':' ∉ Nat.toDigits 16 g := not_mem_toDigits (by decide) (by decide) (by decide)
  rw [hcs, List.mem_cons, not_or] at hcolon
  simp [hmore, hcs, Ne.symm hcolon.1]

theorem readSide_joined (h : ∀ g ∈ gs, g < 65536) : readSide tail (joined ':' 16 gs) = some gs := by
  cases gs with
  | nil => rfl
  | cons g gs =>
    rw [readSide, splitOn_joined (by decide) (by decide) (by decide) (by simp),
      readGroups_toDigits h]
    obtain ⟨rest, hrest⟩ := exists_joined_cons ':' 16 g gs
    simp [hrest]

theorem splitGap_cons (h : c = ':' → cs.head? ≠ some ':') :
    splitGap (c :: cs) = (splitGap cs).map fun (left, right) => (c :: left, right) := by
  rw [splitGap]
  rintro ds rfl rfl
  exact h rfl rfl

theorem splitGap_append (h : ':' ∉ cs) :
    splitGap (cs ++ rest) = (splitGap rest).map fun (left, right) => (cs ++ left, right) := by
  induction cs with
  | nil => simp
  | cons c cs ih =>
    rw [List.mem_cons, not_or] at h
    rw [List.cons_append, splitGap_cons (fun hc => absurd hc.symm h.1), ih h.2, Option.map_map]
    rfl

theorem splitGap_joined (gs : List Nat) (rest : List Char) :
    splitGap (joined ':' 16 gs ++ rest)
      = (splitGap rest).map fun (left, right) => (joined ':' 16 gs ++ left, right) := by
  have hcolon (g : Nat) : ':' ∉ Nat.toDigits 16 g :=
    not_mem_toDigits (by decide) (by decide) (by decide)
  induction gs with
  | nil => simp [joined]
  | cons g gs ih =>
    cases gs with
    | nil => simpa [joined] using splitGap_append (hcolon g)
    | cons g' gs =>
      rw [joined_cons_cons, List.append_assoc, splitGap_append (hcolon g), List.cons_append,
        splitGap_cons (fun _ => head?_joined_ne g' gs rest), ih, Option.map_map, Option.map_map]
      simp [Function.comp_def]

theorem readGrouped_joined (hlength : gs.length = 8) (h : ∀ g ∈ gs, g < 65536) :
    readGrouped (joined ':' 16 gs) = some (ofGroups gs) := by
  have hgap := splitGap_joined gs []
  rw [List.append_nil, splitGap, Option.map_none] at hgap
  have hne : gs ≠ [] := List.ne_nil_of_length_pos (by omega)
  have hsplit : (joined ':' 16 gs).splitOn ':' = gs.map (Nat.toDigits 16) :=
    splitOn_joined (by decide) (by decide) (by decide) hne
  rw [readGrouped, hgap]
  simp [hsplit, readGroups_toDigits h, hlength]

theorem readGrouped_gap (hlength : ls.length + k + rs.length = 8) (hk : 0 < k)
    (hls : ∀ g ∈ ls, g < 65536) (hrs : ∀ g ∈ rs, g < 65536) :
    readGrouped (joined ':' 16 ls ++ ':' :: ':' :: joined ':' 16 rs)
      = some (ofGroups (ls ++ List.replicate k 0 ++ rs)) := by
  have hshort : ls.length + rs.length < 8 := by omega
  have hk : 8 - ls.length - rs.length = k := by omega
  rw [readGrouped, splitGap_joined, splitGap, Option.map_some]
  simp [readSide_joined hls, readSide_joined hrs, hshort, hk]

theorem foldl_longestGap_le (indices : List Nat) (best : Nat × Nat)
    (h : best.2 ≤ zerosAt gs best.1) :
    let gap :=
      indices.foldl (fun best i => if best.2 < zerosAt gs i then (i, zerosAt gs i) else best) best
    gap.2 ≤ zerosAt gs gap.1 := by
  induction indices generalizing best with
  | nil => exact h
  | cons i indices ih =>
    apply ih
    dsimp only
    split
    . exact Nat.le_refl _
    . exact h

theorem eq_replicate_append_drop {xs : List Nat} (h : n ≤ (xs.takeWhile (· == 0)).length) :
    xs = List.replicate n 0 ++ xs.drop n := by
  induction n generalizing xs with
  | zero => simp
  | succ n ih =>
    cases xs with
    | nil => simp at h
    | cons x xs =>
      rw [List.takeWhile_cons] at h
      split at h
      . next hx =>
        rw [List.length_cons] at h
        rw [List.replicate_succ, List.cons_append, List.drop_succ_cons, ← ih (by omega),
          beq_iff_eq.mp hx]
      . simp at h

theorem take_append_gap_append_drop (gs : List Nat) :
    gs.take (longestGap gs).1 ++ List.replicate (longestGap gs).2 0
      ++ gs.drop ((longestGap gs).1 + (longestGap gs).2)
      = gs := by
  have hgap : (longestGap gs).2 ≤ zerosAt gs (longestGap gs).1 :=
    foldl_longestGap_le (List.range gs.length) (0, 0) (Nat.zero_le _)
  rw [List.append_assoc, ← List.drop_drop, ← eq_replicate_append_drop hgap, List.take_append_drop]

theorem length_groups (n : Nat) : (groups n).length = 8 := by
  simp [groups]

theorem lt_of_mem_groups (h : g ∈ groups n) : g < 65536 := by
  obtain ⟨i, -, rfl⟩ := List.mem_map.mp h
  exact Nat.mod_lt _ (by decide)

theorem ofGroups_groups (h : n < 2 ^ 128) : ofGroups (groups n) = n := by
  simp only [ofGroups, groups, List.range, List.range.loop, List.map_cons, List.map_nil,
    List.foldl_cons, List.foldl_nil]
  simp only [Nat.pow_eq, Nat.reducePow, Nat.reduceSub, Nat.div_one]
  omega

theorem readGrouped_grouped (h : n < 2 ^ 128) : readGrouped (grouped n).toList = some n := by
  have hlt : ∀ g ∈ groups n, g < 65536 := fun g => lt_of_mem_groups
  simp only [grouped]
  split
  . next hgap =>
    have hgroups := take_append_gap_append_drop (groups n)
    have hlength := congrArg List.length hgroups
    simp only [List.length_append, List.length_replicate, length_groups] at hlength
    have hread := readGrouped_gap hlength (by omega) (fun g hg => hlt g (List.mem_of_mem_take hg))
      (fun g hg => hlt g (List.mem_of_mem_drop hg))
    rw [hgroups, ofGroups_groups h] at hread
    simpa [toList_joinGroups] using hread
  . rw [toList_joinGroups, readGrouped_joined (length_groups n) hlt, ofGroups_groups h]

end Address
end PacketPolicy

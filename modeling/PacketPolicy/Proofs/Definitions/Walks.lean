import Mathlib.Logic.Relation
import PacketPolicy.Definitions.Basic

/-!
This module contains the graph of a table of definitions: the references between names, and the
walks along them that end at a value which is written out. The walks from a name are listed from
left to right, in depth first.
-/

namespace PacketPolicy
namespace Definitions

open Relation (ReflTransGen TransGen)

def written (table : Table) (name : String) : List String :=
  (table.lookup name).getD []

def Refers (table : Table) (name target : String) : Prop :=
  target ≠ "" ∧ (table.lookup target).isSome = true
    ∧ ∃ value ∈ written table name, strip value = target

def Cyclic (table : Table) (name : String) : Prop :=
  ∃ target, ReflTransGen (Refers table) name target ∧ TransGen (Refers table) target target

/--
The value at the end of a walk, and the name that it is a value of. Each number of a walk chooses
one of the values of a name; the walk goes on with this value if it is a name, and otherwise ends
there.
-/
def leafAt? (table : Table) (name : String) : List Nat → Option (String × String)
  | [] => none
  | place :: walk => do
    let value ← (written table name)[place]?
    if strip value = "" then none
    else if (table.lookup (strip value)).isSome then leafAt? table (strip value) walk
    else if walk = [] then some (name, strip value)
    else none

def walksThrough (table : Table) (further : String → List (List Nat)) (value : String)
    (place : Nat) :
    List (List Nat) :=
  if strip value = "" then []
  else if (table.lookup (strip value)).isSome then (further (strip value)).map (place :: ·)
  else [[place]]

def walks (table : Table) : (length : Nat) → (name : String) → List (List Nat)
  | 0, _ => []
  | n + 1, name =>
    (written table name).zipIdx.flatMap fun (value, place) =>
      walksThrough table (walks table n) value place

variable {table : Table} {name : String}

theorem exists_of_leafAt? (h : leafAt? table name (place :: walk) = some leaf) :
    ∃ value, (written table name)[place]? = some value ∧ strip value ≠ "" := by
  unfold leafAt? at h
  obtain ⟨value, hvalue, h⟩ := Option.bind_eq_some_iff.mp h
  exact ⟨value, hvalue, fun hempty => by simp [hempty] at h⟩

theorem leafAt?_cons {place : Nat} (hvalue : (written table name)[place]? = some value)
    (hne : strip value ≠ "") :
    leafAt? table name (place :: walk) =
      if (table.lookup (strip value)).isSome then leafAt? table (strip value) walk
      else if walk = [] then some (name, strip value)
      else none := by
  simp [leafAt?, hvalue, hne]

theorem refers_of_getElem? {place : Nat} (hvalue : (written table name)[place]? = some value)
    (hne : strip value ≠ "") (hname : (table.lookup (strip value)).isSome = true) :
    Refers table name (strip value) := by
  exact ⟨hne, hname, value, List.mem_of_getElem? hvalue, rfl⟩

theorem exists_cons_of_mem_walksThrough (h : walk ∈ walksThrough table further value place) :
    ∃ rest, walk = place :: rest := by
  unfold walksThrough at h
  split at h
  . simp at h
  . split at h
    . obtain ⟨rest, _, rfl⟩ := List.mem_map.mp h
      exact ⟨rest, rfl⟩
    . exact ⟨[], List.mem_singleton.mp h⟩

theorem mem_walksThrough {place : Nat} (hvalue : (written table name)[place]? = some value)
    (hfurther : ∀ {name walk}, walk ∈ further name ↔
      walk.length ≤ n ∧ (leafAt? table name walk).isSome = true) :
    place :: walk ∈ walksThrough table further value place ↔
      walk.length ≤ n ∧ (leafAt? table name (place :: walk)).isSome = true := by
  unfold walksThrough
  split
  . next hempty => simp [leafAt?, hvalue, hempty]
  . next hne =>
    rw [leafAt?_cons hvalue hne]
    split
    . simp [hfurther]
    . by_cases hend : walk = [] <;> simp [hend]

theorem mem_walks :
    walk ∈ walks table n name ↔ walk.length ≤ n ∧ (leafAt? table name walk).isSome = true := by
  induction n generalizing name walk with
  | zero =>
    cases walk with
    | nil => simp [walks, leafAt?]
    | cons place walk => simp [walks]
  | succ n ih =>
    simp only [walks, List.mem_flatMap, Prod.exists, List.mem_zipIdx_iff_getElem?]
    constructor
    . rintro ⟨value, place, hvalue, hwalk⟩
      obtain ⟨rest, rfl⟩ := exists_cons_of_mem_walksThrough hwalk
      simpa using (mem_walksThrough hvalue ih).mp hwalk
    . rintro ⟨hlength, hleaf⟩
      cases walk with
      | nil => simp [leafAt?] at hleaf
      | cons place rest =>
        obtain ⟨leaf, hsome⟩ := Option.isSome_iff_exists.mp hleaf
        obtain ⟨value, hvalue, _⟩ := exists_of_leafAt? hsome
        exact ⟨value, place, hvalue,
          (mem_walksThrough hvalue ih).mpr ⟨by simpa using hlength, hleaf⟩⟩

theorem pairwise_zipIdx (as : List α) : as.zipIdx.Pairwise fun a b => a.2 < b.2 := by
  have hplaces : (as.zipIdx.map Prod.snd).Pairwise (· < ·) := by
    rw [List.zipIdx_map_snd]
    exact List.pairwise_lt_range' 1
  exact List.pairwise_map.mp hplaces

theorem pairwise_walksThrough (hfurther : ∀ name, (further name).Pairwise (· < ·)) (value : String)
    (place : Nat) :
    (walksThrough table further value place).Pairwise (· < ·) := by
  unfold walksThrough
  split
  . apply List.Pairwise.nil
  . split
    . rw [List.pairwise_map]
      apply (hfurther (strip value)).imp
      intro walk walk' hlt
      exact List.cons_lt_cons_iff.mpr (.inr ⟨rfl, hlt⟩)
    . apply List.pairwise_singleton

theorem pairwise_walks (table : Table) (n : Nat) (name : String) :
    (walks table n name).Pairwise (· < ·) := by
  induction n generalizing name with
  | zero => simp [walks]
  | succ n ih =>
    unfold walks
    rw [List.pairwise_flatMap]
    constructor
    . rintro ⟨value, place⟩ _
      exact pairwise_walksThrough ih value place
    . -- Walks through different values differ in their first number.
      apply (pairwise_zipIdx _).imp
      rintro ⟨value, place⟩ ⟨value', place'⟩ hlt walk hwalk walk' hwalk'
      obtain ⟨rest, rfl⟩ := exists_cons_of_mem_walksThrough hwalk
      obtain ⟨rest', rfl⟩ := exists_cons_of_mem_walksThrough hwalk'
      exact List.cons_lt_cons_iff.mpr (.inl hlt)

-- The address of the shared name is reached by two walks.
example :
    walks [("ALL", ["LAN", "# none", "DMZ # again", "10.0.0.0/8"]), ("LAN", ["DMZ"]),
      ("DMZ", ["192.0.2.1"])] 3 "ALL" =
      [[0, 0, 0], [2, 0], [3]] := by
  decide +kernel

end Definitions
end PacketPolicy

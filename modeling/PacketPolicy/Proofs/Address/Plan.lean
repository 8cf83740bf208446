import PacketPolicy.Address.Plan
import PacketPolicy.Proofs.Address.Algebra

namespace PacketPolicy

open Prefix (Covered)

def Included (inclusion : Option (List Prefix)) (a : Address f) : Prop :=
  match inclusion with
  | none => True
  | some ps => Covered ps a

namespace Request

def inclusion (r : Request) : Side → Option (List Prefix)
  | .source => r.source
  | .destination => r.destination

def exclusion (r : Request) : Side → List Prefix
  | .source => r.sourceExclude
  | .destination => r.destinationExclude

def Matches (r : Request) (side : Side) (a : Address f) : Prop :=
  Included (r.inclusion side) a ∧ ¬Covered (r.exclusion side) a

end Request

namespace Encoding

def Matches (e : Encoding) (a : Address f) : Prop :=
  ¬Covered e.returns a ∧ Covered e.includes a

def included (f : Family) (inclusion : Option (List Prefix)) : List Prefix :=
  match inclusion with
  | none => [Prefix.all f]
  | some ps => Prefix.collapse (Prefix.ofFamily f ps)

theorem covered_collapse_ofFamily {ps : List Prefix} {a : Address g} :
    Covered (Prefix.collapse (Prefix.ofFamily f ps)) a ↔ g = f ∧ Covered ps a := by
  rw [(Prefix.normalForm_collapse _).exact]
  constructor
  . intro h
    obtain ⟨p, hp, ha⟩ := h
    have hfamily : p.family = f := by simpa using (List.mem_filter.mp hp).2
    exact ⟨ha.1.symm.trans hfamily, p, (List.mem_filter.mp hp).1, ha⟩
  . rintro ⟨hgf, h⟩
    subst hgf
    exact Prefix.covered_ofFamily.mpr h

theorem covered_included {a : Address g} :
    Covered (included f inclusion) a ↔ g = f ∧ Included inclusion a := by
  cases inclusion with
  | none => simp [included, Included, Prefix.covered_singleton_all]
  | some ps => exact covered_collapse_ofFamily

def difference (f : Family) (inclusion : Option (List Prefix)) (exclusion : List Prefix) :
    List Prefix :=
  Prefix.subtract (included f inclusion) (Prefix.collapse (Prefix.ofFamily f exclusion))

theorem covered_difference {a : Address g} :
    Covered (difference f inclusion exclusion) a ↔
      g = f ∧ Included inclusion a ∧ ¬Covered exclusion a := by
  rw [difference, (Prefix.normalForm_subtract _ _).exact, covered_included,
    covered_collapse_ofFamily]
  constructor
  . rintro ⟨⟨hgf, hincluded⟩, hexcluded⟩
    exact ⟨hgf, hincluded, fun h => hexcluded ⟨hgf, h⟩⟩
  . rintro ⟨hgf, hincluded, hexcluded⟩
    exact ⟨⟨hgf, hincluded⟩, fun h => hexcluded h.2⟩

theorem difference_eq_nil :
    difference f inclusion exclusion = [] ↔
      ∀ a : Address f, ¬(Included inclusion a ∧ ¬Covered exclusion a) := by
  constructor
  . intro h a ha
    have hcovered : Covered (difference f inclusion exclusion) a := covered_difference.mpr ⟨rfl, ha⟩
    simp [h, Covered] at hcovered
  . intro h
    -- The first prefix of the list would cover its own address.
    cases hd : difference f inclusion exclusion with
    | nil => rfl
    | cons p ps =>
      have hcovered : Covered (difference f inclusion exclusion)
          (BitVec.ofNat p.family.width p.address) :=
        ⟨p, by simp [hd], p.covers_self⟩
      obtain ⟨hfamily, ha⟩ := covered_difference.mp hcovered
      subst hfamily
      exact absurd ha (h _)

def subtracted (f : Family) (inclusion : Option (List Prefix)) (exclusion : List Prefix) :
    Encoding where
  includes := difference f inclusion exclusion
  returns := []

def returned (f : Family) (inclusion : Option (List Prefix)) (exclusion : List Prefix) :
    Encoding where
  includes := included f inclusion
  returns := Prefix.intersect (Prefix.collapse (Prefix.ofFamily f exclusion)) (included f inclusion)

def inverted (f : Family) (inclusion : Option (List Prefix)) (exclusion : List Prefix) :
    Encoding where
  includes := [Prefix.all f]
  returns := Prefix.complement f (difference f inclusion exclusion)

theorem candidates_eq (f : Family) (inclusion : Option (List Prefix)) (exclusion : List Prefix) :
    candidates f inclusion exclusion =
      if (difference f inclusion exclusion).isEmpty then []
      else [subtracted f inclusion exclusion]
        ++ (if (returned f inclusion exclusion).returns.isEmpty then []
          else [returned f inclusion exclusion])
        ++ (if difference f inclusion exclusion == [Prefix.all f] then []
          else [inverted f inclusion exclusion]) := by
  cases inclusion <;> rfl

theorem candidates_eq_nil :
    candidates f inclusion exclusion = [] ↔
      ∀ a : Address f, ¬(Included inclusion a ∧ ¬Covered exclusion a) := by
  rw [← difference_eq_nil, candidates_eq]
  split <;> simp_all

theorem matches_subtracted {a : Address f} :
    (subtracted f inclusion exclusion).Matches a ↔ Included inclusion a ∧ ¬Covered exclusion a := by
  have hreturns : ¬Covered [] a := by simp [Covered]
  simp only [Matches, subtracted, covered_difference, hreturns]
  simp

theorem matches_returned {a : Address f} :
    (returned f inclusion exclusion).Matches a ↔ Included inclusion a ∧ ¬Covered exclusion a := by
  unfold Matches returned
  rw [(Prefix.normalForm_intersect _ _).exact, covered_included, covered_collapse_ofFamily]
  constructor
  . rintro ⟨hreturn, _, hincluded⟩
    exact ⟨hincluded, fun hexcluded => hreturn ⟨⟨rfl, hexcluded⟩, rfl, hincluded⟩⟩
  . rintro ⟨hincluded, hexcluded⟩
    exact ⟨fun hreturn => hexcluded hreturn.1.2, rfl, hincluded⟩

theorem matches_inverted {a : Address f} :
    (inverted f inclusion exclusion).Matches a ↔ Included inclusion a ∧ ¬Covered exclusion a := by
  unfold Matches inverted
  rw [(Prefix.normalForm_complement _ _).exact, covered_difference, Prefix.covered_singleton_all]
  simp

theorem mem_candidates_cases (he : e ∈ candidates f inclusion exclusion) :
    e = subtracted f inclusion exclusion ∨ e = returned f inclusion exclusion
      ∨ e = inverted f inclusion exclusion := by
  rw [candidates_eq] at he
  split at he
  . simp at he
  . simp only [List.mem_append, List.mem_singleton] at he
    cases he with
    | inl he =>
      cases he with
      | inl he => exact .inl he
      | inr he =>
        split at he
        . simp at he
        . exact .inr (.inl (List.mem_singleton.mp he))
    | inr he =>
      split at he
      . simp at he
      . exact .inr (.inr (List.mem_singleton.mp he))

theorem matches_of_mem_candidates (he : e ∈ candidates f inclusion exclusion) (a : Address f) :
    e.Matches a ↔ Included inclusion a ∧ ¬Covered exclusion a := by
  obtain rfl | rfl | rfl := mem_candidates_cases he
  . exact matches_subtracted
  . exact matches_returned
  . exact matches_inverted

theorem includes_ne_nil_of_mem_candidates (he : e ∈ candidates f inclusion exclusion) :
    e.includes ≠ [] := by
  have hne := List.ne_nil_of_mem he
  rw [Ne, candidates_eq_nil] at hne
  obtain ⟨a, ha⟩ : ∃ a : Address f, Included inclusion a ∧ ¬Covered exclusion a := by
    simpa using hne
  obtain ⟨_, p, hp, _⟩ := (matches_of_mem_candidates he a).mpr ha
  exact List.ne_nil_of_mem hp

theorem family_of_mem_candidates (he : e ∈ candidates f inclusion exclusion) :
    (∀ p ∈ e.includes, p.family = f) ∧ ∀ p ∈ e.returns, p.family = f := by
  -- A prefix covers its own address, so the family of what a list covers is the family of its
  -- prefixes.
  have hself : ∀ {p : Prefix} {ps}, p ∈ ps → Covered ps (BitVec.ofNat p.family.width p.address) :=
    fun hp => ⟨_, hp, Prefix.covers_self _⟩
  obtain rfl | rfl | rfl := mem_candidates_cases he
  . refine ⟨fun p hp => (covered_difference.mp (hself hp)).1, ?_⟩
    simp [subtracted]
  . refine ⟨fun p hp => (covered_included.mp (hself hp)).1, fun p hp => ?_⟩
    exact (covered_included.mp (((Prefix.normalForm_intersect _ _).exact _ _).mp (hself hp)).2).1
  . refine ⟨fun p hp => Prefix.covered_singleton_all.mp (hself hp), fun p hp => ?_⟩
    exact (((Prefix.normalForm_complement _ _).exact _ _).mp (hself hp)).1

theorem length_ne_zero_of_mem_returns (he : e ∈ candidates f inclusion exclusion)
    (hp : p ∈ e.returns) :
    p.length ≠ 0 := by
  intro hzero
  have hne := List.ne_nil_of_mem he
  rw [ne_eq, candidates_eq_nil] at hne
  obtain ⟨a, ha⟩ : ∃ a : Address f, Included inclusion a ∧ ¬Covered exclusion a := by
    simpa using hne
  apply ((matches_of_mem_candidates he a).mpr ha).1
  exact ⟨p, hp, Prefix.covers_of_length_eq_zero ((family_of_mem_candidates he).2 p hp) hzero a⟩

theorem mem_pairs : p ∈ pairs ss ds ↔ p.1 ∈ ss ∧ p.2 ∈ ds := by
  unfold pairs
  constructor
  . intro h
    obtain ⟨s, hs, h⟩ := List.mem_flatMap.mp h
    obtain ⟨d, hd, rfl⟩ := List.mem_map.mp h
    exact ⟨hs, hd⟩
  . rintro ⟨hs, hd⟩
    exact List.mem_flatMap.mpr ⟨p.1, hs, List.mem_map.mpr ⟨p.2, hd, rfl⟩⟩

theorem pairs_eq_nil (hs : ss ≠ []) : pairs ss ds = [] ↔ ds = [] := by
  obtain ⟨s, ss, rfl⟩ := List.exists_cons_of_ne_nil hs
  cases ds <;> simp [pairs]

theorem cheapest_eq_none : cheapest ps = none ↔ ps = [] := by
  cases ps <;> simp [cheapest]

theorem foldl_best_mem (ps : List (Encoding × Encoding)) (best : Encoding × Encoding) :
    ps.foldl (fun best q => if cost q.1 q.2 < cost best.1 best.2 then q else best) best
      ∈ best :: ps := by
  induction ps generalizing best with
  | nil => simp
  | cons p ps ih =>
    rw [List.foldl_cons]
    specialize ih (if cost p.1 p.2 < cost best.1 best.2 then p else best)
    split at ih
    . next hlt =>
      simp only [hlt, ↓reduceIte]
      exact List.mem_cons_of_mem _ ih
    . next hlt =>
      simp only [hlt, ↓reduceIte]
      simp only [List.mem_cons] at ih ⊢
      cases ih with
      | inl h => exact .inl h
      | inr h => exact .inr (.inr h)

theorem mem_of_cheapest (h : cheapest ps = some p) : p ∈ ps := by
  cases ps with
  | nil => simp [cheapest] at h
  | cons first ps =>
    simp only [cheapest, Option.some.injEq] at h
    rw [← h]
    exact foldl_best_mem ps first

end Encoding

namespace Plan

def prefixes (plan : Plan) (side : Side) : List Prefix :=
  match plan, side with
  | .empty _, _ => []
  | .rules s _, .source => s.includes ++ s.returns
  | .rules _ d, .destination => d.includes ++ d.returns

def returns (plan : Plan) (side : Side) : List Prefix :=
  match plan, side with
  | .empty _, _ => []
  | .rules s _, .source => s.returns
  | .rules _ d, .destination => d.returns

def Matches : Plan → Side → Address f → Prop
  | .empty _, _, _ => False
  | .rules s _, .source, a => s.Matches a
  | .rules _ d, .destination, a => d.Matches a

theorem ofRequest_cases (f : Family) (r : Request) :
    (ofRequest f r = .empty .source ∧ Encoding.candidates f r.source r.sourceExclude = [])
      ∨ (ofRequest f r = .empty .destination ∧ Encoding.candidates f r.source r.sourceExclude ≠ []
          ∧ Encoding.candidates f r.destination r.destinationExclude = [])
      ∨ ∃ s d, ofRequest f r = .rules s d ∧ s ∈ Encoding.candidates f r.source r.sourceExclude
          ∧ d ∈ Encoding.candidates f r.destination r.destinationExclude := by
  unfold ofRequest
  split
  . next hnil => exact .inl ⟨rfl, hnil⟩
  . next hne =>
    right
    split
    . next hnone =>
      left
      refine ⟨rfl, hne, ?_⟩
      rwa [Encoding.cheapest_eq_none, Encoding.pairs_eq_nil hne] at hnone
    . next s d hsome =>
      right
      have hmem := Encoding.mem_pairs.mp (Encoding.mem_of_cheapest hsome)
      exact ⟨s, d, rfl, hmem.1, hmem.2⟩

theorem exists_candidate_of_mem_prefixes (hp : p ∈ (ofRequest f r).prefixes side) :
    ∃ e ∈ Encoding.candidates f (r.inclusion side) (r.exclusion side),
      p ∈ e.includes ++ e.returns := by
  obtain ⟨hplan, _⟩ | ⟨hplan, _⟩ | ⟨s, d, hplan, hs, hd⟩ := ofRequest_cases f r
  . simp [hplan, prefixes] at hp
  . simp [hplan, prefixes] at hp
  . rw [hplan] at hp
    cases side with
    | source => exact ⟨s, hs, hp⟩
    | destination => exact ⟨d, hd, hp⟩

theorem length_ne_zero_of_mem_returns (h : p ∈ (ofRequest f r).returns side) : p.length ≠ 0 := by
  obtain ⟨hplan, _⟩ | ⟨hplan, _⟩ | ⟨s, d, hplan, hs, hd⟩ := ofRequest_cases f r
  . simp [hplan, returns] at h
  . simp [hplan, returns] at h
  . rw [hplan] at h
    cases side with
    | source => exact Encoding.length_ne_zero_of_mem_returns hs h
    | destination => exact Encoding.length_ne_zero_of_mem_returns hd h

theorem matches_ofRequest (f : Family) (r : Request) (x y : Address f) :
    (ofRequest f r).Matches .source x ∧ (ofRequest f r).Matches .destination y ↔
      r.Matches .source x ∧ r.Matches .destination y := by
  obtain ⟨hplan, hs⟩ | ⟨hplan, _, hd⟩ | ⟨s, d, hplan, hs, hd⟩ := ofRequest_cases f r
  . have hnone : ¬r.Matches .source x := Encoding.candidates_eq_nil.mp hs x
    simp [hplan, Matches, hnone]
  . have hnone : ¬r.Matches .destination y := Encoding.candidates_eq_nil.mp hd y
    simp [hplan, Matches, hnone]
  . rw [hplan]
    exact and_congr (Encoding.matches_of_mem_candidates hs x)
      (Encoding.matches_of_mem_candidates hd y)

theorem includes_ne_nil_of_rules (h : ofRequest f r = .rules s d) :
    s.includes ≠ [] ∧ d.includes ≠ [] := by
  obtain ⟨hplan, _⟩ | ⟨hplan, _⟩ | ⟨s', d', hplan, hs, hd⟩ := ofRequest_cases f r
  . simp [hplan] at h
  . simp [hplan] at h
  . rw [hplan] at h
    cases h
    exact ⟨Encoding.includes_ne_nil_of_mem_candidates hs,
      Encoding.includes_ne_nil_of_mem_candidates hd⟩

/--
A plan is empty at the first side for which no address is asked for. Otherwise its rules match the
pairs of addresses that the request asks for.
-/
theorem ofRequest_matches_exactly (f : Family) (r : Request) :
    (ofRequest f r = .empty .source ↔ ∀ x : Address f, ¬r.Matches .source x)
      ∧ (ofRequest f r = .empty .destination ↔
          (∃ x : Address f, r.Matches .source x) ∧ ∀ y : Address f, ¬r.Matches .destination y)
      ∧ (ofRequest f r = .empty .source ∨ ofRequest f r = .empty .destination
          ∨ ∃ s d, ofRequest f r = .rules s d ∧ ∀ x y : Address f,
              s.Matches x ∧ d.Matches y ↔ r.Matches .source x ∧ r.Matches .destination y) := by
  have hsource : Encoding.candidates f r.source r.sourceExclude = [] ↔
      ∀ x : Address f, ¬r.Matches .source x :=
    Encoding.candidates_eq_nil
  have hdestination : Encoding.candidates f r.destination r.destinationExclude = []
      ↔ ∀ y : Address f, ¬r.Matches .destination y :=
    Encoding.candidates_eq_nil
  obtain ⟨hplan, hs⟩ | ⟨hplan, hs, hd⟩ | ⟨s, d, hplan, hs, hd⟩ := ofRequest_cases f r
  . rw [hsource] at hs
    refine ⟨by simp [hplan, hs], by simp [hplan, hs], .inl hplan⟩
  . rw [Ne, hsource] at hs
    rw [hdestination] at hd
    refine ⟨by simpa [hplan] using hs, by simpa [hplan, hd] using hs, .inr (.inl hplan)⟩
  . have hsne := List.ne_nil_of_mem hs
    have hdne := List.ne_nil_of_mem hd
    rw [Ne, hsource] at hsne
    rw [Ne, hdestination] at hdne
    refine ⟨by simpa [hplan] using hsne, by simp [hplan, hdne], .inr (.inr ⟨s, d, hplan, ?_⟩)⟩
    intro x y
    exact and_congr (Encoding.matches_of_mem_candidates hs x)
      (Encoding.matches_of_mem_candidates hd y)

end Plan
end PacketPolicy

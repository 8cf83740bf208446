import PacketPolicy.Proofs.Policy.Resolution

/-!
This module contains the way of a term from a document to a policy: the mapping that it is written
as, and the keys of the mapping that become extensions of the term.
-/

namespace PacketPolicy

namespace Yaml.Node

def HasField (n : Node) (key : String) (m : Node) : Prop :=
  ∃ entries, n.asEntries = .ok entries ∧ (key, m) ∈ entries

def HasItem (n m : Node) : Prop :=
  ∃ items, n.asItems = .ok items ∧ m ∈ items

end Yaml.Node

namespace Draft

open Yaml (Node)

def Term.keys : List String := [
  "name", "protocol", "protocol-except", "source-address", "source-exclude", "destination-address",
  "destination-exclude", "source-port", "destination-port", "option", "icmp-type", "action",
    "logging", "owner",
  "comment", "verbatim", "expiration", "source-interface", "destination-interface", "packet-length",
  "fragment-offset", "ether-type", "platform", "platform-exclude"]

theorem Term.extensions_of_set {t : Term} (h : t.set key n = .ok t') :
    (key ∈ keys ∧ t'.extensions = t.extensions)
      ∨ (key ∉ keys ∧ ∃ text, t'.extensions
        = t.extensions.filter (·.1 != key) ++ [(key, text)]) := by
  unfold Term.set at h
  split at h
  case h_25 =>
    obtain ⟨v, _, h⟩ := bind_eq_ok.mp h
    obtain rfl := pure_eq_ok.mp h
    refine .inr ⟨?_, v.toText, rfl⟩
    simp_all [keys]
  all_goals
    obtain ⟨_, _, h⟩ := bind_eq_ok.mp h
    obtain rfl := pure_eq_ok.mp h
    exact .inl ⟨by decide, rfl⟩

theorem Term.mem_extensions_of_set {t : Term} (h : t.set key n = .ok t') :
    k ∈ t'.extensions.map (·.1) ↔ k ∈ t.extensions.map (·.1) ∨ k = key ∧ k ∉ keys := by
  obtain ⟨hkey, heq⟩ | ⟨hkey, text, heq⟩ := extensions_of_set h
  . rw [heq]
    constructor
    . exact .inl
    . rintro (hk | ⟨rfl, hk⟩)
      . exact hk
      . exact absurd hkey hk
  . have hmem : k ∈ t'.extensions.map (·.1) ↔ (k ∈ t.extensions.map (·.1) ∧ k ≠ key) ∨ k = key := by
      simp [heq, List.mem_filter, and_comm]
    rw [hmem]
    by_cases hk : k = key
    . simp [hk, hkey]
    . simp [hk]

theorem Term.mem_extensions_of_foldlM {t : Term} {entries : List (String × Node)}
    (h : entries.foldlM (fun t (key, n) => t.set key n) t = .ok t') :
    k ∈ t'.extensions.map (·.1) ↔
      k ∈ t.extensions.map (·.1) ∨ k ∈ entries.map (·.1) ∧ k ∉ keys := by
  induction entries generalizing t with
  | nil =>
    obtain rfl := pure_eq_ok.mp h
    simp
  | cons entry entries ih =>
    rw [List.foldlM_cons] at h
    obtain ⟨t₁, hset, hrest⟩ := bind_eq_ok.mp h
    rw [ih hrest, mem_extensions_of_set hset, List.map_cons, List.mem_cons, or_and_right, or_assoc]

theorem Term.mem_extensions_of_fill (h : fill Term.set {} n = .ok t) :
    k ∈ t.extensions.map (·.1) ↔ (∃ m, n.HasField k m) ∧ k ∉ keys := by
  obtain ⟨entries, hentries, h⟩ := bind_eq_ok.mp h
  have hfield : k ∈ entries.map (·.1) ↔ ∃ m, n.HasField k m := by
    simp [Node.HasField, hentries]
  rw [mem_extensions_of_foldlM h, hfield]
  simp

section

variable {set : α → String → Node → Except Yaml.Error α}

/--
What holds of an empty value and is kept by every field that is set holds of a value that is filled.
-/
@[elab_as_elim]
theorem fill_induction {motive : α → Prop} (h : fill set a n = .ok b) (empty : motive a)
    (field : ∀ a key m a', n.HasField key m → set a key m = .ok a' → motive a → motive a') :
    motive b := by
  obtain ⟨entries, hentries, hfold⟩ := bind_eq_ok.mp h
  refine foldlM_induction hfold empty fun entry hentry a a' hset => ?_
  exact field a entry.1 entry.2 a' ⟨entries, hentries, hentry⟩ hset

theorem mem_of_fillAll (h : fillAll set empty n = .ok as) (ha : a ∈ as) :
    ∃ m, n.HasItem m ∧ fill set empty m = .ok a := by
  obtain ⟨items, hitems, h⟩ := bind_eq_ok.mp h
  obtain ⟨m, hm, hfill⟩ := (mem_of_mapM_eq_ok h).mp ha
  exact ⟨m, ⟨items, hitems, hm⟩, hfill⟩

end

theorem mem_terms_of_fill (h : fill Filter.set {} n = .ok f) :
    ∀ t ∈ f.terms, ∃ terms m, n.HasField "terms" terms ∧ terms.HasItem m
      ∧ fill Term.set {} m = .ok t := by
  refine fill_induction h (by simp) fun f key m f' hfield hset hf => ?_
  unfold Filter.set at hset
  split at hset
  . have hterms : f'.terms = f.terms := by
      dsimp only at hset
      split at hset
      all_goals
        obtain ⟨header, _, hset⟩ := bind_eq_ok.mp hset
        rw [← pure_eq_ok.mp hset]
    rw [hterms]
    exact hf
  . obtain ⟨terms, hterms, hset⟩ := bind_eq_ok.mp hset
    obtain rfl := pure_eq_ok.mp hset
    intro t ht
    obtain ⟨item, hitem, hfill⟩ := mem_of_fillAll hterms ht
    exact ⟨m, item, hfield, hitem, hfill⟩
  . obtain rfl := pure_eq_ok.mp hset
    exact hf

theorem mem_filters_of_fill (h : fill Policy.set {} n = .ok p) :
    ∀ f ∈ p.filters, ∃ filters m, n.HasField "filters" filters ∧ filters.HasItem m
      ∧ fill Filter.set {} m = .ok f := by
  refine fill_induction h (by simp) fun p key m p' hfield hset hp => ?_
  unfold Policy.set at hset
  split at hset
  . obtain ⟨filters, hfilters, hset⟩ := bind_eq_ok.mp hset
    obtain rfl := pure_eq_ok.mp hset
    intro f hf
    obtain ⟨item, hitem, hfill⟩ := mem_of_fillAll hfilters hf
    exact ⟨m, item, hfield, hitem, hfill⟩
  . obtain rfl := pure_eq_ok.mp hset
    exact hp

def IsTerm (s : String) (n : Node) : Prop :=
  ∃ root filters filter terms, Node.ofText s = .ok (some root) ∧ root.HasField "filters" filters
    ∧ filters.HasItem filter ∧ filter.HasField "terms" terms ∧ terms.HasItem n

theorem exists_isTerm_of_ofText (h : Policy.ofText s = .ok p) (hf : f ∈ p.filters)
    (ht : t ∈ f.terms) :
    ∃ n, IsTerm s n ∧ fill Term.set {} n = .ok t := by
  obtain ⟨root?, hroot, h⟩ := bind_eq_ok.mp h
  cases root? with
  | none =>
    obtain rfl := pure_eq_ok.mp h
    simp at hf
  | some root =>
    obtain ⟨filters, filter, hfilters, hfilter, hfill⟩ := mem_filters_of_fill h f hf
    obtain ⟨terms, n, hterms, hn, hfill⟩ := mem_terms_of_fill hfill t ht
    exact ⟨n, ⟨root, filters, filter, terms, hroot, hfilters, hfilter, hterms, hn⟩, hfill⟩

theorem mem_terms_of_resolve {f : Filter} (h : f.resolve d = .ok f') (ht : t ∈ f'.terms) :
    ∃ draft ∈ f.terms, draft.resolve d = .ok t := by
  unfold Filter.resolve at h
  split at h
  . exact absurd h throw_bind_ne_ok
  . obtain ⟨targets, _, h⟩ := bind_eq_ok.mp h
    obtain ⟨terms, hterms, h⟩ := bind_eq_ok.mp h
    obtain rfl := pure_eq_ok.mp h
    obtain ⟨draft, hdraft, hresolve⟩ := (mem_of_mapM_eq_ok hterms).mp ht
    exact ⟨draft, hdraft, mapError_eq_ok.mp hresolve⟩

theorem mem_of_resolveFilters (h : resolveFilters d index fs = .ok fs') (hf : f ∈ fs') :
    ∃ draft ∈ fs, draft.resolve d = .ok f := by
  induction fs generalizing index fs' with
  | nil =>
    cases h
    simp at hf
  | cons first rest ih =>
    obtain ⟨f₁, hfirst, h⟩ := bind_eq_ok.mp h
    obtain ⟨fs₁, hrest, h⟩ := bind_eq_ok.mp h
    obtain rfl := pure_eq_ok.mp h
    cases hf with
    | head => exact ⟨first, List.mem_cons_self, mapError_eq_ok.mp hfirst⟩
    | tail _ hf =>
      obtain ⟨draft, hdraft, hresolve⟩ := ih hrest hf
      exact ⟨draft, List.mem_cons_of_mem first hdraft, hresolve⟩

theorem exists_isTerm_of_read (h : PacketPolicy.Policy.read d s = .ok p) (hf : f ∈ p.filters)
    (ht : t ∈ f.terms) :
    ∃ n draft, IsTerm s n ∧ fill Term.set {} n = .ok draft ∧ draft.resolve d = .ok t := by
  unfold PacketPolicy.Policy.read at h
  split at h
  . simp at h
  . next policy htext =>
    unfold Policy.resolve at h
    split at h
    . exact absurd h throw_bind_ne_ok
    . obtain ⟨filters, hfilters, h⟩ := bind_eq_ok.mp h
      obtain rfl := pure_eq_ok.mp h
      obtain ⟨filter, hfilter, hresolve⟩ := mem_of_resolveFilters hfilters hf
      obtain ⟨draft, hdraft, hresolve⟩ := mem_terms_of_resolve hresolve ht
      obtain ⟨n, hn, hfill⟩ := exists_isTerm_of_ofText htext hfilter hdraft
      exact ⟨n, draft, hn, hfill, hresolve⟩

end Draft
end PacketPolicy

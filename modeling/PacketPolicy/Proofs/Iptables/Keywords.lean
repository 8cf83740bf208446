import PacketPolicy.Proofs.Iptables.Rules
import PacketPolicy.Proofs.Policy.Keys

/-!
This module contains the proof of which keywords without a field are refused. The keywords of fields
are checked by names with underscores while documents write them with dashes, so a field that is
written with an underscore passes the check, and is ignored.
-/

namespace PacketPolicy
namespace Iptables

/--
The names of fields that only the check of keywords uses.
-/
def underscored : List String :=
  ["source_interface", "destination_interface", "packet_length", "fragment_offset"]

theorem mem_supportedKeywords_iff (hk : k ∉ Draft.Term.keys) :
    k ∈ supportedKeywords ↔ k ∈ underscored := by
  have hkeys : ∀ k ∈ supportedKeywords, k ∈ Draft.Term.keys ∨ k ∈ underscored := by decide
  have hsupported : ∀ k ∈ underscored, k ∈ supportedKeywords := by decide
  exact ⟨fun h => (hkeys k h).resolve_left hk, hsupported k⟩

namespace Matching

variable {t : Term}

theorem mem_optionalKeywords_iff (hk : k ∉ supportedKeywords) :
    k ∈ t.optionalKeywords ↔ t.etherType ≠ [] ∧ k = "ether_type" ∨ k ∈ t.extensions.map (·.1) := by
  simp only [supportedKeywords, List.mem_cons, List.not_mem_nil, or_false, not_or] at hk
  simp [Term.optionalKeywords, List.mem_filter, hk]

theorem checkProtocols_eq_error (h : checkProtocols t = .error e) :
    e.kind = .unsupportedFilter := by
  unfold checkProtocols at h
  split at h
  . simp at h
  . split at h
    . cases h
      rfl
    . cases h
      rfl

theorem checkKeywords_eq_error (h : checkKeywords t = .error e) : e.kind = .unsupportedFilter := by
  unfold checkKeywords at h
  split at h
  . next hkeyword =>
    cases h
    obtain ⟨k, _, rfl⟩ := Option.map_eq_some_iff.mp hkeyword
    rfl
  . simp at h

theorem ofTerm_eq_error (hverbatim : t.isVerbatim = false) (hk : k ∈ t.optionalKeywords)
    (hsupported : k ∉ supportedKeywords) :
    ∃ e, ofTerm f stateful t = .error e ∧ e.kind = .unsupportedFilter := by
  unfold ofTerm
  rw [if_neg (by simp [hverbatim])]
  cases hprotocols : checkProtocols t with
  | error e => exact ⟨e, rfl, checkProtocols_eq_error hprotocols⟩
  | ok _ =>
    cases hkeywords : checkKeywords t with
    | error e => exact ⟨e, rfl, checkKeywords_eq_error hkeywords⟩
    | ok _ => exact absurd (checkKeywords_eq_ok.mp hkeywords k hk) hsupported

theorem find?_optionalKeywords (h : ∀ k ∈ t.extensions.map (·.1), k ∈ supportedKeywords) :
    t.optionalKeywords.find? (fun k => !supportedKeywords.contains k) =
      if t.etherType = [] then none else some "ether_type" := by
  cases hfind : t.optionalKeywords.find? (fun k => !supportedKeywords.contains k) with
  | none =>
    have hether : t.etherType = [] := by
      refine Decidable.byContradiction fun hether => ?_
      have hmem := (mem_optionalKeywords_iff (by decide)).mpr (.inl ⟨hether, rfl⟩)
      exact List.find?_eq_none.mp hfind "ether_type" hmem (by decide)
    rw [if_pos hether]
  | some k =>
    have hsupported : k ∉ supportedKeywords := by simpa using List.find?_some hfind
    obtain ⟨hether, rfl⟩ | hextension :=
      (mem_optionalKeywords_iff hsupported).mp (List.mem_of_find?_eq_some hfind)
    . rw [if_neg hether]
    . exact absurd (h k hextension) hsupported

theorem ofTerm_ignores (h : ∀ k ∈ t.extensions.map (·.1), k ∈ supportedKeywords) :
    ofTerm f stateful { t with extensions := [] } = ofTerm f stateful t := by
  have hkeywords : checkKeywords { t with extensions := [] } = checkKeywords t := by
    unfold checkKeywords Term.unsupportedKeyword?
    rw [find?_optionalKeywords h, find?_optionalKeywords (by simp)]
  unfold ofTerm
  rw [hkeywords]
  rfl

end Matching

namespace Block

variable {t : Term}

theorem ofTerm_eq_error (hverbatim : t.isVerbatim = false) (hk : k ∈ t.optionalKeywords)
    (hsupported : k ∉ supportedKeywords) :
    ∃ e, ofTerm filter f stateful shortening t = .error e ∧ e.kind = .unsupportedFilter := by
  obtain ⟨e, he, hkind⟩ := Matching.ofTerm_eq_error hverbatim hk hsupported
  refine ⟨e, ?_, hkind⟩
  unfold ofTerm
  rw [he]
  rfl

theorem lines_ofTerm_ignores (hverbatim : t.isVerbatim = false)
    (h : ∀ k ∈ t.extensions.map (·.1), k ∈ supportedKeywords) :
    (ofTerm filter f stateful shortening { t with extensions := [] }).map (lines parent) =
      (ofTerm filter f stateful shortening t).map (lines parent) := by
  have hverbatim' : Term.isVerbatim { t with extensions := [] } = false := hverbatim
  unfold ofTerm
  rw [Matching.ofTerm_ignores h]
  cases Matching.ofTerm f stateful t with
  | error e => rfl
  | ok m =>
    show (finish filter f stateful shortening { t with extensions := [] } m).map (lines parent) =
      (finish filter f stateful shortening t m).map (lines parent)
    simp only [finish, hverbatim, hverbatim', Bool.false_eq_true, ↓reduceIte]
    cases Icmp.codes f t.icmpType t.protocol with
    | error e => rfl
    | ok codes => cases TermName.fit maxNameBytes shortening t.name <;> rfl

end Block

theorem Document.ofPolicy_eq_error (hf : f ∈ policy.filters)
    (htarget : (f.target? platform).isSome = true) (ht : t ∈ f.terms)
    (happlies : t.appliesTo platform = true) (hverbatim : t.isVerbatim = false)
    (hk : k ∈ t.optionalKeywords) (hsupported : k ∉ supportedKeywords) :
    ∃ e, (ofPolicy clock policy).result = .error e := by
  cases h : (ofPolicy clock policy).result with
  | error e => exact ⟨e, rfl⟩
  | ok d =>
    obtain ⟨family, stateful, m, hm⟩ := exists_check_of_ofPolicy h hf htarget ht happlies
    obtain ⟨e, he, _⟩ := Matching.ofTerm_eq_error hverbatim hk hsupported
    rw [he] at hm
    simp at hm

/--
The extensions of a term are the keys of its mapping that it has no field for. The term is refused
if one of them is not a field that is written with an underscore. If all of them are, then its rules
are those without them.
-/
theorem extensions_refused_or_ignored (h : Policy.read definitions s = .ok policy)
    (hf : f ∈ policy.filters) (ht : t ∈ f.terms) (happlies : t.appliesTo platform = true)
    (hverbatim : t.isVerbatim = false) :
    (∃ n draft, Draft.IsTerm s n ∧ Draft.fill Draft.Term.set {} n = .ok draft
      ∧ draft.resolve definitions = .ok t
        ∧ ∀ k, k ∈ t.extensions.map (·.1) ↔ (∃ m, n.HasField k m) ∧ k ∉ Draft.Term.keys)
      ∧ ((∃ k ∈ t.extensions.map (·.1), k ∉ underscored) →
          (∀ filter family stateful shortening, ∃ e,
            Block.ofTerm filter family stateful shortening t = .error e
              ∧ e.kind = .unsupportedFilter)
          ∧ ((f.target? platform).isSome = true →
            ∀ clock, ∃ e, (Document.ofPolicy clock policy).result = .error e))
      ∧ ((∀ k ∈ t.extensions.map (·.1), k ∈ underscored) →
        ∀ filter family stateful shortening parent,
          (Block.ofTerm filter family stateful shortening { t with extensions := [] }).map
              (Block.lines parent)
            = (Block.ofTerm filter family stateful shortening t).map (Block.lines parent)) := by
  obtain ⟨n, draft, hn, hfill, hresolve⟩ := Draft.exists_isTerm_of_read h hf ht
  have hextensions : t.extensions = draft.extensions := by
    rw [(Draft.Term.resolve_eq_ok.mp hresolve).others]
  have hkeys : ∀ k, k ∈ t.extensions.map (·.1) ↔ (∃ m, n.HasField k m) ∧ k ∉ Draft.Term.keys := by
    intro k
    rw [hextensions]
    exact Draft.Term.mem_extensions_of_fill hfill
  refine ⟨⟨n, draft, hn, hfill, hresolve, hkeys⟩, ?_, ?_⟩
  . rintro ⟨k, hk, hunderscored⟩
    have hsupported := mt (mem_supportedKeywords_iff ((hkeys k).mp hk).2).mp hunderscored
    have hoptional := (Matching.mem_optionalKeywords_iff hsupported).mpr (.inr hk)
    exact ⟨fun filter family stateful shortening =>
      Block.ofTerm_eq_error hverbatim hoptional hsupported, fun htarget clock =>
      Document.ofPolicy_eq_error hf htarget ht happlies hverbatim hoptional hsupported⟩
  . intro hunderscored filter family stateful shortening parent
    apply Block.lines_ofTerm_ignores hverbatim
    intro k hk
    exact (mem_supportedKeywords_iff ((hkeys k).mp hk).2).mpr (hunderscored k hk)

theorem exists_term_of_any (definitions : Definitions) (s : String)
    (P : Policy → Filter → Term → Bool) (h : (Policy.read definitions s).toOption.any
      (fun policy => policy.filters.any fun f => f.terms.any (P policy f)) = true) :
    ∃ policy f t, Policy.read definitions s = .ok policy ∧ f ∈ policy.filters ∧ t ∈ f.terms
      ∧ P policy f t = true := by
  obtain ⟨policy, hpolicy, h⟩ := exists_ok_of_any h
  obtain ⟨f, hf, h⟩ := List.any_eq_true.mp h
  obtain ⟨t, ht, h⟩ := List.any_eq_true.mp h
  exact ⟨policy, f, t, hpolicy, hf, ht, h⟩

def interfaceDocument (key : String) : String :=
  "filters:\n- header:\n    target: iptables INPUT\n  terms:\n  - name: lan\n    " ++ key
    ++ ": eth0\n    action: accept\n"

theorem refuses_interfaceDocument :
    ∃ policy f t, Policy.read {} (interfaceDocument "in-interface") = .ok policy
      ∧ f ∈ policy.filters ∧ t ∈ f.terms
      ∧ t.extensions = [("in-interface", "eth0")]
      ∧ (∀ filter family stateful shortening, ∃ e,
          Block.ofTerm filter family stateful shortening t = .error e ∧ e.kind = .unsupportedFilter)
      ∧ ∀ clock, ∃ e, (Document.ofPolicy clock policy).result = .error e := by
  obtain ⟨policy, f, t, hpolicy, hf, ht, h⟩ :=
    exists_term_of_any {} (interfaceDocument "in-interface")
    (fun _ f t => t.appliesTo platform && !t.isVerbatim && (f.target? platform).isSome
      && t.extensions == [("in-interface", "eth0")]) (by decide +kernel)
  simp only [Bool.and_eq_true, Bool.not_eq_eq_eq_not, Bool.not_true, beq_iff_eq] at h
  obtain ⟨⟨⟨happlies, hverbatim⟩, htarget⟩, hextensions⟩ := h
  obtain ⟨hblock, hdocument⟩ := (extensions_refused_or_ignored hpolicy hf ht happlies hverbatim).2.1
    ⟨"in-interface", by simp [hextensions], by decide⟩
  exact ⟨policy, f, t, hpolicy, hf, ht, hextensions, hblock, hdocument htarget⟩

/--
Written with an underscore, the key is not refused, and packets of any interface pass.
-/
theorem ignores_interfaceDocument :
    ∃ policy f t, Policy.read {} (interfaceDocument "source_interface") = .ok policy
      ∧ f ∈ policy.filters
      ∧ t ∈ f.terms ∧ t.appliesTo platform = true ∧ t.isVerbatim = false
      ∧ t.extensions = [("source_interface", "eth0")]
      ∧ (∃ b ls, Block.ofTerm "INPUT" .v4 true {} t = .ok b ∧ b.lines "INPUT" = .ok ls
        ∧ .append "I_lan" [.state true] (some .accept) ∈ ls)
      ∧ ∃ d, (Document.ofPolicy epoch policy).result = .ok d := by
  obtain ⟨policy, f, t, hpolicy, hf, ht, h⟩ :=
    exists_term_of_any {} (interfaceDocument "source_interface")
    (fun policy _ t => t.appliesTo platform && !t.isVerbatim
      && t.extensions == [("source_interface", "eth0")]
      && (Block.ofTerm "INPUT" .v4 true {} t).toOption.any
        (fun b => (b.lineList "INPUT").contains (.append "I_lan" [.state true] (some .accept)))
      && (Document.ofPolicy epoch policy).result.toOption.any (fun _ => true)) (by decide +kernel)
  simp only [Bool.and_eq_true, Bool.not_eq_eq_eq_not, Bool.not_true, beq_iff_eq] at h
  obtain ⟨⟨⟨⟨happlies, hverbatim⟩, hextensions⟩, hblock⟩, hdocument⟩ := h
  obtain ⟨b, hb, hline⟩ := exists_ok_of_any hblock
  obtain ⟨d, hd, _⟩ := exists_ok_of_any hdocument
  refine ⟨policy, f, t, hpolicy, hf, ht, happlies, hverbatim, hextensions,
    ⟨b, _, hb, b.lines_eq "INPUT", ?_⟩, d, hd⟩
  simpa using hline

end Iptables
end PacketPolicy

import PacketPolicy.Iptables.Document
import PacketPolicy.Proofs.Iptables.Acceptance
import PacketPolicy.Proofs.Iptables.Rendered
import PacketPolicy.Proofs.Render.Filter

namespace PacketPolicy
namespace Iptables

namespace Options

theorem add?_defaultAction {o : Options} (h : o.add? word = some o')
    (ho : o.defaultAction = "" ∨ o.defaultAction ∈ defaultActions) :
    o'.defaultAction = "" ∨ o'.defaultAction ∈ defaultActions := by
  unfold add? at h
  split at h
  . next hword =>
    cases h
    exact .inr (by simpa using hword)
  . split at h
    . cases h
      exact ho
    . obtain ⟨common, _, rfl⟩ := Option.map_eq_some_iff.mp h
      exact ho

theorem readFrom_defaultAction {o : Options} (h : readFrom filter o words = .ok o')
    (ho : o.defaultAction = "" ∨ o.defaultAction ∈ defaultActions) :
    o'.defaultAction = "" ∨ o'.defaultAction ∈ defaultActions := by
  induction words generalizing o with
  | nil =>
    unfold readFrom at h
    split at h
    . simp at h
    . cases h
      exact ho
  | cons word words ih =>
    unfold readFrom at h
    split at h
    . simp at h
    . next hadd => exact ih h (add?_defaultAction hadd ho)

end Options

def Block.chain? : Block → Option Chain
  | .verbatim _ => none
  | .chain c => some c

namespace FilterPart

structure Renders (p : FilterPart) (clock : Clock) (f : Filter) (o : Options) : Prop where
  named : p.chain ≠ ""
  chain_eq : p.chain = f.name platform
  options : Options.readFrom p.chain {} (f.options platform) = .ok o
  defaultAction_eq : p.defaultAction = o.defaultAction
  family_eq : p.family = o.common.family
  comment_eq : p.comment = f.comment
  blocks : (renderer p.chain o).Selects clock [] f.terms p.blocks

theorem exists_renders_of_ofFilter {f : Filter} (h : (ofFilter clock f).result = .ok p) :
    ∃ o, p.Renders clock f o := by
  obtain ⟨o, bs, hassembles, rfl⟩ := Assembler.exists_of_part h
  exact ⟨o, hassembles.named, rfl, hassembles.options, rfl, rfl, rfl,
    Renderer.selects_of_blocksFrom hassembles.blocks⟩

theorem lines_eq (p : FilterPart) :
    p.lines = p.chainLines.map fun chain =>
      p.headLines ++ chain ++ p.blocks.flatMap (Block.lineList p.chain) := by
  have hblocks : ∀ b ∈ p.blocks, (b.lines p.chain).mapError (·.annotate platform p.chain)
      = .ok (b.lineList p.chain) := by
    intro b _
    rw [b.lines_eq]
    rfl
  unfold lines
  rw [mapM_eq_ok_map hblocks, List.flatMap_def]
  cases p.chainLines <;> rfl

variable {p : FilterPart} {f : Filter}

theorem Renders.exists_ofTerm (h : p.Renders clock f o) (hb : b ∈ p.blocks) :
    ∃ t ∈ f.terms, t.appliesTo platform = true
      ∧ Block.ofTerm p.chain p.family o.stateful o.common.shortening t = .ok b := by
  obtain ⟨t, ht, happlies, m, hcheck, _, _, hfinish⟩ := h.blocks.exists_keeps hb
  rw [h.family_eq]
  exact ⟨t, ht, happlies, bind_eq_ok.mpr ⟨m, hcheck, hfinish⟩⟩

theorem Renders.exists_chain (h : p.Renders clock f o) (hc : .chain c ∈ p.blocks) :
    ∃ t ∈ f.terms, t.appliesTo platform = true ∧ t.isVerbatim = false
      ∧ c.Renders p.chain p.family o.stateful o.common.shortening t := by
  obtain ⟨t, ht, happlies, hofTerm⟩ := h.exists_ofTerm hc
  have hverbatim : t.isVerbatim = false := by
    obtain ⟨m, _, hfinish⟩ := bind_eq_ok.mp hofTerm
    cases hverbatim : t.isVerbatim with
    | false => rfl
    | true => simp [Block.finish, hverbatim] at hfinish
  obtain ⟨c', hc', hrenders⟩ := Block.exists_renders_of_ofTerm hverbatim hofTerm
  cases hc'
  exact ⟨t, ht, happlies, hverbatim, hrenders⟩

theorem Renders.exists_eq_chain (h : p.Renders clock f o)
    (hverbatim : ∀ t ∈ f.terms, t.isVerbatim = false) (hb : b ∈ p.blocks) :
    ∃ c, b = .chain c ∧ ∃ t ∈ f.terms,
      c.Renders p.chain p.family o.stateful o.common.shortening t := by
  obtain ⟨t, ht, _, hofTerm⟩ := h.exists_ofTerm hb
  obtain ⟨c, hc, hrenders⟩ := Block.exists_renders_of_ofTerm (hverbatim t ht) hofTerm
  exact ⟨c, hc, t, ht, hrenders⟩

/--
The chain of the part satisfies `P`, and its blocks are chains of terms that satisfy `Q`.
-/
structure Consists (P : String → Prop) (Q : Chain → Prop) (p : FilterPart) : Prop where
  chain : P p.chain
  blocks : ∀ b ∈ p.blocks, ∃ c, b = .chain c ∧ Q c

theorem Consists.setTarget (h : p.Consists P Q) (hnew : new ≠ "" → P new) (action : String) :
    (p.setTarget new action).Consists P Q := by
  refine ⟨?_, h.blocks⟩
  show P (if new == "" then p.chain else new)
  split
  . exact h.chain
  . next hne => exact hnew (by simpa using hne)

theorem Renders.consists (h : p.Renders clock f o) (hchain : P p.chain)
    (hverbatim : ∀ t ∈ f.terms, t.isVerbatim = false)
    (hterms : ∀ t ∈ f.terms, ∀ c family stateful shortening,
    c.Renders p.chain family stateful shortening t → Q c) :
    p.Consists P Q := by
  refine ⟨hchain, fun b hb => ?_⟩
  obtain ⟨c, hc, t, ht, hrenders⟩ := h.exists_eq_chain hverbatim hb
  exact ⟨c, hc, hterms t ht c _ _ _ hrenders⟩

theorem Renders.exists_lines (h : p.Renders clock f o) :
    ∃ chain, p.chainLines = .ok chain
      ∧ p.lines = .ok (p.headLines ++ chain ++ p.blocks.flatMap (Block.lineList p.chain)) := by
  have haction : p.defaultAction = "" ∨ p.defaultAction ∈ defaultActions := by
    rw [h.defaultAction_eq]
    exact Options.readFrom_defaultAction h.options (.inl rfl)
  obtain ⟨chain, hchain⟩ : ∃ chain, p.chainLines = .ok chain := by
    unfold chainLines
    split
    . split
      . exact ⟨_, rfl⟩
      . next hempty =>
        have hmem := haction.resolve_left (by simpa using hempty)
        rw [if_pos (by simpa using hmem)]
        exact ⟨_, rfl⟩
    . exact ⟨_, rfl⟩
  refine ⟨chain, hchain, ?_⟩
  rw [lines_eq, hchain]
  rfl

end FilterPart

namespace Document

theorem parts_of_ofPolicy (h : (ofPolicy clock policy).result = .ok d) :
    (policy.filters.filter fun f => (f.target? platform).isSome).mapM
      (fun f => (FilterPart.ofFilter clock f).result) = .ok d.parts := by
  obtain ⟨parts, hparts, h⟩ := Traced.result_bind_eq_ok.mp h
  obtain rfl := Traced.result_pure_eq_ok.mp h
  rw [← Policy.result_build]
  exact hparts

theorem exists_renders_of_mem (h : (ofPolicy clock policy).result = .ok d) (hp : p ∈ d.parts) :
    ∃ f ∈ policy.filters, (f.target? platform).isSome = true ∧ ∃ o, p.Renders clock f o := by
  obtain ⟨parts, hparts, h⟩ := Traced.result_bind_eq_ok.mp h
  obtain rfl := Traced.result_pure_eq_ok.mp h
  obtain ⟨f, hf, htarget, hpart⟩ := Policy.exists_of_mem_build hparts hp
  exact ⟨f, hf, htarget, FilterPart.exists_renders_of_ofFilter hpart⟩

def setTargets (targets : List (String × String)) (d : Document) : Document :=
  targets.foldl (fun d (chain, action) => d.setTarget chain action) d

theorem forall_setTargets {R : FilterPart → Prop} {d : Document} (h : ∀ p ∈ d.parts, R p)
    (hset : ∀ t ∈ targets, ∀ p, R p → R (p.setTarget t.1 t.2)) :
    ∀ p ∈ (setTargets targets d).parts, R p := by
  induction targets generalizing d with
  | nil => exact h
  | cons t targets ih =>
    rw [List.forall_mem_cons] at hset
    apply ih _ hset.2
    show ∀ p ∈ d.parts.map (FilterPart.setTarget t.1 t.2), R p
    rw [List.forall_mem_map]
    intro p hp
    exact hset.1 p (h p hp)

theorem forall_of_ofPolicy {R : FilterPart → Prop} (h : (ofPolicy clock policy).result = .ok d)
    (hfilters : ∀ f ∈ policy.filters, (f.target? platform).isSome = true →
      ∀ p o, p.Renders clock f o → R p)
    (hset : ∀ t ∈ targets, ∀ p, R p → R (p.setTarget t.1 t.2)) :
    ∀ p ∈ (setTargets targets d).parts, R p := by
  apply forall_setTargets _ hset
  intro p hp
  obtain ⟨f, hf, htarget, o, hrenders⟩ := exists_renders_of_mem h hp
  exact hfilters f hf htarget p o hrenders

theorem exists_check_of_ofPolicy (h : (ofPolicy clock policy).result = .ok d)
    (hf : f ∈ policy.filters) (htarget : (f.target? platform).isSome = true) (ht : t ∈ f.terms)
    (happlies : t.appliesTo platform = true) :
    ∃ family stateful m, Matching.ofTerm family stateful t = .ok m := by
  obtain ⟨p, _, hpart⟩ :=
    exists_of_mapM_eq_ok (parts_of_ofPolicy h) (List.mem_filter.mpr ⟨hf, htarget⟩)
  obtain ⟨o, hrenders⟩ := FilterPart.exists_renders_of_ofFilter hpart
  obtain ⟨m, hm⟩ := hrenders.blocks.exists_check ht happlies
  exact ⟨_, _, m, hm⟩

theorem exists_chain_of_any (clock : Clock) (policy : Policy) (P : FilterPart → Chain → Bool)
    (h : (ofPolicy clock policy).result.toOption.any
      (fun d => d.parts.any fun part => (part.blocks.filterMap Block.chain?).any (P part)) = true) :
    ∃ d part c, (ofPolicy clock policy).result = .ok d ∧ part ∈ d.parts ∧ .chain c ∈ part.blocks
      ∧ P part c = true := by
  obtain ⟨d, hd, h⟩ := exists_ok_of_any h
  obtain ⟨part, hpart, h⟩ := List.any_eq_true.mp h
  obtain ⟨c, hc, h⟩ := List.any_eq_true.mp h
  obtain ⟨b, hb, hchain⟩ := List.mem_filterMap.mp hc
  cases b with
  | verbatim t => simp [Block.chain?] at hchain
  | chain c' =>
    cases hchain
    exact ⟨d, part, c, hd, hpart, hb, h⟩

end Document

end Iptables
end PacketPolicy

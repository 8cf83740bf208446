import PacketPolicy.Ipsec.Document
import PacketPolicy.Proofs.Ipsec.Acceptance
import PacketPolicy.Proofs.Render.Filter

namespace PacketPolicy
namespace Ipsec

namespace FilterPart

structure Renders (p : FilterPart) (clock : Clock) (f : Filter) (o : FilterOptions) : Prop where
  named : p.name ≠ ""
  name_eq : p.name = f.name platform
  options : readOptionsFrom p.name {} (f.options platform) = .ok o
  family_eq : p.family = o.family
  comment_eq : p.comment = f.comment
  blocks : (renderer p.name o).Selects clock [] f.terms p.blocks

theorem exists_renders_of_ofFilter {f : Filter} (h : (ofFilter clock f).result = .ok p) :
    ∃ o, p.Renders clock f o := by
  obtain ⟨o, bs, hassembles, rfl⟩ := Assembler.exists_of_part h
  exact ⟨o, hassembles.named, rfl, hassembles.options, rfl, rfl,
    Renderer.selects_of_blocksFrom hassembles.blocks⟩

theorem Renders.exists_renders {p : FilterPart} (h : p.Renders clock f o) (hb : b ∈ p.blocks) :
    ∃ t ∈ f.terms, t.appliesTo platform = true ∧ b.Renders p.name p.family o.shortening t := by
  obtain ⟨t, ht, happlies, a, hcheck, _, _, hfinish⟩ := h.blocks.exists_keeps hb
  rw [h.family_eq]
  exact ⟨t, ht, happlies, Block.renders_of_finish hcheck hfinish⟩

end FilterPart

namespace Document

theorem exists_renders_of_mem (h : (ofPolicy clock policy).result = .ok d) (hp : p ∈ d.parts) :
    ∃ f ∈ policy.filters, ∃ o, p.Renders clock f o := by
  obtain ⟨parts, hparts, h⟩ := Traced.result_bind_eq_ok.mp h
  obtain rfl := Traced.result_pure_eq_ok.mp h
  obtain ⟨f, hf, _, hpart⟩ := Policy.exists_of_mem_build hparts hp
  exact ⟨f, hf, FilterPart.exists_renders_of_ofFilter hpart⟩

theorem isVerbatim_of_ofPolicy
    (hverbatim : ∀ f ∈ policy.filters, ∀ t ∈ f.terms, t.isVerbatim = false)
    (h : (ofPolicy clock policy).result = .ok d) :
    ∀ p ∈ d.parts, ∀ b ∈ p.blocks, b.term.isVerbatim = false := by
  intro p hp b hb
  obtain ⟨f, hf, o, hrenders⟩ := exists_renders_of_mem h hp
  obtain ⟨t, ht, _, hb⟩ := hrenders.exists_renders hb
  rw [hb.term_eq]
  exact hverbatim f hf t ht

end Document

end Ipsec
end PacketPolicy

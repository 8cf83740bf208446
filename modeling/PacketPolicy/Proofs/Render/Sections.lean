import PacketPolicy.Proofs.Ipsec.Document
import PacketPolicy.Proofs.Iptables.Document
import PacketPolicy.Proofs.Render.Addresses
import PacketPolicy.Proofs.Render.Omissions
import PacketPolicy.Render.Platform

namespace PacketPolicy

structure Section where
  platform : Platform
  name : String
  family : Family
  blocks : List (Term × Except Fault (List String))

def Iptables.Block.term : Block → Term
  | .verbatim t => t
  | .chain c => c.term

def Iptables.FilterPart.toSection (p : FilterPart) : Section where
  platform := .iptables
  name := p.chain
  family := p.family
  blocks := p.blocks.map fun b => (b.term, (b.lines p.chain).map fun ls => ls.map Line.text)

def Ipsec.FilterPart.toSection (p : FilterPart) : Section where
  platform := .ipsec
  name := p.name
  family := p.family
  blocks :=
    p.blocks.map fun b => (b.term, (b.statements p.name).map fun ss => ss.map Statement.text)

def Document.sections : Document → List Section
  | .iptables d => d.parts.map Iptables.FilterPart.toSection
  | .ipsec d => d.parts.map Ipsec.FilterPart.toSection

def Term.Lacks (f : Family) (t : Term) : Prop :=
  ∃ side, ∀ a : Address f, ¬t.request.Matches side a

namespace Section

def place (s : Section) (t : Term) : Place :=
  ⟨s.platform.name, s.name, t.name⟩

def selects (s : Section) (clock : Clock) (t : Term) : Bool :=
  t.appliesTo s.platform.name && (Icmp.foreign? s.family t.protocol).isNone
    && clock.expiry t.expiration != .expired

def Omits (s : Section) (clock : Clock) (t : Term) : Prop :=
  t.appliesTo s.platform.name = true
    ∧ (Icmp.foreign? s.family t.protocol ≠ none ∨ clock.expiry t.expiration = .expired
      ∨ (t.isVerbatim = false ∧ t.Lacks s.family))

/--
Nothing is written for a term without addresses, and something for every other term. Only the
message types of control protocols can be left to fail later, on the platform that cannot express
them.
-/
def Writes (s : Section) (t : Term) (written : Except Fault (List String)) : Prop :=
  (∃ lines, written = .ok lines ∧ (lines = [] ↔ t.Lacks s.family))
    ∨ s.platform = .ipsec ∧ t.icmpType ≠ [] ∧ ∃ e, written = .error e

/--
The section holds the terms of the filter that are to be rendered, and `log` tells of the others.
-/
structure Accounts (s : Section) (clock : Clock) (f : Filter) (log : List Log.Entry) : Prop where
  name_eq : s.name = f.name s.platform.name
  kept : s.blocks.map Prod.fst = f.terms.filter (s.selects clock)
  nodup : (s.blocks.map Prod.fst).Nodup
  written : ∀ b ∈ s.blocks, b.1.isVerbatim = false → s.Writes b.1 b.2
  reported : ∃ head report, log = head ++ f.terms.flatMap report
    ∧ (∀ e ∈ head, ∀ t, (s.place t).omits e = false)
    ∧ ∀ t ∈ f.terms, (s.place t).Reports (s.Omits clock t) (report t)

structure MadeBy (s : Section) (r : Renderer α β) : Prop where
  platform_eq : s.platform.name = r.platform
  name_eq : s.name = r.filter
  family_eq : s.family = r.family
  empty : ∀ t, r.emptySide t ≠ none ↔ t.Lacks r.family

variable {s : Section} {r : Renderer α β}

theorem MadeBy.selects_eq (h : s.MadeBy r) : s.selects clock = r.selects clock := by
  funext t
  unfold selects Renderer.selects
  rw [h.platform_eq, h.family_eq]

theorem MadeBy.reports (h : s.MadeBy r) (clock : Clock) (t : Term) :
    (s.place t).Reports (s.Omits clock t) (r.report clock t) := by
  have hplace : s.place t = r.place t := by
    unfold place Renderer.place
    rw [h.platform_eq, h.name_eq]
  have homits : s.Omits clock t ↔ r.Omits clock t := by
    unfold Omits Renderer.Omits
    rw [h.platform_eq, h.family_eq, h.empty]
  rw [hplace, homits]
  exact r.reports_report clock t

/--
How the parts that a platform makes are read as sections.
-/
structure Describes (a : Assembler ω α β γ) (toSection : γ → Section) (term : β → Term) : Prop where
  platform_eq : ∀ p, (toSection p).platform.name = a.platform
  name_eq : ∀ name o f bs, (toSection (a.assemble name o f bs)).name = name
  madeBy : ∀ name o f bs, (toSection (a.assemble name o f bs)).MadeBy (a.renderer name o)
  terms : ∀ name o f bs, (toSection (a.assemble name o f bs)).blocks.map Prod.fst = bs.map term
  keeps : ∀ name o clock t b, (a.renderer name o).Keeps clock t b → term b = t
  notices : ∀ name, ∀ e ∈ a.notices name, ∀ place : Place, place.omits e = false
  writes : ∀ clock f p, (a.part clock f).result = .ok p →
    ∀ b ∈ (toSection p).blocks, b.1.isVerbatim = false →
    (toSection p).Writes b.1 b.2

theorem Describes.accounts {a : Assembler ω α β γ} {toSection : γ → Section}
    (h : Describes a toSection term) (hpart : (a.part clock f).result = .ok p) :
    (toSection p).Accounts clock f (a.part clock f).log := by
  have hwrites := h.writes clock f p hpart
  obtain ⟨o, bs, hassembles, rfl⟩ := Assembler.exists_of_part hpart
  have hmade := h.madeBy (f.name a.platform) o f bs
  have hselects := Renderer.selects_of_blocksFrom hassembles.blocks
  have hterms : bs.map term = f.terms.filter
      ((a.renderer (f.name a.platform) o).selects clock) := by
    rw [← List.forall₂_eq_eq_eq, List.forall₂_map_left_iff]
    exact hselects.forall₂_keeps.flip.imp fun b t hkeeps => h.keeps _ _ clock t b hkeeps
  refine ⟨?_, ?_, ?_, hwrites, ?_⟩
  . rw [h.name_eq, h.platform_eq]
  . rw [h.terms, hterms, hmade.selects_eq]
  . rw [h.terms, hterms]
    exact hselects.nodup_selected
  . exact ⟨_, _, Assembler.log_part hassembles, fun e he t => h.notices _ e he _,
      fun t _ => hmade.reports clock t⟩

end Section

namespace Iptables

theorem omits_customChainLog (h : e ∈ customChainLog chain) (p : Place) : p.omits e = false := by
  unfold customChainLog at h
  split at h
  . simp at h
  . rw [List.mem_singleton.mp h]
    simp [Place.omits, Place.fields]

theorem Block.term_of_finish (h : finish filter f tracked shortening t m = .ok b) : b.term = t := by
  cases hverbatim : t.isVerbatim with
  | true =>
    simp only [finish, hverbatim, ↓reduceIte, Except.ok.injEq] at h
    rw [← h]
    rfl
  | false =>
    obtain ⟨codes, name, _, _, rfl⟩ := (finish_eq_ok hverbatim).mp h
    rfl

namespace FilterPart

variable {p : FilterPart}

theorem Renders.writes (h : p.Renders clock f o) (hb : b ∈ p.blocks)
    (hverbatim : b.term.isVerbatim = false) :
    p.toSection.Writes b.term ((b.lines p.chain).map fun ls => ls.map Line.text) := by
  obtain ⟨t, _, _, hofTerm⟩ := h.exists_ofTerm hb
  obtain ⟨m, _, hfinish⟩ := bind_eq_ok.mp hofTerm
  rw [Block.term_of_finish hfinish] at hverbatim ⊢
  obtain ⟨c, rfl, hc⟩ := Block.exists_renders_of_ofTerm hverbatim hofTerm
  refine .inl ⟨_, by rw [Block.lines_eq]; rfl, ?_⟩
  show (c.lineList p.chain).map Line.text = [] ↔ t.Lacks p.family
  rw [List.map_eq_nil_iff, Chain.lineList_eq_nil_iff, Chain.plan, hc.term_eq, hc.family_eq]
  exact Plan.isSome_emptySide?_ofRequest

theorem describes : Section.Describes assembler toSection Block.term where
  platform_eq _ := rfl
  name_eq _ _ _ _ := rfl
  madeBy name o f bs := by
    refine ⟨rfl, rfl, rfl, fun t => ?_⟩
    rw [Option.ne_none_iff_isSome]
    exact Plan.isSome_emptySide?_ofRequest
  terms name o f bs := by simp [toSection, assembler, Function.comp_def]
  keeps name o clock t b hkeeps := by
    obtain ⟨m, _, _, _, hfinish⟩ := hkeeps
    exact Block.term_of_finish hfinish
  notices name e he place := omits_customChainLog he place
  writes clock f p hpart b hb hverbatim := by
    obtain ⟨o, hrenders⟩ := exists_renders_of_ofFilter hpart
    obtain ⟨block, hblock, rfl⟩ := List.mem_map.mp hb
    exact hrenders.writes hblock hverbatim

end FilterPart
end Iptables

namespace Ipsec
namespace FilterPart

variable {p : FilterPart}

theorem Renders.writes (h : p.Renders clock f o) (hb : b ∈ p.blocks)
    (hverbatim : b.term.isVerbatim = false) :
    p.toSection.Writes b.term ((b.statements p.name).map fun ss => ss.map Statement.text) := by
  obtain ⟨t, _, _, hrenders⟩ := h.exists_renders hb
  by_cases hicmp : b.term.icmpType = []
  . left
    obtain ⟨statements, hstatements, hnil, _⟩ := Block.exists_statements hverbatim hicmp p.name
    refine ⟨statements.map Statement.text, by rw [hstatements]; rfl, ?_⟩
    show _ ↔ b.term.Lacks p.family
    rw [List.map_eq_nil_iff, hnil, ← isSome_emptySide?, emptySide?_eq, hrenders.family_eq]
    exact Plan.isSome_emptySide?_ofRequest
  . right
    refine ⟨rfl, hicmp, unsupported b.term "icmp-type" "netsh filters cannot match icmp types", ?_⟩
    unfold Block.statements
    simp [hverbatim, hicmp, Except.map]

theorem describes : Section.Describes assembler toSection Block.term where
  platform_eq _ := rfl
  name_eq _ _ _ _ := rfl
  madeBy name o f bs := by
    refine ⟨rfl, rfl, rfl, fun t => ?_⟩
    rw [Option.ne_none_iff_isSome]
    show (emptySide? o.family t.request).isSome = true ↔ _
    rw [emptySide?_eq]
    exact Plan.isSome_emptySide?_ofRequest
  terms name o f bs := by simp [toSection, assembler, Function.comp_def]
  keeps name o clock t b hkeeps := by
    obtain ⟨a, hcheck, _, _, hfinish⟩ := hkeeps
    exact (Block.renders_of_finish hcheck hfinish).term_eq
  notices name e he place := absurd he (by simp [assembler])
  writes clock f p hpart b hb hverbatim := by
    obtain ⟨o, hrenders⟩ := exists_renders_of_ofFilter hpart
    obtain ⟨block, hblock, rfl⟩ := List.mem_map.mp hb
    exact hrenders.writes hblock hverbatim

end FilterPart
end Ipsec

theorem Policy.accounts_of_build {part : Filter → Traced Fault γ} {toSection : γ → Section}
    (h : (Policy.build platform part fs).result = .ok ps)
    (hpart : ∀ f p, (part f).result = .ok p → (toSection p).Accounts clock f (part f).log) :
    List.Forall₂ (fun f s => s.Accounts clock f (part f).log)
      (fs.filter fun f => (f.target? platform).isSome)
      (ps.map toSection) := by
  rw [Policy.result_build] at h
  rw [List.forall₂_map_right_iff]
  exact (forall₂_of_mapM_eq_ok h).imp fun f p hp => hpart f p hp

/--
A document gives an account of every filter that has a target for its platform, in order, and
nothing else is logged.
-/
theorem Document.sections_account {platform : Platform} {clock : Clock} {policy : Policy}
    {d : Document} (h : (Document.ofPolicy platform clock policy).result = .ok d) :
    (∀ s ∈ d.sections, s.platform = platform)
      ∧ ∃ logOf : Filter → List Log.Entry,
        (Document.ofPolicy platform clock policy).log
            = (policy.filters.filter fun f => (f.target? platform.name).isSome).flatMap logOf
          ∧ List.Forall₂ (fun f s => s.Accounts clock f (logOf f))
              (policy.filters.filter fun f => (f.target? platform.name).isSome) d.sections := by
  cases platform with
  | iptables =>
    obtain ⟨document, hdocument, rfl⟩ := Traced.result_bind_pure_eq_ok.mp h
    obtain ⟨parts, hparts, rfl⟩ := Traced.result_bind_pure_eq_ok.mp hdocument
    refine ⟨by simp [sections, Iptables.FilterPart.toSection],
      fun f => (Iptables.FilterPart.ofFilter clock f).log, ?_,
      Policy.accounts_of_build hparts fun f p => Iptables.FilterPart.describes.accounts⟩
    unfold ofPolicy Iptables.Document.ofPolicy
    rw [Traced.log_bind_pure, Traced.log_bind_pure]
    exact Policy.log_build hparts
  | ipsec =>
    obtain ⟨document, hdocument, rfl⟩ := Traced.result_bind_pure_eq_ok.mp h
    obtain ⟨parts, hparts, rfl⟩ := Traced.result_bind_pure_eq_ok.mp hdocument
    refine ⟨by simp [sections, Ipsec.FilterPart.toSection],
      fun f => (Ipsec.FilterPart.ofFilter clock f).log, ?_,
      Policy.accounts_of_build hparts fun f p => Ipsec.FilterPart.describes.accounts⟩
    unfold ofPolicy Ipsec.Document.ofPolicy
    rw [Traced.log_bind_pure, Traced.log_bind_pure]
    exact Policy.log_build hparts

def harvestFilter : Filter where
  comment := []
  targets := [⟨"iptables", ["INPUT"]⟩, ⟨"windows_ipsec", ["harvest"]⟩]
  terms := [
    { name := "web", protocol := ["tcp"], action := .accept },
    { name := "gone", protocol := ["tcp"], action := .accept, expiration := some ⟨8553600, 0, 0⟩ },
    { name := "leaving", protocol := ["udp"], action := .deny, expiration := some ⟨8726400, 0, 0⟩ },
    { name := "ping", protocol := ["icmpv6"], action := .accept },
    strangers,
    { name := "elsewhere", platformExclude := ["iptables", "windows_ipsec"],
      action := .other "never" }]

def harvestTime : Clock where
  now := ⟨8640000, 0, 0⟩
  weeks := 2

theorem Document.sections_account_harvestFilter :
    (∃ d s, (Document.ofPolicy .iptables harvestTime ⟨[harvestFilter]⟩).result = .ok d
      ∧ d.sections = [s]
        ∧ s.blocks.map (·.1.name) = ["web", "leaving", "strangers"]
        ∧ s.Accounts harvestTime harvestFilter
          (Document.ofPolicy .iptables harvestTime ⟨[harvestFilter]⟩).log)
      ∧ ∃ d s, (Document.ofPolicy .ipsec harvestTime ⟨[harvestFilter]⟩).result = .ok d
        ∧ d.sections = [s]
        ∧ s.blocks.map (·.1.name) = ["web", "leaving", "strangers"]
        ∧ s.Accounts harvestTime harvestFilter
          (Document.ofPolicy .ipsec harvestTime ⟨[harvestFilter]⟩).log := by
  have hboth (platform : Platform) :
      ∃ d s, (Document.ofPolicy platform harvestTime ⟨[harvestFilter]⟩).result = .ok d
        ∧ d.sections = [s]
        ∧ s.blocks.map (·.1.name) = ["web", "leaving", "strangers"]
        ∧ s.Accounts harvestTime harvestFilter
            (Document.ofPolicy platform harvestTime ⟨[harvestFilter]⟩).log := by
    obtain ⟨d, hd, hnames⟩ := exists_ok_of_any
      (x := (Document.ofPolicy platform harvestTime ⟨[harvestFilter]⟩).result)
      (p := fun d => d.sections.map (fun s => s.blocks.map (·.1.name))
        == [["web", "leaving", "strangers"]])
      (by cases platform <;> decide +kernel)
    obtain ⟨_, logOf, hlog, hsections⟩ := Document.sections_account hd
    have htargets : ([harvestFilter].filter fun f => (f.target? platform.name).isSome)
        = [harvestFilter] := by
      cases platform <;> rfl
    rw [htargets] at hlog hsections
    obtain ⟨s, _, haccounts, hrest, hd'⟩ := List.forall₂_cons_left_iff.mp hsections
    obtain rfl := List.forall₂_nil_left_iff.mp hrest
    refine ⟨d, s, hd, hd', by simpa [hd'] using hnames, ?_⟩
    rw [hlog]
    simpa using haccounts
  exact ⟨hboth .iptables, hboth .ipsec⟩

end PacketPolicy

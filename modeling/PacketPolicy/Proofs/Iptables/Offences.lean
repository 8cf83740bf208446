import PacketPolicy.Proofs.Iptables.Document
import PacketPolicy.Proofs.Render.Faults

namespace PacketPolicy

namespace Icmp

theorem code_eq_error (h : code f type = .error e) :
    e.kind = .unsupportedFilter ∧ e.platform = "" ∧ e.filter = "" := by
  unfold code at h
  split at h
  . cases h
  . cases h
    exact ⟨rfl, rfl, rfl⟩

theorem codes_eq_error (h : codes f names protocols = .error e) :
    e.kind = .unsupportedFilter ∧ e.platform = "" ∧ e.filter = "" := by
  unfold codes at h
  split at h
  . cases h
  . split at h
    . cases h
      exact ⟨rfl, rfl, rfl⟩
    . obtain ⟨_, type, _, _, _, h⟩ := FirstFault.mapM_eq_error_iff.mp h
      exact code_eq_error h

end Icmp

theorem TermName.fit_eq_error (h : fit size allowed name = .error e) :
    e.kind = .termNameTooLong ∧ e.platform = "" ∧ e.filter = "" ∧ e.term = name := by
  unfold fit at h
  dsimp only at h
  generalize (if allowed.abbreviate then abbreviate name else name) = shorter at h
  split at h
  . cases h
  . split at h
    . cases h
    . split at h
      . cases h
      . cases h
        exact ⟨rfl, rfl, rfl, rfl⟩

namespace Iptables

structure FromTerm (t : Term) (e : Fault) : Prop where
  platform_eq : e.platform = "" ∨ e.platform = platform
  filter_eq : e.filter = ""
  term_eq : e.term = t.name
  kind_ne : e.kind ≠ .duplicateTerm

def inFilter (filter : String) (e : Fault) : Fault :=
  { e with platform := platform, filter := filter }

theorem FromTerm.annotate_eq (h : FromTerm t e) (filter : String) :
    e.annotate platform filter = inFilter filter e := by
  unfold Fault.annotate inFilter
  obtain hplatform | hplatform := h.platform_eq
  . simp [hplatform, h.filter_eq]
  . simp [hplatform, h.filter_eq]

namespace Matching

variable {t : Term}

theorem fromTerm_unsupported (t : Term) (feature detail : String) :
    FromTerm t (unsupported t feature detail) where
  platform_eq := .inr rfl
  filter_eq := rfl
  term_eq := rfl
  kind_ne := by simp [unsupported]

theorem fromTerm_of_checkProtocols (h : checkProtocols t = .error e) : FromTerm t e := by
  unfold checkProtocols at h
  split at h
  . cases h
  . split at h
    . cases h
      apply fromTerm_unsupported
    . cases h
      apply fromTerm_unsupported

theorem fromTerm_of_checkKeywords (h : checkKeywords t = .error e) : FromTerm t e := by
  unfold checkKeywords at h
  split at h
  . next he =>
    cases h
    obtain ⟨keyword, _, rfl⟩ := Option.map_eq_some_iff.mp he
    exact ⟨.inl rfl, rfl, rfl, by simp⟩
  . cases h

theorem fromTerm_of_jumpOf (h : jumpOf f t = .error e) : FromTerm t e := by
  unfold jumpOf at h
  split at h
  . cases h
  . cases h
    apply fromTerm_unsupported

theorem fromTerm_of_checkOptions (h : checkOptions t = .error e) : FromTerm t e := by
  unfold checkOptions at h
  split at h
  . cases h
    apply fromTerm_unsupported
  . cases h

theorem fromTerm_of_readRange (h : readRange t feature value = .error e) : FromTerm t e := by
  unfold readRange at h
  split at h
  . cases h
  . split at h
    . cases h
    . cases h
      apply fromTerm_unsupported

theorem fromTerm_of_checkStateless (h : checkStateless t fs = .error e) : FromTerm t e := by
  unfold checkStateless at h
  split at h
  . cases h
    exact ⟨.inr rfl, rfl, rfl, by simp⟩
  . split at h
    . cases h
      apply fromTerm_unsupported
    . cases h

theorem fromTerm_of_ofTerm (h : ofTerm f stateful t = .error e) : FromTerm t e := by
  unfold ofTerm at h
  split at h
  . cases h
  . simp only [bind_eq_error] at h
    obtain h | ⟨_, _, h | ⟨_, _, h | ⟨_, _, h | ⟨_, _, h | ⟨_, _, h | ⟨_, _, h⟩⟩⟩⟩⟩⟩ := h
    . exact fromTerm_of_checkProtocols h
    . exact fromTerm_of_checkKeywords h
    . exact fromTerm_of_jumpOf h
    . exact fromTerm_of_checkOptions h
    . exact fromTerm_of_readRange h
    . exact fromTerm_of_readRange h
    . split at h
      . obtain h | ⟨_, _, h⟩ := bind_eq_error.mp h
        . exact fromTerm_of_checkStateless h
        . cases h
      . cases h

end Matching

theorem Options.readFrom_eq_error (h : readFrom filter o words = .error e) :
    e.platform = platform ∧ e.filter = filter := by
  induction words generalizing o with
  | nil =>
    unfold readFrom at h
    split at h
    . cases h
      exact ⟨rfl, rfl⟩
    . cases h
  | cons word words ih =>
    unfold readFrom at h
    split at h
    . cases h
      exact ⟨rfl, rfl⟩
    . exact ih h

theorem Block.finish_eq_error :
    finish filter f stateful shortening t m = .error e ↔ t.isVerbatim = false
      ∧ ((∃ e', Icmp.codes f t.icmpType t.protocol = .error e' ∧ { e' with term := t.name } = e)
        ∨ (∃ codes, Icmp.codes f t.icmpType t.protocol = .ok codes)
          ∧ TermName.fit maxNameBytes shortening t.name = .error e) := by
  unfold finish
  cases t.isVerbatim with
  | true => simp
  | false =>
    cases Icmp.codes f t.icmpType t.protocol with
    | error e' => simp
    | ok codes => cases TermName.fit maxNameBytes shortening t.name <;> simp

theorem Block.fromTerm_of_finish (h : finish filter f stateful shortening t m = .error e) :
    FromTerm t e := by
  obtain ⟨_, ⟨e', hcodes, rfl⟩ | ⟨_, hname⟩⟩ := finish_eq_error.mp h
  . obtain ⟨hkind, hplatform, hfilter⟩ := Icmp.codes_eq_error hcodes
    exact ⟨.inl hplatform, hfilter, rfl, by simp [hkind]⟩
  . obtain ⟨hkind, hplatform, hfilter, hterm⟩ := TermName.fit_eq_error hname
    exact ⟨.inl hplatform, hfilter, hterm, by simp [hkind]⟩

/--
A place at which a policy can be refused. A term is looked at together with those before it.
-/
inductive Site where
  | chain (f : Filter)
  | options (f : Filter)
  | term (f : Filter) (before : List Term) (t : Term)

def Site.filter : Site → Filter
  | .chain f => f
  | .options f => f
  | .term f _ _ => f

def filterSites (f : Filter) : List Site :=
  .chain f :: .options f ::
    (withPrecedents [] (f.terms.filter fun t => t.appliesTo platform)).map fun place =>
      .term f place.1 place.2

def sites (policy : Policy) : List Site :=
  (policy.filters.filter fun f => (f.target? platform).isSome).flatMap filterSites

def Opens (f : Filter) (o : Options) : Prop :=
  f.name platform ≠ "" ∧ Options.readFrom (f.name platform) {} (f.options platform) = .ok o

def Live (clock : Clock) (o : Options) (t : Term) : Prop :=
  Icmp.foreign? o.common.family t.protocol = none ∧ clock.expiry t.expiration ≠ .expired

def fixedName (o : Options) (t : Term) : Except Fault String :=
  if t.isVerbatim then .ok t.name else TermName.fit maxNameBytes o.common.shortening t.name

structure Kept (clock : Clock) (o : Options) (t : Term) (name : String) : Prop where
  valid : ∃ m, Matching.ofTerm o.common.family o.stateful t = .ok m
  live : Live clock o t
  types : t.isVerbatim = false →
    ∃ codes, Icmp.codes o.common.family t.icmpType t.protocol = .ok codes
  name_eq : fixedName o t = .ok name

namespace Site

/--
A place offends with a fault. Only the check of a term alone looks at terms that are not to be
rendered.
-/
inductive Offends (clock : Clock) : Site → Fault → Prop where
  | noChain : f.name platform = "" →
      Offends clock (.chain f)
        { kind := .unsupportedTargetOption, platform := platform, detail := "target has no chain" }
  | badOptions : f.name platform ≠ "" →
      Options.readFrom (f.name platform) {} (f.options platform) = .error e →
        Offends clock (.options f) e
  | invalid : Opens f o → Matching.ofTerm o.common.family o.stateful t = .error e →
      Offends clock (.term f before t) (inFilter (f.name platform) e)
  | icmpType : Opens f o → Matching.ofTerm o.common.family o.stateful t = .ok m → Live clock o t →
      t.isVerbatim = false → Icmp.codes o.common.family t.icmpType t.protocol = .error e →
      Offends clock (.term f before t) (inFilter (f.name platform) { e with term := t.name })
  | nameLength : Opens f o → Matching.ofTerm o.common.family o.stateful t = .ok m → Live clock o t →
      t.isVerbatim = false → Icmp.codes o.common.family t.icmpType t.protocol = .ok codes →
      TermName.fit maxNameBytes o.common.shortening t.name = .error e →
      Offends clock (.term f before t) (inFilter (f.name platform) e)
  | duplicate : Opens f o → Kept clock o t name → t' ∈ before → Kept clock o t' name →
      Offends clock (.term f before t)
        { kind := .duplicateTerm, platform := platform, filter := f.name platform, term := name }

theorem offends_chain_iff :
    (chain f).Offends clock e ↔ f.name platform = ""
      ∧ { kind := .unsupportedTargetOption, platform := platform, detail := "target has no chain" }
        = e := by
  constructor
  . intro h
    cases h with
    | noChain hname => exact ⟨hname, rfl⟩
  . rintro ⟨hname, rfl⟩
    exact .noChain hname

theorem offends_options_iff :
    (options f).Offends clock e ↔ f.name platform ≠ ""
      ∧ Options.readFrom (f.name platform) {} (f.options platform) = .error e := by
  constructor
  . intro h
    cases h with
    | badOptions hname hread => exact ⟨hname, hread⟩
  . rintro ⟨hname, hread⟩
    exact .badOptions hname hread

end Site

theorem kept_iff :
    Kept clock o t name ↔ ∃ b, (renderer chain o).Keeps clock t b ∧ b.name = name := by
  constructor
  . rintro ⟨⟨m, hm⟩, ⟨hforeign, hexpiry⟩, htypes, hname⟩
    unfold fixedName at hname
    split at hname
    . next hverbatim =>
      cases hname
      refine ⟨.verbatim t, ⟨m, hm, hforeign, hexpiry, ?_⟩, rfl⟩
      simp [renderer, Block.finish, hverbatim]
    . next hverbatim =>
      have hverbatim : t.isVerbatim = false := by simpa using hverbatim
      obtain ⟨codes, hcodes⟩ := htypes hverbatim
      exact ⟨_, ⟨m, hm, hforeign, hexpiry,
        (Block.finish_eq_ok hverbatim).mpr ⟨codes, name, hcodes, hname, rfl⟩⟩, rfl⟩
  . rintro ⟨b, ⟨m, hm, hforeign, hexpiry, hfinish⟩, rfl⟩
    cases hverbatim : t.isVerbatim with
    | true =>
      have hb : .verbatim t = b := by simpa [renderer, Block.finish, hverbatim] using hfinish
      refine ⟨⟨m, hm⟩, ⟨hforeign, hexpiry⟩, by simp [hverbatim], ?_⟩
      rw [fixedName, if_pos hverbatim, ← hb]
      rfl
    | false =>
      obtain ⟨codes, name, hcodes, hname, rfl⟩ := (Block.finish_eq_ok hverbatim).mp hfinish
      refine ⟨⟨m, hm⟩, ⟨hforeign, hexpiry⟩, fun _ => ⟨codes, hcodes⟩, ?_⟩
      rw [fixedName, if_neg (by simp [hverbatim])]
      exact hname

theorem Opens.eq (h : Opens f o) (h' : Opens f o') : o = o' :=
  Except.ok.inj (h.2.symm.trans h'.2)

theorem Site.offends_term_iff (h : Opens f o) :
    (term f before t).Offends clock e ↔
      (renderer (f.name platform) o).Refuses clock before t e := by
  constructor
  . intro hoffends
    cases hoffends with
    | invalid hopens hcheck =>
      obtain rfl := h.eq hopens
      rw [← (Matching.fromTerm_of_ofTerm hcheck).annotate_eq]
      exact .invalid hcheck
    | @icmpType _ _ _ m e _ hopens hcheck hlive hverbatim hcodes =>
      obtain rfl := h.eq hopens
      have hfinish : (renderer (f.name platform) o).finish t m = .error { e with term := t.name } :=
        Block.finish_eq_error.mpr ⟨hverbatim, .inl ⟨e, hcodes, rfl⟩⟩
      rw [← (Block.fromTerm_of_finish hfinish).annotate_eq]
      exact .unfinished hcheck hlive.1 hlive.2 hfinish
    | @nameLength _ _ _ m _ e _ hopens hcheck hlive hverbatim hcodes hname =>
      obtain rfl := h.eq hopens
      have hfinish : (renderer (f.name platform) o).finish t m = .error e :=
        Block.finish_eq_error.mpr ⟨hverbatim, .inr ⟨⟨_, hcodes⟩, hname⟩⟩
      rw [← (Block.fromTerm_of_finish hfinish).annotate_eq]
      exact .unfinished hcheck hlive.1 hlive.2 hfinish
    | duplicate hopens hkept ht' hkept' =>
      obtain rfl := h.eq hopens
      obtain ⟨b, hkeeps, rfl⟩ := kept_iff.mp hkept
      obtain ⟨b', hkeeps', hname⟩ := kept_iff.mp hkept'
      exact .repeated hkeeps ht' hkeeps' hname
  . intro hrefuses
    cases hrefuses with
    | @invalid e hcheck =>
      show Offends clock _ (e.annotate platform (f.name platform))
      rw [(Matching.fromTerm_of_ofTerm hcheck).annotate_eq]
      exact .invalid h hcheck
    | @unfinished m e hcheck hforeign hexpiry hfinish =>
      show Offends clock _ (e.annotate platform (f.name platform))
      rw [(Block.fromTerm_of_finish hfinish).annotate_eq]
      obtain ⟨hverbatim, ⟨e, hcodes, rfl⟩ | ⟨⟨codes, hcodes⟩, hname⟩⟩ :=
        Block.finish_eq_error.mp hfinish
      . exact .icmpType h hcheck ⟨hforeign, hexpiry⟩ hverbatim hcodes
      . exact .nameLength h hcheck ⟨hforeign, hexpiry⟩ hverbatim hcodes hname
    | repeated hkeeps ht' hkeeps' hlabel =>
      exact .duplicate h (kept_iff.mpr ⟨_, hkeeps, rfl⟩) ht' (kept_iff.mpr ⟨_, hkeeps', hlabel⟩)

theorem FilterPart.ofFilter_eq_error_iff {f : Filter} :
    (ofFilter clock f).result = .error e ↔ FirstFault (Site.Offends clock) (filterSites f) e := by
  unfold filterSites
  rw [FirstFault.cons_iff, FirstFault.cons_iff, FirstFault.map_iff]
  simp only [Site.offends_chain_iff, Site.offends_options_iff]
  unfold ofFilter Assembler.part assembler
  by_cases hname : f.name platform = ""
  . simp [hname, Traced.fail]
  . simp only [beq_iff_eq, hname, ↓reduceIte, Traced.result_bind, bind_eq_error]
    cases hread : Options.readFrom (f.name platform) {} (f.options platform) with
    | error e' => simp [Traced.ofExcept, hname]
    | ok o =>
      have hopens : Opens f o := ⟨hname, hread⟩
      rw [FirstFault.congr fun place _ e => Site.offends_term_iff hopens]
      simp [Traced.ofExcept, Traced.tell, Renderer.blocks,
        Renderer.blocksFrom_eq_error_iff Renderer.taken_nil, pure, Traced.pure, hname]
      rfl

/--
What the fault of an offence tells about its place. A term that is not to be rendered can only have
failed the check that looks at it alone.
-/
structure Site.Blames (clock : Clock) (site : Site) (e : Fault) : Prop where
  platform_eq : e.platform = platform
  filter_eq : e.filter = site.filter.name platform
  unnamed : e.filter = "" ↔ ∃ f, site = .chain f
  term_eq : ∀ f before t, site = .term f before t →
    e.kind ≠ .duplicateTerm ∧ e.term = t.name
      ∨ e.kind = .duplicateTerm ∧ ∃ o, Opens f o ∧ fixedName o t = .ok e.term
  dropped : ∀ f before t o, site = .term f before t → Opens f o → ¬Live clock o t →
    ∃ e', Matching.ofTerm o.common.family o.stateful t = .error e'
      ∧ e = inFilter (f.name platform) e'

theorem FromTerm.blames (h : FromTerm t e) (hopens : Opens f o)
    (hdropped : ¬Live clock o t → Matching.ofTerm o.common.family o.stateful t = .error e) :
    (Site.term f before t).Blames clock (inFilter (f.name platform) e) where
  platform_eq := rfl
  filter_eq := rfl
  unnamed := by simp [inFilter, hopens.1]
  term_eq := by
    intro _ _ _ hsite
    cases hsite
    exact .inl ⟨h.kind_ne, h.term_eq⟩
  dropped := by
    intro _ _ _ o' hsite hopens' hlive
    cases hsite
    obtain rfl := hopens.eq hopens'
    exact ⟨e, hdropped hlive, rfl⟩

theorem Site.Offends.blames {site : Site} (h : site.Offends clock e) : site.Blames clock e := by
  cases h with
  | noChain hname =>
    exact ⟨rfl, hname.symm, by simp, by simp, by simp⟩
  | badOptions hname hread =>
    obtain ⟨hplatform, hfilter⟩ := Options.readFrom_eq_error hread
    exact ⟨hplatform, hfilter, by simp [hfilter, hname], by simp, by simp⟩
  | invalid hopens hcheck =>
    exact (Matching.fromTerm_of_ofTerm hcheck).blames hopens fun _ => hcheck
  | @icmpType _ _ t _ e _ hopens hcheck hlive hverbatim hcodes =>
    obtain ⟨hkind, hplatform, hfilter⟩ := Icmp.codes_eq_error hcodes
    have hterm : FromTerm t { e with term := t.name } :=
      ⟨.inl hplatform, hfilter, rfl, by simp [hkind]⟩
    exact hterm.blames hopens fun hdropped => absurd hlive hdropped
  | @nameLength _ _ t _ _ e _ hopens hcheck hlive hverbatim hcodes hname =>
    obtain ⟨hkind, hplatform, hfilter, hterm⟩ := TermName.fit_eq_error hname
    have hterm : FromTerm t e := ⟨.inl hplatform, hfilter, hterm, by simp [hkind]⟩
    exact hterm.blames hopens fun hdropped => absurd hlive hdropped
  | duplicate hopens hkept ht' hkept' =>
    refine ⟨rfl, rfl, by simp [hopens.1], ?_, ?_⟩
    . intro _ _ _ hsite
      cases hsite
      exact .inr ⟨rfl, _, hopens, hkept.name_eq⟩
    . intro _ _ _ o' hsite hopens' hdropped
      cases hsite
      obtain rfl := hopens.eq hopens'
      exact absurd hkept.live hdropped

/--
A policy is refused just if a place in it offends. The fault is that of the first one, and names the
place.
-/
theorem Document.error_blames_first_offence (clock : Clock) (policy : Policy) (e : Fault) :
    ((ofPolicy clock policy).result = .error e ↔ FirstFault (Site.Offends clock) (sites policy) e)
      ∧ ∀ site : Site, site.Offends clock e → site.Blames clock e := by
  refine ⟨?_, fun _ => Site.Offends.blames⟩
  unfold ofPolicy sites
  rw [Traced.result_bind, bind_eq_error, Policy.result_build, FirstFault.mapM_eq_error_iff,
    FirstFault.flatMap_iff, FirstFault.congr fun f _ e => FilterPart.ofFilter_eq_error_iff]
  simp [pure, Traced.pure]

def lapsedTerms : List Term := [
  { name := "old-ping", protocol := ["icmp"], icmpType := ["mystery"], action := .accept,
    expiration := some ⟨0, 0, 0⟩ },
  { name := "ping-for-the-other-family", protocol := ["icmpv6"], action := .accept },
  { name := "web", protocol := ["tcp"], action := .accept },
  { name := "web", protocol := ["tcp"], action := .accept, expiration := some ⟨0, 0, 0⟩ }]

def lapsedPolicy (options : List String) (terms : List Term) : Policy where
  filters :=
    [{ comment := [], targets := [⟨platform, "INPUT" :: options⟩], terms := lapsedTerms ++ terms }]

def lapsedTime : Clock where
  now := ⟨8640000, 0, 0⟩
  weeks := 2

def forgottenTerms : List Term := [
  { name := "old-reset", protocol := ["tcp"], action := .other "mystery",
    expiration := some ⟨0, 0, 0⟩ },
  { name := "web", protocol := ["tcp"], action := .accept }]

def forgottenFault : Fault where
  kind := .unsupportedFilter
  platform := platform
  filter := "INPUT"
  term := "old-reset"
  feature := "action mystery"
  detail := "unknown action"

def gateTerms : List Term := [
  { name := "traffic-of-the-main-gate-in", protocol := ["tcp"], action := .accept },
  { name := "traffic-of-the-main-gate-out", protocol := ["tcp"], action := .accept }]

def gateFault : Fault where
  kind := .duplicateTerm
  platform := platform
  filter := "INPUT"
  term := "traffic-of-the-main-gate"

theorem Document.error_blames_lapsedPolicy :
    (FirstFault (Site.Offends lapsedTime) (sites (lapsedPolicy [] forgottenTerms)) forgottenFault
        ∧ ∃ site ∈ sites (lapsedPolicy [] forgottenTerms), site.Blames lapsedTime forgottenFault)
      ∧ FirstFault (Site.Offends lapsedTime)
        (sites (lapsedPolicy ["truncateterms"] gateTerms)) gateFault
        ∧ ∃ site ∈ sites (lapsedPolicy ["truncateterms"] gateTerms),
          site.Blames lapsedTime gateFault := by
  have hblamed (policy e) (h : (ofPolicy lapsedTime policy).result = .error e) :
      FirstFault (Site.Offends lapsedTime) (sites policy) e
        ∧ ∃ site ∈ sites policy, site.Blames lapsedTime e := by
    obtain ⟨hfirst, hblames⟩ := error_blames_first_offence lapsedTime policy e
    obtain ⟨before, site, after, hsites, _, hoffends⟩ := hfirst.mp h
    exact ⟨hfirst.mp h, site, by simp [hsites], hblames site hoffends⟩
  exact ⟨hblamed _ _ (fault?_eq_some.mp (by decide +kernel)),
    hblamed _ _ (fault?_eq_some.mp (by decide +kernel))⟩

end Iptables
end PacketPolicy

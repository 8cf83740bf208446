import Mathlib.Algebra.Module.Submodule.Lattice
import PacketPolicy.Proofs.Command.Session
import PacketPolicy.Proofs.Render.Filter
import PacketPolicy.Script.Host

namespace PacketPolicy
namespace Command

structure Rendering where
  file : String
  platform : Platform
  text : String
  deriving DecidableEq, Repr

def askedPlatforms (s : Settings) (p : Policy) : List Platform :=
  (p.platforms.filter s.renders).filterMap Platform.ofName?

namespace Rendering

variable {r : Rendering} {rs : List Rendering}

def path (s : Settings) (r : Rendering) : String :=
  s.outputPath r.file r.platform.suffix

def key (r : Rendering) : Platform × String :=
  (r.platform, Path.stem r.file)

def write (s : Settings) (t : Tree) (r : Rendering) : Except FileError Tree :=
  t.writeFile (r.path s) r.text

structure Of (s : Settings) (now : Moment) (p : LoadedPolicy) (r : Rendering) : Prop where
  file_eq : r.file = p.file
  exists_document : ∃ d, (Document.ofPolicy r.platform ⟨now, s.weeks⟩ p.policy).result = .ok d
    ∧ d.render = .ok r.text

theorem path_inj {r' : Rendering} (s : Settings) (h : Path.Named r.file) (h' : Path.Named r'.file) :
    r.path s = r'.path s ↔ r.key = r'.key := by
  rw [path, path, Settings.outputPath_inj s h h', key, key, Prod.mk.injEq]

theorem endsWith_path (s : Settings) (h : Path.Named r.file) :
    Path.EndsWith (r.path s) (Settings.outputName r.file r.platform) where
  isName := Settings.isName_outputName h r.platform
  components := by
    obtain ⟨front, hfront⟩ := Path.exists_components_join s.output
    exact ⟨front, hfront _ (Settings.isName_outputName h r.platform)⟩

theorem readFile_of_writes (hnamed : ∀ r ∈ rs, Path.Named r.file)
    (h : rs.foldlM (write s) t = .ok t') (hr : Path.Named r.file)
    (hread : t.readFile (r.path s) = .ok r.text)
    (hother : ∀ r' ∈ rs, r'.key ≠ r.key) : t'.readFile (r.path s) = .ok r.text := by
  induction rs generalizing t with
  | nil =>
    cases h
    exact hread
  | cons first rest ih =>
    rw [List.foldlM_cons] at h
    obtain ⟨t₁, hfirst, hrest⟩ := bind_eq_ok.mp h
    rw [List.forall_mem_cons] at hnamed hother
    apply ih hnamed.2 hrest _ hother.2
    apply Tree.readFile_of_writeFile_of_ne hfirst hread (endsWith_path s hnamed.1)
      (endsWith_path s hr)
    intro heq
    obtain ⟨hplatform, hstem⟩ := Settings.outputName_inj.mp heq
    exact hother.1 (by rw [key, key, hplatform, hstem])

theorem readFile_last (hnamed : ∀ r ∈ rs, Path.Named r.file)
    (h : rs.foldlM (write s) t = .ok t') (hsplit : rs = before ++ r :: after)
    (hlater : ∀ r' ∈ after, r'.key ≠ r.key) :
    t'.readFile (r.path s) = .ok r.text := by
  subst hsplit
  rw [List.foldlM_append] at h
  obtain ⟨t₁, _, h⟩ := bind_eq_ok.mp h
  rw [List.foldlM_cons] at h
  obtain ⟨t₂, hwrite, hrest⟩ := bind_eq_ok.mp h
  apply readFile_of_writes (fun r hr => hnamed r (by simp [hr])) hrest (hnamed r (by simp)) _ hlater
  exact Tree.readFile_of_writeFile hwrite

/--
Every rendering has a file of its own, which holds its text.
-/
structure Kept (s : Settings) (t : Tree) (rs : List Rendering) : Prop where
  distinct : (rs.map (path s)).Nodup
  text : ∀ r ∈ rs, t.readFile (r.path s) = .ok r.text

theorem kept_iff (hnamed : ∀ r ∈ rs, Path.Named r.file) (h : rs.foldlM (write s) t = .ok t') :
    Kept s t' rs ↔ (rs.map key).Nodup := by
  have hdistinct : (rs.map (path s)).Nodup ↔ (rs.map key).Nodup := by
    rw [List.Nodup, List.pairwise_map, List.Nodup, List.pairwise_map]
    constructor
    . intro hpaths
      exact hpaths.imp_of_mem fun hr hr' hne hkey =>
        hne ((path_inj s (hnamed _ hr) (hnamed _ hr')).mpr hkey)
    . intro hkeys
      exact hkeys.imp_of_mem fun hr hr' hne hpath =>
        hne ((path_inj s (hnamed _ hr) (hnamed _ hr')).mp hpath)
  constructor
  . intro hkept
    exact hdistinct.mp hkept.distinct
  . intro hkeys
    refine ⟨hdistinct.mpr hkeys, fun r hr => ?_⟩
    obtain ⟨before, after, hsplit⟩ := List.append_of_mem hr
    apply readFile_last hnamed h hsplit
    intro r' hr' heq
    rw [hsplit, List.map_append, List.map_cons] at hkeys
    have hnodup := (List.nodup_append.mp hkeys).2.1
    exact (List.nodup_cons.mp hnodup).1 (heq ▸ List.mem_map_of_mem hr')

end Rendering

/--
The renderings of policies: one for every platform that a policy is rendered for, in the order of
the policies.
-/
structure Complete (s : Settings) (now : Moment) (policies : List LoadedPolicy)
    (rs : List Rendering) : Prop where
  keys : rs.map (fun r => (r.file, r.platform))
    = policies.flatMap fun p => (askedPlatforms s p.policy).map (p.file, ·)
  rendered : ∀ r ∈ rs, ∃ p ∈ policies, r.Of s now p

theorem Complete.append (h : Complete s now ps rs) (h' : Complete s now ps' rs') :
    Complete s now (ps ++ ps') (rs ++ rs') where
  keys := by rw [List.map_append, h.keys, h'.keys, List.flatMap_append]
  rendered := by
    rw [List.forall_mem_append]
    refine ⟨fun r hr => ?_, fun r hr => ?_⟩
    . obtain ⟨p, hp, hof⟩ := h.rendered r hr
      exact ⟨p, List.mem_append_left _ hp, hof⟩
    . obtain ⟨p, hp, hof⟩ := h'.rendered r hr
      exact ⟨p, List.mem_append_right _ hp, hof⟩

theorem platform_of_ofPolicy (h : (Document.ofPolicy platform clock policy).result = .ok d) :
    d.platform = platform := by
  cases platform with
  | iptables =>
    obtain ⟨_, _, h⟩ := Traced.result_bind_eq_ok.mp h
    obtain rfl := Traced.result_pure_eq_ok.mp h
    rfl
  | ipsec =>
    obtain ⟨_, _, h⟩ := Traced.result_bind_eq_ok.mp h
    obtain rfl := Traced.result_pure_eq_ok.mp h
    rfl

namespace Ends

theorem traced {x : Traced Fault α} (h : Ends (traced file x) σ a τ) :
    τ.2 = σ.2 ∧ x.result = .ok a := by
  obtain ⟨_, υ, hlog, h⟩ := bind_iff.mp h
  obtain ⟨hresult, rfl⟩ := orFail_iff.mp h
  exact ⟨by rw [log_iff.mp hlog], hresult⟩

theorem documents (h : Ends (documents s now p) σ ds τ) :
    τ.2 = σ.2 ∧ List.Forall₂
      (fun d platform => (Document.ofPolicy platform ⟨now, s.weeks⟩ p.policy).result = .ok d)
      ds (askedPlatforms s p.policy) := by
  obtain ⟨found, υ, hfound, h⟩ := bind_iff.mp h
  obtain ⟨rfl, rfl⟩ := pure_iff.mp h
  obtain ⟨hτ, hforall⟩ := forall₂_of_mapM (P := fun d? name => Option.Rel
    (fun d platform => (Document.ofPolicy platform ⟨now, s.weeks⟩ p.policy).result = .ok d) d?
      (Platform.ofName? name))
    (fun name d? υ ω hυ hstep => by
      split at hstep
      . next hnone =>
        obtain ⟨_, ρ, hlog, hstep⟩ := bind_iff.mp hstep
        obtain ⟨rfl, rfl⟩ := pure_iff.mp hstep
        rw [hnone, log_iff.mp hlog]
        exact ⟨hυ, .none⟩
      . next platform hsome =>
        obtain ⟨d, ρ, htraced, hstep⟩ := bind_iff.mp hstep
        obtain ⟨rfl, rfl⟩ := pure_iff.mp hstep
        obtain ⟨hρ, hd⟩ := htraced.traced
        rw [hsome]
        exact ⟨hρ.trans hυ, .some hd⟩) hfound
  exact ⟨hτ, List.rel_filterMap (fun _ _ h => h) hforall⟩

theorem writeDocument (h : Ends (writeDocument Tree.system s file d) σ () τ) :
    ∃ text, d.render = .ok text ∧ Rendering.write s σ.2 ⟨file, d.platform, text⟩ = .ok τ.2 := by
  obtain ⟨text, υ, hrender, h⟩ := bind_iff.mp h
  obtain ⟨htext, rfl⟩ := orFail_iff.mp hrender
  obtain ⟨_, ω, hperform, h⟩ := bind_iff.mp h
  obtain ⟨hwrite, _⟩ := perform_iff.mp hperform
  refine ⟨text, htext, ?_⟩
  rw [log_iff.mp h]
  exact Tree.writeFile_of_run hwrite

theorem writeDocuments {p : LoadedPolicy} {ds : List Document} {platforms : List Platform}
    (h : Ends (ds.forM (Command.writeDocument Tree.system s p.file)) σ () τ)
    (hds : List.Forall₂ (fun d platform =>
      (Document.ofPolicy platform ⟨now, s.weeks⟩ p.policy).result = .ok d)
      ds platforms) :
    ∃ rs : List Rendering, rs.map (fun r => (r.file, r.platform)) = platforms.map (p.file, ·)
      ∧ (∀ r ∈ rs, r.Of s now p) ∧ rs.foldlM (Rendering.write s) σ.2 = .ok τ.2 := by
  induction hds generalizing σ with
  | nil =>
    obtain ⟨_, rfl⟩ := pure_iff.mp h
    exact ⟨[], rfl, by simp, rfl⟩
  | @cons d platform ds platforms hd _ ih =>
    unfold List.forM at h
    obtain ⟨_, υ, hfirst, hrest⟩ := bind_iff.mp h
    obtain ⟨text, htext, hwrite⟩ := hfirst.writeDocument
    obtain ⟨rs, hkeys, hof, hwrites⟩ := ih hrest
    rw [platform_of_ofPolicy hd] at hwrite
    refine ⟨⟨p.file, platform, text⟩ :: rs, by rw [List.map_cons, hkeys]; rfl, ?_, ?_⟩
    . rw [List.forall_mem_cons]
      exact ⟨⟨rfl, d, hd, htext⟩, hof⟩
    . rw [List.foldlM_cons, hwrite]
      exact hwrites

theorem renderPolicies {policies : List LoadedPolicy}
    (h : Ends (policies.foldlM (fun written p => do
      let ds ← Command.documents s now p
      ds.forM (Command.writeDocument Tree.system s p.file)
      return written + ds.length) written) σ total τ) :
    ∃ rs, Complete s now policies rs ∧ rs.foldlM (Rendering.write s) σ.2 = .ok τ.2 := by
  induction policies generalizing σ written with
  | nil =>
    obtain ⟨_, rfl⟩ := pure_iff.mp h
    exact ⟨[], ⟨rfl, by simp⟩, rfl⟩
  | cons p policies ih =>
    rw [List.foldlM_cons] at h
    obtain ⟨_, υ, hfirst, hrest⟩ := bind_iff.mp h
    obtain ⟨ds, ω, hdocuments, hfirst⟩ := bind_iff.mp hfirst
    obtain ⟨_, ω', hwrites, hfirst⟩ := bind_iff.mp hfirst
    obtain ⟨_, rfl⟩ := pure_iff.mp hfirst
    obtain ⟨hω, hds⟩ := hdocuments.documents
    obtain ⟨rs, hkeys, hof, hfold⟩ := hwrites.writeDocuments hds
    obtain ⟨rs', hcomplete, hfold'⟩ := ih hrest
    have hp : Complete s now [p] rs := ⟨by simpa using hkeys, fun r hr => ⟨p, by simp, hof r hr⟩⟩
    refine ⟨rs ++ rs', hp.append hcomplete, ?_⟩
    rw [List.foldlM_append, ← hω, hfold]
    exact hfold'

end Ends

structure Loaded (t : Tree) (s : Settings) (files : List String) (policies : List LoadedPolicy) :
    Prop where
  files : policies.map LoadedPolicy.file = files
  policies : ∃ definitions, (Definitions.load Tree.system s.definitions).run t
    = (.ok definitions, t)
    ∧ ∀ p ∈ policies, (Policy.load Tree.system definitions p.file).run t = (.ok p.policy, t)

theorem exists_writes_of_ends (hsettings : Ends (loadSettings Tree.system a) ([], t) s σ)
    (hfiles : (s.policyFiles Tree.system).run t = (.ok files, t₁))
    (h : Ends (runRender Tree.system now a) ([], t) () τ) :
    ∃ policies rs t₁, Loaded t s files policies ∧ Complete s now policies rs
      ∧ rs.foldlM (Rendering.write s) t₁ = .ok τ.2 := by
  obtain ⟨s', υ, hsettings', h⟩ := Ends.bind_iff.mp h
  obtain ⟨rfl, rfl⟩ := hsettings.unique hsettings'
  obtain rfl := hsettings.loadSettings
  obtain ⟨policies, υ, hpolicies, h⟩ := Ends.bind_iff.mp h
  obtain ⟨_, definitions, hdefinitions, hfiles', hloaded⟩ := hpolicies.loadPolicies
  obtain ⟨_, ω, _, h⟩ := Ends.bind_iff.mp h
  obtain ⟨_, ω', hrender, h⟩ := Ends.bind_iff.mp h
  obtain ⟨rs, hcomplete, hwrites⟩ := hrender.renderPolicies
  rw [hfiles] at hfiles'
  cases hfiles'
  rw [Ends.log_iff.mp h]
  exact ⟨policies, rs, ω.2, ⟨rfl, definitions, hdefinitions, hloaded⟩, hcomplete, hwrites⟩

theorem exists_threshold_of_run {host : Script.Host δ} {state : δ}
    (hread : CommandLine.read arguments = .ok (.run (.command command) a))
    (hrun : (run Tree.system host state now arguments).run t = (outcome, t'))
    (herror : outcome.error = none) :
    ∃ level, threshold a = .ok level := by
  unfold run at hrun
  rw [hread] at hrun
  dsimp only at hrun
  split at hrun
  . cases hrun
    cases herror
  . next level hlevel => exact ⟨level, hlevel⟩

theorem run_render_iff (host : Script.Host δ) (state : δ)
    (hread : CommandLine.read arguments = .ok (.run (.command .render) a))
    (hlevel : threshold a = .ok level) :
    (∃ outcome, (run Tree.system host state now arguments).run t = (outcome, t')
      ∧ outcome.error = none) ↔
      ∃ entries, Ends (runRender Tree.system now a) ([], t) () (entries, t') := by
  have houtput (entries : List Log.Entry) :
      (∃ stdout, Ends (output Tree.system host state now a .render) ([], t) stdout (entries, t')) ↔
        Ends (runRender Tree.system now a) ([], t) () (entries, t') := by
    simp only [output, Ends.bind_iff, Ends.pure_iff]
    constructor
    . rintro ⟨_, _, _, h, _, rfl⟩
      exact h
    . intro h
      exact ⟨"", (), (entries, t'), h, rfl, rfl⟩
  simp only [← houtput]
  unfold run
  rw [hread]
  dsimp only
  rw [hlevel]
  dsimp only
  rw [StateT.run_bind]
  unfold Ends
  generalize hresult : StateT.run (ExceptT.run (output Tree.system host state now a .render) []) t
    = result
  replace hresult : ((output Tree.system host state now a .render).run.run []).run t = result :=
    hresult
  simp only [hresult]
  obtain ⟨⟨outcome, entries⟩, t₁⟩ := result
  cases outcome with
  | error e =>
    constructor
    . rintro ⟨_, hrun, herror⟩
      cases hrun
      cases herror
    . rintro ⟨_, _, heq⟩
      cases heq
  | ok stdout =>
    constructor
    . rintro ⟨_, hrun, _⟩
      cases hrun
      exact ⟨entries, stdout, rfl⟩
    . rintro ⟨_, _, heq⟩
      cases heq
      exact ⟨_, rfl, rfl⟩

/--
Renderings are kept in files of their own exactly if no two policy files with the same stem are
rendered for the same platform. Otherwise the last one of them takes the place of the others.
-/
theorem renderings_kept_iff {s : Settings}
    (hfiles : (s.policyFiles Tree.system).run t = (.ok files, t₁)) :
    (∀ p ∈ files, ∀ q ∈ files, ∀ a b : Platform,
        s.outputPath p a.suffix = s.outputPath q b.suffix ↔ a = b ∧ Path.stem p = Path.stem q)
      ∧ ∀ {δ : Type} {host : Script.Host δ} {state : δ} {now arguments a outcome t' σ},
        CommandLine.read arguments = .ok (.run (.command .render) a) →
        Ends (loadSettings Tree.system a) ([], t) s σ →
        (run Tree.system host state now arguments).run t = (outcome, t') → outcome.error = none →
        ∃ policies rs, Loaded t s files policies ∧ Complete s now policies rs
          ∧ (∀ before r after, rs = before ++ r :: after → (∀ r' ∈ after, r'.key ≠ r.key) →
            t'.readFile (r.path s) = .ok r.text)
          ∧ (Rendering.Kept s t' rs ↔ (rs.map Rendering.key).Nodup) := by
  have hnamed := ((Tree.Reads.policyFiles s).of_run hfiles).2 files rfl
  refine ⟨fun p hp q hq a b => Settings.outputPath_inj s (hnamed p hp) (hnamed q hq), ?_⟩
  intro δ host state now arguments a outcome t' σ hread hsettings hrun herror
  obtain ⟨level, hlevel⟩ := exists_threshold_of_run hread hrun herror
  obtain ⟨entries, hends⟩ := (run_render_iff host state hread hlevel).mp ⟨outcome, hrun, herror⟩
  obtain ⟨policies, rs, t₁, hloaded, hcomplete, hwrites⟩ :=
    exists_writes_of_ends hsettings hfiles hends
  have hrs : ∀ r ∈ rs, Path.Named r.file := by
    intro r hr
    obtain ⟨p, hp, hof⟩ := hcomplete.rendered r hr
    rw [hof.file_eq]
    exact hnamed _ (hloaded.files ▸ List.mem_map_of_mem hp)
  refine ⟨policies, rs, hloaded, hcomplete, fun before r after hsplit hlater => ?_,
    Rendering.kept_iff hrs hwrites⟩
  exact Rendering.readFile_last hrs hwrites hsplit hlater

def renderFiles (s : Settings) (definitions : Definitions) (now : Moment) (paths : List String) :
    Session (StateM Tree) Unit := do
  let policies ← paths.mapM fun path => do
    let p : LoadedPolicy := ⟨path, ← perform .policy (Policy.load Tree.system definitions path)⟩
    log [loadedEntry p]
    return p
  perform .outputDirectory (Tree.system.makeDirectories s.output)
  let written ← policies.foldlM (fun written p => do
    let ds ← documents s now p
    ds.forM (writeDocument Tree.system s p.file)
    return written + ds.length) 0
  log [summaryEntry written policies.length]

theorem ends_runRender (hsettings : Ends (loadSettings Tree.system a) ([], t) s ([], t))
    (hdefinitions : (Definitions.load Tree.system s.definitions).run t = (.ok definitions, t))
    (hfiles : (s.policyFiles Tree.system).run t = (.ok paths, t))
    (h : Ends (renderFiles s definitions now paths) ([], t) () τ) :
    Ends (runRender Tree.system now a) ([], t) () τ := by
  obtain ⟨policies, υ, hpolicies, h⟩ := Ends.bind_iff.mp h
  refine Ends.bind_iff.mpr ⟨s, ([], t), hsettings, Ends.bind_iff.mpr ⟨policies, υ, ?_, h⟩⟩
  refine Ends.bind_iff.mpr ⟨definitions, ([], t), Ends.perform_iff.mpr ⟨hdefinitions, rfl⟩, ?_⟩
  exact Ends.bind_iff.mpr ⟨paths, ([], t), Ends.perform_iff.mpr ⟨hfiles, rfl⟩, hpolicies⟩

def leaves (P : Tree → Bool) (t : Tree) (x : Session (StateM Tree) Unit) : Bool :=
  match (x.run.run []).run t with
  | ((.ok _, _), t') => P t'
  | _ => false

theorem exists_ends_of_leaves {x : Session (StateM Tree) Unit} (h : leaves P t x = true) :
    ∃ entries t', Ends x ([], t) () (entries, t') ∧ P t' = true := by
  unfold leaves at h
  split at h
  . next entries t' heq => exact ⟨entries, t', heq, h⟩
  . simp at h

theorem map_key_of_loaded (platforms : String → List Platform) (hloaded : Loaded t s files policies)
    (hdefinitions : (Definitions.load Tree.system s.definitions).run t = (.ok definitions, t))
    (hcomplete : Complete s now policies rs)
    (hasked : (files.all fun file =>
      ((Policy.load Tree.system definitions file).run t).1.toOption.all
      fun p => askedPlatforms s p == platforms file) = true) :
    rs.map Rendering.key = files.flatMap fun file => (platforms file).map (·, Path.stem file) := by
  have hplatforms : ∀ p ∈ policies, askedPlatforms s p.policy = platforms p.file := by
    intro p hp
    obtain ⟨definitions', hdefinitions', hpolicies⟩ := hloaded.policies
    have hsame := congrArg Prod.fst (hdefinitions.symm.trans hdefinitions')
    cases hsame
    have hp' := List.all_eq_true.mp hasked p.file (hloaded.files ▸ List.mem_map_of_mem hp)
    rw [hpolicies p hp] at hp'
    simpa [Except.toOption] using hp'
  calc rs.map Rendering.key
    _ = (rs.map fun r => (r.file, r.platform)).map fun key => (key.2, Path.stem key.1) := by
      rw [List.map_map]
      rfl
    _ = policies.flatMap fun p => (askedPlatforms s p.policy).map (·, Path.stem p.file) := by
      simp only [hcomplete.keys, List.map_flatMap, List.map_map, Function.comp_def]
    _ = policies.flatMap fun p => (platforms p.file).map (·, Path.stem p.file) := by
      rw [List.flatMap_def, List.flatMap_def,
        List.map_congr_left fun p hp => by rw [hplatforms p hp]]
    _ = files.flatMap fun file => (platforms file).map (·, Path.stem file) := by
      rw [← hloaded.files, List.flatMap_map]

def site (lan : String) : Tree where
  entries := [(["def"], none), (["dmz"], none), (["lan"], none),
    (["dmz", "edge.yaml"], some (gate "iptables INPUT" "accept")),
      (["lan", "edge.yaml"], some (gate lan "deny"))]
where
  gate (target action : String) : String :=
    "filters:\n- header:\n    target: " ++ target ++ "\n  terms:\n  - name: all\n    action: "
      ++ action ++ "\n"

def siteFiles : List String :=
  ["dmz/edge.yaml", "lan/edge.yaml"]

def siteSettings : Settings :=
  { definitions := "def", policies := siteFiles, output := "out", weeks := 2 }

def siteArguments : List String :=
  ["render", "--definitions", "def", "-p", "dmz/edge.yaml", "-p", "lan/edge.yaml", "-o", "out"]

def siteFlags : Arguments :=
  { definitions := some "def", policies := some siteFiles, output := some "out" }

def emptyTables : Script.HostTables := ⟨⟨[], []⟩, ⟨[], []⟩⟩

theorem read_siteArguments :
    CommandLine.read siteArguments = .ok (.run (.command .render) siteFlags) := by
  cbv

theorem threshold_siteFlags : threshold siteFlags = .ok .info := by
  have hword : Threshold.ofWord? "info" = some .info := by decide +kernel
  simp [threshold, siteFlags, hword]

theorem loadSettings_site (lan : String) :
    Ends (loadSettings Tree.system siteFlags) ([], site lan) siteSettings ([], site lan) := by
  rfl

theorem run_loadDefinitions_site (lan : String) :
    (Definitions.load Tree.system "def").run (site lan) = (.ok ⟨[], []⟩, site lan) := by
  have hchildren : (site lan).children ["def"] = [] := by
    simp [Tree.children, site]
  have hlist : (Tree.system.listDirectory "def").run (site lan) = (.ok [], site lan) := by
    rw [← hchildren]
    rfl
  rw [Definitions.load, StateT.run_bind, hlist]
  show (Definitions.loadFiles Tree.system ⟨[], []⟩
    (List.mergeSort [] fun a b => decide (a ≤ b))).run (site lan) = _
  rw [List.mergeSort_nil]
  rfl

theorem run_policyFiles_site (lan : String) :
    (siteSettings.policyFiles Tree.system).run (site lan) = (.ok siteFiles, site lan) := by
  have hcollect : (Settings.collect Tree.system siteFiles).run (site lan)
      = (.ok siteFiles, site lan) :=
    rfl
  have hsort : (siteFiles.eraseDups.mergeSort fun a b => a ≤ b) = siteFiles :=
    List.mergeSort_of_pairwise (by decide +kernel)
  rw [Settings.policyFiles, StateT.run_bind,
    show siteSettings.policies = siteFiles from rfl, hcollect]
  show (Except.ok _, site lan) = _
  rw [hsort]

theorem exists_run_site
    (h : leaves P (site lan) (renderFiles siteSettings ⟨[], []⟩ now siteFiles) = true) :
    ∃ outcome t', (run Tree.system Script.HostTables.host emptyTables now siteArguments).run
      (site lan) = (outcome, t')
      ∧ outcome.error = none ∧ P t' = true := by
  obtain ⟨entries, t', hends, hP⟩ := exists_ends_of_leaves h
  have hrender := ends_runRender (loadSettings_site lan) (run_loadDefinitions_site lan)
    (run_policyFiles_site lan) hends
  obtain ⟨outcome, hrun, herror⟩ :=
    (run_render_iff Script.HostTables.host emptyTables read_siteArguments threshold_siteFlags).mpr
      ⟨entries, hrender⟩
  exact ⟨outcome, t', hrun, herror, hP⟩

theorem renderings_kept_site :
    ∃ outcome t' policies rs,
      (run Tree.system Script.HostTables.host emptyTables ⟨0, 0, 0⟩ siteArguments).run
        (site "windows_ipsec edge")
          = (outcome, t') ∧ outcome.error = none
        ∧ Complete siteSettings ⟨0, 0, 0⟩ policies rs
        ∧ rs.map Rendering.key = [(.iptables, "edge"), (.ipsec, "edge")]
        ∧ Rendering.Kept siteSettings t' rs := by
  have hleaves : leaves (fun _ => true) (site "windows_ipsec edge")
      (renderFiles siteSettings ⟨[], []⟩ ⟨0, 0, 0⟩ siteFiles) = true := by
    decide +kernel
  obtain ⟨outcome, t', hrun, herror, _⟩ := exists_run_site hleaves
  obtain ⟨_, hkept⟩ := renderings_kept_iff (run_policyFiles_site "windows_ipsec edge")
  obtain ⟨policies, rs, hloaded, hcomplete, _, hkept⟩ :=
    hkept read_siteArguments (loadSettings_site _) hrun herror
  have hkeys : rs.map Rendering.key = [(.iptables, "edge"), (.ipsec, "edge")] := by
    rw [map_key_of_loaded (fun file => if file == "dmz/edge.yaml" then [.iptables] else [.ipsec])
      hloaded (run_loadDefinitions_site _) hcomplete (by decide +kernel)]
    decide +kernel
  exact ⟨outcome, t', policies, rs, hrun, herror, hcomplete, hkeys,
    hkept.mpr (by rw [hkeys]; decide)⟩

/--
With the same platform in both places only the second rendering is left.
-/
theorem renderings_lost_site :
    ∃ outcome t',
      (run Tree.system Script.HostTables.host emptyTables ⟨0, 0, 0⟩ siteArguments).run
        (site "iptables INPUT")
          = (outcome, t') ∧ outcome.error = none
        ∧ (siteSettings.policyFiles Tree.system).run (site "iptables INPUT")
          = (.ok ["dmz/edge.yaml", "lan/edge.yaml"], site "iptables INPUT")
        ∧ siteSettings.outputPath "dmz/edge.yaml" ".ipt"
          = siteSettings.outputPath "lan/edge.yaml" ".ipt"
        ∧ (site "iptables INPUT").changes t'
          = [("out/edge.ipt",
            "# Iptables INPUT Policy\n# inet\n-N I_all\n-A INPUT -j I_all\n-A I_all -j DROP\n")] := by
  have hleaves : leaves (fun t' => (site "iptables INPUT").changes t'
        == [("out/edge.ipt",
          "# Iptables INPUT Policy\n# inet\n-N I_all\n-A INPUT -j I_all\n-A I_all -j DROP\n")])
      (site "iptables INPUT") (renderFiles siteSettings ⟨[], []⟩ ⟨0, 0, 0⟩ siteFiles) = true := by
    decide +kernel
  obtain ⟨outcome, t', hrun, herror, hchanges⟩ := exists_run_site hleaves
  exact ⟨outcome, t', hrun, herror, run_policyFiles_site _, by decide +kernel, eq_of_beq hchanges⟩

end Command
end PacketPolicy

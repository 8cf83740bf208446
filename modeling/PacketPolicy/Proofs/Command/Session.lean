import Mathlib.Data.List.Forall2
import PacketPolicy.Command.Run
import PacketPolicy.Proofs.Files.Tree

/-!
This module contains what is known of commands that run on files in memory and come to their end:
which computations leave the files as they are, and what has been read when settings and policies
are loaded.
-/

namespace PacketPolicy

namespace Tree

/--
On the tree `t` the computation has a result with the property `P` and leaves the files as they are.
-/
structure Reads (t : Tree) (x : StateM Tree α) (P : α → Prop) : Prop where
  unchanged : (x.run t).2 = t
  result : P (x.run t).1

namespace Reads

variable {t : Tree}

theorem pure {P : α → Prop} (h : P a) : Reads t (Pure.pure a) P :=
  ⟨rfl, h⟩

theorem bind {x : StateM Tree α} {next : α → StateM Tree β} (hx : Reads t x P)
    (hnext : ∀ a, P a → Reads t (next a) Q) :
    Reads t (x >>= next) Q := by
  have hrun : (x >>= next).run t = (next (x.run t).1).run t := by
    show (next (x.run t).1).run (x.run t).2 = _
    rw [hx.unchanged]
  have hnext := hnext _ hx.result
  exact ⟨hrun ▸ hnext.unchanged, hrun ▸ hnext.result⟩

theorem bind_except {x : StateM Tree (Except ε α)} {next : Except ε α → StateM Tree β}
    (hx : Reads t x P) (herror : ∀ e, Reads t (next (.error e)) Q)
    (hok : ∀ a, P (.ok a) → Reads t (next (.ok a)) Q) :
    Reads t (x >>= next) Q := by
  refine bind hx fun result hresult => ?_
  cases result with
  | error e => exact herror e
  | ok a => exact hok a hresult

theorem of_run {x : StateM Tree α} (hx : Reads t x P) (h : x.run t = (a, t')) : t' = t ∧ P a := by
  have hunchanged := hx.unchanged
  have hresult := hx.result
  rw [h] at hunchanged hresult
  exact ⟨hunchanged, hresult⟩

theorem readFile (path : String) : Reads t (Tree.system.readFile path) (· = t.readFile path) :=
  ⟨rfl, rfl⟩

theorem listDirectory (path : String) :
    Reads t (Tree.system.listDirectory path) (· = t.listDirectory path) :=
  ⟨rfl, rfl⟩

theorem isDirectory (path : String) :
    Reads t (Tree.system.isDirectory path) (· = t.isDirectory path) :=
  ⟨rfl, rfl⟩

theorem loadSettings (path : String) : Reads t (Settings.load Tree.system path) fun _ => True := by
  exact bind_except (readFile path) (fun _ => pure trivial) fun _ _ => pure trivial

theorem loadFiles (d : Definitions) (paths : List String) :
    Reads t (Definitions.loadFiles Tree.system d paths) fun _ => True := by
  induction paths generalizing d with
  | nil => exact pure trivial
  | cons path paths ih =>
    refine bind_except (readFile path) (fun _ => pure trivial) fun text _ => ?_
    dsimp only
    split
    . exact pure trivial
    . exact ih _

theorem loadDefinitions (path : String) :
    Reads t (Definitions.load Tree.system path) fun _ => True := by
  exact bind_except (listDirectory path) (fun _ => pure trivial) fun _ _ => loadFiles _ _

theorem loadPolicy (definitions : Definitions) (path : String) :
    Reads t (Policy.load Tree.system definitions path) fun _ => True := by
  exact bind_except (readFile path) (fun _ => pure trivial) fun _ _ => pure trivial

def All (P : α → Prop) (result : Except ε (List α)) : Prop :=
  ∀ as, result = .ok as → ∀ a ∈ as, P a

theorem All.error {P : α → Prop} : All P (.error e : Except ε (List α)) := by
  simp [All]

theorem All.ok {P : α → Prop} (h : ∀ a ∈ as, P a) : All P (.ok as : Except ε (List α)) := by
  rintro as' heq
  cases heq
  exact h

theorem All.append {P : α → Prop} (has : All P (.ok as : Except ε (List α)))
    (hbs : All P (.ok bs : Except δ (List α))) :
    All P (.ok (as ++ bs) : Except δ (List α)) :=
  .ok (List.forall_mem_append.mpr ⟨has as rfl, hbs bs rfl⟩)

theorem walk (depth : Nat) (path : String) :
    Reads t (Settings.walk Tree.system depth path) (All Path.Named) := by
  induction depth generalizing path with
  | zero =>
    rw [Settings.walk]
    exact pure (All.ok (by simp))
  | succ depth ih =>
    have hgo (entries : List DirectoryEntry) :
        Reads t (Settings.walk.go Tree.system depth path entries) (All Path.Named) := by
      induction entries with
      | nil =>
        rw [Settings.walk.go]
        exact pure (All.ok (by simp))
      | cons e es ihes =>
        rw [Settings.walk.go]
        dsimp only
        split
        . refine bind_except (ih _) (fun _ => pure .error) fun first hfirst => ?_
          exact bind_except ihes (fun _ => pure .error) fun rest hrest => pure (hfirst.append hrest)
        . refine bind_except (pure (P := All Path.Named) (.ok ?_)) (fun _ => pure .error)
            fun first hfirst => ?_
          . intro p hp
            split at hp
            . next hyaml =>
              rw [List.mem_singleton.mp hp]
              exact Path.named_of_isYaml hyaml
            . simp at hp
          . exact bind_except ihes (fun _ => pure .error) fun rest hrest =>
              pure (hfirst.append hrest)
    rw [Settings.walk]
    exact bind_except (listDirectory path) (fun _ => pure .error) fun entries _ => hgo entries

theorem collect (paths : List String) :
    Reads t (Settings.collect Tree.system paths) (All Path.Named) := by
  induction paths with
  | nil => exact pure (All.ok (by simp))
  | cons path paths ih =>
    refine bind_except (isDirectory path) (fun _ => pure .error) fun answer hanswer => ?_
    dsimp only
    split
    . refine bind_except (walk _ _) (fun _ => pure .error) fun first hfirst => ?_
      exact bind_except ih (fun _ => pure .error) fun rest hrest => pure (hfirst.append hrest)
    . refine bind_except (pure (P := All Path.Named) (.ok ?_)) (fun _ => pure .error)
        fun first hfirst => ?_
      . intro p hp
        rw [List.mem_singleton.mp hp]
        exact Tree.named_of_isDirectory hanswer.symm
      . exact bind_except ih (fun _ => pure .error) fun rest hrest => pure (hfirst.append hrest)

theorem policyFiles (s : Settings) : Reads t (s.policyFiles Tree.system) (All Path.Named) := by
  refine bind_except (collect s.policies) (fun _ => pure .error) fun paths hpaths =>
    pure (.ok fun p hp => ?_)
  rw [List.mem_mergeSort, List.mem_eraseDups] at hp
  exact hpaths paths rfl p hp

end Reads
end Tree

namespace Command

/--
The computation comes to its end with the result `a`. It starts and finishes with a log and a tree
of files.
-/
def Ends (x : Session (StateM Tree) α) (start : List Log.Entry × Tree) (a : α)
    (finish : List Log.Entry × Tree) :
    Prop :=
  (x.run.run start.1).run start.2 = ((.ok a, finish.1), finish.2)

namespace Ends

theorem unique {x : Session (StateM Tree) α} (h : Ends x σ a τ) (h' : Ends x σ a' τ') :
    a = a' ∧ τ = τ' := by
  obtain ⟨entries, t⟩ := τ
  obtain ⟨entries', t'⟩ := τ'
  have heq := h.symm.trans h'
  cases heq
  exact ⟨rfl, rfl⟩

theorem pure_iff : Ends (pure a) σ b τ ↔ a = b ∧ σ = τ := by
  show ((Except.ok a, σ.1), σ.2) = ((Except.ok b, τ.1), τ.2) ↔ _
  simp [Prod.ext_iff, and_assoc]

theorem bind_iff {x : Session (StateM Tree) α} {next : α → Session (StateM Tree) β} :
    Ends (x >>= next) σ b τ ↔ ∃ a υ, Ends x σ a υ ∧ Ends (next a) υ b τ := by
  unfold Ends
  show ((ExceptT.bindCont next ((x.run.run σ.1).run σ.2).1.1).run ((x.run.run σ.1).run σ.2).1.2).run
    ((x.run.run σ.1).run σ.2).2 = _ ↔ _
  generalize (x.run.run σ.1).run σ.2 = result
  obtain ⟨⟨outcome, entries⟩, t⟩ := result
  cases outcome with
  | error e =>
    show ((Except.error e, entries), t) = _ ↔ _
    constructor
    . intro h
      cases h
    . rintro ⟨_, _, heq, _⟩
      cases heq
  | ok a =>
    show ((next a).run.run entries).run t = _ ↔ _
    constructor
    . intro h
      exact ⟨a, (entries, t), rfl, h⟩
    . rintro ⟨a', υ, heq, h⟩
      cases heq
      exact h

theorem log_iff : Ends (log entries) σ () τ ↔ τ = (σ.1 ++ entries, σ.2) := by
  show ((Except.ok (), σ.1 ++ entries), σ.2) = ((Except.ok (), τ.1), τ.2) ↔ _
  simp [Prod.ext_iff, eq_comm]

theorem orFail_iff {failure : ε → Error} {x : Except ε α} :
    Ends (orFail failure x) σ a τ ↔ x = .ok a ∧ σ = τ := by
  show ((x.mapError failure, σ.1), σ.2) = ((Except.ok a, τ.1), τ.2) ↔ _
  simp [Prod.ext_iff, mapError_eq_ok, and_assoc]

theorem perform_iff {failure : ε → Error} {x : StateM Tree (Except ε α)} :
    Ends (perform failure x) σ a τ ↔ x.run σ.2 = (.ok a, τ.2) ∧ σ.1 = τ.1 := by
  show (((x.run σ.2).1.mapError failure, σ.1), (x.run σ.2).2) = ((Except.ok a, τ.1), τ.2) ↔ _
  generalize x.run σ.2 = result
  obtain ⟨answer, t⟩ := result
  simp only [Prod.mk.injEq, mapError_eq_ok]
  constructor
  . rintro ⟨⟨rfl, hlog⟩, rfl⟩
    exact ⟨rfl, hlog⟩
  . rintro ⟨heq, hlog⟩
    cases heq
    exact ⟨⟨rfl, hlog⟩, rfl⟩

theorem forall₂_of_mapM {step : α → Session (StateM Tree) β} {P : β → α → Prop}
    (hstep : ∀ a b υ ω, υ.2 = σ.2 → Ends (step a) υ b ω → ω.2 = σ.2 ∧ P b a)
    (h : Ends (as.mapM step) σ bs τ) :
    τ.2 = σ.2 ∧ List.Forall₂ P bs as := by
  generalize ht : σ.2 = t at hstep ⊢
  induction as generalizing σ bs with
  | nil =>
    obtain ⟨rfl, rfl⟩ := pure_iff.mp h
    exact ⟨ht, .nil⟩
  | cons a as ih =>
    rw [List.mapM_cons] at h
    obtain ⟨b, υ, hfirst, h⟩ := bind_iff.mp h
    obtain ⟨bs, ω, hrest, h⟩ := bind_iff.mp h
    obtain ⟨rfl, rfl⟩ := pure_iff.mp h
    obtain ⟨hυ, hP⟩ := hstep a b σ υ ht hfirst
    obtain ⟨hω, hforall⟩ := ih hrest hυ
    exact ⟨hω, .cons hP hforall⟩

theorem loadSettings (h : Ends (loadSettings Tree.system a) σ s τ) : τ = σ := by
  have hrest (loaded : Settings) (υ : List Log.Entry × Tree)
      (h : Ends (do
        let s ← orFail id (override a loaded)
        orFail .incomplete s.validate
        return s) υ s τ) : τ = υ := by
    obtain ⟨_, _, hoverride, h⟩ := bind_iff.mp h
    obtain ⟨_, _, hvalid, h⟩ := bind_iff.mp h
    obtain ⟨_, rfl⟩ := orFail_iff.mp hoverride
    obtain ⟨_, rfl⟩ := orFail_iff.mp hvalid
    obtain ⟨_, rfl⟩ := pure_iff.mp h
    rfl
  unfold Command.loadSettings at h
  split at h
  . obtain ⟨loaded, υ, hloaded, h⟩ := bind_iff.mp h
    obtain ⟨_, rfl⟩ := pure_iff.mp hloaded
    exact hrest loaded σ h
  . obtain ⟨loaded, υ, hloaded, h⟩ := bind_iff.mp h
    obtain ⟨hrun, hlog⟩ := perform_iff.mp hloaded
    rw [hrest loaded υ h]
    exact Prod.ext hlog.symm ((Tree.Reads.loadSettings a.config).of_run hrun).1

theorem loadPolicies (h : Ends (loadPolicies Tree.system s) σ policies τ) :
    τ.2 = σ.2 ∧ ∃ definitions, (Definitions.load Tree.system s.definitions).run σ.2
      = (.ok definitions, σ.2)
      ∧ (s.policyFiles Tree.system).run σ.2 = (.ok (policies.map LoadedPolicy.file), σ.2)
      ∧ ∀ p ∈ policies, (Policy.load Tree.system definitions p.file).run σ.2
        = (.ok p.policy, σ.2) := by
  obtain ⟨definitions, υ, hdefinitions, h⟩ := bind_iff.mp h
  obtain ⟨paths, ω, hpaths, h⟩ := bind_iff.mp h
  obtain ⟨hdefinitions, _⟩ := perform_iff.mp hdefinitions
  obtain ⟨hpaths, _⟩ := perform_iff.mp hpaths
  have hυ := ((Tree.Reads.loadDefinitions s.definitions).of_run hdefinitions).1
  have hω := ((Tree.Reads.policyFiles s).of_run hpaths).1
  rw [hω, hυ] at hpaths
  rw [hυ] at hdefinitions hω
  have hstep : ∀ path p υ ω', υ.2 = ω.2 → Ends (do
      let p : LoadedPolicy := ⟨path, ← perform .policy (Policy.load Tree.system definitions path)⟩
      log [loadedEntry p]
      return p) υ p ω' →
        ω'.2 = ω.2 ∧ (Policy.load Tree.system definitions p.file).run ω.2 = (.ok p.policy, ω.2)
          ∧ p.file = path := by
    intro path p υ ω' hυ hstep
    obtain ⟨policy, ρ, hpolicy, hstep⟩ := bind_iff.mp hstep
    obtain ⟨_, ρ', hlog, hstep⟩ := bind_iff.mp hstep
    obtain ⟨rfl, rfl⟩ := pure_iff.mp hstep
    obtain ⟨hpolicy, _⟩ := perform_iff.mp hpolicy
    have hρ := ((Tree.Reads.loadPolicy definitions path).of_run hpolicy).1
    rw [log_iff.mp hlog]
    rw [hρ, hυ] at hpolicy
    exact ⟨hρ.trans hυ, hpolicy, rfl⟩
  obtain ⟨hτ, hforall⟩ := forall₂_of_mapM hstep h
  obtain ⟨hpolicies, hfiles⟩ := (List.forall₂_and_left _ _).mp hforall
  rw [← List.forall₂_map_left_iff, List.forall₂_eq_eq_eq] at hfiles
  rw [hω] at hτ hpolicies
  exact ⟨hτ, definitions, hdefinitions, by rw [hfiles, hpaths], hpolicies⟩

end Ends

end Command
end PacketPolicy

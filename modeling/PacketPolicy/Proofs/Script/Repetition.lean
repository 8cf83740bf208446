import PacketPolicy.Proofs.Script.Order

namespace PacketPolicy
namespace Script

namespace Command

def target? : Command → Option String
  | .policy target => some target
  | _ => none

def settled (policy : Option String) (c : Command) : Option String :=
  c.target?.or policy

theorem foldl_settled (cs : List Command) (policy : Option String) :
    cs.foldl settled policy = (cs.reverse.findSome? target?).or policy := by
  induction cs using List.reverseRecOn with
  | nil => rfl
  | append_singleton cs c ih =>
    rw [List.foldl_append, ih, List.reverse_append, List.reverse_singleton, List.singleton_append,
      List.findSome?_cons]
    cases h : c.target? <;> simp [settled, h]

theorem foldl_settled_foldl_settled (cs : List Command) (policy : Option String) :
    cs.foldl settled (cs.foldl settled policy) = cs.foldl settled policy := by
  rw [foldl_settled, foldl_settled, ← Option.or_assoc, Option.or_self]

theorem foldl_applied_foldl_applied (cs : List Command) (rules : Option Rules) :
    cs.foldl applied (cs.foldl applied rules) = cs.foldl applied rules := by
  rw [foldl_applied, foldl_applied]
  split
  . rfl
  . cases rules with
    | none => rfl
    | some old =>
      have hnone : (listing cs).filter (· ∉ old ++ (listing cs).filter (· ∉ old)) = [] := by
        rw [List.filter_eq_nil_iff]
        intro rule hrule
        by_cases hold : rule ∈ old <;> simp [hold, hrule]
      rw [Option.map_some, Option.map_some, hnone, List.append_nil]

end Command

namespace Tables

/--
Two lists have the same keys in the same order, and also the same values for keys that have been
`seen` before.
-/
inductive Aligned : (seen : List String) → List (String × α) → List (String × α) → Prop where
  | nil : Aligned seen [] []
  | cons {key : String} {value value' : α} : (key ∈ seen → value = value') →
    Aligned (key :: seen) entries entries' →
      Aligned seen ((key, value) :: entries) ((key, value') :: entries')

variable {entries entries' : List (String × α)}

theorem Aligned.refl (seen : List String) (entries : List (String × α)) :
    Aligned seen entries entries := by
  induction entries generalizing seen with
  | nil => exact .nil
  | cons entry entries ih => exact .cons (fun _ => rfl) (ih _)

theorem Aligned.put (h : Aligned seen entries entries') (hseen : key ∉ seen)
    (hkey : (entries.lookup key).isSome = true) (value : α) :
    Aligned seen entries (put key value entries') := by
  induction h with
  | nil => simp at hkey
  | @cons seen _ _ k v v' hsame hrest ih =>
    unfold Tables.put
    split
    . next hk =>
      obtain rfl := beq_iff_eq.mp hk
      exact .cons (fun hmem => absurd hmem hseen) hrest
    . next hk =>
      have hne : key ≠ k := fun heq => hk (beq_iff_eq.mpr heq.symm)
      rw [lookup_cons_eq_ite, if_neg hne] at hkey
      exact .cons hsame (ih (by simp [hne, hseen]) hkey)

theorem Aligned.isSome_lookup (h : Aligned seen entries entries') (key : String) :
    (entries'.lookup key).isSome = (entries.lookup key).isSome := by
  induction h with
  | nil => rfl
  | cons _ _ ih =>
    rw [lookup_cons_eq_ite, lookup_cons_eq_ite]
    split
    . rfl
    . exact ih

theorem Aligned.eq (h : Aligned seen entries entries')
    (hlookup : ∀ key, key ∉ seen → entries'.lookup key = entries.lookup key) :
    entries' = entries := by
  induction h with
  | nil => rfl
  | @cons seen _ _ k v v' hsame _ ih =>
    have hvalue : v' = v := by
      by_cases hk : k ∈ seen
      . exact (hsame hk).symm
      . simpa [lookup_cons_eq_ite] using hlookup k hk
    rw [hvalue, ih]
    intro key hkey
    rw [List.mem_cons, not_or] at hkey
    simpa [lookup_cons_eq_ite, hkey.1] using hlookup key hkey.2

def policy? (t : Tables) (chain : String) : Option String :=
  t.policies.lookup chain

variable {t t' : Tables}

theorem policy?_applyCall (s : Statement) (t : Tables) (k : String) :
    (t.call (Engine.applyCall s)).2.policy? k =
      if k = s.chain then s.command.settled (t.policy? k) else t.policy? k := by
  unfold Engine.applyCall
  cases s.command with
  | policy target => exact lookup_put
  | declare => exact (ite_self _).symm
  | append rule =>
    have hsame : (t.call (.appendUnique s.chain rule)).2.policies = t.policies := by
      unfold call
      dsimp only
      split
      . rfl
      . split <;> rfl
    rw [policy?, hsame]
    exact (ite_self _).symm

def Has (t : Tables) (s : Statement) : Prop :=
  match s.command with
  | .policy _ => (t.policy? s.chain).isSome = true
  | _ => (t.rules? s.chain).isSome = true

structure SameKeys (t t' : Tables) : Prop where
  chains : Aligned [] t.chains t'.chains
  policies : Aligned [] t.policies t'.policies

theorem SameKeys.refl (t : Tables) : t.SameKeys t := by
  exact ⟨.refl _ _, .refl _ _⟩

theorem SameKeys.setRules (h : t.SameKeys t') (hchain : (t.rules? chain).isSome = true)
    (rules : Rules) :
    t.SameKeys (t'.setRules chain rules) := by
  exact ⟨h.chains.put (by simp) hchain rules, h.policies⟩

theorem SameKeys.call (h : t.SameKeys t') (hs : t.Has s) :
    (t'.call (Engine.applyCall s)).1 = .ok true ∧ t.SameKeys (t'.call (Engine.applyCall s)).2 := by
  unfold Has at hs
  unfold Engine.applyCall
  cases hcommand : s.command with
  | policy target =>
    rw [hcommand] at hs
    exact ⟨rfl, h.chains, h.policies.put (by simp) hs target⟩
  | declare =>
    rw [hcommand] at hs
    exact ⟨rfl, h.setRules hs []⟩
  | append rule =>
    rw [hcommand] at hs
    have hsome : (t'.rules? s.chain).isSome = true := (h.chains.isSome_lookup s.chain).trans hs
    obtain ⟨rules, hrules⟩ := Option.isSome_iff_exists.mp hsome
    simp only [Tables.call, hrules, true_and]
    split
    . exact h
    . exact h.setRules hs _

theorem SameKeys.eq (h : t.SameKeys t') (hrules : ∀ chain, t'.rules? chain = t.rules? chain)
    (hpolicies : ∀ chain, t'.policy? chain = t.policy? chain) : t' = t := by
  have hchains := h.chains.eq fun chain _ => hrules chain
  have hpolicies := h.policies.eq fun chain _ => hpolicies chain
  cases t
  cases t'
  simp_all

end Tables

namespace HostTables

def policy? (s : HostTables) (f : Family) (chain : String) : Option String :=
  (s.tables f).policy? chain

def Has (h : HostTables) (s : Statement) : Prop :=
  (h.tables s.family).Has s

def SameKeys (h h' : HostTables) : Prop :=
  ∀ f, (h.tables f).SameKeys (h'.tables f)

theorem SameKeys.call {h h' : HostTables} (hsame : h.SameKeys h') (hs : h.Has s) :
    (host.call s.family (Engine.applyCall s) h').1 = .ok true
      ∧ h.SameKeys (host.call s.family (Engine.applyCall s) h').2 := by
  obtain ⟨hok, hkeys⟩ := (hsame s.family).call hs
  refine ⟨hok, fun f => ?_⟩
  show (h.tables f).SameKeys ((h'.set s.family _).tables f)
  rw [tables_set]
  split
  . next hf => rwa [hf]
  . exact hsame f

theorem SameKeys.eq {h h' : HostTables} (hsame : h.SameKeys h')
    (hrules : ∀ f chain, h'.rules? f chain = h.rules? f chain)
    (hpolicies : ∀ f chain, h'.policy? f chain = h.policy? f chain) : h' = h := by
  have hv4 : h'.v4 = h.v4 := (hsame .v4).eq (hrules .v4) (hpolicies .v4)
  have hv6 : h'.v6 = h.v6 := (hsame .v6).eq (hrules .v6) (hpolicies .v6)
  cases h
  cases h'
  simp_all

end HostTables

namespace Engine

variable {e : Engine HostTables}

theorem policy?_applyStatement (e : Engine HostTables) (s : Statement) (f : Family)
    (chain : String) :
    (applyStatement HostTables.host false e s).engine.host.policy? f chain =
      if f = s.family ∧ chain = s.chain then s.command.settled (e.host.policy? f chain)
      else e.host.policy? f chain := by
  rw [host_applyStatement]
  show ((e.host.set s.family ((e.host.tables s.family).call (applyCall s)).2).tables f).policy?
    chain = _
  rw [HostTables.tables_set]
  by_cases hf : f = s.family
  . rw [if_pos hf, Tables.policy?_applyCall, hf]
    simp only [true_and]
    rfl
  . rw [if_neg hf, if_neg (fun h => hf h.1)]
    rfl

theorem policy?_runAll (h : (runAll (applyStatement HostTables.host false) e ss).error = none) :
    (runAll (applyStatement HostTables.host false) e ss).engine.host.policy? f chain =
      (commandsAt f chain ss).foldl Command.settled (e.host.policy? f chain) := by
  exact view_runAll policy?_applyStatement h

theorem runAll_induction {P : σ → Prop} {step : Engine σ → Statement → Outcome σ} {e : Engine σ}
    (hstep : ∀ e, ∀ s ∈ ss, P e.host → (step e s).error = none ∧ P (step e s).engine.host)
    (h : P e.host) :
    (runAll step e ss).error = none ∧ P (runAll step e ss).engine.host := by
  induction ss generalizing e with
  | nil => exact ⟨rfl, h⟩
  | cons s ss ih =>
    obtain ⟨hok, hhost⟩ := hstep e s List.mem_cons_self h
    unfold runAll
    simp only [hok]
    exact ih (fun e s hs => hstep e s (List.mem_cons_of_mem _ hs)) hhost

theorem log_runAll {host : Host σ} {e : Engine σ}
    (h : (runAll (applyStatement host false) e ss).error = none) :
    (runAll (applyStatement host false) e ss).log = ss.map fun s =>
      entry .debug s ("applied " ++ headText s) := by
  induction ss generalizing e with
  | nil => rfl
  | cons s ss ih =>
    unfold runAll at h ⊢
    dsimp only at h ⊢
    split at h
    . simp at h
    . next hok =>
      rw [ih h, List.map_cons]
      simp only [applyStatement, Bool.false_eq_true, ↓reduceIte] at hok ⊢
      split at hok
      . simp at hok
      . split at hok
        . simp at hok
        . simp_all

theorem applyStatement_of_sameKeys {tables : HostTables} (hsame : tables.SameKeys e.host)
    (hs : tables.Has s) :
    (applyStatement HostTables.host false e s).error = none
      ∧ tables.SameKeys (applyStatement HostTables.host false e s).engine.host := by
  obtain ⟨hok, hkeys⟩ := hsame.call hs
  obtain ⟨opened, hconnect⟩ := connect_host e s.family
  rw [host_applyStatement]
  refine ⟨?_, hkeys⟩
  simp only [applyStatement, Bool.false_eq_true, ↓reduceIte, hconnect,
    call_eq_ok (e := ⟨opened, e.host⟩) hok]

theorem has_of_runAll (h : (runAll (applyStatement HostTables.host false) e ss).error = none)
    (hs : s ∈ ss) :
    (runAll (applyStatement HostTables.host false) e ss).engine.host.Has s := by
  have hmem : s.command ∈ commandsAt s.family s.chain ss := by
    unfold commandsAt
    exact List.mem_map_of_mem (List.mem_filter.mpr ⟨hs, by simp⟩)
  unfold HostTables.Has Tables.Has
  cases hcommand : s.command with
  | policy target =>
    show ((runAll _ e ss).engine.host.policy? s.family s.chain).isSome = true
    rw [policy?_runAll h, Command.foldl_settled, Option.isSome_or, Bool.or_eq_true]
    left
    rw [List.findSome?_isSome_iff]
    exact ⟨s.command, List.mem_reverse.mpr hmem, by simp [hcommand, Command.target?]⟩
  | declare =>
    show ((runAll _ e ss).engine.host.rules? s.family s.chain).isSome = true
    rw [hcommand] at hmem
    rw [rules?_runAll changes_applyStatement h, Command.foldl_applied, if_pos hmem]
    rfl
  | append rule =>
    rw [hcommand] at hmem
    exact isSome_of_runAll h hmem

theorem runAll_runAll (h : (runAll (applyStatement HostTables.host false) e ss).error = none)
    (reopened : List Family) :
    (runAll (applyStatement HostTables.host false)
        ⟨reopened, (runAll (applyStatement HostTables.host false) e ss).engine.host⟩ ss).error
          = none
      ∧ (runAll (applyStatement HostTables.host false)
          ⟨reopened, (runAll (applyStatement HostTables.host false) e ss).engine.host⟩
            ss).engine.host =
        (runAll (applyStatement HostTables.host false) e ss).engine.host := by
  have hhas := fun s hs => has_of_runAll (s := s) h hs
  have hrules (f : Family) (chain : String) : (runAll _ e ss).engine.host.rules? f chain = _ :=
    rules?_runAll changes_applyStatement h
  have hpolicies (f : Family) (chain : String) : (runAll _ e ss).engine.host.policy? f chain = _ :=
    policy?_runAll h
  generalize (runAll (applyStatement HostTables.host false) e ss).engine.host = after at *
  -- No statement adds an entry any more, so all the tables of the second run have the same keys.
  obtain ⟨hok, hsame⟩ := runAll_induction (P := after.SameKeys) (e := ⟨reopened, after⟩)
    (fun e s hs hsame => applyStatement_of_sameKeys hsame (hhas s hs)) (fun f => .refl _)
  refine ⟨hok, hsame.eq (fun f chain => ?_) fun f chain => ?_⟩
  . rw [rules?_runAll changes_applyStatement hok, hrules]
    apply Command.foldl_applied_foldl_applied
  . rw [policy?_runAll hok, hpolicies]
    apply Command.foldl_settled_foldl_settled

/--
A script that has run to its end runs to its end again, whatever families are open then, and leaves
the tables as they are.
-/
theorem apply_repeated (h : apply HostTables.host false start script = ⟨e, log, none⟩)
    (reopened : List Family) :
    ∃ e', apply HostTables.host false ⟨reopened, e.host⟩ script = ⟨e', log, none⟩
      ∧ e'.host = e.host := by
  unfold apply at h ⊢
  split at h
  . simp at h
  . next statements hread =>
    have herror : (runAll (applyStatement HostTables.host false) start statements).error
        = none := by
      rw [h]
    have hlog := log_runAll herror
    obtain ⟨hok, hhost⟩ := runAll_runAll herror reopened
    rw [h] at hlog hok hhost
    refine ⟨_, ?_, hhost⟩
    rw [show log = _ from hlog, ← log_runAll hok, ← hok]

def churnScript : String :=
  "-P INPUT DROP\n-N web\n-A web -j LOG\n-A INPUT -j web\n-N web\n-A web -p udp\n-A web -p tcp\n-A web -p udp\n"
    ++ "-P INPUT ACCEPT\n# inet6\n-A INPUT -j DROP\n"

def usedTables : HostTables where
  v4 := ⟨[("INPUT", [["-i", "lo"], ["-i", "lo"]]), ("web", [["-p", "icmp"]])], []⟩
  v6 := ⟨[("INPUT", [["-j", "DROP"], ["-i", "lo"]])], [("INPUT", "DROP")]⟩

theorem apply_repeated_churnScript :
    ∃ e log, apply HostTables.host false ⟨[], usedTables⟩ churnScript = ⟨e, log, none⟩
      ∧ e.host
        = ⟨⟨[("INPUT", [["-i", "lo"], ["-i", "lo"], ["-j", "web"]]),
        ("web", [["-p", "udp"], ["-p", "tcp"]])], [("INPUT", "ACCEPT")]⟩, usedTables.v6⟩
      ∧ ∃ e', apply HostTables.host false ⟨[.v6], e.host⟩ churnScript = ⟨e', log, none⟩
        ∧ e'.host = e.host := by
  have hrun : (apply HostTables.host false ⟨[], usedTables⟩ churnScript).error = none
      ∧ (apply HostTables.host false ⟨[], usedTables⟩ churnScript).engine.host =
        ⟨⟨[("INPUT", [["-i", "lo"], ["-i", "lo"], ["-j", "web"]]),
          ("web", [["-p", "udp"], ["-p", "tcp"]])], [("INPUT", "ACCEPT")]⟩, usedTables.v6⟩ := by
    decide +kernel
  have happly := Outcome.eq_of_error_eq_none hrun.1
  exact ⟨_, _, happly, hrun.2, apply_repeated happly [.v6]⟩

end Engine
end Script
end PacketPolicy

import PacketPolicy.Proofs.Script.Tables

namespace PacketPolicy
namespace Script

namespace Command

variable {before after : Option Rules} {done : List Command}

def Fresh (before : Option Rules) : Command → Prop
  | .policy _ => True
  | .declare => before = none
  | .append rule => ∀ rules ∈ before, rule ∉ rules

instance (before : Option Rules) (c : Command) : Decidable (c.Fresh before) :=
  match c with
  | .policy _ => inferInstanceAs (Decidable True)
  | .declare => inferInstanceAs (Decidable (before = none))
  | .append rule => inferInstanceAs (Decidable (∀ rules ∈ before, rule ∉ rules))

/--
What some commands may have made of a chain: rules of theirs stand behind those from before. Nothing
is said about a chain that they declare, which was not there before.
-/
def Grown (before : Option Rules) (done : List Command) (after : Option Rules) : Prop :=
  .declare ∈ done ∨ ∃ new, after = before.map (· ++ new) ∧ new.Nodup
    ∧ ∀ rule ∈ new, .append rule ∈ done

theorem grown_nil : Grown before [] after ↔ after = before := by
  constructor
  . rintro (hdeclare | ⟨new, rfl, _, hnew⟩)
    . simp at hdeclare
    . have hnil : new = [] :=
        List.eq_nil_iff_forall_not_mem.mpr fun rule hrule => by simpa using hnew rule hrule
      simp [hnil]
  . rintro rfl
    exact .inr ⟨[], by simp, by simp, by simp⟩

theorem Grown.applied (h : Grown before done after) (c : Command) :
    Grown before (done ++ [c]) (c.applied after) := by
  obtain hdeclare | ⟨new, rfl, hnodup, hnew⟩ := h
  . exact .inl (by simp [hdeclare])
  . have hnew' : ∀ rule ∈ new, .append rule ∈ done ++ [c] :=
      fun rule hrule => List.mem_append_left _ (hnew rule hrule)
    cases c with
    | policy target => exact .inr ⟨new, rfl, hnodup, hnew'⟩
    | declare => exact .inl (by simp)
    | append rule =>
      right
      cases before with
      | none => exact ⟨new, rfl, hnodup, hnew'⟩
      | some rules =>
        by_cases hmem : rule ∈ rules ++ new
        . exact ⟨new, by simp [Command.applied, hmem], hnodup, hnew'⟩
        . refine ⟨new ++ [rule], by simp [Command.applied, hmem], ?_, ?_⟩
          . have hnot : rule ∉ new := fun h => hmem (List.mem_append_right _ h)
            simpa [List.nodup_append, hnodup] using fun r hr => ne_of_mem_of_not_mem hr hnot
          . intro r hr
            obtain hr | hr := List.mem_append.mp hr
            . exact hnew' r hr
            . simp [List.mem_singleton.mp hr]

theorem Grown.reverted (h : Grown before (done ++ [c]) after) (hfresh : c.Fresh before) :
    Grown before done (c.reverted after) := by
  by_cases hdone : .declare ∈ done
  . exact .inl hdone
  right
  obtain hdeclare | ⟨new, rfl, hnodup, hnew⟩ := h
  . -- The chain was not there before, and it is not there any more.
    have hc : c = .declare := by simpa [hdone, eq_comm] using hdeclare
    subst hc
    have hbefore : before = none := hfresh
    exact ⟨[], by simp [Command.reverted, hbefore], by simp, by simp⟩
  . cases c with
    | policy target => exact ⟨new, rfl, hnodup, fun rule hrule => by simpa using hnew rule hrule⟩
    | declare =>
      have hbefore : before = none := hfresh
      exact ⟨[], by simp [Command.reverted, hbefore], by simp, by simp⟩
    | append rule =>
      refine ⟨new.erase rule, ?_, hnodup.erase rule, ?_⟩
      . cases before with
        | none => rfl
        | some rules => simp [Command.reverted, List.erase_append_right _ (hfresh rules rfl)]
      . intro r hr
        obtain ⟨hne, hr⟩ := hnodup.mem_erase_iff.mp hr
        simpa [hne] using hnew r hr

theorem Grown.foldl_applied (h : Grown before done after) (cs : List Command) :
    Grown before (done ++ cs) (cs.foldl Command.applied after) := by
  induction cs generalizing done after with
  | nil => simpa using h
  | cons c cs ih => simpa using ih (h.applied c)

/--
The last command of a run is the first one that is taken back, so that what is left to take back is
always the start of the run.
-/
theorem Grown.foldl_reverted {undone : List Command} (h : Grown before undone.reverse after)
    (hfresh : ∀ c ∈ undone, c.Fresh before) : undone.foldl Command.reverted after = before := by
  induction undone generalizing after with
  | nil => exact grown_nil.mp h
  | cons c undone ih =>
    rw [List.reverse_cons] at h
    rw [List.foldl_cons]
    exact ih (h.reverted (hfresh c List.mem_cons_self)) fun d hd =>
      hfresh d (List.mem_cons_of_mem c hd)

theorem foldl_reverted_foldl_applied (cs : List Command) (hfresh : ∀ c ∈ cs, c.Fresh before) :
    cs.reverse.foldl reverted (cs.foldl applied before) = before := by
  have hgrown : Grown before cs (cs.foldl applied before) := (grown_nil.mpr rfl).foldl_applied cs
  apply Grown.foldl_reverted
  . rwa [List.reverse_reverse]
  . intro c hc
    exact hfresh c (List.mem_reverse.mp hc)

end Command

/--
A script is new to the tables of a host: none of the chains that it declares exists, and no chain
has a rule already that the script appends to it.
-/
def FreshFor (tables : HostTables) (ss : List Statement) : Prop :=
  ∀ s ∈ ss, s.command.Fresh (tables.rules? s.family s.chain)

instance (tables : HostTables) (ss : List Statement) : Decidable (FreshFor tables ss) :=
  inferInstanceAs (Decidable (∀ s ∈ ss, _))

namespace Engine

theorem rules?_revert (hread : (read script).error = none) (e : Engine HostTables) :
    ∃ e' log, revert HostTables.host false e script = ⟨e', log, none⟩
      ∧ ∀ f chain, e'.host.rules? f chain =
          (commandsAt f chain (read script).statements).reverse.foldl Command.reverted
            (e.host.rules? f chain) := by
  have hrun : revert HostTables.host false e script =
      runAll (revertStatement HostTables.host false) e (read script).statements.reverse := by
    unfold revert
    split
    . next heq => simp [heq] at hread
    . next heq => rw [heq]
  have herror :=
    error_runAll (fun e s => (changes_revertStatement e s).1) e (read script).statements.reverse
  refine ⟨_, _, hrun.trans (by rw [← herror]), fun f chain => ?_⟩
  rw [rules?_runAll (fun e s => (changes_revertStatement e s).2) herror, commandsAt_reverse]

/--
Whatever a script holds, if it is new to the tables and runs to its end, it can be taken back, and
then all chains of both families have the rules from before, or are missing as before. It does not
matter which families are open when it is taken back.
-/
theorem revert_restores_rules (start : Engine HostTables)
    (hfresh : FreshFor start.host (read script).statements)
    (happly : apply HostTables.host false start script = ⟨e, log, none⟩) (reopened : List Family) :
    ∃ e' log', revert HostTables.host false ⟨reopened, e.host⟩ script = ⟨e', log', none⟩
      ∧ ∀ f chain, e'.host.rules? f chain = start.host.rules? f chain := by
  obtain ⟨hread, happlied⟩ := rules?_apply happly
  obtain ⟨e', log', hrevert, hreverted⟩ := rules?_revert hread ⟨reopened, e.host⟩
  refine ⟨e', log', hrevert, fun f chain => ?_⟩
  have hcommands : ∀ c ∈ commandsAt f chain (read script).statements,
      c.Fresh (start.host.rules? f chain) := by
    intro c hc
    obtain ⟨s, hs, rfl, rfl, rfl⟩ := exists_of_mem_commandsAt hc
    exact hfresh s hs
  rw [hreverted, happlied]
  exact Command.foldl_reverted_foldl_applied _ hcommands

def webScript : String :=
  "-P INPUT DROP\n-N web\n-A INPUT -j web\n-A web -j LOG\n# inet6\n-N web\n"
    ++ "# inet\n-N web\n-A INPUT -j web\n-A web -j LOG\n"

def loopbackTables : HostTables where
  v4 := ⟨[("INPUT", [["-i", "lo"]]), ("OUTPUT", [])], [("INPUT", "ACCEPT")]⟩
  v6 := ⟨[("INPUT", [])], []⟩

theorem revert_webScript_restores_rules :
    ∃ e log, apply HostTables.host false ⟨[], loopbackTables⟩ webScript = ⟨e, log, none⟩
      ∧ e.host.rules? .v4 "INPUT" = some [["-i", "lo"], ["-j", "web"]]
      ∧ e.host.rules? .v6 "web" = some []
      ∧ ∃ e' log', revert HostTables.host false e webScript = ⟨e', log', none⟩
          ∧ ∀ f chain, e'.host.rules? f chain = loopbackTables.rules? f chain := by
  have hfresh : FreshFor loopbackTables (read webScript).statements := by decide +kernel
  have hrun : (apply HostTables.host false ⟨[], loopbackTables⟩ webScript).error = none
      ∧ (apply HostTables.host false ⟨[], loopbackTables⟩ webScript).engine.host.rules? .v4 "INPUT"
        = some [["-i", "lo"], ["-j", "web"]]
      ∧ (apply HostTables.host false ⟨[], loopbackTables⟩ webScript).engine.host.rules? .v6 "web"
        = some [] := by
    decide +kernel
  generalize hresult : apply HostTables.host false ⟨[], loopbackTables⟩ webScript = result at hrun
  obtain ⟨e, log, error⟩ := result
  obtain ⟨rfl, hinput, hweb⟩ := hrun
  exact ⟨e, log, rfl, hinput, hweb,
    revert_restores_rules ⟨[], loopbackTables⟩ hfresh hresult e.opened⟩

end Engine
end Script
end PacketPolicy

import PacketPolicy.Script.Host

/-!
This module contains what statements do to the tables of a host, one chain at a time: a statement
changes the rules of the chain that it names and of no other, and so does taking it back.
-/

namespace PacketPolicy
namespace Script

abbrev Rules : Type :=
  List (List String)

namespace Command

def applied (rules : Option Rules) : Command → Option Rules
  | .policy _ => rules
  | .declare => some []
  | .append rule => rules.map fun rules => if rules.contains rule then rules else rules ++ [rule]

def reverted (rules : Option Rules) : Command → Option Rules
  | .policy _ => rules
  | .declare => none
  | .append rule => rules.map (·.erase rule)

end Command

namespace Tables

variable {entries : List (String × α)} {key k : String}

theorem lookup_cons_eq_ite :
    ((key, value) :: entries).lookup k = if k = key then some value else entries.lookup k := by
  rw [List.lookup_cons]
  cases h : k == key <;> simp_all

theorem lookup_put :
    (put key value entries).lookup k = if k = key then some value else entries.lookup k := by
  induction entries with
  | nil => rw [put, lookup_cons_eq_ite]
  | cons entry rest ih =>
    obtain ⟨key', value'⟩ := entry
    unfold put
    split
    . next hkey =>
      rw [beq_iff_eq.mp hkey]
      grind [lookup_cons_eq_ite]
    . grind [lookup_cons_eq_ite]

theorem lookup_filter_ne :
    (entries.filter (·.1 != key)).lookup k = if k = key then none else entries.lookup k := by
  induction entries with
  | nil => simp
  | cons entry rest ih =>
    obtain ⟨key', value'⟩ := entry
    rw [List.filter_cons, lookup_cons_eq_ite]
    split
    . grind [lookup_cons_eq_ite]
    . grind

variable {t : Tables} {chain : String}

theorem rules?_setRules :
    (t.setRules chain rules).rules? k = if k = chain then some rules else t.rules? k := by
  exact lookup_put

theorem rules?_deleteChain :
    (t.call (.deleteChain chain)).2.rules? k = if k = chain then none else t.rules? k := by
  exact lookup_filter_ne

theorem rules?_clearChain :
    (t.call (.clearChain chain)).2.rules? k = if k = chain then some [] else t.rules? k := by
  exact rules?_setRules

theorem rules?_of_change {t' : Tables} (change : Rules → Rules)
    (hnone : t.rules? chain = none → t' = t) (hsome : ∀ rules, t.rules? chain = some rules →
      t' = t.setRules chain (change rules) ∨ t' = t ∧ change rules = rules) :
    t'.rules? k = if k = chain then (t.rules? k).map change else t.rules? k := by
  cases hchain : t.rules? chain with
  | none =>
    rw [hnone hchain]
    split
    . next hk => rw [hk, hchain, Option.map_none]
    . rfl
  | some rules =>
    obtain rfl | ⟨rfl, hsame⟩ := hsome rules hchain
    . rw [rules?_setRules]
      split
      . next hk => rw [hk, hchain, Option.map_some]
      . rfl
    . split
      . next hk => rw [hk, hchain, Option.map_some, hsame]
      . rfl

theorem rules?_appendUnique :
    (t.call (.appendUnique chain rule)).2.rules? k =
      if k = chain then Command.applied (t.rules? k) (.append rule) else t.rules? k := by
  apply rules?_of_change
  . intro hnone
    simp only [call, hnone]
  . intro rules hsome
    simp only [call, hsome]
    split
    . exact .inr ⟨rfl, rfl⟩
    . exact .inl rfl

theorem rules?_deleteIfExists :
    (t.call (.deleteIfExists chain rule)).2.rules? k =
      if k = chain then Command.reverted (t.rules? k) (.append rule) else t.rules? k := by
  apply rules?_of_change
  . intro hnone
    simp only [call, hnone]
  . intro rules hsome
    simp only [call, hsome]
    split
    . exact .inl rfl
    . next hnew => exact .inr ⟨rfl, List.erase_of_not_mem (by simpa using hnew)⟩

theorem rules?_applyCall (s : Statement) (t : Tables) (k : String) :
    (t.call (Engine.applyCall s)).2.rules? k =
      if k = s.chain then s.command.applied (t.rules? k) else t.rules? k := by
  unfold Engine.applyCall
  cases s.command with
  | policy target => exact (ite_self _).symm
  | declare => exact rules?_clearChain
  | append rule => exact rules?_appendUnique

end Tables

namespace HostTables

def rules? (s : HostTables) (f : Family) (chain : String) : Option Rules :=
  (s.tables f).rules? chain

variable {s : HostTables}

theorem tables_set : (s.set f t).tables g = if g = f then t else s.tables g := by
  cases f <;> cases g <;> rfl

theorem rules?_call (change : Option Rules → Option Rules)
    (h : ∀ k, ((s.tables f).call c).2.rules? k =
      if k = chain then change ((s.tables f).rules? k) else (s.tables f).rules? k)
    (g : Family) (k : String) :
    (host.call f c s).2.rules? g k =
      if g = f ∧ k = chain then change (s.rules? g k) else s.rules? g k := by
  show ((s.set f ((s.tables f).call c).2).tables g).rules? k = _
  rw [tables_set]
  by_cases hg : g = f
  . rw [if_pos hg, hg, h]
    simp only [true_and]
    rfl
  . rw [if_neg hg, if_neg (fun h => hg h.1)]
    rfl

end HostTables

namespace Engine

variable {e : Engine HostTables}

theorem connect_host (e : Engine HostTables) (f : Family) :
    ∃ opened, connect HostTables.host e f = (⟨opened, e.host⟩, none) := by
  unfold connect
  split
  . exact ⟨e.opened, rfl⟩
  . exact ⟨f :: e.opened, rfl⟩

theorem call_eq_ok (h : ((e.host.tables f).call c).1 = .ok answer) (failure : String → Error) :
    call HostTables.host e f c failure
      = (⟨e.opened, (HostTables.host.call f c e.host).2⟩, .ok answer) := by
  have hcall : (HostTables.host.call f c e.host).1 = .ok answer := h
  unfold call
  split <;> simp_all

def Changes (s : Statement) (change : Option Rules → Command → Option Rules)
    (before after : HostTables) : Prop :=
  ∀ f chain, after.rules? f chain =
    if f = s.family ∧ chain = s.chain then change (before.rules? f chain) s.command
    else before.rules? f chain

theorem host_applyStatement (e : Engine HostTables) (s : Statement) :
    (applyStatement HostTables.host false e s).engine.host =
      (HostTables.host.call s.family (applyCall s) e.host).2 := by
  obtain ⟨opened, hconnect⟩ := connect_host e s.family
  simp only [applyStatement, Bool.false_eq_true, ↓reduceIte, hconnect, call]
  obtain ⟨answer, after⟩ := HostTables.host.call s.family (applyCall s) e.host
  cases answer <;> rfl

theorem changes_applyStatement (e : Engine HostTables) (s : Statement) :
    Changes s Command.applied e.host (applyStatement HostTables.host false e s).engine.host := by
  rw [host_applyStatement]
  exact HostTables.rules?_call (s.command.applied ·) (Tables.rules?_applyCall s _)

theorem changes_revertRule (hcommand : s.command = .append rule) :
    (revertRule HostTables.host e s rule).error = none
      ∧ Changes s Command.reverted e.host (revertRule HostTables.host e s rule).engine.host := by
  have hok : ((e.host.tables s.family).call (.deleteIfExists s.chain rule)).1 = .ok true := by
    unfold Tables.call
    dsimp only
    split <;> rfl
  simp only [revertRule, call_eq_ok hok, reverted, true_and]
  unfold Changes
  rw [hcommand]
  exact HostTables.rules?_call (Command.reverted · (.append rule)) fun _ =>
    Tables.rules?_deleteIfExists

theorem changes_revertChain (hcommand : s.command = .declare) :
    (revertChain HostTables.host e s).error = none
      ∧ Changes s Command.reverted e.host (revertChain HostTables.host e s).engine.host := by
  have hexists : ((e.host.tables s.family).call (.chainExists s.chain)).1
      = .ok (e.host.rules? s.family s.chain).isSome :=
    rfl
  have hsame : (HostTables.host.call s.family (.chainExists s.chain) e.host).2 = e.host := by
    cases s.family <;> rfl
  unfold Changes
  rw [hcommand]
  cases hchain : e.host.rules? s.family s.chain with
  | none =>
    simp only [revertChain, call_eq_ok hexists, hchain, Option.isSome_none, true_and]
    intro f chain
    rw [hsame]
    split
    . next h => rw [h.1, h.2, hchain]; rfl
    . rfl
  | some rules =>
    have hclear : ∀ e : Engine HostTables,
        ((e.host.tables s.family).call (.clearChain s.chain)).1 = .ok true :=
      fun _ => rfl
    have hdelete : ∀ e : Engine HostTables,
        ((e.host.tables s.family).call (.deleteChain s.chain)).1 = .ok true :=
      fun _ => rfl
    simp only [revertChain, call_eq_ok hexists, hchain, Option.isSome_some, call_eq_ok (hclear _),
      call_eq_ok (hdelete _), reverted, true_and]
    intro f chain
    rw [HostTables.rules?_call (fun _ => none) fun _ => Tables.rules?_deleteChain]
    rw [HostTables.rules?_call (fun _ => some []) fun _ => Tables.rules?_clearChain]
    rw [hsame]
    split <;> simp_all [Command.reverted]

theorem changes_revertStatement (e : Engine HostTables) (s : Statement) :
    (revertStatement HostTables.host false e s).error = none
      ∧ Changes s Command.reverted e.host
        (revertStatement HostTables.host false e s).engine.host := by
  obtain ⟨opened, hconnect⟩ := connect_host e s.family
  unfold revertStatement
  cases hcommand : s.command with
  | policy target =>
    refine ⟨rfl, fun f chain => ?_⟩
    simp [hcommand, Command.reverted]
  | declare =>
    simp only [Bool.false_eq_true, ↓reduceIte, hconnect]
    exact changes_revertChain (e := ⟨opened, e.host⟩) hcommand
  | append rule =>
    simp only [Bool.false_eq_true, ↓reduceIte, hconnect]
    exact changes_revertRule (e := ⟨opened, e.host⟩) hcommand

def commandsAt (f : Family) (chain : String) (ss : List Statement) : List Command :=
  (ss.filter fun s => f = s.family ∧ chain = s.chain).map (·.command)

theorem commandsAt_cons :
    commandsAt f chain (s :: ss) =
      if f = s.family ∧ chain = s.chain then s.command :: commandsAt f chain ss
      else commandsAt f chain ss := by
  unfold commandsAt
  rw [List.filter_cons, apply_ite (List.map Statement.command)]
  simp only [decide_eq_true_eq, List.map_cons]

theorem commandsAt_reverse : commandsAt f chain ss.reverse = (commandsAt f chain ss).reverse := by
  simp [commandsAt]

theorem exists_of_mem_commandsAt (h : c ∈ commandsAt f chain ss) :
    ∃ s ∈ ss, s.family = f ∧ s.chain = chain ∧ s.command = c := by
  obtain ⟨s, hs, rfl⟩ := List.mem_map.mp h
  obtain ⟨hs, hat⟩ := List.mem_filter.mp hs
  obtain ⟨hfamily, hchain⟩ := of_decide_eq_true hat
  exact ⟨s, hs, hfamily.symm, hchain.symm, rfl⟩

theorem error_runAll {step : Engine σ → Statement → Outcome σ}
    (hstep : ∀ e s, (step e s).error = none) (e : Engine σ) (ss : List Statement) :
    (runAll step e ss).error = none := by
  induction ss generalizing e with
  | nil => rfl
  | cons s ss ih =>
    unfold runAll
    simp only [hstep]
    exact ih _

/--
If every statement changes what is looked at for its own chain only, then a run up to the end of a
script changes it for each chain by the commands that the script has for the chain.
-/
theorem view_runAll {view : σ → Family → String → β} {change : β → Command → β}
    {step : Engine σ → Statement → Outcome σ} {e : Engine σ}
    (hstep : ∀ e s f chain, view (step e s).engine.host f chain =
      if f = s.family ∧ chain = s.chain then change (view e.host f chain) s.command
      else view e.host f chain)
    (h : (runAll step e ss).error = none) :
    view (runAll step e ss).engine.host f chain
      = (commandsAt f chain ss).foldl change (view e.host f chain) := by
  induction ss generalizing e with
  | nil => rfl
  | cons s ss ih =>
    unfold runAll at h ⊢
    dsimp only at h ⊢
    split at h
    . simp at h
    . rw [ih h, hstep e s f chain, commandsAt_cons]
      split <;> rfl

theorem rules?_runAll (hstep : ∀ e s, Changes s change e.host (step e s).engine.host)
    (h : (runAll step e ss).error = none) :
    (runAll step e ss).engine.host.rules? f chain =
      (commandsAt f chain ss).foldl change (e.host.rules? f chain) := by
  exact view_runAll hstep h

theorem rules?_apply (h : apply HostTables.host false e script = ⟨e', log, none⟩) :
    (read script).error = none
      ∧ ∀ f chain, e'.host.rules? f chain =
          (commandsAt f chain (read script).statements).foldl Command.applied
            (e.host.rules? f chain) := by
  unfold apply at h
  split at h
  . simp at h
  . next statements hread =>
    rw [hread]
    refine ⟨rfl, fun f chain => ?_⟩
    have herror : (runAll (applyStatement HostTables.host false) e statements).error = none := by
      rw [h]
    rw [← rules?_runAll changes_applyStatement herror, h]

theorem apply_of_read {h : Host σ} {e : Engine σ} (hread : read script = ⟨ss, none⟩) :
    apply h dryRun e script = runAll (applyStatement h dryRun) e ss := by
  unfold apply
  rw [hread]

end Engine
end Script
end PacketPolicy

import Mathlib.Data.List.Induction
import PacketPolicy.Proofs.Script.Tables

namespace PacketPolicy
namespace Script

namespace Command

def rule? : Command → Option (List String)
  | .append rule => some rule
  | _ => none

def sinceDeclared (cs : List Command) : List Command :=
  (cs.reverse.takeWhile (· ≠ .declare)).reverse

def listing (cs : List Command) : Rules :=
  ((sinceDeclared cs).filterMap rule?).eraseDups

theorem sinceDeclared_concat :
    sinceDeclared (cs ++ [c]) = if c = .declare then [] else sinceDeclared cs ++ [c] := by
  by_cases h : c = .declare <;> simp [sinceDeclared, h]

theorem listing_concat_policy : listing (cs ++ [.policy target]) = listing cs := by
  unfold listing
  rw [sinceDeclared_concat, if_neg (by simp), List.filterMap_append, List.filterMap_cons_none rfl,
    List.filterMap_nil, List.append_nil]

theorem listing_concat_declare : listing (cs ++ [.declare]) = [] := by
  simp [listing, sinceDeclared_concat]

theorem listing_concat_append :
    listing (cs ++ [.append rule]) = if rule ∈ listing cs then listing cs
      else listing cs ++ [rule] := by
  unfold listing
  have hrule : [Command.append rule].filterMap rule? = [rule] := rfl
  rw [sinceDeclared_concat, if_neg (by simp), List.filterMap_append, hrule]
  generalize (sinceDeclared cs).filterMap rule? = rules
  rw [List.eraseDups_append]
  by_cases h : rule ∈ rules <;> simp [List.removeAll, List.eraseDups_cons, h]

theorem nodup_listing (cs : List Command) : (listing cs).Nodup := by
  induction cs using List.reverseRecOn with
  | nil => simp [listing, sinceDeclared]
  | append_singleton cs c ih =>
    cases c with
    | policy target => rwa [listing_concat_policy]
    | declare => simp [listing_concat_declare]
    | append rule =>
      rw [listing_concat_append]
      split
      . exact ih
      . next hnew => simpa [List.nodup_append, ih] using fun r hr => ne_of_mem_of_not_mem hr hnew

theorem append_mem_of_mem_listing (h : rule ∈ listing cs) : .append rule ∈ cs := by
  unfold listing sinceDeclared at h
  rw [List.mem_eraseDups, List.mem_filterMap] at h
  obtain ⟨c, hc, hrule⟩ := h
  have hmem : c ∈ cs := by simpa using (List.takeWhile_sublist _).mem (List.mem_reverse.mp hc)
  cases c <;> simp_all [rule?]

/--
What commands make of a chain: exactly their rules if they declare it, and otherwise the rules from
before with those behind them that are new.
-/
theorem foldl_applied (cs : List Command) (before : Option Rules) :
    cs.foldl applied before =
      if .declare ∈ cs then some (listing cs)
      else before.map fun old => old ++ (listing cs).filter (· ∉ old) := by
  induction cs using List.reverseRecOn with
  | nil => simp [listing, sinceDeclared]
  | append_singleton cs c ih =>
    rw [List.foldl_append, ih]
    cases c with
    | policy target => simp [applied, listing_concat_policy]
    | declare => simp [applied, listing_concat_declare]
    | append rule =>
      rw [listing_concat_append]
      by_cases hdeclare : .declare ∈ cs
      . simp [applied, hdeclare, apply_ite some]
      . cases before with
        | none => simp [applied, hdeclare]
        | some old =>
          -- The rule is new to the chain if it is neither an old one nor among those before it.
          by_cases hold : rule ∈ old <;> by_cases hlisted : rule ∈ listing cs <;>
            simp [applied, hdeclare, hold, hlisted]

end Command

def Ordered (rules chain : Rules) : Prop :=
  (∀ rule ∈ rules, rule ∈ chain) ∧ rules.Pairwise fun r s => chain.idxOf r < chain.idxOf s

instance (rules chain : Rules) : Decidable (Ordered rules chain) :=
  inferInstanceAs (Decidable (_ ∧ _))

/--
A chain has rules in their order already, as far as it has them: in front of each one that it has
stand all those that come before it.
-/
def Agrees (rules chain : Rules) : Prop :=
  rules.Pairwise fun r s => s ∈ chain → r ∈ chain ∧ chain.idxOf r < chain.idxOf s

instance (rules chain : Rules) : Decidable (Agrees rules chain) :=
  inferInstanceAs (Decidable (List.Pairwise _ _))

theorem pairwise_idxOf_lt {rules : Rules} (h : rules.Nodup) :
    rules.Pairwise fun r s => rules.idxOf r < rules.idxOf s := by
  rw [List.pairwise_iff_getElem]
  intro i j hi hj hij
  rwa [h.idxOf_getElem i hi, h.idxOf_getElem j hj]

theorem ordered_self {rules : Rules} (h : rules.Nodup) : Ordered rules rules := by
  exact ⟨fun _ hrule => hrule, pairwise_idxOf_lt h⟩

theorem ordered_append_filter_iff {rules old : Rules} (h : rules.Nodup) :
    Ordered rules (old ++ rules.filter (· ∉ old)) ↔ Agrees rules old := by
  have hnew : rules.Pairwise fun r s => r ∉ old → s ∉ old →
      (rules.filter (· ∉ old)).idxOf r < (rules.filter (· ∉ old)).idxOf s := by
    simpa [List.pairwise_filter] using pairwise_idxOf_lt (List.Pairwise.filter (· ∉ old) h)
  have hmem : ∀ rule ∈ rules, rule ∈ old ++ rules.filter (· ∉ old) := by
    intro rule hrule
    by_cases hold : rule ∈ old <;> simp [hold, hrule]
  unfold Ordered Agrees
  rw [and_iff_right hmem]
  simp only [List.idxOf_append]
  constructor
  . intro hpairs
    apply hpairs.imp
    intro r s hlt hs
    rw [if_pos hs] at hlt
    have := List.idxOf_lt_length_iff.mpr hs
    split at hlt
    . next hr => exact ⟨hr, hlt⟩
    . omega
  . intro hpairs
    apply List.Pairwise.imp₂ _ hpairs hnew
    intro r s hagrees hnew
    by_cases hs : s ∈ old
    . obtain ⟨hr, hlt⟩ := hagrees hs
      rwa [if_pos hr, if_pos hs]
    . rw [if_neg hs]
      split
      . next hr =>
        have := List.idxOf_lt_length_iff.mpr hr
        omega
      . next hr =>
        have := hnew hr hs
        omega

def HostTables.rules (s : HostTables) (f : Family) (chain : String) : Rules :=
  (s.rules? f chain).getD []

namespace Engine

variable {e : Engine HostTables}

theorem isSome_of_applyStatement (h : (applyStatement HostTables.host false e s).error = none)
    (hcommand : s.command = .append rule) : (e.host.rules? s.family s.chain).isSome = true := by
  obtain ⟨opened, hconnect⟩ := connect_host e s.family
  cases hrules : e.host.rules? s.family s.chain with
  | some rules => rfl
  | none =>
    have hnone : (e.host.tables s.family).rules? s.chain = none := hrules
    have hfails : (HostTables.host.call s.family (applyCall s) e.host).1
        = .error "no such chain" := by
      simp [HostTables.host, applyCall, hcommand, Tables.call, hnone]
    simp only [applyStatement, Bool.false_eq_true, ↓reduceIte, hconnect, call] at h
    grind

theorem isSome_of_runAll (h : (runAll (applyStatement HostTables.host false) e ss).error = none)
    (hrule : .append rule ∈ commandsAt f chain ss) :
    ((runAll (applyStatement HostTables.host false) e ss).engine.host.rules? f chain).isSome
      = true := by
  induction ss generalizing e with
  | nil => simp [commandsAt] at hrule
  | cons s ss ih =>
    unfold runAll at h ⊢
    dsimp only at h ⊢
    split at h
    . simp at h
    . next herror =>
      rw [commandsAt_cons] at hrule
      split at hrule
      . next hat =>
        obtain hcommand | hrule := List.mem_cons.mp hrule
        . have hsome := isSome_of_applyStatement herror hcommand.symm
          rw [← hat.1, ← hat.2] at hsome
          rw [rules?_runAll changes_applyStatement h, changes_applyStatement e s f chain,
            if_pos hat, ← hcommand, Command.foldl_applied]
          split <;> simp [Command.applied, hsome]
        . exact ih h hrule
      . exact ih h hrule

def listed (script : String) (f : Family) (chain : String) : Rules :=
  Command.listing (commandsAt f chain (read script).statements)

def Declares (script : String) (f : Family) (chain : String) : Prop :=
  .declare ∈ commandsAt f chain (read script).statements

instance (script : String) (f : Family) (chain : String) : Decidable (Declares script f chain) :=
  inferInstanceAs (Decidable (_ ∈ _))

theorem nodup_listed (script : String) (f : Family) (chain : String) :
    (listed script f chain).Nodup := by
  apply Command.nodup_listing

theorem rules?_apply_listed (happly : apply HostTables.host false start script = ⟨e, log, none⟩)
    (f : Family) (chain : String) :
    e.host.rules? f chain =
      if Declares script f chain then some (listed script f chain)
      else
        (start.host.rules? f chain).map fun old =>
          old ++ (listed script f chain).filter (· ∉ old) := by
  rw [(rules?_apply happly).2 f chain]
  apply Command.foldl_applied

theorem listed_eq_nil_of_apply (happly : apply HostTables.host false start script = ⟨e, log, none⟩)
    (hnone : e.host.rules? f chain = none) : listed script f chain = [] := by
  apply List.eq_nil_iff_forall_not_mem.mpr
  intro rule hrule
  unfold apply at happly
  split at happly
  . simp at happly
  . next statements hread =>
    have hmem : .append rule ∈ commandsAt f chain statements := by
      simpa [hread] using Command.append_mem_of_mem_listing hrule
    have hsome := isSome_of_runAll (e := start) (by rw [happly]) hmem
    simp [happly, hnone] at hsome

/--
What a script that runs to its end makes of a chain. Its rules are in their order there if it
declares the chain, or if the chain had them in this order before, as far as it had them, and
otherwise they are not: a rule that a chain has stays where it is.
-/
theorem apply_orders_rules_iff (happly : apply HostTables.host false start script = ⟨e, log, none⟩)
    (f : Family) (chain : String) :
    e.host.rules? f chain =
        (if Declares script f chain then some (listed script f chain)
          else
            (start.host.rules? f chain).map fun old =>
              old ++ (listed script f chain).filter (· ∉ old))
      ∧ (Ordered (listed script f chain) (e.host.rules f chain) ↔
          Declares script f chain ∨ Agrees (listed script f chain) (start.host.rules f chain)) := by
  have hrules := rules?_apply_listed happly f chain
  refine ⟨hrules, ?_⟩
  unfold HostTables.rules
  by_cases h : Declares script f chain
  . rw [hrules, if_pos h]
    simp [h, ordered_self (nodup_listed script f chain)]
  . rw [if_neg h] at hrules
    cases hstart : start.host.rules? f chain with
    | none =>
      have hnil := listed_eq_nil_of_apply happly (by rw [hrules, hstart]; rfl)
      simp [hnil, Ordered, Agrees]
    | some old =>
      rw [hrules, hstart, or_iff_right h]
      exact ordered_append_filter_iff (nodup_listed script f chain)

theorem Outcome.eq_of_error_eq_none {o : Outcome σ} (h : o.error = none) :
    o = ⟨o.engine, o.log, none⟩ := by
  rw [← h]

theorem listed_of_read (hread : read script = ⟨ss, none⟩) :
    listed script f chain = Command.listing (commandsAt f chain ss) := by
  rw [listed, hread]

def blockScript : String :=
  "-N I_block\n-A INPUT -j I_block\n-A I_block -s 10.9.0.0/16 -j DROP\n"
    ++ "-N I_guests\n-A INPUT -j I_guests\n-A I_guests -p tcp -j ACCEPT\n"

theorem read_blockScript :
    read blockScript = ⟨[
      ⟨1, .v4, "I_block", .declare⟩,
      ⟨2, .v4, "INPUT", .append ["-j", "I_block"]⟩,
      ⟨3, .v4, "I_block", .append ["-s", "10.9.0.0/16", "-j", "DROP"]⟩,
      ⟨4, .v4, "I_guests", .declare⟩,
      ⟨5, .v4, "INPUT", .append ["-j", "I_guests"]⟩,
      ⟨6, .v4, "I_guests", .append ["-p", "tcp", "-j", "ACCEPT"]⟩], none⟩ := by
  decide +kernel

def loopback : List String :=
  ["-i", "lo", "-j", "ACCEPT"]

def blockedTables : HostTables where
  v4 := ⟨[("INPUT", [loopback, ["-j", "I_block"]]), ("I_block", [["-j", "DROP"]])], []⟩
  v6 := ⟨[], []⟩

theorem apply_blockScript_orders_rules :
    ∃ e log, apply HostTables.host false ⟨[], blockedTables⟩ blockScript = ⟨e, log, none⟩
      ∧ Agrees (listed blockScript .v4 "INPUT") (blockedTables.rules .v4 "INPUT")
      ∧ Ordered (listed blockScript .v4 "INPUT") (e.host.rules .v4 "INPUT") := by
  have herror : (apply HostTables.host false ⟨[], blockedTables⟩ blockScript).error = none := by
    rw [apply_of_read read_blockScript]
    decide +kernel
  have happly := Outcome.eq_of_error_eq_none herror
  have hagrees : Agrees (listed blockScript .v4 "INPUT") (blockedTables.rules .v4 "INPUT") := by
    rw [listed_of_read read_blockScript]
    decide +kernel
  exact ⟨_, _, happly, hagrees, (apply_orders_rules_iff happly .v4 "INPUT").2.mpr (.inr hagrees)⟩

def guestScript : String :=
  "-N I_guests\n-A INPUT -j I_guests\n-A I_guests -p tcp -j ACCEPT\n"
    ++ "-N I_block\n-A INPUT -j I_block\n-A I_block -s 10.9.0.0/16 -j DROP\n"

theorem read_guestScript :
    read guestScript = ⟨[
      ⟨1, .v4, "I_guests", .declare⟩,
      ⟨2, .v4, "INPUT", .append ["-j", "I_guests"]⟩,
      ⟨3, .v4, "I_guests", .append ["-p", "tcp", "-j", "ACCEPT"]⟩,
      ⟨4, .v4, "I_block", .declare⟩,
      ⟨5, .v4, "INPUT", .append ["-j", "I_block"]⟩,
      ⟨6, .v4, "I_block", .append ["-s", "10.9.0.0/16", "-j", "DROP"]⟩], none⟩ := by
  decide +kernel

def loopbackInput : HostTables where
  v4 := ⟨[("INPUT", [loopback])], []⟩
  v6 := ⟨[], []⟩

/--
Running the one script after the other succeeds and leaves the terms in the order of the first one.
-/
theorem apply_blockScript_after_guestScript :
    ∃ e log, apply HostTables.host false ⟨[], loopbackInput⟩ guestScript = ⟨e, log, none⟩
      ∧ ∃ e' log', apply HostTables.host false e blockScript = ⟨e', log', none⟩
        ∧ listed blockScript .v4 "INPUT" = [["-j", "I_block"], ["-j", "I_guests"]]
        ∧ e'.host.rules? .v4 "INPUT" = some [loopback, ["-j", "I_guests"], ["-j", "I_block"]]
        ∧ ¬Ordered (listed blockScript .v4 "INPUT") (e'.host.rules .v4 "INPUT") := by
  rw [apply_of_read read_guestScript, listed_of_read read_blockScript]
  refine ⟨_, _, Outcome.eq_of_error_eq_none (by decide +kernel), ?_⟩
  rw [apply_of_read read_blockScript]
  exact ⟨_, _, Outcome.eq_of_error_eq_none (by decide +kernel), by decide +kernel⟩

end Engine
end Script
end PacketPolicy

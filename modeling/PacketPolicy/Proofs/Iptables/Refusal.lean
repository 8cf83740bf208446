import PacketPolicy.Proofs.Iptables.Target
import PacketPolicy.Proofs.Render.Faults

namespace PacketPolicy
namespace Iptables

theorem Options.readFrom_eq_ok_defaultAction {o : Options} (h : readFrom filter o words = .ok o') :
    o'.defaultAction = (words.filter (· ∈ defaultActions)).getLastD o.defaultAction := by
  induction words generalizing o with
  | nil =>
    unfold readFrom at h
    split at h
    . cases h
    . cases h
      rfl
  | cons word words ih =>
    unfold readFrom at h
    split at h
    . cases h
    . next next hadd =>
      rw [ih h]
      unfold add? at hadd
      split at hadd
      . next hword =>
        cases hadd
        rw [List.filter_cons, if_pos (by simpa using hword), List.getLastD_cons]
      . next hword =>
        rw [List.filter_cons, if_neg (by simpa using hword)]
        split at hadd
        . cases hadd
          rfl
        . obtain ⟨common, _, rfl⟩ := Option.map_eq_some_iff.mp hadd
          rfl

namespace Target

structure Refused (target : Target) (e : Fault) : Prop where
  builtin : target.chain ∈ builtinChains
  given : target.action ≠ ""
  unknown : target.action ∉ defaultActions
  fault_eq : e =
    { kind := .unsupportedTargetOption, platform := platform, filter := target.chain,
      feature := target.action }

def ofHeader (f : Filter) : Target :=
  ⟨f.name platform, ((f.options platform).filter (· ∈ defaultActions)).getLastD ""⟩

def after (changes : List (String × String)) (target : Target) : Target where
  chain :=
    if lastGiven (changes.map (·.1)) = "" then target.chain else lastGiven (changes.map (·.1))
  action := if lastGiven (changes.map (·.2)) = "" then target.action
    else Text.upper (lastGiven (changes.map (·.2)))

theorem Writable.not_refused {target : Target} (h : target.Writable) : ¬target.Refused e := by
  intro hrefused
  obtain hnone | hknown := h hrefused.builtin
  . exact hrefused.given hnone
  . exact hrefused.unknown hknown

end Target

namespace FilterPart

variable {p : FilterPart}

theorem lines_eq_error_iff : p.lines = .error e ↔ p.target.Refused e := by
  have hchain : p.lines = .error e ↔ p.chainLines = .error e := by
    rw [lines_eq]
    cases p.chainLines <;> simp [Except.map]
  rw [hchain]
  unfold chainLines
  simp only [List.contains_iff_mem, beq_iff_eq]
  constructor
  . intro h
    split at h
    . next hbuiltin =>
      split at h
      . cases h
      . next hgiven =>
        split at h
        . cases h
        . next hunknown =>
          cases h
          exact ⟨hbuiltin, hgiven, hunknown, rfl⟩
    . cases h
  . rintro ⟨hbuiltin, hgiven, hunknown, rfl⟩
    unfold target at hbuiltin hgiven hunknown
    rw [if_pos hbuiltin, if_neg hgiven, if_neg hunknown]
    rfl

theorem target_setTarget :
    (p.setTarget (Target.last changes).chain (Target.last changes).action).target
      = p.target.after changes := by
  simp [setTarget, target, Target.after, Target.last]

theorem Renders.target_eq (h : p.Renders clock f o) : p.target = .ofHeader f := by
  unfold target Target.ofHeader
  rw [h.defaultAction_eq, Options.readFrom_eq_ok_defaultAction h.options, h.chain_eq]

end FilterPart

namespace Document

theorem partLines_eq_error_iff {ps : List FilterPart} :
    partLines ps = .error e ↔ FirstFault (fun p => p.target.Refused) ps e := by
  induction ps with
  | nil => simp [partLines, FirstFault.nil_iff]
  | cons p ps ih =>
    rw [partLines, FirstFault.cons_iff, bind_eq_error]
    simp only [← FilterPart.lines_eq_error_iff, ← ih]
    cases p.lines with
    | error e' => simp
    | ok ls => simp [bind_eq_error, pure, Except.pure]

theorem render_eq_error_iff {d : Document} :
    d.render = .error e ↔ FirstFault (fun p => p.target.Refused) d.parts e := by
  simp [render, lines, bind_eq_error, partLines_eq_error_iff, pure, Except.pure]

theorem map_target_of_ofPolicy (h : (ofPolicy clock policy).result = .ok d) :
    d.parts.map FilterPart.target
      = (policy.filters.filter fun f => (f.target? platform).isSome).map Target.ofHeader := by
  have hheaders := (forall₂_of_mapM_eq_ok (parts_of_ofPolicy h)).imp
    (S := fun f p => Target.ofHeader f = p.target) fun f p hp => by
      obtain ⟨o, hrenders⟩ := FilterPart.exists_renders_of_ofFilter hp
      exact hrenders.target_eq.symm
  symm
  rw [← List.forall₂_eq_eq_eq, List.forall₂_map_left_iff, List.forall₂_map_right_iff]
  exact hheaders

theorem render_setTargets_eq_error_iff (h : (ofPolicy clock policy).result = .ok d) :
    (d.setTargets changes).render = .error e ↔
      FirstFault (fun f => ((Target.ofHeader f).after changes).Refused)
        (policy.filters.filter fun f => (f.target? platform).isSome) e := by
  calc (d.setTargets changes).render = .error e
    _ ↔ FirstFault (fun p => (p.target.after changes).Refused) d.parts e := by
      rw [setTargets_eq_setTarget, render_eq_error_iff, setTarget, FirstFault.map_iff]
      simp only [FilterPart.target_setTarget]
    _ ↔ FirstFault (fun target => (target.after changes).Refused)
      (d.parts.map FilterPart.target) e := by
      rw [FirstFault.map_iff]
    _ ↔ _ := by
      rw [map_target_of_ofPolicy h, FirstFault.map_iff]

/--
After any changes of its targets a document is refused just if a built-in chain has got a default
action that does not exist, and the fault names the first one. A document without changes is always
written. So are the terms of any document: no statement for their ports is one of those that are
refused.
-/
theorem render_fails_iff_refused (h : (ofPolicy clock policy).result = .ok d)
    (changes : List (String × String)) :
    (∀ e, (d.setTargets changes).render = .error e ↔
        FirstFault (fun f => ((Target.ofHeader f).after changes).Refused)
          (policy.filters.filter fun f => (f.target? platform).isSome) e)
      ∧ ((∃ e, (d.setTargets changes).render = .error e) ↔
          ∃ f ∈ policy.filters, (f.target? platform).isSome = true
            ∧ ∃ e, ((Target.ofHeader f).after changes).Refused e)
      ∧ (∃ text, d.render = .ok text)
      ∧ (∀ (c : Chain) protocol, ∃ pairs, c.portClauses protocol = .ok pairs)
      ∧ ∀ (b : Block) parent, ∃ ls, b.lines parent = .ok ls := by
  refine ⟨fun e => render_setTargets_eq_error_iff h, ?_, ?_,
    fun c protocol => ⟨_, c.portClauses_eq protocol⟩, fun b parent => ⟨_, b.lines_eq parent⟩⟩
  . simp only [render_setTargets_eq_error_iff h, FirstFault.exists_iff, List.mem_filter, and_assoc]
  . refine ⟨_, render_eq_ok_iff.mpr ⟨fun p hp => ?_, rfl⟩⟩
    obtain ⟨f, _, _, o, hrenders⟩ := exists_renders_of_mem h hp
    exact hrenders.writable

def borderPolicy : Policy where
  filters := [
    { comment := [], targets := [⟨platform, ["EDGE", "DROP"]⟩], terms := [] },
    { comment := [], targets := [⟨platform, ["INPUT", "ACCEPT", "DROP"]⟩], terms := [] }]

def refusedIn (chain : String) : Fault where
  kind := .unsupportedTargetOption
  platform := platform
  filter := chain
  feature := "REJECT"

theorem render_fails_borderPolicy :
    ∃ d, (ofPolicy epoch borderPolicy).result = .ok d ∧ (∃ text, d.render = .ok text)
      ∧ (d.setTargets [("", "reject")]).render = .error (refusedIn "INPUT")
      ∧ (¬∃ e, (d.setTargets [("EDGE", "reject")]).render = .error e)
      ∧ (d.setTargets [("EDGE", "reject"), ("FORWARD", "")]).render
        = .error (refusedIn "FORWARD") := by
  obtain ⟨d, hd, _⟩ :=
    exists_ok_of_any (x := (ofPolicy epoch borderPolicy).result) (p := fun _ => true)
    (by decide +kernel)
  refine ⟨d, hd, (render_fails_iff_refused hd []).2.2.1, ?_, ?_, ?_⟩
  . have hedge : (Target.after [("", "reject")] ⟨"EDGE", "DROP"⟩).Writable := by decide
    refine ((render_fails_iff_refused hd _).1 _).mpr ⟨[_], _, [], rfl, ?_, ?_⟩
    . rw [List.forall_mem_singleton]
      exact fun e => hedge.not_refused
    . exact ⟨by decide, by decide +kernel, by decide +kernel, by decide +kernel⟩
  . have hedge : ∀ f ∈ borderPolicy.filters,
        ((Target.ofHeader f).after [("EDGE", "reject")]).Writable := by
      decide
    rw [(render_fails_iff_refused hd _).2.1]
    rintro ⟨f, hf, _, e, hrefused⟩
    exact (hedge f hf).not_refused hrefused
  . refine ((render_fails_iff_refused hd _).1 _).mpr ⟨[], _, [_], rfl, by simp, ?_⟩
    exact ⟨by decide, by decide +kernel, by decide +kernel, by decide +kernel⟩

end Document
end Iptables
end PacketPolicy

import Mathlib.Data.List.Induction
import PacketPolicy.Proofs.Ipsec.Document
import PacketPolicy.Proofs.Render.Closed

namespace PacketPolicy
namespace Ipsec

inductive Object where
  | policy (name : String)
  | filterList (name : String)
  | filterAction (name : String)
  deriving DecidableEq, Repr

namespace Statement

def declared? : Statement → Option Object
  | .policy name => some (.policy name)
  | .filterList name => some (.filterList name)
  | .filterAction name _ => some (.filterAction name)
  | _ => none

/--
The policy that a rule belongs to.
-/
def owner : Statement → List Object
  | .rule _ owner _ _ => [.policy owner]
  | _ => []

def parts : Statement → List Object
  | .filter list _ _ _ => [.filterList list]
  | .rule _ _ list action => [.filterList list, .filterAction action]
  | _ => []

def references (s : Statement) : List Object :=
  s.owner ++ s.parts

end Statement

theorem closed_references_iff : Closed Statement.declared? (Finds Statement.references) known ss ↔
    Closed Statement.declared? (Finds Statement.owner) known ss
      ∧ Closed Statement.declared? (Finds Statement.parts) known ss := by
  simp only [Closed, Finds, Statement.references, List.forall_mem_append, imp_and, forall_and]

theorem ne_policyName (name : String) : name ≠ policyName name := by
  intro h
  have hlength := congrArg String.length h
  simp [policyName] at hlength

namespace Block

variable {b : Block}

theorem statements_cases (hverbatim : b.term.isVerbatim = false)
    (h : b.statements policy = .ok ss) :
    emptySide? b.family b.term.request ≠ none ∧ ss = []
      ∨ emptySide? b.family b.term.request = none
        ∧ ss = (Comment.lines b.term.comment b.term.owner).map .remark
          ++ [.filterList (listName b.name), .filterAction (actionName b.name) b.action]
            ++ b.filters
          ++ [.rule (ruleName b.name) policy (listName b.name) (actionName b.name)] := by
  unfold statements at h
  simp only [hverbatim, Bool.false_eq_true, ↓reduceIte] at h
  split at h
  . simp at h
  . split at h
    . next hsome =>
      cases h
      exact .inl ⟨Option.isSome_iff_ne_none.mp hsome, rfl⟩
    . next hnone =>
      cases h
      exact .inr ⟨by simpa using hnone, rfl⟩

theorem exists_of_mem_filters (h : s ∈ b.filters) :
    ∃ source destination protocol, s = .filter (listName b.name) source destination protocol := by
  simp only [filters, List.mem_flatMap, List.mem_map] at h
  obtain ⟨_, _, _, _, _, _, _, _, _, _, rfl⟩ := h
  exact ⟨_, _, _, rfl⟩

theorem closed_parts (hverbatim : b.term.isVerbatim = false) (h : b.statements policy = .ok ss) :
    Closed Statement.declared? (Finds Statement.parts) known ss := by
  obtain ⟨_, rfl⟩ | ⟨_, rfl⟩ := statements_cases hverbatim h
  . exact .nil
  . simp only [Closed.append_iff]
    refine ⟨⟨⟨?_, ?_⟩, ?_⟩, ?_⟩
    . apply Closed.of_forall (persistent_finds _)
      simp [Finds, Statement.parts]
    . apply Closed.of_forall (persistent_finds _)
      simp [Finds, Statement.parts]
    . apply Closed.of_forall (persistent_finds _)
      intro s hs
      obtain ⟨_, _, _, rfl⟩ := exists_of_mem_filters hs
      simp [Finds, Statement.parts, Statement.declared?]
    . apply Closed.of_forall (persistent_finds _)
      simp [Finds, Statement.parts, Statement.declared?]

theorem exists_owner_iff (hverbatim : b.term.isVerbatim = false)
    (h : b.statements policy = .ok ss) :
    (∃ s ∈ ss, o ∈ s.owner) ↔ emptySide? b.family b.term.request = none ∧ o = .policy policy := by
  obtain ⟨hempty, rfl⟩ | ⟨hempty, rfl⟩ := statements_cases hverbatim h
  . simp [hempty]
  . rw [and_iff_right hempty]
    constructor
    . rintro ⟨s, hs, ho⟩
      simp only [List.mem_append, List.mem_map, List.mem_cons, List.not_mem_nil, or_false] at hs
      obtain ((⟨_, _, rfl⟩ | rfl | rfl) | hfilter) | rfl := hs
      . simp [Statement.owner] at ho
      . simp [Statement.owner] at ho
      . simp [Statement.owner] at ho
      . obtain ⟨_, _, _, rfl⟩ := exists_of_mem_filters hfilter
        simp [Statement.owner] at ho
      . simpa [Statement.owner] using ho
    . rintro rfl
      exact ⟨_, List.mem_append_right _ (List.mem_singleton_self _), List.mem_singleton_self _⟩

theorem not_declares_policy (hverbatim : b.term.isVerbatim = false)
    (h : b.statements policy = .ok ss) (name : String) :
    ∀ s ∈ ss, s.declared? ≠ some (.policy name) := by
  have hfilters : ∀ s ∈ b.filters, s.declared? ≠ some (.policy name) := by
    intro s hs
    obtain ⟨_, _, _, rfl⟩ := exists_of_mem_filters hs
    simp [Statement.declared?]
  obtain ⟨_, rfl⟩ | ⟨_, rfl⟩ := statements_cases hverbatim h
  . simp
  . simp only [List.forall_mem_append]
    simpa [Statement.declared?] using hfilters

end Block

namespace FilterPart

variable {p : FilterPart}

def WritesRule (p : FilterPart) : Prop :=
  ∃ b ∈ p.blocks, emptySide? b.family b.term.request = none

instance (p : FilterPart) : Decidable p.WritesRule :=
  inferInstanceAs (Decidable (∃ b ∈ p.blocks, _))

theorem blockStatements_cons_eq_ok :
    blockStatements policy (b :: bs) = .ok ss ↔
      ∃ first rest, b.statements policy = .ok first ∧ blockStatements policy bs = .ok rest
        ∧ first ++ rest = ss := by
  rw [blockStatements]
  split
  . next h => simp [h]
  . next first h => simp [h, bind_eq_ok, pure_eq_ok, -bind_pure_comp]

theorem closed_parts_blockStatements (hverbatim : ∀ b ∈ bs, b.term.isVerbatim = false)
    (h : blockStatements policy bs = .ok ss) :
    Closed Statement.declared? (Finds Statement.parts) known ss := by
  induction bs generalizing known ss with
  | nil =>
    cases h
    exact .nil
  | cons b bs ih =>
    rw [List.forall_mem_cons] at hverbatim
    obtain ⟨first, rest, hfirst, hrest, rfl⟩ := blockStatements_cons_eq_ok.mp h
    exact Closed.append_iff.mpr ⟨Block.closed_parts hverbatim.1 hfirst, ih hverbatim.2 hrest⟩

theorem exists_owner_blockStatements_iff (hverbatim : ∀ b ∈ bs, b.term.isVerbatim = false)
    (h : blockStatements policy bs = .ok ss) :
    (∃ s ∈ ss, o ∈ s.owner) ↔
      (∃ b ∈ bs, emptySide? b.family b.term.request = none) ∧ o = .policy policy := by
  induction bs generalizing ss with
  | nil =>
    cases h
    simp
  | cons b bs ih =>
    rw [List.forall_mem_cons] at hverbatim
    obtain ⟨first, rest, hfirst, hrest, rfl⟩ := blockStatements_cons_eq_ok.mp h
    simp only [List.mem_append, List.mem_cons, or_and_right, exists_or, exists_eq_left,
      Block.exists_owner_iff hverbatim.1 hfirst, ih hverbatim.2 hrest]

theorem not_declares_policy_blockStatements (hverbatim : ∀ b ∈ bs, b.term.isVerbatim = false)
    (h : blockStatements owner bs = .ok ss) (name : String) :
    ∀ s ∈ ss, s.declared? ≠ some (.policy name) := by
  induction bs generalizing ss with
  | nil =>
    cases h
    simp
  | cons b bs ih =>
    rw [List.forall_mem_cons] at hverbatim
    obtain ⟨first, rest, hfirst, hrest, rfl⟩ := blockStatements_cons_eq_ok.mp h
    rw [List.forall_mem_append]
    exact ⟨Block.not_declares_policy hverbatim.1 hfirst name, ih hverbatim.2 hrest⟩

theorem declared?_headStatements (p : FilterPart) :
    p.headStatements.filterMap Statement.declared? = [.policy (policyName p.name)] := by
  have hcomment :
      (p.comment.map fun c => Statement.remark (Filter.commentLine c)).filterMap Statement.declared?
        = [] := by
    simp [List.filterMap_map, Function.comp_def, Statement.declared?]
  rw [headStatements, List.filterMap_append, List.filterMap_append, hcomment]
  rfl

theorem closed_headStatements (hremark : ∀ text, refers (.remark text) = [])
    (hpolicy : ∀ name, refers (.policy name) = []) :
    Closed Statement.declared? (Finds refers) known p.headStatements := by
  apply Closed.of_forall (persistent_finds _)
  intro s hs
  have hnone : refers s = [] := by
    simp only [headStatements, List.mem_append, List.mem_map, List.mem_cons, List.not_mem_nil,
      or_false] at hs
    obtain (rfl | ⟨_, _, rfl⟩) | rfl | rfl := hs
    . exact hremark _
    . exact hremark _
    . exact hremark _
    . exact hpolicy _
  simp [Finds, hnone]

theorem statements_eq_ok : p.statements = .ok ss ↔
    ∃ blocks, blockStatements p.name p.blocks = .ok blocks ∧ p.headStatements ++ blocks = ss := by
  simp only [statements, bind_eq_ok, pure_eq_ok]

theorem closed_parts (hverbatim : ∀ b ∈ p.blocks, b.term.isVerbatim = false)
    (h : p.statements = .ok ss) :
    Closed Statement.declared? (Finds Statement.parts) known ss := by
  obtain ⟨blocks, hblocks, rfl⟩ := statements_eq_ok.mp h
  exact Closed.append_iff.mpr
    ⟨closed_headStatements (fun _ => rfl) (fun _ => rfl),
      closed_parts_blockStatements hverbatim hblocks⟩

theorem policy_mem_declared?_iff (hverbatim : ∀ b ∈ p.blocks, b.term.isVerbatim = false)
    (h : p.statements = .ok ss) :
    .policy declared ∈ ss.filterMap Statement.declared? ↔ declared = policyName p.name := by
  obtain ⟨blocks, hblocks, rfl⟩ := statements_eq_ok.mp h
  have hnone : .policy declared ∉ blocks.filterMap Statement.declared? := by
    intro hmem
    obtain ⟨s, hs, hdeclared⟩ := List.mem_filterMap.mp hmem
    exact not_declares_policy_blockStatements hverbatim hblocks declared s hs hdeclared
  rw [List.filterMap_append, declared?_headStatements, List.mem_append, or_iff_left hnone]
  simp

/--
A part declares a policy, but its rules name another one.
-/
theorem closed_owner_iff (hverbatim : ∀ b ∈ p.blocks, b.term.isVerbatim = false)
    (h : p.statements = .ok ss) :
    Closed Statement.declared? (Finds Statement.owner) known ss ↔
      (p.WritesRule → .policy p.name ∈ known) := by
  obtain ⟨blocks, hblocks, rfl⟩ := statements_eq_ok.mp h
  have howner (o : Object) := exists_owner_blockStatements_iff (o := o) hverbatim hblocks
  rw [Closed.append_iff, and_iff_right (closed_headStatements (fun _ => rfl) (fun _ => rfl)),
    declared?_headStatements, Closed.finds_iff_forall]
  . constructor
    . intro hknown hwrites
      obtain ⟨s, hs, ho⟩ := (howner (.policy p.name)).mpr ⟨hwrites, rfl⟩
      simpa [ne_policyName] using hknown s hs _ ho
    . intro hknown s hs o ho
      obtain ⟨hwrites, rfl⟩ := (howner o).mp ⟨s, hs, ho⟩
      exact List.mem_append_left _ (hknown hwrites)
  . intro s hs o ho s' hs'
    obtain ⟨_, rfl⟩ := (howner o).mp ⟨s, hs, ho⟩
    exact not_declares_policy_blockStatements hverbatim hblocks _ s' hs'

end FilterPart

namespace Document

def setTargets (targets : List String) (d : Document) : Document :=
  targets.foldl (fun d name => d.setTarget name) d

theorem partStatements_cons_eq_ok {p : FilterPart} :
    partStatements (p :: ps) = .ok ss ↔
      ∃ first rest, p.statements = .ok first ∧ partStatements ps = .ok rest
        ∧ first ++ rest = ss := by
  simp only [partStatements, bind_eq_ok, pure_eq_ok]
  grind

theorem closed_parts_partStatements {ps : List FilterPart}
    (hverbatim : ∀ p ∈ ps, ∀ b ∈ p.blocks, b.term.isVerbatim = false)
    (h : partStatements ps = .ok ss) :
    Closed Statement.declared? (Finds Statement.parts) known ss := by
  induction ps generalizing known ss with
  | nil =>
    cases h
    exact .nil
  | cons p ps ih =>
    rw [List.forall_mem_cons] at hverbatim
    obtain ⟨first, rest, hfirst, hrest, rfl⟩ := partStatements_cons_eq_ok.mp h
    exact Closed.append_iff.mpr ⟨FilterPart.closed_parts hverbatim.1 hfirst, ih hverbatim.2 hrest⟩

theorem closed_owner_partStatements_iff {ps : List FilterPart}
    (hverbatim : ∀ p ∈ ps, ∀ b ∈ p.blocks, b.term.isVerbatim = false)
    (h : partStatements ps = .ok ss) :
    Closed Statement.declared? (Finds Statement.owner) known ss ↔
      ∀ before p after, ps = before ++ p :: after → p.WritesRule →
      .policy p.name ∈ known ∨ ∃ q ∈ before, p.name = policyName q.name := by
  induction ps generalizing known ss with
  | nil =>
    cases h
    simp [Closed.nil]
  | cons p ps ih =>
    rw [List.forall_mem_cons] at hverbatim
    obtain ⟨first, rest, hfirst, hrest, rfl⟩ := partStatements_cons_eq_ok.mp h
    rw [Closed.append_iff, FilterPart.closed_owner_iff hverbatim.1 hfirst, ih hverbatim.2 hrest,
      forall_split_cons (P := fun (before : List FilterPart) (p : FilterPart) => p.WritesRule →
      .policy p.name ∈ known ∨ ∃ q ∈ before, p.name = policyName q.name)]
    simp [FilterPart.policy_mem_declared?_iff hverbatim.1 hfirst, or_assoc]

theorem setTarget_empty (d : Document) : d.setTarget "" = d := by
  have hpart : FilterPart.setTarget "" = id := rfl
  simp [setTarget, hpart]

theorem setTargets_cases (targets : List String) (d : Document) :
    (∀ name ∈ targets, name = "") ∧ d.setTargets targets = d
      ∨ ∃ name ∈ targets, name ≠ "" ∧ d.setTargets targets = d.setTarget name := by
  induction targets using List.reverseRecOn with
  | nil => simp [setTargets]
  | append_singleton targets last ih =>
    have hstep : d.setTargets (targets ++ [last]) = (d.setTargets targets).setTarget last := by
      simp [setTargets, List.foldl_append]
    rw [hstep]
    by_cases hlast : last = ""
    . subst hlast
      rw [setTarget_empty]
      obtain ⟨hempty, heq⟩ | ⟨name, hmem, hname, heq⟩ := ih
      . exact .inl ⟨by simpa [or_imp, forall_and] using hempty, heq⟩
      . exact .inr ⟨name, List.mem_append_left _ hmem, hname, heq⟩
    . refine .inr ⟨last, by simp, hlast, ?_⟩
      obtain ⟨_, heq⟩ | ⟨name, _, _, heq⟩ := ih
      . rw [heq]
      . simp [heq, setTarget, FilterPart.setTarget, hlast]

theorem forall_setTarget_iff (hname : name ≠ "") (d : Document) :
    (∀ before p after, (d.setTarget name).parts = before ++ p :: after → p.WritesRule →
        ∃ q ∈ before, p.name = policyName q.name)
      ↔ ∀ p ∈ d.parts, ¬p.WritesRule := by
  constructor
  . intro h p hp hwrites
    obtain ⟨before, after, heq⟩ := List.append_of_mem hp
    obtain ⟨q, hq, hnames⟩ := h (before.map (FilterPart.setTarget name)) (p.setTarget name)
      (after.map (FilterPart.setTarget name)) (by simp [setTarget, heq]) hwrites
    obtain ⟨q, _, rfl⟩ := List.mem_map.mp hq
    exact ne_policyName name (by simpa [FilterPart.setTarget, hname] using hnames)
  . intro h before p after heq hwrites
    have hp : p ∈ (d.setTarget name).parts := by simp [heq]
    obtain ⟨q, hq, rfl⟩ := List.mem_map.mp hp
    exact absurd hwrites (h q hq)

theorem isVerbatim_setTargets {d : Document} (targets : List String)
    (h : ∀ p ∈ d.parts, ∀ b ∈ p.blocks, b.term.isVerbatim = false) :
    ∀ p ∈ (d.setTargets targets).parts, ∀ b ∈ p.blocks, b.term.isVerbatim = false := by
  obtain ⟨_, heq⟩ | ⟨name, _, _, heq⟩ := setTargets_cases targets d
  . rw [heq]
    exact h
  . simpa [heq, setTarget, FilterPart.setTarget] using h

/--
Filter lists and filter actions are declared in front of all that refers to them. The policies of
the rules are so as well only as long as no filter is renamed and the name of a filter with a rule
is that of an earlier filter with `-policy` behind it.
-/
theorem references_closed_iff
    (hverbatim : ∀ f ∈ policy.filters, ∀ t ∈ f.terms, t.isVerbatim = false)
    (h : (ofPolicy clock policy).result = .ok d)
    (hrender : (d.setTargets targets).render = .ok text) :
    ∃ statements, (d.setTargets targets).statements = .ok statements
      ∧ text = String.join (statements.map fun s => s.text ++ "\n")
      ∧ Closed Statement.declared? (Finds Statement.parts) [] statements
      ∧ (Closed Statement.declared? (Finds Statement.references) [] statements ↔
          ∀ before p after, d.parts = before ++ p :: after → p.WritesRule →
            (∀ name ∈ targets, name = "") ∧ ∃ q ∈ before, p.name = policyName q.name) := by
  obtain ⟨statements, hstatements, htext⟩ := bind_eq_ok.mp hrender
  have hparts := isVerbatim_setTargets targets (isVerbatim_of_ofPolicy hverbatim h)
  have hclosed : Closed Statement.declared? (Finds Statement.parts) [] statements :=
    closed_parts_partStatements hparts hstatements
  refine ⟨statements, hstatements, (pure_eq_ok.mp htext).symm, hclosed, ?_⟩
  rw [closed_references_iff, and_iff_left hclosed,
    closed_owner_partStatements_iff hparts hstatements]
  simp only [List.not_mem_nil, false_or]
  obtain ⟨hempty, heq⟩ | ⟨name, hmem, hname, heq⟩ := setTargets_cases targets d
  . rw [heq]
    simp only [and_iff_right hempty]
  . rw [heq, forall_setTarget_iff hname]
    constructor
    . intro hnone before p after hsplit hwrites
      exact absurd hwrites (hnone p (by simp [hsplit]))
    . intro hrules p hp hwrites
      obtain ⟨before, after, hsplit⟩ := List.append_of_mem hp
      exact hname ((hrules before p after hsplit hwrites).1 name hmem)

end Document

def services (others : List String) (name : String) : Policy where
  filters :=
    (others.map fun other => { comment := [], targets := [⟨platform, [other]⟩], terms := [] })
    ++ [{
      comment := []
      targets := [⟨platform, [name]⟩]
      terms := [
        { name := "web", protocol := ["tcp"], destinationPort := [.ofNat 80 80, .ofNat 443 443],
          action := .accept }] }]

theorem references_closed_services :
    ∃ d text statements, (Document.ofPolicy epoch (services ["edge"] "edge-policy")).result = .ok d
      ∧ (d.setTargets ["", ""]).render = .ok text
      ∧ (d.setTargets ["", ""]).statements = .ok statements
      ∧ .rule "e_web-rule" "edge-policy" "e_web-list" "e_web-action" ∈ statements
      ∧ Closed Statement.declared? (Finds Statement.references) [] statements := by
  have hverbatim : ∀ f ∈ (services ["edge"] "edge-policy").filters, ∀ t ∈ f.terms,
      t.isVerbatim = false := by
    decide
  have h : (Document.ofPolicy epoch (services ["edge"] "edge-policy")).result.toOption.any (fun d =>
      (d.setTargets ["", ""]).render.toOption.isSome
        && (d.setTargets ["", ""]).statements.toOption.any
          (·.contains (.rule "e_web-rule" "edge-policy" "e_web-list" "e_web-action"))
        && d.parts.map (fun p => (p.name, decide p.WritesRule))
          == [("edge", false), ("edge-policy", true)]) = true := by
    decide +kernel
  obtain ⟨d, hd, h⟩ := exists_ok_of_any h
  simp only [Bool.and_eq_true] at h
  obtain ⟨⟨hrender, hrule⟩, hparts⟩ := h
  obtain ⟨text, htext, _⟩ := exists_ok_of_any (p := fun _ => true) (by simpa using hrender)
  obtain ⟨statements, hstatements, _, _, hclosed⟩ :=
    Document.references_closed_iff hverbatim hd htext
  refine ⟨d, text, statements, hd, htext, hstatements,
    by simpa [hstatements, Except.toOption] using hrule,
    hclosed.mpr fun before r after hsplit hwrites => ⟨by simp, ?_⟩⟩
  obtain ⟨p, ps, heq, hp, hps⟩ := List.map_eq_cons_iff.mp (eq_of_beq hparts)
  obtain ⟨q, qs, rfl, hq, hqs⟩ := List.map_eq_cons_iff.mp hps
  obtain rfl := List.map_eq_nil_iff.mp hqs
  simp only [Prod.mk.injEq, decide_eq_false_iff_not] at hp hq
  rw [heq] at hsplit
  obtain ⟨_, hfirst⟩ | ⟨before, rfl, htail⟩ := List.cons_eq_append_iff.mp hsplit
  . cases hfirst
    exact absurd hwrites hp.2
  . obtain ⟨_, hsecond⟩ | ⟨_, _, hnone⟩ := List.cons_eq_append_iff.mp htail
    . cases hsecond
      exact ⟨p, List.mem_cons_self, by rw [hp.1, hq.1]; rfl⟩
    . simp at hnone

/--
The policy of the filter `edge` is declared as `edge-policy`, but its rule says `edge`.
-/
theorem references_dangle_services :
    ∃ d statements, (Document.ofPolicy epoch (services [] "edge")).result = .ok d
      ∧ d.statements = .ok statements
      ∧ .policy "edge-policy" ∈ statements
      ∧ .rule "e_web-rule" "edge" "e_web-list" "e_web-action" ∈ statements
      ∧ .policy "edge" ∉ statements := by
  have h : (Document.ofPolicy epoch (services [] "edge")).result.toOption.any (fun d =>
      d.statements.toOption.any fun ss =>
        ss.contains (.policy "edge-policy")
          && ss.contains (.rule "e_web-rule" "edge" "e_web-list" "e_web-action")
          && !ss.contains (.policy "edge")) = true := by
    decide +kernel
  obtain ⟨d, hd, h⟩ := exists_ok_of_any h
  obtain ⟨statements, hstatements, h⟩ := exists_ok_of_any h
  simp only [Bool.and_eq_true, List.contains_iff_mem, Bool.not_eq_eq_eq_not, Bool.not_true] at h
  exact ⟨d, statements, hd, hstatements, h.1.1, h.1.2, by simpa using h.2⟩

end Ipsec
end PacketPolicy

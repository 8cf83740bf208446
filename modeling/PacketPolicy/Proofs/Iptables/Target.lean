import Mathlib.Data.List.Induction
import PacketPolicy.Proofs.Iptables.ReadBack

namespace PacketPolicy
namespace Iptables

/--
The place of a line in the text of a filter. What stands there is fixed, or follows from the target
of the filter.
-/
inductive Slot where
  | fixed (line : Line)
  | banner
  | setup
  | link (name : String)
  deriving DecidableEq, Repr

structure Target where
  chain : String
  action : String
  deriving DecidableEq, Repr

namespace Slot

/--
Every slot is filled with one line, but a built-in chain without a default action needs no setup.
-/
def fill (target : Target) : Slot → List Line
  | .fixed line => [line]
  | .banner => [.note ("Iptables " ++ target.chain ++ " Policy")]
  | .setup =>
    if target.chain ∉ builtinChains then [.declare target.chain]
    else if target.action = "" then []
    else [.policy target.chain target.action]
  | .link name => [.append target.chain [] (some (.chain name))]

def linked? : Slot → Option String
  | .link name => some name
  | _ => none

theorem flatMap_fill_fixed (target : Target) (ls : List Line) :
    (ls.map fixed).flatMap (fill target) = ls := by
  rw [List.flatMap_map]
  exact List.flatMap_singleton' ls

end Slot

def Target.Writable (target : Target) : Prop :=
  target.chain ∈ builtinChains → target.action = "" ∨ target.action ∈ defaultActions

instance (target : Target) : Decidable target.Writable :=
  inferInstanceAs (Decidable (_ → _))

namespace Chain

def slots (c : Chain) : List Slot :=
  match c.plan with
  | .empty _ => []
  | .rules source destination =>
    .fixed (.declare c.name) :: .link c.name
      :: ((Comment.lines c.term.comment c.term.owner).map c.commentLine
        ++ c.ruleList source destination).map .fixed

theorem fill_slots (c : Chain) (target : Target) :
    c.slots.flatMap (Slot.fill target) = c.lineList target.chain := by
  unfold slots lineList
  cases c.plan with
  | empty side => rfl
  | rules source destination =>
    simp only [List.flatMap_cons, Slot.flatMap_fill_fixed]
    simp [Slot.fill]

theorem linked?_slots (c : Chain) (parent : String) :
    c.slots.filterMap Slot.linked? = if c.lineList parent = [] then [] else [c.name] := by
  unfold slots lineList
  cases c.plan with
  | empty side => rfl
  | rules source destination => simp [List.filterMap_cons, Slot.linked?]

end Chain

namespace Block

def slots : Block → List Slot
  | .verbatim t => ((t.verbatimFor platform).map .verbatim).map .fixed
  | .chain c => c.slots

theorem fill_slots (b : Block) (target : Target) :
    b.slots.flatMap (Slot.fill target) = b.lineList target.chain := by
  cases b with
  | verbatim t => exact Slot.flatMap_fill_fixed target _
  | chain c => exact c.fill_slots target

theorem linked?_slots {bs : List Block} (hchains : ∀ b ∈ bs, ∃ c, b = .chain c) (parent : String) :
    (bs.flatMap slots).filterMap Slot.linked?
      = (bs.filter fun b => b.lineList parent ≠ []).map chainName := by
  induction bs with
  | nil => rfl
  | cons b bs ih =>
    rw [List.forall_mem_cons] at hchains
    obtain ⟨⟨c, rfl⟩, hchains⟩ := hchains
    rw [List.flatMap_cons, List.filterMap_append, ih hchains, slots, c.linked?_slots parent,
      List.filter_cons]
    by_cases hempty : c.lineList parent = [] <;> simp [hempty, lineList, chainName]

end Block

namespace FilterPart

variable {p : FilterPart}

def target (p : FilterPart) : Target :=
  ⟨p.chain, p.defaultAction⟩

def slots (p : FilterPart) : List Slot :=
  .banner :: (p.comment.map (fun c => Line.note (Filter.commentLine c))
    ++ [Line.note p.family.keyword]).map .fixed
    ++ .setup :: p.blocks.flatMap Block.slots

theorem chainLines_eq_ok_iff :
    p.chainLines = .ok ls ↔ p.target.Writable ∧ Slot.setup.fill p.target = ls := by
  unfold chainLines Target.Writable Slot.fill target
  by_cases hbuiltin : p.chain ∈ builtinChains <;> by_cases hnone : p.defaultAction = ""
    <;> by_cases haction : p.defaultAction ∈ defaultActions <;> simp [hbuiltin, hnone, haction]

theorem fill_slots (p : FilterPart) :
    p.slots.flatMap (Slot.fill p.target)
      = p.headLines ++ Slot.setup.fill p.target ++ p.blocks.flatMap (Block.lineList p.chain) := by
  have hblocks : p.blocks.flatMap (fun b => b.slots.flatMap (Slot.fill p.target))
      = p.blocks.flatMap (Block.lineList p.chain) := by
    congr 1
    funext b
    exact b.fill_slots p.target
  simp only [slots, List.flatMap_append, List.flatMap_cons, Slot.flatMap_fill_fixed,
    List.flatMap_assoc, hblocks]
  simp [Slot.fill, headLines, target]

theorem lines_eq_ok_iff :
    p.lines = .ok ls ↔ p.target.Writable ∧ p.slots.flatMap (Slot.fill p.target) = ls := by
  rw [lines_eq, fill_slots, map_eq_ok]
  simp only [chainLines_eq_ok_iff]
  constructor
  . rintro ⟨_, ⟨hwritable, rfl⟩, rfl⟩
    exact ⟨hwritable, rfl⟩
  . rintro ⟨hwritable, rfl⟩
    exact ⟨_, ⟨hwritable, rfl⟩, rfl⟩

theorem setTarget_empty : setTarget "" "" = id := rfl

theorem setTarget_setTarget (p : FilterPart) (chain action chain' action' : String) :
    (p.setTarget chain action).setTarget chain' action'
      = p.setTarget (if chain' = "" then chain else chain')
        (if action' = "" then action else action') := by
  unfold setTarget
  by_cases hchain : chain' = "" <;> by_cases haction : action' = "" <;> simp [hchain, haction]

theorem Renders.writable (h : p.Renders clock f o) : p.target.Writable := by
  intro _
  show p.defaultAction = "" ∨ p.defaultAction ∈ defaultActions
  rw [h.defaultAction_eq]
  exact Options.readFrom_defaultAction h.options (.inl rfl)

theorem linked?_slots (hchains : ∀ b ∈ p.blocks, ∃ c, b = .chain c) :
    p.slots.filterMap Slot.linked?
      = (p.blocks.filter fun b => (b.lines p.chain).toOption ≠ some []).map Block.chainName := by
  have hlines (b : Block) : (b.lines p.chain).toOption ≠ some [] ↔ b.lineList p.chain ≠ [] := by
    simp [b.lines_eq, Except.toOption]
  simp only [hlines]
  rw [← Block.linked?_slots hchains, slots]
  simp [List.filterMap_cons, Slot.linked?]

end FilterPart

def lastGiven (names : List String) : String :=
  (names.filter (· ≠ "")).getLastD ""

theorem lastGiven_concat :
    lastGiven (names ++ [name]) = if name = "" then lastGiven names else name := by
  unfold lastGiven
  by_cases hname : name = "" <;> simp [hname]

def Target.last (targets : List (String × String)) : Target :=
  ⟨lastGiven (targets.map (·.1)), lastGiven (targets.map (·.2))⟩

namespace Document

variable {d : Document}

def filled (target : FilterPart → Target) (d : Document) : String :=
  String.join ((d.parts.flatMap fun p => p.slots.flatMap (Slot.fill (target p))).map fun line =>
    line.text ++ "\n")

theorem partLines_eq_ok_iff {ps : List FilterPart} :
    partLines ps = .ok ls ↔ (∀ p ∈ ps, p.target.Writable) ∧
      (ps.flatMap fun p => p.slots.flatMap (Slot.fill p.target)) = ls := by
  induction ps generalizing ls with
  | nil => simp [partLines]
  | cons p ps ih =>
    simp only [partLines, bind_eq_ok, FilterPart.lines_eq_ok_iff, ih, pure_eq_ok,
      List.forall_mem_cons, List.flatMap_cons]
    constructor
    . rintro ⟨_, ⟨hp, rfl⟩, _, ⟨hps, rfl⟩, rfl⟩
      exact ⟨⟨hp, hps⟩, rfl⟩
    . rintro ⟨⟨hp, hps⟩, rfl⟩
      exact ⟨_, ⟨hp, rfl⟩, _, ⟨hps, rfl⟩, rfl⟩

theorem render_eq_ok_iff :
    d.render = .ok text ↔
      (∀ p ∈ d.parts, p.target.Writable) ∧ d.filled FilterPart.target = text := by
  simp only [render, lines, bind_eq_ok, partLines_eq_ok_iff, pure_eq_ok]
  constructor
  . rintro ⟨_, ⟨hwritable, rfl⟩, rfl⟩
    exact ⟨hwritable, rfl⟩
  . rintro ⟨hwritable, rfl⟩
    exact ⟨_, ⟨hwritable, rfl⟩, rfl⟩

theorem filled_setTarget (d : Document) :
    (d.setTarget chain action).filled FilterPart.target = d.filled fun p =>
      (p.setTarget chain action).target := by
  unfold filled setTarget
  rw [List.flatMap_map]
  rfl

theorem setTargets_eq_setTarget (targets : List (String × String)) (d : Document) :
    d.setTargets targets = d.setTarget (Target.last targets).chain
      (Target.last targets).action := by
  unfold Target.last
  induction targets using List.reverseRecOn with
  | nil => simp [setTargets, setTarget, lastGiven, FilterPart.setTarget_empty]
  | append_singleton targets t ih =>
    have hstep : d.setTargets (targets ++ [t]) = (d.setTargets targets).setTarget t.1 t.2 := by
      simp [setTargets, List.foldl_append]
    rw [hstep, ih, List.map_append, List.map_append, List.map_singleton, List.map_singleton,
      lastGiven_concat, lastGiven_concat]
    simp [setTarget, FilterPart.setTarget_setTarget]

/--
Changes of targets come down to one, with the last chain and the last default action that were
given. The slots of the document stay, with one link for every term that has lines, and are filled
for the new targets, unless a built-in chain has got a default action that does not exist.
-/
theorem render_setTargets_iff
    (hverbatim : ∀ f ∈ policy.filters, ∀ t ∈ f.terms, t.isVerbatim = false)
    (h : (ofPolicy clock policy).result = .ok d) (targets : List (String × String)) :
    d.setTargets targets = d.setTarget (Target.last targets).chain (Target.last targets).action
      ∧ d.render = .ok (d.filled FilterPart.target)
      ∧ (∀ text, (d.setTargets targets).render = .ok text ↔
          (∀ p ∈ d.parts,
            (p.setTarget (Target.last targets).chain (Target.last targets).action).target.Writable)
            ∧ (d.filled fun p =>
              (p.setTarget (Target.last targets).chain (Target.last targets).action).target) = text)
      ∧ ∀ p ∈ d.parts,
          p.slots.filterMap Slot.linked?
            = (p.blocks.filter fun b => (b.lines p.chain).toOption ≠ some []).map
              Block.chainName := by
  refine ⟨setTargets_eq_setTarget targets d, ?_, fun text => ?_, fun p hp => ?_⟩
  . refine render_eq_ok_iff.mpr ⟨fun p hp => ?_, rfl⟩
    obtain ⟨f, _, _, o, hrenders⟩ := exists_renders_of_mem h hp
    exact hrenders.writable
  . rw [setTargets_eq_setTarget, render_eq_ok_iff, filled_setTarget, setTarget, List.forall_mem_map]
  . obtain ⟨f, hf, _, o, hrenders⟩ := exists_renders_of_mem h hp
    apply FilterPart.linked?_slots
    intro b hb
    obtain ⟨c, hc, _⟩ := hrenders.exists_eq_chain (hverbatim f hf) hb
    exact ⟨c, hc⟩

def moves : List (String × String) :=
  [("EDGE", "accept"), ("", "drop"), ("FORWARD", "")]

theorem render_moves_misleadingPolicy :
    ∃ d, (ofPolicy epoch misleadingPolicy).result = .ok d
      ∧ d.setTargets moves = d.setTarget "FORWARD" "drop"
      ∧ d.render = .ok (d.filled FilterPart.target)
      ∧ (d.setTargets moves).render = .ok (d.filled fun _ => ⟨"FORWARD", "DROP"⟩)
      ∧ d.parts.map (fun p => p.slots.filterMap Slot.linked?) = [["I_web"], ["E_hop"]] := by
  have h : (ofPolicy epoch misleadingPolicy).result.toOption.any (fun d =>
      d.parts.map (fun p => (p.blocks.filter fun b => (b.lines p.chain).toOption ≠ some []).map
        Block.chainName)
        == [["I_web"], ["E_hop"]]) = true := by
    decide +kernel
  obtain ⟨d, hd, h⟩ := exists_ok_of_any h
  have hverbatim : ∀ f ∈ misleadingPolicy.filters, ∀ t ∈ f.terms, t.isVerbatim = false := by decide
  have hlast : Target.last moves = ⟨"FORWARD", "drop"⟩ := by decide
  have htarget (p : FilterPart) : (p.setTarget "FORWARD" "drop").target = ⟨"FORWARD", "DROP"⟩ := by
    have hupper : Text.upper "drop" = "DROP" := by decide +kernel
    simp [FilterPart.setTarget, FilterPart.target, hupper]
  obtain ⟨hset, hbefore, hafter, hlinks⟩ := render_setTargets_iff hverbatim hd moves
  simp only [hlast, htarget] at hset hafter
  refine ⟨d, hd, hset, hbefore, (hafter _).mpr ⟨fun _ _ => by decide, rfl⟩, ?_⟩
  rw [List.map_congr_left hlinks]
  exact eq_of_beq h

end Document
end Iptables
end PacketPolicy

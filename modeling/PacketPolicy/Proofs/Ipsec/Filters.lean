import Mathlib.Algebra.Order.Ring.Canonical
import Mathlib.Data.Fintype.EquivFin
import PacketPolicy.Proofs.Address.Plan
import PacketPolicy.Proofs.Ipsec.Acceptance

namespace PacketPolicy
namespace Ipsec

open Prefix (Covered NormalForm)

structure Flow (f : Family) where
  source : Address f
  destination : Address f
  protocol : String
  sourcePort : Nat
  destinationPort : Nat

variable {f : Family}

def coversAddress (p? : Option Prefix) (a : Address f) : Bool :=
  p?.all fun p => p.Covers a

def coversPort (r? : Option PortRange) (port : Nat) : Bool :=
  r?.all (·.contains port)

/--
A filter that is written without a protocol covers all of them.
-/
def coversProtocol (name protocol : String) : Bool :=
  Statement.protocolText name == "" || name == protocol

def Statement.covers (flow : Flow f) : Statement → Bool
  | .filter _ source destination protocol =>
    coversAddress source.address flow.source && coversAddress destination.address flow.destination
      && coversProtocol protocol flow.protocol && coversPort source.port flow.sourcePort
      && coversPort destination.port flow.destinationPort
  | _ => false

structure Asks (t : Term) (flow : Flow f) : Prop where
  source : t.request.Matches .source flow.source
  destination : t.request.Matches .destination flow.destination
  protocol : t.protocol ≠ [] → flow.protocol ∈ t.protocol
  sourcePort : t.sourcePort ≠ [] → ∃ r ∈ t.sourcePort, r.contains flow.sourcePort = true
  destinationPort : t.destinationPort ≠ [] →
    ∃ r ∈ t.destinationPort, r.contains flow.destinationPort = true

/--
The statements cover what the term asks for and nothing else, and only once if the term repeats
nothing.
-/
structure Exact (f : Family) (t : Term) (statements : List Statement) : Prop where
  covered : ∀ flow : Flow f, Asks t flow → ∃ s ∈ statements, s.covers flow = true
  asked : ∀ flow : Flow f, ∀ s ∈ statements, s.covers flow = true → Asks t flow
  once : t.protocol.Nodup → t.sourcePort.Nodup → t.destinationPort.Nodup →
    ∀ flow : Flow f, Asks t flow → statements.countP (·.covers flow) = 1

structure SinglePorts (t : Term) : Prop where
  source : ∀ r ∈ t.sourcePort, r.isSingle = true
  destination : ∀ r ∈ t.destinationPort, r.isSingle = true

theorem coversProtocol_iff : coversProtocol name protocol = true ↔ name = "" ∨ name = protocol := by
  unfold coversProtocol Statement.protocolText
  split <;> simp_all

namespace Reach

theorem ofLists_cases (f : Family) (includes : Option (List Prefix)) (excludes : List Prefix) :
    (ofLists f includes excludes = .any
      ∧ ∀ a : Address f, Included includes a ∧ ¬Covered excludes a)
      ∨ ∃ ps, ofLists f includes excludes = .prefixes ps
          ∧ NormalForm ps fun g a => g = f ∧ Included includes a ∧ ¬Covered excludes a := by
  have hexcluded {g : Family} (a : Address g) :
      Covered (Prefix.collapse (Prefix.ofFamily f excludes)) a ↔ g = f ∧ Covered excludes a :=
    Encoding.covered_collapse_ofFamily
  have hincluded {g : Family} (a : Address g) :
      Covered (Prefix.collapse (Prefix.ofFamily f (includes.getD [Prefix.all f]))) a ↔
        g = f ∧ Included includes a := by
    rw [Encoding.covered_collapse_ofFamily]
    cases includes with
    | none => simp [Included, Prefix.covered_singleton_all]
    | some ps => simp [Included]
  unfold ofLists
  dsimp only
  split
  . next hall =>
    left
    simp only [Bool.and_eq_true, Option.isNone_iff_eq_none, List.isEmpty_iff] at hall
    refine ⟨rfl, fun a => ⟨by simp [hall.1, Included], fun ha => ?_⟩⟩
    have hcovered := (hexcluded a).mpr ⟨rfl, ha⟩
    simp [hall.2, Covered] at hcovered
  . have hnormal : NormalForm
        (Prefix.subtract (Prefix.collapse (Prefix.ofFamily f (includes.getD [Prefix.all f])))
          (Prefix.collapse (Prefix.ofFamily f excludes)))
        fun g a => g = f ∧ Included includes a ∧ ¬Covered excludes a := by
      apply (Prefix.normalForm_subtract _ _).congr
      intro g a
      rw [hincluded, hexcluded]
      grind
    split
    . next p heq =>
      rw [heq] at hnormal
      split
      . next hall =>
        left
        refine ⟨rfl, fun a => ?_⟩
        have hfamily : p.family = f :=
          ((hnormal.exact _ _).mp ⟨p, List.mem_singleton_self p, p.covers_self⟩).1
        have hcovers :=
          Prefix.covers_of_length_eq_zero hfamily (by simpa [Prefix.isAll] using hall) a
        exact ((hnormal.exact f a).mp ⟨p, List.mem_singleton_self p, hcovers⟩).2
      . exact .inr ⟨[p], rfl, hnormal⟩
    . exact .inr ⟨_, rfl, hnormal⟩

theorem exists_coversAddress (includes : Option (List Prefix)) (excludes : List Prefix)
    (a : Address f) :
    (∃ p? ∈ (ofLists f includes excludes).addresses, coversAddress p? a = true) ↔
      Included includes a ∧ ¬Covered excludes a := by
  obtain ⟨hany, hall⟩ | ⟨ps, hps, hnormal⟩ := ofLists_cases f includes excludes
  . simp [hany, addresses, coversAddress, hall a]
  . have hexact : Covered ps a ↔ Included includes a ∧ ¬Covered excludes a := by
      simpa using hnormal.exact f a
    rw [← hexact]
    simp [hps, addresses, coversAddress, Covered]

theorem disjoint_addresses (includes : Option (List Prefix)) (excludes : List Prefix)
    (a : Address f) :
    (ofLists f includes excludes).addresses.Pairwise
      fun p? q? => ¬(coversAddress p? a = true ∧ coversAddress q? a = true) := by
  obtain ⟨hany, _⟩ | ⟨ps, hps, hnormal⟩ := ofLists_cases f includes excludes
  . simp [hany, addresses]
  . rw [hps, addresses, List.pairwise_map]
    apply hnormal.disjoint.imp
    intro p q hdisjoint hboth
    exact hdisjoint f a (by simpa [coversAddress] using hboth)

theorem addresses_eq_nil {r : Reach} (h : r.isEmpty = true) : r.addresses = [] := by
  cases r with
  | any => simp [isEmpty] at h
  | prefixes ps => simpa [isEmpty, addresses] using h

theorem isEmpty_ofLists (f : Family) (includes : Option (List Prefix)) (excludes : List Prefix) :
    (ofLists f includes excludes).isEmpty = true ↔
      ∀ a : Address f, ¬(Included includes a ∧ ¬Covered excludes a) := by
  obtain ⟨hany, hall⟩ | ⟨ps, hps, hnormal⟩ := ofLists_cases f includes excludes
  . simp only [hany, isEmpty, Bool.false_eq_true, false_iff, not_forall]
    exact ⟨0, not_not.mpr (hall 0)⟩
  . simp only [hps, isEmpty, List.isEmpty_iff]
    constructor
    . intro hnil a ha
      have hcovered := (hnormal.exact f a).mpr ⟨rfl, ha⟩
      simp [hnil, Covered] at hcovered
    . intro hnone
      apply List.eq_nil_iff_forall_not_mem.mpr
      intro p hp
      obtain ⟨rfl, ha⟩ := (hnormal.exact _ _).mp ⟨p, hp, p.covers_self⟩
      exact hnone _ ha

theorem exists_of_isEmpty_ofLists {includes : Option (List Prefix)} {excludes : List Prefix}
    (h : (ofLists f includes excludes).isEmpty = false) :
    ∃ a : Address f, Included includes a ∧ ¬Covered excludes a := by
  by_contra hnone
  rw [(isEmpty_ofLists f includes excludes).mpr (not_exists.mp hnone)] at h
  contradiction

end Reach

theorem isSome_emptySide? {r : Request} :
    (emptySide? f r).isSome = true ↔
      (source f r).isEmpty = true ∨ (destination f r).isEmpty = true := by
  unfold emptySide?
  split
  . simp_all
  . split <;> simp_all

theorem countP_eq_one {q : α → Bool} {as : List α}
    (hdisjoint : as.Pairwise fun a b => ¬(q a = true ∧ q b = true)) (hsome : ∃ a ∈ as, q a = true) :
    as.countP q = 1 := by
  induction hdisjoint with
  | nil => simp at hsome
  | @cons a as hhead _ ih =>
    by_cases ha : q a = true
    . have hnone : as.countP q = 0 := List.countP_eq_zero.mpr fun b hb hq => hhead b hb ⟨ha, hq⟩
      rw [List.countP_cons_of_pos ha, hnone]
    . rw [List.countP_cons_of_neg ha]
      apply ih
      simpa [ha] using hsome

theorem countP_flatMap_ite {g : α → List β} {q : β → Bool} {c : α → Bool} {as : List α}
    (outer : Bool) (h : ∀ a ∈ as, (g a).countP q = if outer && c a then n else 0) :
    (as.flatMap g).countP q = if outer then as.countP c * n else 0 := by
  induction as with
  | nil => simp
  | cons a as ih =>
    rw [List.forall_mem_cons] at h
    rw [List.flatMap_cons, List.countP_append, h.1, ih h.2, List.countP_cons]
    cases outer <;> cases c a <;> simp [Nat.add_mul, Nat.add_comm]

namespace Block

variable {b : Block} {t : Term}

theorem countP_filters (b : Block) (flow : Flow f) :
    b.filters.countP (·.covers flow) =
      (source b.family b.term.request).addresses.countP (coversAddress · flow.source)
        * ((destination b.family b.term.request).addresses.countP (coversAddress · flow.destination)
          * (b.protocols.countP (coversProtocol · flow.protocol)
            * ((portChoices b.term.sourcePort).countP (coversPort · flow.sourcePort)
              * (portChoices b.term.destinationPort).countP
                (coversPort · flow.destinationPort)))) := by
  unfold filters
  -- A loop counts something only if what the loops around it have chosen covers the flow.
  rw [countP_flatMap_ite true, if_pos rfl]
  intro s _
  rw [Bool.true_and, countP_flatMap_ite (coversAddress s flow.source)]
  intro d _
  rw [countP_flatMap_ite (coversAddress s flow.source && coversAddress d flow.destination)]
  intro p _
  rw [countP_flatMap_ite]
  intro sp _
  rw [List.countP_map]
  generalize houter : (coversAddress s flow.source && coversAddress d flow.destination
    && coversProtocol p flow.protocol
    && coversPort sp flow.sourcePort) = outer
  cases outer <;> simp [Function.comp_def, Statement.covers, houter]

theorem exists_coversPort {rs : List PortRange} {port : Nat} :
    (∃ r? ∈ portChoices rs, coversPort r? port = true) ↔
      (rs ≠ [] → ∃ r ∈ rs, r.contains port = true) := by
  unfold portChoices
  cases rs <;> simp [coversPort]

theorem disjoint_portChoices {rs : List PortRange} (hnodup : rs.Nodup)
    (hsingle : ∀ r ∈ rs, r.isSingle = true) (port : Nat) :
    (portChoices rs).Pairwise fun r? s? =>
      ¬(coversPort r? port = true ∧ coversPort s? port = true) := by
  unfold portChoices
  split
  . simp
  . rw [List.pairwise_map]
    apply List.Pairwise.imp_of_mem _ hnodup
    rintro r s hr hs hne ⟨hrport, hsport⟩
    apply hne
    have hrsingle := hsingle r hr
    have hssingle := hsingle s hs
    simp only [PortRange.isSingle, beq_iff_eq, coversPort, Option.all_some, PortRange.contains,
      Bool.and_eq_true, decide_eq_true_eq] at hrsingle hssingle hrport hsport
    cases r
    cases s
    grind

theorem exists_port {rs : List PortRange} (hsingle : ∀ r ∈ rs, r.isSingle = true) :
    ∃ port, rs ≠ [] → ∃ r ∈ rs, r.contains port = true := by
  cases rs with
  | nil => simp
  | cons r rs =>
    have hr := hsingle r List.mem_cons_self
    simp only [PortRange.isSingle, beq_iff_eq] at hr
    exact ⟨r.low, fun _ => ⟨r, List.mem_cons_self, by simp [PortRange.contains, hr]⟩⟩

theorem exists_coversProtocol {protocol : String} :
    (∃ name ∈ b.protocols, coversProtocol name protocol = true) ↔
      "" ∈ b.term.protocol ∨ (b.term.protocol ≠ [] → protocol ∈ b.term.protocol) := by
  unfold protocols
  simp only [coversProtocol_iff]
  cases b.term.protocol with
  | nil => simp
  | cons => grind

theorem disjoint_protocols (hnodup : b.term.protocol.Nodup) (hempty : "" ∉ b.term.protocol)
    (protocol : String) :
    b.protocols.Pairwise fun p q =>
      ¬(coversProtocol p protocol = true ∧ coversProtocol q protocol = true) := by
  unfold protocols
  simp only [coversProtocol_iff]
  split
  . simp
  . apply List.Pairwise.imp_of_mem _ hnodup
    grind

theorem singlePorts_of_check {a : FilterAction} (hverbatim : t.isVerbatim = false)
    (h : check t = .ok a) :
    SinglePorts t := by
  have hports := (accepts_of_check hverbatim h).singlePorts
  unfold checkSinglePorts at hports
  split at hports
  . simp at hports
  . next hnone =>
    simp only [List.find?_append, Option.or_eq_none_iff, List.find?_eq_none, Bool.not_eq_true',
      Bool.not_eq_false] at hnone
    exact ⟨hnone.1, hnone.2⟩

theorem of_ofTerm (h : ofTerm filter f shortening t = .ok b) :
    b.term = t ∧ b.family = f ∧ ∃ a, check t = .ok a := by
  have hrenders := renders_of_ofTerm h
  exact ⟨hrenders.term_eq, hrenders.family_eq, _, hrenders.check⟩

theorem exists_statements (hverbatim : b.term.isVerbatim = false) (hicmp : b.term.icmpType = [])
    (policy : String) :
    ∃ statements, b.statements policy = .ok statements
      ∧ (statements = [] ↔ (source b.family b.term.request).isEmpty = true
          ∨ (destination b.family b.term.request).isEmpty = true)
      ∧ ∀ flow : Flow b.family, statements.countP (·.covers flow)
        = b.filters.countP (·.covers flow) := by
  unfold statements
  simp only [hverbatim, Bool.false_eq_true, ↓reduceIte, hicmp, List.isEmpty_nil, Bool.not_true]
  split
  . next hempty =>
    have hempty := isSome_emptySide?.mp hempty
    refine ⟨[], rfl, by simpa using hempty, fun flow => ?_⟩
    have hnone : b.filters = [] := by
      unfold filters
      obtain h | h := hempty <;> simp [Reach.addresses_eq_nil h]
    rw [hnone]
  . next hsome =>
    rw [isSome_emptySide?] at hsome
    refine ⟨_, rfl, by simpa using hsome, fun flow => ?_⟩
    simp only [List.countP_append, List.countP_map, List.countP_cons, List.countP_nil,
      Statement.covers]
    simp [Function.comp_def]

theorem countP_filters_pos (b : Block) (flow : Flow b.family) :
    0 < b.filters.countP (·.covers flow) ↔
      b.term.request.Matches .source flow.source
        ∧ b.term.request.Matches .destination flow.destination
        ∧ ("" ∈ b.term.protocol ∨ (b.term.protocol ≠ [] → flow.protocol ∈ b.term.protocol))
        ∧ (b.term.sourcePort ≠ [] → ∃ r ∈ b.term.sourcePort, r.contains flow.sourcePort = true)
        ∧ (b.term.destinationPort ≠ [] →
          ∃ r ∈ b.term.destinationPort, r.contains flow.destinationPort = true) := by
  simp only [countP_filters, CanonicallyOrderedAdd.mul_pos, List.countP_pos_iff]
  rw [exists_coversProtocol, exists_coversPort, exists_coversPort, source,
    Reach.exists_coversAddress, destination, Reach.exists_coversAddress]
  rfl

variable {flow : Flow b.family}

theorem countP_filters_pos_of_asks (h : Asks b.term flow) :
    0 < b.filters.countP (·.covers flow) := by
  rw [countP_filters_pos]
  exact ⟨h.source, h.destination, .inr h.protocol, h.sourcePort, h.destinationPort⟩

theorem asks_of_countP_filters_pos (hempty : "" ∉ b.term.protocol)
    (h : 0 < b.filters.countP (·.covers flow)) :
    Asks b.term flow := by
  obtain ⟨hsource, hdestination, hprotocol, hsourcePort, hdestinationPort⟩ :=
    (countP_filters_pos b flow).mp h
  exact ⟨hsource, hdestination, hprotocol.resolve_left hempty, hsourcePort, hdestinationPort⟩

theorem countP_filters_eq_one (hsingle : SinglePorts b.term) (hempty : "" ∉ b.term.protocol)
    (hprotocol : b.term.protocol.Nodup) (hsource : b.term.sourcePort.Nodup)
    (hdestination : b.term.destinationPort.Nodup)
    (hpos : 0 < b.filters.countP (·.covers flow)) : b.filters.countP (·.covers flow) = 1 := by
  simp only [countP_filters, source, destination, CanonicallyOrderedAdd.mul_pos,
    List.countP_pos_iff] at hpos ⊢
  obtain ⟨hs, hd, hp, hsp, hdp⟩ := hpos
  rw [countP_eq_one (Reach.disjoint_addresses _ _ _) hs,
    countP_eq_one (Reach.disjoint_addresses _ _ _) hd,
    countP_eq_one (disjoint_protocols hprotocol hempty _) hp,
    countP_eq_one (disjoint_portChoices hsource hsingle.source _) hsp,
    countP_eq_one (disjoint_portChoices hdestination hsingle.destination _) hdp]

/--
A protocol without a name lets flows pass whose protocol is not in the list.
-/
theorem exists_covers_of_mem (hsingle : SinglePorts b.term) (hempty : "" ∈ b.term.protocol)
    (hsource : (source b.family b.term.request).isEmpty = false)
    (hdestination : (destination b.family b.term.request).isEmpty = false) :
    ∃ flow : Flow b.family, 0 < b.filters.countP (·.covers flow)
      ∧ flow.protocol ∉ b.term.protocol := by
  obtain ⟨s, hs⟩ := Reach.exists_of_isEmpty_ofLists hsource
  obtain ⟨d, hd⟩ := Reach.exists_of_isEmpty_ofLists hdestination
  obtain ⟨protocol, hprotocol⟩ := Infinite.exists_notMem_finset b.term.protocol.toFinset
  obtain ⟨sp, hsp⟩ := exists_port hsingle.source
  obtain ⟨dp, hdp⟩ := exists_port hsingle.destination
  refine ⟨⟨s, d, protocol, sp, dp⟩,
    (countP_filters_pos b _).mpr ⟨hs, hd, .inl hempty, hsp, hdp⟩, ?_⟩
  simpa using hprotocol

/--
The statements of a term without types of messages cover all that the term asks for, and there are
none exactly if it asks for no address at one of its sides. They cover nothing else, and nothing
twice, exactly if every protocol of the term has a name.
-/
theorem statements_exact_iff (hverbatim : t.isVerbatim = false) (hicmp : t.icmpType = [])
    (h : ofTerm filter f shortening t = .ok b) (policy : String) :
    ∃ statements, b.statements policy = .ok statements
      ∧ (statements = [] ↔ (∀ a : Address f, ¬t.request.Matches .source a)
          ∨ ∀ a : Address f, ¬t.request.Matches .destination a)
      ∧ (∀ flow : Flow f, Asks t flow → ∃ s ∈ statements, s.covers flow = true)
      ∧ (Exact f t statements ↔ statements = [] ∨ "" ∉ t.protocol) := by
  obtain ⟨rfl, rfl, a, hcheck⟩ := of_ofTerm h
  have hsingle := singlePorts_of_check hverbatim hcheck
  obtain ⟨statements, hstatements, hnil, hcount⟩ := exists_statements hverbatim hicmp policy
  have hcovers (flow : Flow b.family) :
      (∃ s ∈ statements, s.covers flow = true) ↔ 0 < b.filters.countP (·.covers flow) := by
    rw [← hcount, List.countP_pos_iff]
  have hcovered (flow : Flow b.family) (hasks : Asks b.term flow) :
      ∃ s ∈ statements, s.covers flow = true := by
    rw [hcovers]
    exact countP_filters_pos_of_asks hasks
  refine ⟨statements, hstatements, ?_, hcovered, ?_, ?_⟩
  . rw [hnil, source, Reach.isEmpty_ofLists, destination, Reach.isEmpty_ofLists]
    rfl
  . intro hexact
    by_contra hboth
    rw [not_or, hnil, not_or, not_not, Bool.not_eq_true, Bool.not_eq_true] at hboth
    obtain ⟨⟨hsource, hdestination⟩, hempty⟩ := hboth
    obtain ⟨flow, hflow, hprotocol⟩ := exists_covers_of_mem hsingle hempty hsource hdestination
    obtain ⟨s, hs, hflow⟩ := (hcovers flow).mpr hflow
    exact hprotocol ((hexact.asked flow s hs hflow).protocol (List.ne_nil_of_mem hempty))
  . rintro (rfl | hempty)
    . -- Nothing is covered, so nothing is asked for.
      refine ⟨hcovered, by simp, fun _ _ _ flow hasks => ?_⟩
      simpa using hcovered flow hasks
    . refine ⟨hcovered, fun flow s hs hflow => ?_,
        fun hprotocol hsource hdestination flow hasks => ?_⟩
      . exact asks_of_countP_filters_pos hempty ((hcovers flow).mp ⟨s, hs, hflow⟩)
      . rw [hcount]
        exact countP_filters_eq_one hsingle hempty hprotocol hsource hdestination
          (countP_filters_pos_of_asks hasks)

def lookups : Term where
  name := "lookups"
  protocol := ["tcp", "udp"]
  sourceAddress := some [.ofNat .v4 0x0A000000 8]
  sourceExclude := some [.ofNat .v4 0x0A800000 9]
  destinationPort := [.ofNat 53 53, .ofNat 853 853]
  action := .accept

theorem lookups_statements_exact :
    ∃ b statements, ofTerm "edge" .v4 {} lookups = .ok b ∧ b.statements "edge" = .ok statements
      ∧ statements ≠ []
      ∧ Exact .v4 lookups statements := by
  obtain ⟨b, hb, _⟩ :=
    exists_ok_of_any (x := ofTerm "edge" .v4 {} lookups) (p := fun _ => true) (by decide +kernel)
  obtain ⟨statements, hstatements, hnil, _, hexact⟩ := statements_exact_iff rfl rfl hb "edge"
  refine ⟨b, statements, hb, hstatements, fun hempty => ?_, hexact.mpr (.inr (by decide))⟩
  have hsource : lookups.request.Matches .source (0x0A000001 : Address .v4) :=
    ⟨show Covered [.ofNat .v4 0x0A000000 8] _ by decide,
      show ¬Covered [.ofNat .v4 0x0A800000 9] _ by decide⟩
  obtain hnone | hnone := hnil.mp hempty
  . exact hnone _ hsource
  . exact hnone 0 ⟨trivial, by decide⟩

def unnamed : Term where
  name := "web"
  protocol := ["tcp", ""]
  action := .accept

def unnamedBlock : Block :=
  ⟨unnamed, .v4, .permit, TaggedName.ofFilter "edge" "web"⟩

theorem asks_unnamed {flow : Flow .v4} : Asks unnamed flow ↔ flow.protocol ∈ ["tcp", ""] := by
  constructor
  . intro h
    exact h.protocol (by simp [unnamed])
  . intro h
    have hnone (a : Address .v4) : ¬Covered [] a := by simp [Covered]
    exact ⟨⟨trivial, hnone _⟩, ⟨trivial, hnone _⟩, fun _ => h, fun hne => absurd rfl hne,
      fun hne => absurd rfl hne⟩

theorem countP_filters_unnamed (flow : Flow .v4) :
    unnamedBlock.filters.countP (·.covers flow)
      = ["tcp", ""].countP (coversProtocol · flow.protocol) := by
  have hsource : (source .v4 unnamed.request).addresses = [none] := rfl
  have hdestination : (destination .v4 unnamed.request).addresses = [none] := rfl
  have hports : portChoices [] = [none] := rfl
  rw [countP_filters]
  show (source .v4 unnamed.request).addresses.countP _
    * ((destination .v4 unnamed.request).addresses.countP _
    * (["tcp", ""].countP _ * ((portChoices []).countP _ * (portChoices []).countP _))) = _
  simp only [hsource, hdestination, hports]
  simp [coversAddress, coversPort]

theorem unnamed_statements_not_exact :
    ∃ b statements, ofTerm "edge" .v4 {} unnamed = .ok b ∧ b.statements "edge" = .ok statements
      ∧ (∀ flow : Flow .v4, flow.protocol = "tcp" →
        Asks unnamed flow ∧ statements.countP (·.covers flow) = 2)
      ∧ ∀ flow : Flow .v4, flow.protocol = "udp" →
        ¬Asks unnamed flow ∧ statements.countP (·.covers flow) = 1 := by
  have hb : ofTerm "edge" .v4 {} unnamed = .ok unnamedBlock := by cbv
  obtain ⟨statements, hstatements, _, hcount⟩ :=
    exists_statements (b := unnamedBlock) rfl rfl "edge"
  have hcovers (flow : Flow .v4) :
      statements.countP (·.covers flow) = ["tcp", ""].countP (coversProtocol · flow.protocol) :=
    (hcount flow).trans (countP_filters_unnamed flow)
  refine ⟨_, statements, hb, hstatements, fun flow hflow => ?_, fun flow hflow => ?_⟩
  . rw [asks_unnamed, hcovers, hflow]
    decide
  . rw [asks_unnamed, hcovers, hflow]
    decide

end Block
end Ipsec
end PacketPolicy

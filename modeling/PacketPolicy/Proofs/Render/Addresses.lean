import PacketPolicy.Proofs.Address.Canonical
import PacketPolicy.Proofs.Ipsec.Filters
import PacketPolicy.Proofs.Iptables.Acceptance
import PacketPolicy.Proofs.Iptables.Rendered

namespace PacketPolicy

namespace Ipsec

def Reach.ofDifference : List Prefix → Reach
  | [p] => if p.isAll then .any else .prefixes [p]
  | ps => .prefixes ps

theorem Reach.ofLists_eq (f : Family) (includes : Option (List Prefix)) (excludes : List Prefix) :
    ofLists f includes excludes = ofDifference (Encoding.difference f includes excludes) := by
  unfold ofLists
  dsimp only
  split
  . next hshort =>
    -- The short cut for a side without any limits is what the difference would give.
    simp only [Bool.and_eq_true, Option.isNone_iff_eq_none, List.isEmpty_iff] at hshort
    unfold Encoding.difference
    rw [hshort.1, hshort.2]
    cases f <;> rfl
  . rw [← Encoding.included_eq]
    rfl

theorem Reach.isEmpty_ofDifference (ps : List Prefix) :
    (ofDifference ps).isEmpty = true ↔ ps = [] := by
  unfold ofDifference
  split
  . split <;> simp [isEmpty]
  . simp [isEmpty]

theorem emptySide?_eq (f : Family) (r : Request) :
    emptySide? f r = (Plan.ofRequest f r).emptySide? := by
  rw [Plan.emptySide?_ofRequest]
  unfold emptySide? source destination
  simp only [Reach.ofLists_eq, Reach.isEmpty_ofDifference]

theorem source_eq_of_equivalent {r s : Request} (h : r.Equivalent f s) :
    source f r = source f s := by
  unfold source
  rw [Reach.ofLists_eq, Reach.ofLists_eq]
  exact congrArg _ (h.difference_eq .source)

theorem destination_eq_of_equivalent {r s : Request} (h : r.Equivalent f s) :
    destination f r = destination f s := by
  unfold destination
  rw [Reach.ofLists_eq, Reach.ofLists_eq]
  exact congrArg _ (h.difference_eq .destination)

theorem Block.statements_eq_nil_iff {b : Block} (hverbatim : b.term.isVerbatim = false)
    (hicmp : b.term.icmpType = []) (policy : String) :
    b.statements policy = .ok [] ↔ (emptySide? b.family b.term.request).isSome = true := by
  obtain ⟨statements, hstatements, hnil, _⟩ := exists_statements hverbatim hicmp policy
  rw [hstatements, Except.ok.injEq, hnil, isSome_emptySide?]

end Ipsec

namespace Iptables

theorem Chain.lineList_eq_nil_iff {c : Chain} (parent : String) :
    c.lineList parent = [] ↔ c.plan.emptySide?.isSome = true := by
  unfold lineList
  split
  . next hplan => simp [hplan, Plan.emptySide?]
  . next hplan => simp [hplan, Plan.emptySide?]

end Iptables

/--
Both renderers name the same side, if any, as the first one without addresses. So a term that both
of them accept is written by both or by none.
-/
theorem empty_sides_agree (f : Family) :
    (∀ r : Request, Ipsec.emptySide? f r = (Plan.ofRequest f r).emptySide?)
      ∧ ∀ t : Term, t.isVerbatim = false → t.icmpType = [] →
          ∀ filter stateful shortening b,
            Iptables.Block.ofTerm filter f stateful shortening t = .ok b →
          ∀ filter' shortening' b', Ipsec.Block.ofTerm filter' f shortening' t = .ok b' →
          ∀ parent policy, b.lines parent = .ok [] ↔ b'.statements policy = .ok [] := by
  constructor
  . exact Ipsec.emptySide?_eq f
  . intro t hverbatim hicmp filter stateful shortening b hb filter' shortening' b' hb' parent policy
    obtain ⟨c, rfl, hc⟩ := Iptables.Block.exists_renders_of_ofTerm hverbatim hb
    have hb' := Ipsec.Block.renders_of_ofTerm hb'
    rw [Ipsec.Block.statements_eq_nil_iff, hb'.family_eq, hb'.term_eq, Ipsec.emptySide?_eq]
    . show c.lines parent = .ok [] ↔ _
      rw [c.lines_eq, Except.ok.injEq, Iptables.Chain.lineList_eq_nil_iff, Iptables.Chain.plan,
        hc.family_eq, hc.term_eq]
    . rw [hb'.term_eq]
      exact hverbatim
    . rw [hb'.term_eq]
      exact hicmp

def strangers : Term where
  name := "strangers"
  protocol := ["tcp"]
  sourceAddress := some [.ofNat .v6 (0x20010DB8 <<< 96) 32, .ofNat .v4 0x0A000000 8]
  sourceExclude := some [.ofNat .v4 0x0A800000 9, .ofNat .v4 0x0A000000 9]
  destinationAddress := some []
  action := .accept

theorem empty_sides_agree_strangers :
    (∃ b b', Iptables.Block.ofTerm "INPUT" .v4 true {} strangers = .ok b
        ∧ Ipsec.Block.ofTerm "edge" .v4 {} strangers = .ok b'
        ∧ b.lines "INPUT" = .ok [] ∧ b'.statements "edge" = .ok [])
      ∧ ∃ b b', Iptables.Block.ofTerm "INPUT" .v4 true {} Ipsec.Block.lookups = .ok b
          ∧ Ipsec.Block.ofTerm "edge" .v4 {} Ipsec.Block.lookups = .ok b'
          ∧ b.lines "INPUT" ≠ .ok [] ∧ b'.statements "edge" ≠ .ok [] := by
  have hagree := (empty_sides_agree .v4).2
  constructor
  . obtain ⟨b, hb, hlines⟩ :=
      exists_ok_of_any (x := Iptables.Block.ofTerm "INPUT" .v4 true {} strangers)
      (p := fun b => b.lineList "INPUT" == []) (by decide +kernel)
    obtain ⟨b', hb', _⟩ :=
      exists_ok_of_any (x := Ipsec.Block.ofTerm "edge" .v4 {} strangers) (p := fun _ => true)
      (by decide +kernel)
    rw [beq_iff_eq, ← Except.ok.injEq, ← b.lines_eq] at hlines
    exact ⟨b, b', hb, hb', hlines, (hagree _ rfl rfl _ _ _ b hb _ _ b' hb' _ _).mp hlines⟩
  . obtain ⟨b, hb, hlines⟩ :=
      exists_ok_of_any (x := Iptables.Block.ofTerm "INPUT" .v4 true {} Ipsec.Block.lookups)
      (p := fun b => b.lineList "INPUT" != []) (by decide +kernel)
    obtain ⟨b', hb', _⟩ :=
      exists_ok_of_any (x := Ipsec.Block.ofTerm "edge" .v4 {} Ipsec.Block.lookups)
      (p := fun _ => true) (by decide +kernel)
    rw [bne_iff_ne, ne_eq, ← Except.ok.injEq, ← b.lines_eq] at hlines
    exact ⟨b, b', hb, hb', hlines, mt (hagree _ rfl rfl _ _ _ b hb _ _ b' hb' _ _).mpr hlines⟩

/--
The term `u` is the term `t` with other lists for the same addresses of a family, and with its
options in another order.
-/
structure Term.Restates (f : Family) (t u : Term) : Prop where
  fields : u = { t with
    sourceAddress := u.sourceAddress
    sourceExclude := u.sourceExclude
    destinationAddress := u.destinationAddress
    destinationExclude := u.destinationExclude
    option := u.option }
  addresses : t.request.Equivalent f u.request
  options : t.option.Perm u.option

theorem Term.Restates.exists_eq {t u : Term} (h : t.Restates f u) :
    ∃ s se d de o, u = { t with
      sourceAddress := s, sourceExclude := se
      destinationAddress := d, destinationExclude := de, option := o } :=
  ⟨_, _, _, _, _, h.fields⟩

theorem Term.Restates.isVerbatim_eq {t u : Term} (h : t.Restates f u) :
    u.isVerbatim = t.isVerbatim := by
  rw [h.fields]
  rfl

namespace Iptables

theorem TcpFlag.eq_of_word_le {a b : TcpFlag} (hab : a.word ≤ b.word) (hba : b.word ≤ a.word) :
    a = b := by
  have hword : a.word = b.word := String.le_antisymm hab hba
  revert hword
  cases a <;> cases b <;> decide

theorem Matching.flagsOf_eq_of_perm {t u : Term} (h : t.option.Perm u.option) :
    flagsOf t = flagsOf u := by
  have hsorted (flags : List TcpFlag) :
      (flags.mergeSort fun a b => a.word ≤ b.word).Pairwise fun a b => a.word ≤ b.word := by
    have hpairwise := @List.pairwise_mergeSort _ (fun a b : TcpFlag => a.word ≤ b.word)
      (fun a b c hab hbc => by
        simpa using String.le_trans (by simpa using hab) (by simpa using hbc))
      (fun a b => by simpa using String.le_total a.word b.word) flags
    simpa using hpairwise
  unfold flagsOf
  apply List.Perm.eq_of_pairwise _ (hsorted _) (hsorted _)
  . apply (List.mergeSort_perm _ _).trans
    apply (h.filterMap _).trans
    apply (List.mergeSort_perm _ _).symm
  . intro a b _ _
    exact TcpFlag.eq_of_word_le

theorem Matching.Accepts.eq_of_restates (hm : Accepts f tracked t m) (hn : Accepts f tracked u n)
    (h : t.Restates f u) : m = n := by
  have hoptions := h.options
  obtain ⟨s, se, d, de, o, rfl⟩ := h.exists_eq
  have hjump : m.jump = n.jump := Option.some.inj (hm.jump.symm.trans hn.jump)
  have hflags : m.flags = n.flags := by
    rw [hm.flags, hn.flags]
    exact flagsOf_eq_of_perm hoptions
  have hestablished : m.established = n.established := by
    rw [hm.established, hn.established]
    unfold isEstablished Term.hasOption
    rw [hoptions.contains_eq, hoptions.contains_eq]
  have hlength : m.length = n.length := Except.ok.inj (hm.length.symm.trans hn.length)
  have hoffset : m.fragmentOffset = n.fragmentOffset :=
    Except.ok.inj (hm.fragmentOffset.symm.trans hn.fragmentOffset)
  cases m
  cases n
  rw [Matching.mk.injEq]
  exact ⟨hjump, hflags, hestablished, hlength, hoffset⟩

namespace Chain

variable {c : Chain}

theorem shapes_with_term (h : c.term.Restates c.family u) :
    { c with term := u }.shapeList = c.shapeList := by
  have hoption (word : String) : u.hasOption word = c.term.hasOption word :=
    h.options.symm.contains_eq
  obtain ⟨s, se, d, de, o, rfl⟩ := h.exists_eq
  unfold shapeList protocolShapes flagVariants optionClauses
  simp only [hoption]
  rfl

theorem lineList_with_term (h : c.term.Restates c.family u) (parent : String) :
    { c with term := u }.lineList parent = c.lineList parent := by
  have hplan : { c with term := u }.plan = c.plan :=
    (Plan.ofRequest_eq_of_equivalent h.addresses).symm
  have hshapes := shapes_with_term h
  obtain ⟨s, se, d, de, o, rfl⟩ := h.exists_eq
  unfold lineList ruleList
  rw [hplan, hshapes]
  rfl

theorem Renders.eq_of_restates (hc : c.Renders filter f tracked shortening t)
    (hc' : c'.Renders filter f tracked shortening u) (h : t.Restates f u) :
    c' = { c with term := u } := by
  have hmatching : c.matching = c'.matching := hc.accepts.eq_of_restates hc'.accepts h
  obtain ⟨s, se, d, de, o, rfl⟩ := h.exists_eq
  have hcodes : c.codes = c'.codes := Except.ok.inj (hc.codes.symm.trans hc'.codes)
  have hname : c.tagged.name = c'.tagged.name := Except.ok.inj (hc.name.symm.trans hc'.name)
  have htagged : c.tagged = c'.tagged := by
    rw [hc.tagged, hc'.tagged, hname]
  cases c'
  rw [Chain.mk.injEq]
  exact ⟨hc'.term_eq, hc'.family_eq.trans hc.family_eq.symm,
    hc'.stateful_eq.trans hc.stateful_eq.symm, hmatching.symm, hcodes.symm, htagged.symm⟩

end Chain

theorem Block.lines_eq_of_restates {t u : Term} (h : t.Restates f u)
    (hverbatim : t.isVerbatim = false) (hb : ofTerm filter f tracked shortening t = .ok b)
    (hb' : ofTerm filter f tracked shortening u = .ok b') (parent : String) :
    b.lines parent = b'.lines parent := by
  obtain ⟨c, rfl, hc⟩ := exists_renders_of_ofTerm hverbatim hb
  obtain ⟨c', rfl, hc'⟩ := exists_renders_of_ofTerm (h.isVerbatim_eq.trans hverbatim) hb'
  rw [hc.eq_of_restates hc' h]
  obtain rfl := hc.term_eq
  obtain rfl := hc.family_eq
  rw [lines_eq, lines_eq]
  exact congrArg Except.ok (Chain.lineList_with_term h parent).symm

end Iptables

namespace Ipsec
namespace Block

variable {b : Block}

theorem statements_with_term (h : b.term.Restates b.family u) (policy : String) :
    { b with term := u }.statements policy = b.statements policy := by
  have hsource := source_eq_of_equivalent h.addresses
  have hdestination := destination_eq_of_equivalent h.addresses
  obtain ⟨s, se, d, de, o, rfl⟩ := h.exists_eq
  unfold statements filters emptySide?
  dsimp only
  rw [hsource, hdestination]
  rfl

theorem Renders.eq_of_restates (hb : b.Renders filter f shortening t)
    (hb' : b'.Renders filter f shortening u) (hverbatim : t.isVerbatim = false)
    (h : t.Restates f u) :
    b' = { b with term := u } := by
  have haccepts := accepts_of_check hverbatim hb.check
  have haccepts' := accepts_of_check (h.isVerbatim_eq.trans hverbatim) hb'.check
  obtain ⟨s, se, d, de, o, rfl⟩ := h.exists_eq
  have haction : b.action = b'.action :=
    Option.some.inj (haccepts.action.symm.trans haccepts'.action)
  have hname : b.tagged.name = b'.tagged.name := Except.ok.inj (hb.name.symm.trans hb'.name)
  have htagged : b.tagged = b'.tagged := by
    rw [hb.tagged, hb'.tagged, hname]
  cases b'
  rw [Block.mk.injEq]
  exact ⟨hb'.term_eq, hb'.family_eq.trans hb.family_eq.symm, haction.symm, htagged.symm⟩

theorem statements_eq_of_restates {t u : Term} (h : t.Restates f u)
    (hverbatim : t.isVerbatim = false) (hb : ofTerm filter f shortening t = .ok b)
    (hb' : ofTerm filter f shortening u = .ok b') (policy : String) :
    b.statements policy = b'.statements policy := by
  have hb := renders_of_ofTerm hb
  rw [hb.eq_of_restates (renders_of_ofTerm hb') hverbatim h]
  obtain rfl := hb.term_eq
  obtain rfl := hb.family_eq
  exact (statements_with_term h policy).symm

end Block
end Ipsec

/--
What is written for a term depends on its addresses and not on the prefixes that they are given by,
nor on the order of its options.
-/
theorem Term.Restates.rendered_alike {t u : Term} (h : t.Restates f u)
    (hverbatim : t.isVerbatim = false) :
    (∀ filter stateful shortening b b',
      Iptables.Block.ofTerm filter f stateful shortening t = .ok b →
        Iptables.Block.ofTerm filter f stateful shortening u = .ok b' →
          ∀ parent, b.lines parent = b'.lines parent)
      ∧ ∀ filter shortening b b', Ipsec.Block.ofTerm filter f shortening t = .ok b →
          Ipsec.Block.ofTerm filter f shortening u = .ok b' →
            ∀ policy, b.statements policy = b'.statements policy := by
  constructor
  . intro filter stateful shortening b b' hb hb' parent
    exact Iptables.Block.lines_eq_of_restates h hverbatim hb hb' parent
  . intro filter shortening b b' hb hb' policy
    exact Ipsec.Block.statements_eq_of_restates h hverbatim hb hb' policy

def uplink (option : List String) : Term where
  name := "uplink"
  protocol := ["tcp"]
  sourceAddress := some [.ofNat .v4 0x0A000000 8]
  sourceExclude := some [.ofNat .v4 0x0A010000 16]
  option := option
  action := .accept

def uplinkInParts (option : List String) : Term where
  name := "uplink"
  protocol := ["tcp"]
  sourceAddress := some [.ofNat .v4 0x0A800000 9, .ofNat .v6 (0x20010DB8 <<< 96) 32,
    .ofNat .v4 0x0A000000 9, .ofNat .v4 0x0A050000 16]
  sourceExclude := some [.ofNat .v4 0x0A018000 17, .ofNat .v4 0x0A010000 17]
  destinationAddress := some [Prefix.all .v4]
  destinationExclude := some [.ofNat .v6 0 128]
  option := option
  action := .accept

theorem restates_uplink (h : option.Perm option') :
    (uplink option).Restates .v4 (uplinkInParts option') where
  fields := rfl
  addresses := by
    show (uplink []).request.Equivalent .v4 (uplinkInParts []).request
    decide +kernel
  options := h

theorem uplink_rendered_alike :
    (∃ b b', Iptables.Block.ofTerm "INPUT" .v4 true {} (uplink ["syn", "ack"]) = .ok b
        ∧ Iptables.Block.ofTerm "INPUT" .v4 true {} (uplinkInParts ["ack", "syn"]) = .ok b'
        ∧ b.lines "INPUT" ≠ .ok [] ∧ b.lines "INPUT" = b'.lines "INPUT")
      ∧ ∃ b b', Ipsec.Block.ofTerm "edge" .v4 {} (uplink []) = .ok b
          ∧ Ipsec.Block.ofTerm "edge" .v4 {} (uplinkInParts []) = .ok b'
          ∧ b.statements "edge" = b'.statements "edge" := by
  constructor
  . obtain ⟨b, hb, hlines⟩ := exists_ok_of_any
      (x := Iptables.Block.ofTerm "INPUT" .v4 true {} (uplink ["syn", "ack"]))
      (p := fun b => b.lineList "INPUT" != []) (by decide +kernel)
    obtain ⟨b', hb', _⟩ := exists_ok_of_any
      (x := Iptables.Block.ofTerm "INPUT" .v4 true {} (uplinkInParts ["ack", "syn"]))
      (p := fun _ => true)
      (by decide +kernel)
    have hrestates : (uplink ["syn", "ack"]).Restates .v4 (uplinkInParts ["ack", "syn"]) :=
      restates_uplink (by decide)
    rw [bne_iff_ne, ne_eq, ← Except.ok.injEq, ← b.lines_eq] at hlines
    exact ⟨b, b', hb, hb', hlines, (hrestates.rendered_alike rfl).1 _ _ _ _ _ hb hb' _⟩
  . obtain ⟨b, hb, _⟩ :=
      exists_ok_of_any (x := Ipsec.Block.ofTerm "edge" .v4 {} (uplink [])) (p := fun _ => true)
      (by decide +kernel)
    obtain ⟨b', hb', _⟩ :=
      exists_ok_of_any (x := Ipsec.Block.ofTerm "edge" .v4 {} (uplinkInParts []))
      (p := fun _ => true) (by decide +kernel)
    exact ⟨b, b', hb, hb', ((restates_uplink .rfl).rendered_alike rfl).2 _ _ _ _ hb hb' _⟩

end PacketPolicy

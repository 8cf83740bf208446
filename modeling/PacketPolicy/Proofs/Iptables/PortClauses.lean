import PacketPolicy.Proofs.Iptables.Legible
import PacketPolicy.Proofs.Port.Text

namespace PacketPolicy

open Text (Plain Tight)

namespace PortRange

theorem groups_of_length_le (hne : rs ≠ []) (h : rs.length ≤ size) : groups size rs = [rs] := by
  have hsize : 0 < size := by
    have := List.length_pos_iff.mpr hne
    omega
  unfold groups
  rw [dif_pos ⟨hsize, hne⟩, List.take_of_length_le h, List.drop_of_length_le h]
  unfold groups
  rw [dif_neg (by simp)]

theorem length_groups (hsize : 0 < size) (rs : List α) :
    (groups size rs).length = (rs.length + size - 1) / size := by
  fun_induction groups size rs with
  | case1 rs hrs ih =>
    have hpos := List.length_pos_iff.mpr hrs.2
    have hround : (rs.length + size - 1) / size = (rs.length - 1) / size + 1 := by
      rw [← Nat.add_div_right _ hsize]
      congr 1
      omega
    rw [List.length_cons, ih, List.length_drop, hround]
    congr 1
    by_cases hshort : rs.length ≤ size
    . rw [Nat.div_eq_of_lt (by omega), Nat.div_eq_of_lt (by omega)]
    . congr 1
      omega
  | case2 rs hrs =>
    have hnil : rs = [] := by simpa [hsize] using hrs
    rw [hnil, List.length_nil, List.length_nil, Nat.div_eq_of_lt (by omega)]

theorem length_of_mem_dropLast_groups (h : group ∈ (groups size rs).dropLast) :
    group.length = size := by
  fun_induction groups size rs with
  | case1 rs hrs ih =>
    by_cases hrest : groups size (rs.drop size) = []
    . simp [hrest] at h
    . rw [List.dropLast_cons_of_ne_nil hrest, List.mem_cons] at h
      cases h with
      | inl hfirst =>
        rw [hfirst, List.length_take, Nat.min_eq_left]
        -- The rest has no groups if nothing is left of the list.
        apply Nat.le_of_not_lt
        intro hshort
        apply hrest
        unfold groups
        rw [dif_neg (by simp; omega)]
      | inr h => exact ih h
  | case2 rs hrs => simp at h

/--
The written lists `lists` hold the ranges `rs`, in as few lists as there can be, all of them full
but the last one.
-/
structure Divided (rs : List PortRange) (lists : List String) : Prop where
  length : lists.length = (rs.length + 13) / 14
  bounded : ∀ list ∈ lists, 1 ≤ (entries list).length ∧ (entries list).length ≤ 14
  full : ∀ list ∈ lists.dropLast, (entries list).length = 14
  readBack : (lists.flatMap entries).mapM readEntry = some rs

theorem length_entries (hne : rs ≠ []) : (entries (joinText ":" rs)).length = rs.length := by
  rw [entries_joinText hne, List.length_map]

theorem divided_groups (rs : List PortRange) :
    Divided rs ((groups maxEntries rs).map (joinText ":")) := by
  have hsize : 0 < maxEntries := by decide
  have hne : ∀ group ∈ groups maxEntries rs, group ≠ [] :=
    fun group hgroup => ((mem_groups hsize).mp hgroup).1
  constructor
  . rw [List.length_map]
    exact length_groups hsize rs
  . rw [List.forall_mem_map]
    intro group hgroup
    obtain ⟨_, k, hk⟩ := (mem_groups hsize).mp hgroup
    rw [length_entries (hne group hgroup)]
    refine ⟨List.length_pos_iff.mpr (hne group hgroup), ?_⟩
    rw [hk]
    apply length_window_le
  . rw [← List.map_dropLast, List.forall_mem_map]
    intro group hgroup
    rw [length_entries (hne group (List.mem_of_mem_dropLast hgroup))]
    exact length_of_mem_dropLast_groups hgroup
  . have hentries : ((groups maxEntries rs).map (joinText ":")).flatMap entries
        = rs.map fun r => (r.textWith ":").toList := by
      rw [List.flatMap_map, List.flatMap_congr fun group hgroup => entries_joinText
        (hne group hgroup), ← List.map_flatMap, List.flatMap_id', flatten_groups hsize]
    rw [hentries]
    exact mapM_readEntry rs

end PortRange

namespace Iptables

variable {f : Family} {packet : Packet f}

def Clause.listText (clauses : List Clause) : String :=
  String.intercalate " " ((clauses.flatMap Clause.words).map Word.text)

def portOption (several : Bool) : Side → String
  | .source => if several then "-m multiport --sports" else "--sport"
  | .destination => if several then "-m multiport --dports" else "--dport"

def WritesPorts (side : Side) (rs : List PortRange) (texts : List String) : Prop :=
  ∃ lists, texts = lists.map (fun list => portOption (1 < rs.length) side ++ " " ++ list)
    ∧ PortRange.Divided rs lists

theorem Clause.text_port (side : Side) (r : PortRange) :
    (Clause.port side r).text = portOption false side ++ " " ++ r.textWith ":" := by
  cases side <;> simp [text, words, Word.text, portOption, String.intercalate_cons_of_ne_nil]

theorem Clause.text_ports (side : Side) (rs : List PortRange) :
    (Clause.ports side rs).text = portOption true side ++ " " ++ PortRange.joinText ":" rs := by
  rw [← String.toList_inj]
  cases side <;> simp [text, words, Word.text, portOption]

theorem Chain.writesPorts_sidePorts (hne : rs ≠ []) :
    WritesPorts side rs ((sidePorts side rs).map Clause.text) := by
  refine ⟨(PortRange.groups PortRange.maxEntries rs).map (PortRange.joinText ":"), ?_,
    PortRange.divided_groups rs⟩
  unfold sidePorts
  split
  . next r =>
    -- The only range is the whole of the only group.
    rw [PortRange.groups_of_length_le hne (by simp [PortRange.maxEntries])]
    simp [Clause.text_port, PortRange.joinText]
  . next hmany =>
    have hseveral : 1 < rs.length := by
      have hpos := List.length_pos_iff.mpr hne
      have hone : rs.length ≠ 1 := by
        rw [ne_eq, List.length_eq_one_iff]
        rintro ⟨r, rfl⟩
        exact hmany r rfl
      omega
    simp [Clause.text_ports, hseveral]

def sideOf? (source destination option : String) : Option Side :=
  if option = source then some .source
  else if option = destination then some .destination
  else none

def readPortTests : List String → Option (List (Side × List PortRange))
  | [] => some []
  -- Several ranges take a module, which is named before the option.
  | "-m" :: "multiport" :: option :: list :: words => do
    let side ← sideOf? "--sports" "--dports" option
    let ranges ← PortRange.readList list
    (readPortTests words).map ((side, ranges) :: ·)
  | option :: range :: words => do
    let side ← sideOf? "--sport" "--dport" option
    let range ← PortRange.readEntry range.toList
    (readPortTests words).map ((side, [range]) :: ·)
  | _ => none

def Packet.Fits (packet : Packet f) (text : String) : Prop :=
  ∃ tests, readPortTests (Text.words text) = some tests
    ∧ ∀ test ∈ tests, packet.HasPort test.1 test.2

namespace Clause

inductive OnPorts : Clause → Side → List PortRange → Prop where
  | port (side : Side) (r : PortRange) : OnPorts (.port side r) side [r]
  | ports (side : Side) (hne : rs ≠ []) : OnPorts (.ports side rs) side rs

def PortsOnly (clauses : List Clause) : Prop :=
  ∀ clause ∈ clauses, ∃ side rs, clause.OnPorts side rs

theorem OnPorts.plain {clause : Clause} (h : clause.OnPorts side rs) :
    ∀ s ∈ clause.words.map Word.text, Plain s := by
  cases h with
  | port _ r =>
    have hvalue : Plain (r.textWith ":") := PortRange.plain_textWith (by decide) r
    cases side <;> simp only [words, Word.text, List.map_cons, List.map_nil, List.forall_mem_cons]
    . exact ⟨by decide, hvalue, by simp⟩
    . exact ⟨by decide, hvalue, by simp⟩
  | ports _ hne =>
    have hvalue : Plain (PortRange.joinText ":" rs) := PortRange.plain_joinText (by decide) hne
    cases side <;> simp only [words, Word.text, List.map_cons, List.map_nil, List.forall_mem_cons]
    . exact ⟨by decide, by decide, by decide, hvalue, by simp⟩
    . exact ⟨by decide, by decide, by decide, hvalue, by simp⟩

theorem OnPorts.readPortTests_append {clause : Clause} (h : clause.OnPorts side rs)
    (rest : List String) :
    readPortTests (clause.words.map Word.text ++ rest)
      = (readPortTests rest).map ((side, rs) :: ·) := by
  cases h with
  | port _ r =>
    have hread := PortRange.readEntry_textWith r
    cases side <;> simp [words, Word.text, readPortTests, sideOf?, hread]
  | ports _ hne =>
    have hread := PortRange.readList_joinText hne
    cases side <;> simp [words, Word.text, readPortTests, sideOf?, hread]

theorem OnPorts.accepts_iff {clause : Clause} (h : clause.OnPorts side rs) :
    clause.accepts packet = true ↔ packet.HasPort side rs := by
  cases h with
  | port => simp [accepts, Packet.HasPort, Option.any_eq_true]
  | ports => exact Chain.accepts_ports

variable {clauses : List Clause}

theorem plain_words (h : PortsOnly clauses) :
    ∀ s ∈ (clauses.flatMap words).map Word.text, Plain s := by
  rw [List.forall_mem_map]
  intro word hword
  obtain ⟨clause, hclause, hword⟩ := List.mem_flatMap.mp hword
  obtain ⟨side, rs, hports⟩ := h clause hclause
  exact hports.plain _ (List.mem_map_of_mem hword)

theorem exists_readPortTests (h : PortsOnly clauses) :
    ∃ tests, readPortTests ((clauses.flatMap words).map Word.text) = some tests
      ∧ ∀ f (packet : Packet f), (∀ test ∈ tests, packet.HasPort test.1 test.2) ↔
        Passes packet clauses := by
  induction clauses with
  | nil => exact ⟨[], by simp [readPortTests], by simp⟩
  | cons clause clauses ih =>
    obtain ⟨⟨side, rs, hports⟩, h⟩ := List.forall_mem_cons.mp h
    obtain ⟨tests, hread, hpasses⟩ := ih h
    refine ⟨(side, rs) :: tests, ?_, fun f packet => ?_⟩
    . rw [List.flatMap_cons, List.map_append, hports.readPortTests_append, hread]
      rfl
    . rw [List.forall_mem_cons, passes_cons, hports.accepts_iff, hpasses]

theorem fits_listText (h : PortsOnly clauses) :
    packet.Fits (listText clauses) ↔ Passes packet clauses := by
  obtain ⟨tests, hread, hpasses⟩ := exists_readPortTests h
  unfold Packet.Fits listText
  rw [Text.words_intercalate_of_plain (plain_words h), hread, ← hpasses]
  simp

def spaced (s t : String) : String :=
  if s = "" then t else if t = "" then s else s ++ " " ++ t

theorem listText_append (hcs : PortsOnly cs) (hds : PortsOnly ds) :
    listText (cs ++ ds) = spaced (listText cs) (listText ds) := by
  have hne : ∀ {clauses : List Clause}, PortsOnly clauses →
      (clauses.flatMap words).map Word.text ≠ [] → listText clauses ≠ "" := by
    intro clauses hclauses hwords
    exact Text.intercalate_space_ne_empty hwords (plain_words hclauses)
  unfold spaced
  by_cases hleft : (cs.flatMap words).map Word.text = []
  . have hempty : listText cs = "" := by simp [listText, hleft]
    rw [if_pos hempty]
    simp [listText, hleft]
  . rw [if_neg (hne hcs hleft)]
    by_cases hright : (ds.flatMap words).map Word.text = []
    . have hempty : listText ds = "" := by simp [listText, hright]
      rw [if_pos hempty]
      simp [listText, hright]
    . rw [if_neg (hne hds hright)]
      unfold listText
      rw [List.flatMap_append, List.map_append, String.intercalate_append_of_ne_nil hleft hright]

end Clause

open Clause (listText spaced PortsOnly)

/--
The ports that a term asks for at one side. Replies go to high ports unless the term says otherwise.
-/
def askedPorts (t : Term) : Side → List PortRange
  | .source => t.sourcePort
  | .destination =>
    if t.destinationPort = []
      ∧ (t.hasOption "established" = true ∨ t.hasOption "tcp-established" = true)
        ∧ ∀ p ∈ t.protocol, p = "tcp" ∨ p = "udp" then
      [.ofNat 1024 65535]
    else t.destinationPort

/--
The texts pair the clauses for the ports at the source of a term with those at its destination, and
packets with the ports of the term fit one of them, but no others do.
-/
structure PairsPorts (t : Term) (texts : List String) : Prop where
  pairs : ∃ sources destinations,
    Chain.optionalPorts (askedPorts t .source) true false = .ok sources
    ∧ Chain.optionalPorts (askedPorts t .destination) false true = .ok destinations
    ∧ texts = (sources.map listText).flatMap fun s => (destinations.map listText).map fun d =>
        if 1 < (askedPorts t .source).length ∧ (askedPorts t .destination).length = 1 then
          spaced d s
        else spaced s d
  tight : ∀ text ∈ texts, Tight text
  exact : ∀ f (packet : Packet f), (∃ text ∈ texts, packet.Fits text) ↔
    ∀ side, askedPorts t side ≠ [] → packet.HasPort side (askedPorts t side)

namespace Chain

variable {c : Chain}

theorem portsAt_eq (h : c.Renders filter f tracked shortening t) (side : Side) :
    c.portsAt side = askedPorts t side := by
  cases side with
  | source =>
    unfold portsAt askedPorts
    rw [h.term_eq]
  | destination =>
    unfold portsAt askedPorts destinationPorts
    rw [h.accepts.established, h.term_eq, Matching.isEstablished]
    simp only [Bool.and_eq_true, Bool.or_eq_true, List.isEmpty_iff, onlyTcpUdp_eq_true, highPorts]
    congr 1
    grind

theorem exists_onPorts_of_mem_sidePorts (h : clause ∈ sidePorts side rs) :
    ∃ side rs, clause.OnPorts side rs := by
  unfold sidePorts at h
  split at h
  . next r =>
    rw [List.mem_singleton.mp h]
    exact ⟨side, [r], .port side r⟩
  . obtain ⟨group, hgroup, rfl⟩ := List.mem_map.mp h
    exact ⟨side, group, .ports side ((PortRange.mem_groups (by decide)).mp hgroup).1⟩

theorem portsOnly_of_mem_portClauseLists (h : clauses ∈ c.portClauseLists protocol) :
    PortsOnly clauses := by
  intro clause hclause
  obtain ⟨side, hmem⟩ := exists_mem_sidePorts_of_mem_portClauseLists h hclause
  exact exists_onPorts_of_mem_sidePorts hmem

theorem map_listText_portClauseLists (hprotocol : protocol = "tcp" ∨ protocol = "udp") :
    (c.portClauseLists protocol).map listText =
      ((portLists .source (c.portsAt .source)).map listText).flatMap fun s =>
        ((portLists .destination (c.portsAt .destination)).map listText).map fun d =>
          if 1 < (c.portsAt .source).length ∧ (c.portsAt .destination).length = 1 then spaced d s
          else spaced s d := by
  have honly : ∀ side, ∀ clauses ∈ portLists side (c.portsAt side), PortsOnly clauses := by
    intro side clauses hclauses clause hclause
    exact exists_onPorts_of_mem_sidePorts (mem_sidePorts_of_mem_portLists hclauses hclause)
  unfold portClauseLists
  rw [if_pos (by simpa using hprotocol), List.map_flatMap, List.flatMap_map]
  apply List.flatMap_congr
  intro s hs
  rw [List.map_map, List.map_map]
  apply List.map_congr_left
  intro d hd
  have hsources := honly .source s hs
  have hdestinations := honly .destination d hd
  rw [Function.comp_apply, Function.comp_apply]
  by_cases hswap : 1 < (c.portsAt .source).length ∧ (c.portsAt .destination).length = 1
  . rw [if_pos (by simpa [portsAt] using hswap), if_pos hswap]
    exact Clause.listText_append hdestinations hsources
  . rw [if_neg (by simpa [portsAt] using hswap), if_neg hswap]
    exact Clause.listText_append hsources hdestinations

theorem pairsPorts_portClauseLists (h : c.Renders filter f tracked shortening t)
    (hprotocol : protocol = "tcp" ∨ protocol = "udp") :
    PairsPorts t ((c.portClauseLists protocol).map listText) := by
  have honly : ∀ clauses ∈ c.portClauseLists protocol, PortsOnly clauses :=
    fun clauses hclauses => portsOnly_of_mem_portClauseLists hclauses
  constructor
  . simp only [← portsAt_eq h]
    exact ⟨_, _, optionalPorts_eq .source _, optionalPorts_eq .destination _,
      map_listText_portClauseLists hprotocol⟩
  . rw [List.forall_mem_map]
    intro clauses hclauses
    exact Text.tight_intercalate (Clause.plain_words (honly clauses hclauses))
  . intro f packet
    have hfits : (∃ clauses ∈ c.portClauseLists protocol, packet.Fits (listText clauses)) ↔
        ∃ clauses ∈ c.portClauseLists protocol, Passes packet clauses :=
      exists_congr fun clauses => and_congr_right fun hclauses =>
        Clause.fits_listText (honly clauses hclauses)
    rw [exists_mem_map, hfits, exists_portClauseLists]
    simp only [hprotocol, forall_const, ← portsAt_eq h]
    constructor
    . rintro ⟨hsource, hdestination⟩ side
      cases side with
      | source => exact hsource
      | destination => exact hdestination
    . intro hports
      exact ⟨hports .source, hports .destination⟩

end Chain

/--
Port clauses lose nothing. The clauses for the ports of one side are read back as the ranges that
they were written for. Those of a term for TCP or UDP pair every clause at the source with every
clause at the destination, and of all the packets those with the ports that the term asks for fit
one of the pairs.
-/
theorem portClauses_lossless :
    (∀ side rs, rs ≠ [] →
      ∃ clauses, portStatement rs (side == .source) (side == .destination) = .ok clauses
        ∧ WritesPorts side rs (clauses.map Clause.text))
    ∧ ∀ filter f stateful shortening t b protocol, t.isVerbatim = false →
        Block.ofTerm filter f stateful shortening t = .ok b → protocol = "tcp" ∨ protocol = "udp" →
          ∃ c pairs, b = .chain c ∧ c.portClauses protocol = .ok pairs
            ∧ PairsPorts t (pairs.map listText) := by
  constructor
  . intro side rs hne
    exact ⟨_, portStatement_eq side rs, Chain.writesPorts_sidePorts hne⟩
  . intro filter f stateful shortening t b protocol hverbatim hb hprotocol
    obtain ⟨c, rfl, hc⟩ := Block.exists_renders_of_ofTerm hverbatim hb
    exact ⟨c, _, rfl, c.portClauses_eq protocol, Chain.pairsPorts_portClauseLists hc hprotocol⟩

def oddPortList : List PortRange :=
  (List.range 15).map fun n => .ofNat (2 * n + 1) (2 * n + 1)

theorem portClauses_lossless_proxyReplies :
    oddPortList ≠ []
      ∧ (∃ clauses, portStatement oddPortList true false = .ok clauses ∧ clauses.length = 2
          ∧ WritesPorts .source oddPortList (clauses.map Clause.text))
      ∧ Block.ofTerm "edge" .v4 false {} proxyReplies = .ok (.chain proxyChain)
      ∧ ∃ pairs, proxyChain.portClauses "tcp" = .ok pairs
        ∧ PairsPorts proxyReplies (pairs.map listText)
          ∧ pairs.map listText = ["--dport 1024:65535 -m multiport --sports 80,443"] := by
  have hne : oddPortList ≠ [] := by decide
  obtain ⟨clauses, hclauses, hwrites⟩ := portClauses_lossless.1 .source oddPortList hne
  obtain ⟨c, pairs, hc, hpairs, hlossless⟩ :=
    portClauses_lossless.2 "edge" .v4 false {} proxyReplies _ "tcp" rfl ofTerm_proxyReplies
    (.inl rfl)
  cases hc
  have hlength : clauses.length = 2 := by
    obtain ⟨lists, htexts, hlists⟩ := hwrites
    rw [← List.length_map Clause.text, htexts, List.length_map, hlists.length]
    rfl
  have htexts : pairs.map listText = ["--dport 1024:65535 -m multiport --sports 80,443"] := by
    obtain rfl := Except.ok.inj ((proxyChain.portClauses_eq "tcp").symm.trans hpairs)
    decide +kernel
  exact ⟨hne, ⟨clauses, hclauses, hlength, hwrites⟩, ofTerm_proxyReplies, pairs, hpairs,
    hlossless, htexts⟩

end Iptables
end PacketPolicy

import PacketPolicy.Proofs.Script.Reading

namespace PacketPolicy
namespace Script

theorem lines_go_append_lines (h : cs.getLast? = some '\n') (line ds : List Char) :
    lines.go line (cs ++ ds) = lines.go line cs ++ lines ds := by
  induction cs generalizing line with
  | nil => cases h
  | cons c cs ih =>
    rw [List.cons_append, lines.go, lines.go]
    cases cs with
    | nil =>
      obtain rfl : c = '\n' := Option.some.inj h
      rfl
    | cons c' cs =>
      rw [List.getLast?_cons_cons] at h
      split
      . rw [ih h, List.cons_append]
      . rw [ih h]

theorem lines_append (h : cs = [] ∨ cs.getLast? = some '\n') (ds : List Char) :
    lines (cs ++ ds) = lines cs ++ lines ds := by
  obtain rfl | h := h
  . rfl
  . exact lines_go_append_lines h [] ds

def Content.family? : Content → Option Family
  | .comment f => f
  | _ => none

def banner? (line : List Char) : Option Family :=
  (contentOf line).family?

def familyAfter (family : Family) (ls : List (List Char)) : Family :=
  (ls.filterMap banner?).getLastD family

def leading (ls : List (List Char)) : Nat :=
  ls.findIdx fun line => (banner? line).isSome

theorem familyAfter_cons (family : Family) (line : List Char) (ls : List (List Char)) :
    familyAfter family (line :: ls) = familyAfter ((banner? line).getD family) ls := by
  unfold familyAfter
  cases hbanner : banner? line with
  | none => rw [List.filterMap_cons_none hbanner, Option.getD_none]
  | some f => rw [List.filterMap_cons_some hbanner, List.getLastD_cons, Option.getD_some]

theorem leading_cons (line : List Char) (ls : List (List Char)) :
    leading (line :: ls) = if (banner? line).isSome then 0 else leading ls + 1 := by
  simp [leading, List.findIdx_cons]

namespace ReadError

def shift (k : Nat) : ReadError → ReadError
  | .badWords line cause => .badWords (line + k) cause
  | .noChain line text => .noChain (line + k) text
  | .noTarget line => .noTarget (line + k)
  | .extraArguments line => .extraArguments (line + k)
  | .noRule line => .noRule (line + k)
  | .unknownCommand line word => .unknownCommand (line + k) word
  | .lineTooLong => .lineTooLong

theorem shift_zero (e : ReadError) : e.shift 0 = e := by
  cases e <;> rfl

theorem shift_eq_lineTooLong {e : ReadError} : e.shift k = .lineTooLong ↔ e = .lineTooLong := by
  cases e <;> simp [shift]

end ReadError

namespace Statement

def shift (k : Nat) (s : Statement) : Statement :=
  { s with line := s.line + k }

def inherit (family : Family) (first : Nat) (s : Statement) : Statement :=
  { s with family := if s.line < first then family else s.family }

end Statement

namespace Reading

theorem error_cons (s : Statement) (r : Reading) : (r.cons s).error = r.error := by
  unfold cons
  split <;> simp_all

theorem statements_cons (s : Statement) (r : Reading) :
    (r.cons s).statements = [] ∨ (r.cons s).statements = s :: r.statements := by
  unfold cons
  split <;> simp

def consResult (x : Except ReadError Statement) (r : Reading) : Reading :=
  match x with
  | .error e => ⟨[], some e⟩
  | .ok s => r.cons s

def prepend (ss : List Statement) (r : Reading) : Reading :=
  ss.foldr (fun s r => r.cons s) r

def andThen (r r' : Reading) : Reading :=
  if r.error = none then prepend r.statements r' else r

theorem cons_andThen (s : Statement) (r r' : Reading) :
    (r.cons s).andThen r' = (r.andThen r').cons s := by
  unfold andThen
  rw [error_cons]
  cases herror : r.error with
  | none => simp [cons, herror, prepend]
  | some e => simp

theorem consResult_andThen (x : Except ReadError Statement) (r r' : Reading) :
    (r.consResult x).andThen r' = (r.andThen r').consResult x := by
  cases x with
  | error e => rfl
  | ok s => exact cons_andThen s r r'

theorem prepend_ok (ss ts : List Statement) : prepend ss ⟨ts, none⟩ = ⟨ss ++ ts, none⟩ := by
  unfold prepend
  induction ss with
  | nil => rfl
  | cons s ss ih =>
    rw [List.foldr_cons, ih]
    rfl

theorem prepend_error (h : e ≠ .lineTooLong) (ss : List Statement) :
    prepend ss ⟨[], some e⟩ = ⟨[], some e⟩ := by
  unfold prepend
  induction ss with
  | nil => rfl
  | cons s ss ih =>
    rw [List.foldr_cons, ih]
    simp [cons]

def map (g : Statement → Statement) (failure : ReadError → ReadError) (r : Reading) : Reading :=
  ⟨r.statements.map g, r.error.map failure⟩

theorem map_cons {g : Statement → Statement} {failure : ReadError → ReadError}
    (h : ∀ e, failure e = .lineTooLong ↔ e = .lineTooLong) (s : Statement) (r : Reading) :
    (r.cons s).map g failure = (r.map g failure).cons (g s) := by
  obtain ⟨ss, error⟩ := r
  cases error with
  | none => rfl
  | some e =>
    by_cases hlong : e = .lineTooLong
    . subst hlong
      simp [map, cons, (h _).mpr]
    . have hlong' := mt (h e).mp hlong
      simp [map, cons]

theorem map_map (g g' : Statement → Statement) (failure failure' : ReadError → ReadError)
    (r : Reading) :
    (r.map g failure).map g' failure' = r.map (g' ∘ g) (failure' ∘ failure) := by
  simp [map]

theorem map_inherit_of_forall {r : Reading} (h : ∀ s ∈ r.statements, number ≤ s.line) :
    r.map (Statement.inherit family number) id = r := by
  have hstatements : r.statements.map (Statement.inherit family number) = r.statements := by
    rw [List.map_congr_left (g := id), List.map_id]
    intro s hs
    rw [Statement.inherit, if_neg (Nat.not_lt.mpr (h s hs))]
    rfl
  rw [map, hstatements, Option.map_id]
  rfl

end Reading

theorem readCommand_eq_ok (h : readCommand line family chain word arguments = .ok s) :
    s.line = line ∧ s.family = family := by
  unfold readCommand at h
  grind

theorem readStatement_eq_ok (h : readStatement line family text = .ok s) :
    s.line = line ∧ s.family = family := by
  unfold readStatement at h
  split at h
  . cases h
  . exact readCommand_eq_ok h
  . cases h

theorem readStatement_ne_lineTooLong (h : readStatement line family text = .error e) :
    e ≠ .lineTooLong := by
  unfold readStatement readCommand at h
  grind

def relocate (k : Nat) (family : Family) (x : Except ReadError Statement) :
    Except ReadError Statement :=
  (x.map fun s => { s with line := s.line + k, family }).mapError (ReadError.shift k)

theorem readCommand_add (line k : Nat) (family family' : Family) (chain word : String)
    (arguments : List String) :
    readCommand (line + k) family' chain word arguments
      = relocate k family' (readCommand line family chain word arguments) := by
  unfold readCommand
  split
  . rcases arguments with _ | ⟨target, _ | ⟨extra, rest⟩⟩ <;> rfl
  . split
    . cases arguments <;> rfl
    . split
      . cases arguments <;> rfl
      . rfl

theorem readStatement_add (line k : Nat) (family family' : Family) (text : List Char) :
    readStatement (line + k) family' text
      = relocate k family' (readStatement line family text) := by
  unfold readStatement
  split
  . rfl
  . apply readCommand_add
  . rfl

/--
What a line does to a reading: it ends it, it gives at most a family to what follows, or it gives a
statement.
-/
theorem readLines_cons_cases (line : List Char) :
    (lineLimit ≤ Text.byteSize line
        ∧ ∀ number family ls, readLines number family (line :: ls) = ⟨[], some .lineTooLong⟩)
      ∨ (∀ number family ls,
          readLines number family (line :: ls)
            = readLines (number + 1) ((banner? line).getD family) ls)
      ∨ banner? line = none ∧ ∃ text, ∀ number family ls,
          readLines number family (line :: ls)
            = (readLines (number + 1) family ls).consResult (readStatement number family text) := by
  by_cases hlong : lineLimit ≤ Text.byteSize line
  . exact .inl ⟨hlong, fun number family ls => by rw [readLines, if_pos hlong]⟩
  . cases hcontent : contentOf line with
    | blank =>
      have hbanner : banner? line = none := by rw [banner?, hcontent]; rfl
      exact .inr (.inl fun number family ls =>
        by rw [readLines, if_neg hlong, hcontent, hbanner]; rfl)
    | comment f =>
      have hbanner : banner? line = f := by rw [banner?, hcontent]; rfl
      exact .inr (.inl fun number family ls => by rw [readLines, if_neg hlong, hcontent, hbanner])
    | statement text =>
      have hbanner : banner? line = none := by rw [banner?, hcontent]; rfl
      refine .inr (.inr ⟨hbanner, text, fun number family ls => ?_⟩)
      rw [readLines, if_neg hlong, hcontent]
      rfl

theorem readLines_append (number : Nat) (family : Family) (ls rs : List (List Char)) :
    readLines number family (ls ++ rs)
      = (readLines number family ls).andThen
        (readLines (number + ls.length) (familyAfter family ls) rs) := by
  induction ls generalizing number family with
  | nil => rfl
  | cons line ls ih =>
    rw [List.cons_append, familyAfter_cons, List.length_cons, Nat.add_comm ls.length,
      ← Nat.add_assoc]
    obtain ⟨_, h⟩ | h | ⟨hbanner, text, h⟩ := readLines_cons_cases line
    . rw [h, h]
      rfl
    . rw [h, h, ih]
    . rw [h, h, hbanner, ih, Option.getD_none, Reading.consResult_andThen]

theorem readLines_add (number k : Nat) (family : Family) (ls : List (List Char)) :
    readLines (number + k) family ls
      = (readLines number family ls).map (Statement.shift k) (ReadError.shift k) := by
  induction ls generalizing number family with
  | nil => rfl
  | cons line ls ih =>
    obtain ⟨_, h⟩ | h | ⟨_, text, h⟩ := readLines_cons_cases line
    . rw [h, h]
      rfl
    . rw [h, h, Nat.add_right_comm number k 1, ih]
    . rw [h, h, Nat.add_right_comm number k 1, ih, readStatement_add number k family]
      cases hread : readStatement number family text with
      | error e => rfl
      | ok s =>
        show _ = ((readLines (number + 1) family ls).cons s).map _ _
        rw [Reading.map_cons fun _ => ReadError.shift_eq_lineTooLong,
          ← (readStatement_eq_ok hread).2]
        rfl

theorem increasing_readLines (number : Nat) (family : Family) (ls : List (List Char)) :
    (∀ s ∈ (readLines number family ls).statements, number ≤ s.line)
      ∧ (readLines number family ls).statements.Pairwise fun s t => s.line < t.line := by
  induction ls generalizing number family with
  | nil => exact ⟨by simp [readLines], .nil⟩
  | cons line ls ih =>
    obtain ⟨_, h⟩ | h | ⟨_, text, h⟩ := readLines_cons_cases line
    . rw [h]
      exact ⟨by simp, .nil⟩
    . obtain ⟨hle, hpairwise⟩ := ih (number + 1) ((banner? line).getD family)
      rw [h]
      exact ⟨fun s hs => Nat.le_of_succ_le (hle s hs), hpairwise⟩
    . obtain ⟨hle, hpairwise⟩ := ih (number + 1) family
      rw [h]
      cases hread : readStatement number family text with
      | error e => exact ⟨by simp [Reading.consResult], .nil⟩
      | ok s =>
        have hline := (readStatement_eq_ok hread).1
        obtain hnil | hcons := Reading.statements_cons s (readLines (number + 1) family ls)
        . simp only [Reading.consResult, hnil]
          exact ⟨by simp, .nil⟩
        . simp only [Reading.consResult, hcons, List.forall_mem_cons, List.pairwise_cons]
          refine ⟨⟨Nat.le_of_eq hline.symm, fun t ht => Nat.le_of_succ_le (hle t ht)⟩,
            fun t ht => ?_, hpairwise⟩
          rw [hline]
          exact hle t ht

theorem readLines_inherit (number : Nat) (family family' : Family) (ls : List (List Char)) :
    readLines number family' ls
      = (readLines number family ls).map (Statement.inherit family' (number + leading ls)) id := by
  induction ls generalizing number with
  | nil => rfl
  | cons line ls ih =>
    rw [leading_cons]
    obtain ⟨_, h⟩ | h | ⟨hbanner, text, h⟩ := readLines_cons_cases line
    . rw [h, h]
      rfl
    . rw [h, h]
      cases hbanner : banner? line with
      | none =>
        rw [Option.getD_none, Option.getD_none, ih (number + 1), Option.isSome_none,
          if_neg (by simp), Nat.add_comm (leading ls), Nat.add_assoc]
      | some f =>
        -- From here on no family comes from outside, and all statements stand below.
        rw [Option.getD_some, Option.getD_some, Option.isSome_some, if_pos rfl,
          Reading.map_inherit_of_forall]
        intro s hs
        exact Nat.le_of_succ_le ((increasing_readLines (number + 1) f ls).1 s hs)
    . rw [h, h, hbanner, Option.isSome_none, if_neg (by simp), Nat.add_comm (leading ls),
        ← Nat.add_assoc, ih, ← Nat.add_zero number, readStatement_add number 0 family, Nat.add_zero]
      cases hread : readStatement number family text with
      | error e =>
        show (⟨[], some (e.shift 0)⟩ : Reading) = ⟨[], some e⟩
        rw [ReadError.shift_zero]
      | ok s =>
        show _ = ((readLines (number + 1) family ls).cons s).map _ _
        have habove : s.line < number + 1 + leading ls := by
          rw [(readStatement_eq_ok hread).1]
          omega
        rw [@Reading.map_cons _ id fun _ => Iff.rfl, Statement.inherit, if_pos habove]
        rfl

theorem readLines_of_error (hshort : ∀ line ∈ ls, Text.byteSize line < lineLimit)
    (herror : (readLines number family ls).error = some e) :
    readLines number family ls = ⟨[], some e⟩ ∧ e ≠ .lineTooLong := by
  induction ls generalizing number family with
  | nil => cases herror
  | cons line ls ih =>
    rw [List.forall_mem_cons] at hshort
    obtain ⟨hlong, _⟩ | h | ⟨_, text, h⟩ := readLines_cons_cases line
    . omega
    . rw [h] at herror ⊢
      exact ih hshort.2 herror
    . rw [h] at herror ⊢
      cases hread : readStatement number family text with
      | error e' =>
        rw [hread] at herror
        cases herror
        exact ⟨rfl, readStatement_ne_lineTooLong hread⟩
      | ok s =>
        rw [hread, Reading.consResult, Reading.error_cons] at herror
        obtain ⟨hrest, hne⟩ := ih hshort.2 herror
        rw [hrest]
        exact ⟨Reading.prepend_error hne [s], hne⟩

/--
The statement as it is read in the second of two scripts: its line is counted from the start of the
first one, and above the first comment that names a family it has the last family that the first
script names.
-/
def Statement.continued (first second : String) (s : Statement) : Statement :=
  { s with
    line := s.line + (lines first.toList).length
    family := if s.line ≤ leading (lines second.toList) then familyAfter .v4 (lines first.toList)
      else s.family }

theorem read_append_eq (hend : first = "" ∨ first.toList.getLast? = some '\n') (second : String) :
    read (first ++ second)
      = (read first).andThen
          ((read second).map (Statement.continued first second)
            (ReadError.shift (lines first.toList).length)) := by
  have hend : first.toList = [] ∨ first.toList.getLast? = some '\n' :=
    hend.imp_left String.toList_eq_nil_iff.mpr
  have hcontinued : Statement.shift (lines first.toList).length
      ∘ Statement.inherit (familyAfter .v4 (lines first.toList)) (1 + leading (lines second.toList))
      = Statement.continued first second := by
    funext s
    simp [Statement.shift, Statement.inherit, Statement.continued, Nat.lt_one_add_iff]
  rw [read, String.toList_append, lines_append hend, readLines_append, readLines_add,
    readLines_inherit 1 .v4 (familyAfter .v4 (lines first.toList)), Reading.map_map, hcontinued,
    Function.comp_id]
  rfl

/--
A script that starts with another one is read as both of them, one after the other. The first one
tells the second one where it starts and the last family that it names. An error in the first one is
that of the whole, and one in the second one is found at its place in the whole. In any script, the
lines of the statements increase.
-/
theorem read_append (hend : first = "" ∨ first.toList.getLast? = some '\n')
    (hfirst : ∀ line ∈ lines first.toList, Text.byteSize line < lineLimit)
    (hsecond : ∀ line ∈ lines second.toList, Text.byteSize line < lineLimit) :
    ((read first).error = none → (read second).error = none →
        read (first ++ second)
          = ⟨(read first).statements ++ (read second).statements.map
            (Statement.continued first second), none⟩)
      ∧ (∀ e, (read first).error = some e → read (first ++ second) = ⟨[], some e⟩)
      ∧ (∀ e, (read first).error = none → (read second).error = some e →
          read (first ++ second) = ⟨[], some (e.shift (lines first.toList).length)⟩)
      ∧ ∀ script, (read script).statements.Pairwise fun s t => s.line < t.line := by
  rw [read_append_eq hend]
  refine ⟨fun h h' => ?_, fun e h => ?_, fun e h h' => ?_,
    fun script => (increasing_readLines 1 .v4 _).2⟩
  . rw [Reading.andThen, if_pos h, Reading.map, h', Option.map_none, Reading.prepend_ok]
  . rw [Reading.andThen, if_neg (by simp [h])]
    exact (readLines_of_error hfirst h).1
  . obtain ⟨hread, hne⟩ := readLines_of_error hsecond h'
    rw [Reading.andThen, if_pos h, read, read, hread]
    exact Reading.prepend_error (mt ReadError.shift_eq_lineTooLong.mp hne) _

def relayScript : String := "# inet6\n-N relay\n\n"

def relayLinks : String := "-A FORWARD -j relay\r\n# inet\n-P INPUT DROP"

def relayTypo : String := "\n-N\n"

theorem read_append_relayScript :
    read (relayScript ++ relayLinks)
        = ⟨[⟨2, .v6, "relay", .declare⟩, ⟨4, .v6, "FORWARD", .append ["-j", "relay"]⟩,
            ⟨6, .v4, "INPUT", .policy "DROP"⟩], none⟩
      ∧ read (relayTypo ++ relayLinks) = ⟨[], some (.noChain 2 "-N")⟩
      ∧ read (relayScript ++ relayTypo) = ⟨[], some (.noChain 5 "-N")⟩
      ∧ (read relayLinks).statements.Pairwise fun s t => s.line < t.line := by
  have hscript : read relayScript = ⟨[⟨2, .v6, "relay", .declare⟩], none⟩ := by decide +kernel
  have hlinks : read relayLinks
      = ⟨[⟨1, .v4, "FORWARD", .append ["-j", "relay"]⟩, ⟨3, .v4, "INPUT", .policy "DROP"⟩],
        none⟩ := by
    decide +kernel
  have htypo : read relayTypo = ⟨[], some (.noChain 2 "-N")⟩ := by decide +kernel
  have hshort : ∀ script ∈ [relayScript, relayLinks, relayTypo],
      ∀ line ∈ lines script.toList, Text.byteSize line < lineLimit := by decide +kernel
  simp only [List.forall_mem_cons, List.not_mem_nil, false_imp_iff, implies_true,
    and_true] at hshort
  obtain ⟨hshortScript, hshortLinks, hshortTypo⟩ := hshort
  have hscriptEnd : relayScript.toList.getLast? = some '\n' := by decide +kernel
  have htypoEnd : relayTypo.toList.getLast? = some '\n' := by decide +kernel
  obtain ⟨hok, _, _, hlines⟩ := read_append (.inr hscriptEnd) hshortScript hshortLinks
  obtain ⟨_, _, hsecond, _⟩ := read_append (.inr hscriptEnd) hshortScript hshortTypo
  refine ⟨?_, ?_, ?_, hlines relayLinks⟩
  . rw [hok (by rw [hscript]) (by rw [hlinks]), hscript, hlinks]
    decide +kernel
  . exact (read_append (.inr htypoEnd) hshortTypo hshortLinks).2.1 _ (by rw [htypo])
  . rw [hsecond _ (by rw [hscript]) (by rw [htypo])]
    decide +kernel

end Script
end PacketPolicy

import PacketPolicy.Proofs.Iptables.Legible

/-!
This module contains what a line of a document says about chains when it is taken apart at its white
space, and the proof that the lines of a chain say what they were written for. Names may hold any
characters but white space.
-/

namespace PacketPolicy

open Text (Plain Unbroken)

namespace Iptables

inductive Directive where
  | policy (chain action : String)
  | declare (chain : String)
  | append (chain : String) (targets : List String)
  | other
  deriving DecidableEq, Repr

namespace Directive

/--
What a reader of the options of a rule waits for. Behind the next operand there may be `more` of
them, and the text of a comment may have been `opened` by a double quote.
-/
inductive State where
  | option
  | operand (more : Nat)
  | target
  | comment (opened : Bool)
  deriving DecidableEq, Repr

namespace State

/--
All options have one operand but two of them. A jump has a target, and a comment has a text in
double quotes.
-/
def ofOption (word : String) : State :=
  if word = "-j" then .target
  else if word = "--comment" then .comment false
  else if word = "--syn" then .option
  else if word = "--tcp-flags" then .operand 1
  else .operand 0

def next : State → String → State
  | .option, word => ofOption word
  | .operand 0, _ => .option
  | .operand (more + 1), _ => .operand more
  | .target, _ => .option
  | .comment opened, word =>
    if opened ^^ (word.toList.count '"' % 2 == 1) then .comment true else .option

end State

def targetsFrom : State → List String → List String
  | _, [] => []
  | state, word :: words =>
    (if state = .target then [word] else []) ++ targetsFrom (state.next word) words

def ofWords : List String → Directive
  | option :: chain :: rest =>
    if option = "-A" then .append chain (targetsFrom .option rest)
    else if option = "-N" then .declare chain
    else if option = "-P" then .policy chain (rest.headD "")
    else .other
  | _ => .other

def ofText (text : String) : Directive :=
  ofWords (Text.words text)

def Silent (words : List String) : Prop :=
  ∀ rest, targetsFrom .option (words ++ rest) = targetsFrom .option rest

theorem Silent.append (h : Silent ws) (h' : Silent ws') : Silent (ws ++ ws') := by
  intro rest
  rw [List.append_assoc, h, h']

theorem Silent.flatMap {g : α → List String} {as : List α} (h : ∀ a ∈ as, Silent (g a)) :
    Silent (as.flatMap g) := by
  induction as with
  | nil => exact fun rest => rfl
  | cons a as ih =>
    rw [List.forall_mem_cons] at h
    rw [List.flatMap_cons]
    exact h.1.append (ih h.2)

theorem next_comment (opened : Bool) (word : List Char) :
    (State.comment opened).next (String.ofList word)
      = if opened ^^ (word.count '"' % 2 == 1) then .comment true else .option := by
  rw [State.next, String.toList_ofList]

/--
Invariant of the words of a comment: the quote that opens its text is in the word so far, or it has
been read.
-/
theorem targetsFrom_comment_go (hquote : quote = '"') (hword : word.count '"' = (!opened).toNat)
    (hcs : cs.count '"' = 0) (rest : List String) :
    targetsFrom (.comment opened)
      ((Text.wordsOfChars.go (cs ++ [quote]) word).map String.ofList ++ rest)
      = targetsFrom .option rest := by
  have hblank : Text.isBlank quote = false := by
    rw [hquote]
    decide
  induction cs generalizing word opened with
  | nil =>
    have hlast : (word.reverse ++ [quote]).count '"' = (!opened).toNat + 1 := by
      rw [List.count_append, List.count_reverse, hword, hquote]
      rfl
    rw [List.nil_append, Text.wordsOfChars_go_of_unbroken (by simpa using hblank) (.inr (by simp)),
      List.map_singleton, List.singleton_append, targetsFrom, next_comment, hlast]
    cases opened <;> rfl
  | cons c cs ih =>
    rw [List.count_cons, Nat.add_eq_zero_iff] at hcs
    rw [List.cons_append, Text.wordsOfChars.go.eq_def]
    dsimp only
    split
    . have hnext : (opened ^^ (word.count '"' % 2 == 1)) = true := by
        rw [hword]
        cases opened <;> rfl
      cases word with
      | nil =>
        cases opened with
        | false => simp at hword
        | true => exact ih rfl hcs.1
      | cons d word =>
        dsimp only
        rw [List.map_cons, List.cons_append, targetsFrom, next_comment,
          List.count_reverse, if_pos hnext]
        exact ih rfl hcs.1
    . apply ih _ hcs.1
      rw [List.count_cons, hword, hcs.2, Nat.add_zero]

theorem targetsFrom_comment (h : '"' ∉ text.toList) (rest : List String) :
    targetsFrom (.comment false) (Text.words ("\"" ++ text ++ "\"") ++ rest)
      = targetsFrom .option rest := by
  have hchars : ("\"" ++ text ++ "\"").toList = '"' :: (text.toList ++ ['"']) := by simp
  have hopening (quote : Char) (hquote : quote = '"') :
      targetsFrom (.comment false)
          ((Text.wordsOfChars.go (quote :: (text.toList ++ [quote])) []).map String.ofList ++ rest)
        = targetsFrom .option rest := by
    have hblank : Text.isBlank quote = false := by
      rw [hquote]
      decide
    rw [Text.wordsOfChars.go.eq_def]
    simp only [hblank]
    exact targetsFrom_comment_go hquote (by rw [hquote]; rfl) (List.count_eq_zero.mpr h) rest
  unfold Text.words Text.wordsOfChars
  rw [hchars]
  exact hopening '"' rfl

end Directive

open Directive (Silent targetsFrom)

def Word.parts (ws : List Word) : List String :=
  ws.flatMap fun w => Text.words w.text

theorem Word.words_intercalate_parts (ws : List Word) :
    Text.words (String.intercalate " " (ws.map Word.text)) = Word.parts ws := by
  rw [Text.words_intercalate, List.flatMap_map]
  rfl

theorem Word.parts_eq_map (h : ∀ w ∈ ws, Unbroken w.text ∧ w.text ≠ "") :
    Word.parts ws = ws.map Word.text := by
  rw [Word.parts, ← List.flatMap_map]
  apply Text.flatMap_words
  rwa [List.forall_mem_map]

theorem Word.Made.unbroken_text {w : Word} (h : w.Made fun s => Unbroken s ∧ s ≠ "") :
    Unbroken w.text ∧ w.text ≠ "" := by
  cases w with
  | bare s => exact h
  | quoted s =>
    have hquote : Unbroken "\"" := by decide
    exact ⟨(hquote.append (Plain.unbroken h)).append hquote, by simp [text]⟩

namespace Clause

structure Quiet (c : Clause) : Prop where
  silent : Silent (Word.parts c.words)
  newline : ∀ w ∈ c.words, '\n' ∉ w.text.toList

theorem quiet_comment (hquote : '"' ∉ s.toList) (hnewline : '\n' ∉ s.toList) :
    (comment s).Quiet := by
  constructor
  . intro rest
    have hparts : Word.parts (comment s).words
        = "-m" :: "comment" :: "--comment" :: Text.words ("\"" ++ s ++ "\"") := by
      show Word.parts [.bare "-m", .bare "comment", .bare "--comment"] ++ Word.parts [.quoted s] = _
      rw [Word.parts_eq_map (by decide)]
      simp [Word.parts, Word.text]
    rw [hparts]
    exact Directive.targetsFrom_comment hquote rest
  . simp only [words, List.forall_mem_cons, List.not_mem_nil, false_imp_iff, implies_true, and_true]
    exact ⟨by decide, by decide, by decide, by simpa [Word.text] using hnewline⟩

theorem quiet_of_unbroken {c : Clause} (hcomment : ∀ s, c ≠ .comment s)
    (h : ∀ w ∈ c.words, Unbroken w.text ∧ w.text ≠ "") : c.Quiet := by
  constructor
  . rw [Word.parts_eq_map h]
    intro rest
    cases c with
    | comment s => exact absurd rfl (hcomment s)
    | extensionHeader header => cases header <;> rfl
    | port side range => cases side <;> rfl
    | ports side ranges => cases side <;> rfl
    | address side p => cases side <;> rfl
    | state new => cases new <;> rfl
    | _ => rfl
  . exact fun w hw => (h w hw).1.newline_not_mem

end Clause

def Jump.target : Jump → String
  | .accept => "ACCEPT"
  | .drop => "DROP"
  | .reject _ => "REJECT"
  | .leave => "RETURN"
  | .log _ => "LOG"
  | .chain name => name

def Jump.Unbroken : Jump → Prop
  | .log label => Text.Unbroken label
  | .chain name => Text.Unbroken name ∧ name ≠ ""
  | _ => True

theorem Jump.Unbroken.targetsFrom_parts {j : Jump} (h : j.Unbroken) :
    targetsFrom .option (Word.parts j.words) = [j.target] := by
  cases j with
  | accept | drop | leave =>
    rw [Word.parts_eq_map (by decide)]
    rfl
  | reject answer =>
    rw [Word.parts_eq_map (by cases answer <;> decide)]
    rfl
  | log label =>
    -- An empty label is no word at all, but nothing stands behind it.
    by_cases hlabel : label = ""
    . subst hlabel
      rfl
    . rw [Word.parts_eq_map]
      . rfl
      . simp only [words, List.forall_mem_cons, List.not_mem_nil, false_imp_iff,
          implies_true, and_true]
        exact ⟨by decide, by decide, by decide, h, hlabel⟩
  | chain name =>
    rw [Word.parts_eq_map]
    . rfl
    . simp only [words, List.forall_mem_cons, List.not_mem_nil, false_imp_iff,
        implies_true, and_true]
      exact ⟨by decide, h⟩

theorem Jump.Unbroken.newline_not_mem {j : Jump} (h : j.Unbroken) :
    ∀ w ∈ j.words, '\n' ∉ w.text.toList := by
  cases j with
  | accept | drop | leave => decide
  | reject answer => cases answer <;> decide
  | log label =>
    simp only [words, List.forall_mem_cons, List.not_mem_nil, false_imp_iff, implies_true, and_true]
    exact ⟨by decide, by decide, by decide, Text.Unbroken.newline_not_mem h⟩
  | chain name =>
    simp only [words, List.forall_mem_cons, List.not_mem_nil, false_imp_iff, implies_true, and_true]
    exact ⟨by decide, h.1.newline_not_mem⟩

namespace Line

/--
The line stays on one line of the text, and is read as the directive.
-/
structure Says (line : Line) (d : Directive) : Prop where
  newline : '\n' ∉ line.text.toList
  read : Directive.ofText line.text = d

theorem says_note (h : '\n' ∉ s.toList) : (note s).Says .other := by
  constructor
  . simpa [text] using h
  . have hwords : Text.words (note s).text = "#" :: Text.words s := by
      have happend := Text.words_append_space "#" s
      have hmark : Text.words "#" = ["#"] := Text.words_of_unbroken (by decide) (by decide)
      rw [hmark] at happend
      exact happend
    rw [Directive.ofText, hwords]
    cases Text.words s <;> rfl

theorem says_of_unbroken {line : Line}
    (htext : line.text = String.intercalate " " (line.words.map Word.text))
    (h : ∀ w ∈ line.words, Unbroken w.text ∧ w.text ≠ "") :
    line.Says (.ofWords (line.words.map Word.text)) := by
  constructor
  . rw [htext]
    exact Word.newline_not_mem_intercalate_text fun w hw => (h w hw).1.newline_not_mem
  . rw [Directive.ofText, htext, Word.words_intercalate_parts, Word.parts_eq_map h]

theorem says_policy (hchain : Unbroken chain ∧ chain ≠ "")
    (haction : Unbroken action ∧ action ≠ "") :
    (policy chain action).Says (.policy chain action) := by
  apply says_of_unbroken rfl
  simp only [words, List.forall_mem_cons, List.not_mem_nil, false_imp_iff, implies_true, and_true]
  exact ⟨by decide, hchain, haction⟩

theorem says_declare (hchain : Unbroken chain ∧ chain ≠ "") :
    (declare chain).Says (.declare chain) := by
  apply says_of_unbroken rfl
  simp only [words, List.forall_mem_cons, List.not_mem_nil, false_imp_iff, implies_true, and_true]
  exact ⟨by decide, hchain⟩

theorem says_append (hchain : Unbroken chain ∧ chain ≠ "") (hclauses : ∀ c ∈ clauses, c.Quiet)
    (hjump : ∀ j ∈ jump, j.Unbroken) :
    (append chain clauses jump).Says (.append chain (jump.map Jump.target).toList) := by
  have hparts : Word.parts (append chain clauses jump).words
      = "-A" :: chain :: (clauses.flatMap (fun c => Word.parts c.words)
        ++ Word.parts ((jump.map Jump.words).getD [])) := by
    simp only [words, Word.parts, List.flatMap_append, List.flatMap_cons, List.flatMap_assoc,
      Word.text, Text.words_of_unbroken hchain.1 hchain.2]
    rfl
  constructor
  . apply Word.newline_not_mem_intercalate_text
    simp only [words, List.forall_mem_append, List.forall_mem_flatMap, List.forall_mem_cons,
      List.not_mem_nil, false_imp_iff, implies_true, and_true]
    refine ⟨⟨⟨by decide, hchain.1.newline_not_mem⟩, fun c hc => (hclauses c hc).newline⟩, ?_⟩
    cases jump with
    | none => simp
    | some j => exact (hjump j rfl).newline_not_mem
  . show Directive.ofWords
      (Text.words (String.intercalate " " ((append chain clauses jump).words.map Word.text))) = _
    rw [Word.words_intercalate_parts, hparts]
    show Directive.append chain _ = _
    rw [Silent.flatMap fun c hc => (hclauses c hc).silent]
    cases jump with
    | none => rfl
    | some j => exact congrArg _ (hjump j rfl).targetsFrom_parts

end Line

def standardTargets : List String :=
  ["ACCEPT", "DROP", "REJECT", "RETURN", "LOG"]

structure Chain.Unbroken (c : Chain) : Prop where
  name : Text.Unbroken c.name
  label : Text.Unbroken c.tagged.name
  protocol : ∀ p ∈ c.term.protocol, Text.Unbroken p
  sourceInterface : Text.Unbroken c.term.sourceInterface
  destinationInterface : Text.Unbroken c.term.destinationInterface
  jump : c.matching.jump.Unbroken
  target : c.matching.jump.target ∈ standardTargets

namespace Chain

variable {c : Chain}

theorem name_ne_empty (c : Chain) : c.name ≠ "" := by
  simp [name, TaggedName.text]

theorem name_not_mem {names : List String} (c : Chain) (h : ∀ s ∈ names, s.toList[1]? ≠ some '_') :
    c.name ∉ names := by
  intro hmem
  exact h _ hmem (by simp [name, TaggedName.text])

theorem Unbroken.quiet_of_uses (h : c.Unbroken) (huses : c.Uses clause) : clause.Quiet := by
  apply Clause.quiet_of_unbroken
  . rintro s rfl
    exact huses
  . intro w hw
    apply Word.Made.unbroken_text
    apply made_of_uses _ _ _ _ huses w hw
    . exact fun s hs => ⟨hs.unbroken, hs.1⟩
    . exact fun p hp hne => ⟨h.protocol p hp, hne⟩
    . exact fun hne => ⟨h.sourceInterface, hne⟩
    . exact fun hne => ⟨h.destinationInterface, hne⟩

theorem quiet_of_mem_addressClauses {p : Prefix} (h : clause ∈ addressClauses side p) :
    clause.Quiet := by
  obtain rfl := mem_addressClauses h
  have hwords : ∀ w ∈ (Clause.address side p).words, w.Made Plain := by
    cases side with
    | source => exact Word.made_concat (fun s hs => hs) ["-s"] (by decide) p.plain_text
    | destination => exact Word.made_concat (fun s hs => hs) ["-d"] (by decide) p.plain_text
  apply Clause.quiet_of_unbroken (by simp)
  intro w hw
  apply Word.Made.unbroken_text
  cases w with
  | bare s => exact ⟨Plain.unbroken (hwords _ hw), (hwords _ hw).1⟩
  | quoted s => exact hwords _ hw

theorem Unbroken.quiet_of_mem_clauses (h : c.Unbroken) (hshape : shape ∈ c.shapeList)
    {p q : Prefix} :
    ∀ clause ∈ shape.clauses p q, clause.Quiet := by
  intro clause hclause
  simp only [Shape.clauses, List.mem_append] at hclause
  obtain ((hclause | hclause) | hclause) | hclause := hclause
  . exact h.quiet_of_uses (uses_of_mem_shapes hshape (.inl hclause))
  . exact quiet_of_mem_addressClauses hclause
  . exact quiet_of_mem_addressClauses hclause
  . exact h.quiet_of_uses (uses_of_mem_shapes hshape (.inr hclause))

def Fills (c : Chain) (line : Line) : Prop :=
  ∃ targets, line.Says (.append c.name targets) ∧ ∀ target ∈ targets, target ∈ standardTargets

theorem Unbroken.fills_append (h : c.Unbroken) (hclauses : ∀ clause ∈ clauses, clause.Quiet)
    (hjump : j ∈ [none, some .leave, some (.log c.tagged.name), some c.matching.jump]) :
    c.Fills (.append c.name clauses j) := by
  refine ⟨_, Line.says_append ⟨h.name, c.name_ne_empty⟩ hclauses ?_, ?_⟩
  . simp only [List.mem_cons, List.not_mem_nil, or_false] at hjump
    obtain rfl | rfl | rfl | rfl := hjump
    . simp
    . simp [Jump.Unbroken]
    . simpa [Jump.Unbroken] using h.label
    . simpa using h.jump
  . simp only [List.mem_cons, List.not_mem_nil, or_false] at hjump
    obtain rfl | rfl | rfl | rfl := hjump
    . simp
    . simp [Jump.target, standardTargets]
    . simp [Jump.target, standardTargets]
    . simpa using h.target

theorem Unbroken.fills_ruleList (h : c.Unbroken) (hline : line ∈ c.ruleList s d) :
    c.Fills line := by
  simp only [ruleList, ruleLines, List.mem_append, List.mem_map, List.mem_flatMap] at hline
  obtain (⟨p, _, rfl⟩ | ⟨p, _, rfl⟩) | ⟨shape, hshape, p, _, q, _, hline⟩ := hline
  . exact h.fills_append (fun clause => quiet_of_mem_addressClauses) (by simp)
  . exact h.fills_append (fun clause => quiet_of_mem_addressClauses) (by simp)
  . obtain rfl | ⟨_, rfl⟩ := mem_rulesFor.mp hline
    . exact h.fills_append (h.quiet_of_mem_clauses hshape) (by simp)
    . exact h.fills_append (h.quiet_of_mem_clauses hshape) (by simp)

theorem Unbroken.fills_commentLine (h : c.Unbroken)
    (htext : text ∈ Comment.lines c.term.comment c.term.owner) :
    c.Fills (c.commentLine text) := by
  apply h.fills_append
  . rw [List.forall_mem_singleton]
    exact Clause.quiet_comment (Comment.doubleQuote_not_mem_of_mem_lines htext)
      (Comment.newline_not_mem_of_mem_lines htext)
  . simp

theorem Unbroken.lines_cases (h : c.Unbroken) (parent : String) :
    c.lineList parent = [] ∨ ∃ rest,
      c.lineList parent = .declare c.name :: .append parent [] (some (.chain c.name)) :: rest
      ∧ ∀ line ∈ rest, c.Fills line := by
  unfold lineList
  cases c.plan with
  | empty side => exact .inl rfl
  | rules s d =>
    refine .inr ⟨(Comment.lines c.term.comment c.term.owner).map c.commentLine ++ c.ruleList s d,
      by simp, ?_⟩
    rw [List.forall_mem_append, List.forall_mem_map]
    exact ⟨fun text => h.fills_commentLine, fun line => h.fills_ruleList⟩

end Chain
end Iptables
end PacketPolicy

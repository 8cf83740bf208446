import PacketPolicy.Yaml.Scalar

/-!
This module contains the tokens of a document. Indentation becomes tokens of its own, and a colon
turns what stands before it on its line into a key.
-/

namespace PacketPolicy
namespace Yaml

inductive Token where
  | documentStart
  | documentEnd
  | blockSequenceStart
  | blockMappingStart
  | blockEnd
  | flowSequenceStart
  | flowSequenceEnd
  | flowMappingStart
  | flowMappingEnd
  | blockEntry
  | flowEntry
  | key
  | value
  | scalar (isPlain : Bool) (text : String)
  | streamEnd
  deriving DecidableEq, Repr

/--
A token that a colon may still turn into a key: the number of tokens before it and its place. It has
to become one if it stands where only keys can stand.
-/
structure Candidate where
  position : Nat
  mark : Mark
  required : Bool
  deriving Repr

def Candidate.isNear (k : Candidate) (m : Mark) : Bool :=
  m.line ≤ k.mark.line && m.index ≤ k.mark.index + 1024

structure Lexer where
  cursor : Cursor
  indent : Int := -1
  indents : List Int := []
  keyAllowed : Bool := true
  candidate : Option Candidate := none
  outer : List (Option Candidate) := []
  tokens : List Token := []
  count : Nat := 0
  deriving Repr

namespace Lexer

def inFlow (s : Lexer) : Bool :=
  !s.outer.isEmpty

def push (t : Token) (s : Lexer) : Lexer :=
  { s with tokens := t :: s.tokens, count := s.count + 1 }

def insert (position : Nat) (t : Token) (s : Lexer) : Lexer :=
  let (late, early) := s.tokens.splitAt (s.count - position)
  { s with tokens := late ++ t :: early, count := s.count + 1 }

def advance (s : Lexer) : Lexer :=
  match s.cursor.rest with
  | [] => s
  | c :: cs => { s with cursor := ⟨cs, s.cursor.mark.advance c⟩ }

def openBlock (column position : Nat) (t : Token) (s : Lexer) : Lexer :=
  if s.inFlow || (column : Int) ≤ s.indent then s
  else insert position t { s with indents := s.indent :: s.indents, indent := column }

def closeBlocks (column : Int) (s : Lexer) : Lexer :=
  if s.inFlow then s else go s.indents s
where
  go : List Int → Lexer → Lexer
    | [], s => s
    | i :: is, s =>
      if column < s.indent then go is (push .blockEnd { s with indent := i, indents := is }) else s

def dropCandidate (s : Lexer) : Except Error Lexer :=
  if s.candidate.any (·.required) then .error .malformed else .ok { s with candidate := none }

def saveCandidate (s : Lexer) : Except Error Lexer :=
  if !s.keyAllowed then .ok s
  else do
    let s ← s.dropCandidate
    let m := s.cursor.mark
    return { s with candidate := some ⟨s.count, m, !s.inFlow && s.indent == (m.column : Int)⟩ }

/--
Reads over white space and comments. Tabs count as white space where no key can stand, and so does a
byte order mark at the start of the text.
-/
def skipBlank (block allowed comment : Bool) (m : Mark) : List Char → Cursor × Bool
  | [] => (⟨[], m⟩, allowed)
  | c :: cs =>
    if isBreak c then skipBlank block (allowed || block) false (m.advance c) cs
    else if comment then skipBlank block allowed true (m.advance c) cs
    else if (c == '\ufeff' && m.index == 0) || c == ' ' || (c == '\t' && !(block && allowed)) then
      skipBlank block allowed false (m.advance c) cs
    else if c == '#' then skipBlank block allowed true (m.advance c) cs
    else (⟨c :: cs, m⟩, allowed)

def toToken (s : Lexer) : Lexer :=
  let (cursor, keyAllowed) := skipBlank (!s.inFlow) s.keyAllowed false s.cursor.mark s.cursor.rest
  closeBlocks cursor.mark.column { s with cursor, keyAllowed }

def documentMark (t : Token) (s : Lexer) : Except Error Lexer := do
  let s ← (s.closeBlocks (-1)).dropCandidate
  return push t { s.advance.advance.advance with keyAllowed := false }

def streamEnd (s : Lexer) : Except Error Lexer := do
  let s ← (s.closeBlocks (-1)).dropCandidate
  return push .streamEnd { s with keyAllowed := false }

def openFlow (t : Token) (s : Lexer) : Except Error Lexer := do
  let s ← s.saveCandidate
  return push t { s.advance with
    keyAllowed := true, candidate := none, outer := s.candidate :: s.outer }

def closeFlow (t : Token) (s : Lexer) : Except Error Lexer := do
  let s ← s.dropCandidate
  let s := match s.outer with
    | [] => s
    | k :: ks => { s with candidate := k, outer := ks }
  return push t { s.advance with keyAllowed := false }

def flowEntry (s : Lexer) : Except Error Lexer := do
  let s ← s.dropCandidate
  return push .flowEntry { s.advance with keyAllowed := true }

def openHere (t : Token) (s : Lexer) : Except Error Lexer :=
  if s.inFlow then .ok s
  else if !s.keyAllowed then .error .malformed
  else .ok (s.openBlock s.cursor.mark.column s.count t)

def blockEntry (s : Lexer) : Except Error Lexer := do
  let s ← s.openHere .blockSequenceStart
  let s ← s.dropCandidate
  return push .blockEntry { s.advance with keyAllowed := true }

def explicitKey (s : Lexer) : Except Error Lexer := do
  let s ← s.openHere .blockMappingStart
  let s ← s.dropCandidate
  return push .key { s.advance with keyAllowed := !s.inFlow }

/--
A colon. It belongs to the candidate if there is one, and to a key that was marked as one or left
out if not.
-/
def value (s : Lexer) : Except Error Lexer :=
  match s.candidate with
  | some k =>
    if k.isNear s.cursor.mark then
      let s := { s with candidate := none, keyAllowed := false }
      .ok (push .value
        ((s.insert k.position .key).openBlock k.mark.column k.position .blockMappingStart).advance)
    else if k.required then .error .malformed
    else bare { s with candidate := none }
  | none => bare s
where
  bare (s : Lexer) : Except Error Lexer := do
    let s ← s.openHere .blockMappingStart
    return push .value { s.advance with keyAllowed := !s.inFlow }

def pushScalar (isPlain : Bool) (x : Scanned) (s : Lexer) : Lexer :=
  push (.scalar isPlain x.text) { s with cursor := x.cursor, keyAllowed := x.broken }

def plainScalar (s : Lexer) : Except Error Lexer := do
  let s ← s.saveCandidate
  return s.pushScalar true (← plain s.inFlow (s.indent + 1) .none [] s.cursor.mark s.cursor.rest)

def singleQuotedScalar (s : Lexer) : Except Error Lexer := do
  let s ← s.saveCandidate
  let s := s.advance
  return s.pushScalar false (← singleQuoted .none [] s.cursor.mark s.cursor.rest)

def doubleQuotedScalar (s : Lexer) : Except Error Lexer := do
  let s ← s.saveCandidate
  let s := s.advance
  return s.pushScalar false (← doubleQuoted .none .none [] s.cursor.mark s.cursor.rest)

def blockScalar (folded : Bool) (s : Lexer) : Except Error Lexer := do
  let s ← s.dropCandidate
  let s := s.advance
  let (style, cursor) ← blockMarks folded s.cursor.mark s.cursor.rest
  let cursor ← blockHead false cursor.mark cursor.rest
  let indent := if style.increment == 0 then 0 else (max s.indent 0).toNat + style.increment
  let x ← block style (max (s.indent + 1) 1).toNat { indent } cursor.mark cursor.rest
  return s.pushScalar false { x with broken := true }

def isReserved (c : Char) : Bool :=
  ['\t', '-', '?', ':', ',', '[', ']', '\x7b', '\x7d', '#', '&', '*', '!', '|', '>', '\'', '"', '%',
    '@', '\x60'].contains c

/--
Reads the next token. Anchors, aliases, tags and directives are not supported: the characters that
start them are refused like the other reserved ones.
-/
def next (s : Lexer) : Except Error Lexer :=
  let s := s.toToken
  match s.cursor.rest with
  | [] => s.streamEnd
  | c :: cs =>
    if s.cursor.mark.column == 0 && isIndicator (c :: cs) then
      s.documentMark (if c == '-' then .documentStart else .documentEnd)
    else if c == '[' then s.openFlow .flowSequenceStart
    else if c == '\x7b' then s.openFlow .flowMappingStart
    else if c == ']' then s.closeFlow .flowSequenceEnd
    else if c == '\x7d' then s.closeFlow .flowMappingEnd
    else if c == ',' then s.flowEntry
    else if c == '-' && endsWord cs then s.blockEntry
    else if c == '?' && (s.inFlow || endsWord cs) then s.explicitKey
    else if c == ':' && (s.inFlow || endsWord cs) then s.value
    else if c == '|' && !s.inFlow then s.blockScalar false
    else if c == '>' && !s.inFlow then s.blockScalar true
    else if c == '\'' then s.singleQuotedScalar
    else if c == '"' then s.doubleQuotedScalar
    else if !isReserved c || c == '-' || c == '?' || c == ':' then s.plainScalar
    else .error .malformed

/--
The number of tokens that are settled, so that no colon further on can put a key before them.
-/
def settled (s : Lexer) : Nat :=
  (s.candidate :: s.outer).foldl
    (fun n k =>
      match k with
      | some k => if k.required || k.isNear s.cursor.mark then min n k.position else n
      | none => n)
    s.count

def run : Nat → Lexer → List Token
  | 0, _ => []
  | fuel + 1, s =>
    match s.next with
    | .error _ => s.tokens.reverse.take s.settled
    | .ok s =>
      match s.tokens with
      | .streamEnd :: _ => s.tokens.reverse
      | _ => run fuel s

end Lexer

/--
The tokens of a text. They end with `streamEnd` only if all of the text is well-formed; if it is
not, they are those that do not depend on the rest.
-/
def Token.ofText (s : String) : Except Error (List Token) :=
  let cs := s.toList
  if cs.all isAllowed then
    let cs := match normalize cs with
      | '\ufeff' :: cs => cs
      | cs => cs
    .ok (Lexer.run (cs.length + 1) { cursor := ⟨cs, {}⟩ })
  else .error .malformed

end Yaml
end PacketPolicy

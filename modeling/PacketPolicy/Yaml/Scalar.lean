import PacketPolicy.Text.Number
import PacketPolicy.Yaml.Mark

namespace PacketPolicy
namespace Yaml

structure Scanned where
  text : String
  cursor : Cursor
  broken : Bool := false
  deriving Repr

inductive Gap where
  | none
  | spaces (cs : List Char)
  | breaks (first : Option Char) (more : List Char)
  deriving DecidableEq, Repr

namespace Gap

def space (c : Char) : Gap → Gap
  | .none => .spaces [c]
  | .spaces cs => .spaces (c :: cs)
  | .breaks first more => .breaks first more

def lineBreak (c : Char) : Gap → Gap
  | .breaks first more => .breaks first (c :: more)
  | _ => .breaks (some c) []

def isBroken : Gap → Bool
  | .breaks _ _ => true
  | _ => false

/--
Adds a gap to a text. A single new line becomes a space, of several the first is dropped.
-/
def join (text : List Char) : Gap → List Char
  | .none => text
  | .spaces cs => cs ++ text
  | .breaks (some '\n') [] => ' ' :: text
  | .breaks (some '\n') more => more ++ text
  | .breaks first more => more ++ first.toList ++ text

end Gap

def endsPlain (flow : Bool) (c : Char) (cs : List Char) : Bool :=
  (c == ':' && endsWord cs)
    || (flow && (c == ',' || c == '?' || c == '[' || c == ']' || c == '\x7b' || c == '\x7d'))

def endsAfterGap (flow : Bool) (indent : Int) (m : Mark) (c : Char) (cs : List Char) : Bool :=
  (!flow && (m.column : Int) < indent) || (m.column == 0 && isIndicator (c :: cs)) || c == '#'

def plain (flow : Bool) (indent : Int) (gap : Gap) (text : List Char) (m : Mark) :
    List Char → Except Error Scanned
  | [] => .ok ⟨String.ofList text.reverse, ⟨[], m⟩, gap.isBroken⟩
  | c :: cs =>
    if isSpace c then
      if gap.isBroken && c == '\t' && (m.column : Int) < indent then .error .malformed
      else plain flow indent (gap.space c) text (m.advance c) cs
    else if isBreak c then
      plain flow indent (gap.lineBreak c) text (m.advance c) cs
    else if (gap != .none && endsAfterGap flow indent m c cs) || endsPlain flow c cs then
      .ok ⟨String.ofList text.reverse, ⟨c :: cs, m⟩, gap.isBroken⟩
    else
      plain flow indent .none (c :: gap.join text) (m.advance c) cs

def escaped? (c : Char) : Option Char :=
  match c with
  | '0' => some '\x00'
  | 'a' => some '\x07'
  | 'b' => some '\x08'
  | 't' => some '\t'
  | '\t' => some '\t'
  | 'n' => some '\n'
  | 'v' => some '\x0b'
  | 'f' => some '\x0c'
  | 'r' => some '\r'
  | 'e' => some '\x1b'
  | ' ' => some ' '
  | '"' => some '"'
  | '\'' => some '\''
  | '\\' => some '\\'
  | 'N' => some '\u0085'
  | '_' => some '\u00a0'
  | 'L' => some '\u2028'
  | 'P' => some '\u2029'
  | _ => none

def escapeWidth? (c : Char) : Option Nat :=
  match c with
  | 'x' => some 2
  | 'u' => some 4
  | 'U' => some 8
  | _ => none

def isScalarValue (n : Nat) : Bool :=
  n < 0xD800 || (0xDFFF < n && n ≤ 0x10FFFF)

def hexValue? (c : Char) : Option Nat :=
  (Text.digitValue c).filter (· < 16)

inductive Escape where
  | none
  | mark
  | digits (left value : Nat)
  deriving DecidableEq, Repr

def doubleQuoted (escape : Escape) (gap : Gap) (text : List Char) (m : Mark) :
    List Char → Except Error Scanned
  | [] => .error .malformed
  | c :: cs =>
    match escape with
    | .digits left value =>
      match hexValue? c with
      | none => .error .malformed
      | some d =>
        if 1 < left then
          doubleQuoted (.digits (left - 1) (value * 16 + d)) .none text (m.advance c) cs
        else if isScalarValue (value * 16 + d) then
          doubleQuoted .none .none (Char.ofNat (value * 16 + d) :: text) (m.advance c) cs
        else .error .malformed
    | .mark =>
      if isBreak c then doubleQuoted .none (.breaks none []) text (m.advance c) cs
      else
        match escapeWidth? c with
        | some width => doubleQuoted (.digits width 0) .none text (m.advance c) cs
        | none =>
          match escaped? c with
          | some e => doubleQuoted .none .none (e :: text) (m.advance c) cs
          | none => .error .malformed
    | .none =>
      if isSpace c then doubleQuoted .none (gap.space c) text (m.advance c) cs
      else if isBreak c then doubleQuoted .none (gap.lineBreak c) text (m.advance c) cs
      else if m.column == 0 && isIndicator (c :: cs) then .error .malformed
      else if c == '"' then .ok ⟨String.ofList (gap.join text).reverse, ⟨cs, m.advance c⟩, false⟩
      else if c == '\\' then doubleQuoted .mark .none (gap.join text) (m.advance c) cs
      else doubleQuoted .none .none (c :: gap.join text) (m.advance c) cs

def singleQuoted (gap : Gap) (text : List Char) (m : Mark) : List Char → Except Error Scanned
  | [] => .error .malformed
  | '\'' :: '\'' :: cs =>
    singleQuoted .none ('\'' :: gap.join text) ((m.advance '\'').advance '\'') cs
  | c :: cs =>
    if isSpace c then singleQuoted (gap.space c) text (m.advance c) cs
    else if isBreak c then singleQuoted (gap.lineBreak c) text (m.advance c) cs
    else if m.column == 0 && isIndicator (c :: cs) then .error .malformed
    else if c == '\'' then .ok ⟨String.ofList (gap.join text).reverse, ⟨cs, m.advance c⟩, false⟩
    else singleQuoted .none (c :: gap.join text) (m.advance c) cs

inductive Chomping where
  | strip
  | clip
  | keep
  deriving DecidableEq, Repr

/--
How a block is written: its lines are kept or folded, and its indentation is given or, if zero, that
of its first line.
-/
structure BlockStyle where
  folded : Bool
  chomping : Chomping := .clip
  increment : Nat := 0
  deriving DecidableEq, Repr

def chomping? (c : Char) : Option Chomping :=
  match c with
  | '+' => some .keep
  | '-' => some .strip
  | _ => none

def blockMarks (folded : Bool) (m : Mark) (cs : List Char) : Except Error (BlockStyle × Cursor) :=
  match cs with
  | a :: b :: cs =>
    match chomping? a, chomping? b with
    | some k, _ =>
      if b == '0' then .error .malformed
      else if b.isDigit then .ok (⟨folded, k, b.toNat - '0'.toNat⟩, ⟨cs, (m.advance a).advance b⟩)
      else .ok (⟨folded, k, 0⟩, ⟨b :: cs, m.advance a⟩)
    | none, k =>
      if a == '0' then .error .malformed
      else if a.isDigit then
        match k with
        | some k => .ok (⟨folded, k, a.toNat - '0'.toNat⟩, ⟨cs, (m.advance a).advance b⟩)
        | none => .ok (⟨folded, .clip, a.toNat - '0'.toNat⟩, ⟨b :: cs, m.advance a⟩)
      else .ok (⟨folded, .clip, 0⟩, ⟨a :: b :: cs, m⟩)
  | [a] =>
    match chomping? a with
    | some k => .ok (⟨folded, k, 0⟩, ⟨[], m.advance a⟩)
    | none =>
      if a == '0' then .error .malformed
      else if a.isDigit then .ok (⟨folded, .clip, a.toNat - '0'.toNat⟩, ⟨[], m.advance a⟩)
      else .ok (⟨folded, .clip, 0⟩, ⟨[a], m⟩)
  | [] => .ok (⟨folded, .clip, 0⟩, ⟨[], m⟩)

def blockHead (comment : Bool) (m : Mark) : List Char → Except Error Cursor
  | [] => .ok ⟨[], m⟩
  | c :: cs =>
    if isBreak c then .ok ⟨cs, m.advance c⟩
    else if comment || isSpace c then blockHead comment (m.advance c) cs
    else if c == '#' then blockHead true (m.advance c) cs
    else .error .malformed

/--
The state of a block: its indentation once it is known, the greatest indentation of the empty lines
before its first line, the text, and the line breaks behind the last line.
-/
structure BlockState where
  indent : Nat
  deepest : Nat := 0
  inLine : Bool := false
  text : List Char := []
  lineBreak : Option Char := none
  more : List Char := []
  /-- The last line started with white space, so that the break behind it is kept. -/
  spaced : Bool := false
  deriving Repr

namespace BlockState

def finish (style : BlockStyle) (s : BlockState) : String :=
  let text := match style.chomping with
    | .strip => s.text
    | .clip => s.lineBreak.toList ++ s.text
    | .keep => s.more ++ s.lineBreak.toList ++ s.text
  String.ofList text.reverse

def startLine (style : BlockStyle) (s : BlockState) (c : Char) : BlockState :=
  let joined :=
    if style.folded && !s.spaced && !isSpace c && s.lineBreak == some '\n' then
      if s.more.isEmpty then ' ' :: s.text else s.text
    else s.lineBreak.toList ++ s.text
  { s with
    inLine := true, text := s.more ++ joined, lineBreak := none, more := [], spaced := isSpace c }

end BlockState

def block (style : BlockStyle) (least : Nat) (s : BlockState) (m : Mark) :
    List Char → Except Error Scanned
  | [] => .ok ⟨s.finish style, ⟨[], m⟩, false⟩
  | c :: cs =>
    if s.inLine then
      if isBreak c then
        block style least { s with inLine := false, lineBreak := some c } (m.advance c) cs
      else block style least { s with text := c :: s.text } (m.advance c) cs
    else if c == ' ' && (s.indent == 0 || m.column < s.indent) then
      block style least s (m.advance c) cs
    else if c == '\t' && (s.indent == 0 || m.column < s.indent) then .error .malformed
    else if isBreak c then
      block style least { s with deepest := max s.deepest m.column, more := c :: s.more }
        (m.advance c) cs
    else
      let indent := if s.indent == 0 then max (max s.deepest m.column) least else s.indent
      if m.column == indent then
        let started := s.startLine style c
        block style least { started with indent, text := c :: started.text } (m.advance c) cs
      else .ok ⟨s.finish style, ⟨c :: cs, m⟩, false⟩

end Yaml
end PacketPolicy

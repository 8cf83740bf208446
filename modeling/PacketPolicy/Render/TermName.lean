import PacketPolicy.Render.Fault
import PacketPolicy.Text.Bytes

namespace PacketPolicy
namespace TermName

/--
The lower case form of a letter. The long s and the Kelvin sign are forms of s and k.
-/
def fold (c : Char) : Char :=
  if c == '\u017f' then 's' else if c == '\u212a' then 'k' else c.toLower

def startsWith : (word text : List Char) → Bool
  | [], _ => true
  | _ :: _, [] => false
  | w :: ws, c :: cs => fold c == w && startsWith ws cs

/--
Replaces the occurrences of a word from left to right; `skip` characters of an occurrence are still
to be passed over.
-/
def replaceFrom (word short : List Char) : (skip : Nat) → List Char → List Char
  | _, [] => []
  | 0, c :: cs =>
    if startsWith word (c :: cs) then short ++ replaceFrom word short (word.length - 1) cs
    else c :: replaceFrom word short 0 cs
  | skip + 1, _ :: cs => replaceFrom word short skip cs

/--
Words and their abbreviations. A word stands before every word that it starts with.
-/
def abbreviations : List (String × String) := [
  ("autonomous", "AS"),
  ("customer", "CUST"),
  ("destination", "DST"),
  ("established", "EST"),
  ("experiment", "EXP"),
  ("fragments", "FRAGS"),
  ("fragment", "FRAG"),
  ("google", "GOOG"),
  ("initial", "INIT"),
  ("internal", "INT"),
  ("management", "MGMT"),
  ("multicast", "MCAST"),
  ("network", "NET"),
  ("production", "PROD"),
  ("services", "SVCS"),
  ("service", "SVC"),
  ("source", "SRC"),
  ("transit", "TRNS"),
  ("unreachable", "UNR")]

def abbreviateChars (name : List Char) : List Char :=
  abbreviations.foldl (fun name (word, short) => replaceFrom word.toList short.toList 0 name) name

def abbreviate (name : String) : String :=
  String.ofList (abbreviateChars name.toList)

structure Shortening where
  abbreviate : Bool := false
  truncate : Bool := false
  deriving DecidableEq, Repr

def fit (max : Nat) (allowed : Shortening) (name : String) : Except Fault String :=
  if name.utf8ByteSize ≤ max then .ok name
  else
    let shorter := if allowed.abbreviate then abbreviate name else name
    if shorter.utf8ByteSize ≤ max then .ok shorter
    else if allowed.truncate then .ok (Text.truncate shorter max)
    else
      .error {
        kind := .termNameTooLong
        term := name
        feature := toString name.utf8ByteSize ++ " characters"
        detail := "maximum is " ++ toString max }

end TermName

structure TaggedName where
  tag : Nat
  name : String
  deriving DecidableEq, Repr, Inhabited

namespace TaggedName

def ofFilter (filter name : String) : TaggedName :=
  ⟨(Text.bytesOfText filter).headD 0, name⟩

/--
The tag as a character. A byte beyond ASCII is no character and is shown by the replacement
character.
-/
def tagChar (n : TaggedName) : Char :=
  if n.tag < 0x80 then Char.ofNat n.tag else '\ufffd'

def text (n : TaggedName) : String :=
  String.ofList [n.tagChar, '_'] ++ n.name

def byteSize (n : TaggedName) : Nat :=
  2 + n.name.utf8ByteSize

end TaggedName
end PacketPolicy

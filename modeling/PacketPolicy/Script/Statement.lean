import PacketPolicy.Address.Family
import PacketPolicy.Script.Words
import PacketPolicy.Text.Blank
import PacketPolicy.Text.Bytes
import PacketPolicy.Text.Quoted

/-!
This module contains rule scripts: documents of iptables commands, one to a line, in which comments
name the family that the commands after them belong to.
-/

namespace PacketPolicy
namespace Script

inductive Command where
  | policy (target : String)
  | declare
  | append (rule : List String)
  deriving DecidableEq, Repr

namespace Command

def word : Command → String
  | .policy _ => "-P"
  | .declare => "-N"
  | .append _ => "-A"

def arguments : Command → List String
  | .policy target => [target]
  | .declare => []
  | .append rule => rule

end Command

structure Statement where
  line : Nat
  family : Family
  chain : String
  command : Command
  deriving DecidableEq, Repr

inductive ReadError where
  | badWords (line : Nat) (cause : WordError)
  | noChain (line : Nat) (text : String)
  | noTarget (line : Nat)
  | extraArguments (line : Nat)
  | noRule (line : Nat)
  | unknownCommand (line : Nat) (word : String)
  | lineTooLong
  deriving DecidableEq, Repr

namespace ReadError

def located (line : Nat) (text : String) : String :=
  "line " ++ toString line ++ ": " ++ text

def message : ReadError → String
  | .badWords line cause => located line cause.message
  | .noChain line text => located line ("statement " ++ Text.quote text ++ " has no chain")
  | .noTarget line => located line "policy statement needs one target"
  | .extraArguments line => located line "chain statement takes no arguments"
  | .noRule line => located line "append statement has no rule"
  | .unknownCommand line word => located line ("unsupported command " ++ word)
  | .lineTooLong => "bufio.Scanner: token too long"

end ReadError

/--
The statements that were read, and what ended the reading early. Only a line that is too long leaves
the statements before it.
-/
structure Reading where
  statements : List Statement
  error : Option ReadError
  deriving DecidableEq, Repr

namespace Reading

def cons (s : Statement) (r : Reading) : Reading :=
  match r.error with
  | none => ⟨s :: r.statements, none⟩
  | some .lineTooLong => ⟨s :: r.statements, some .lineTooLong⟩
  | some e => ⟨[], some e⟩

end Reading

def lines (cs : List Char) : List (List Char) :=
  go [] cs
where
  go : List Char → List Char → List (List Char)
    | [], [] => []
    | line, [] => [line.reverse]
    | line, c :: cs => if c == '\n' then line.reverse :: go [] cs else go (c :: line) cs

def lineLimit : Nat := 65536

def readCommand (line : Nat) (family : Family) (chain word : String) (arguments : List String) :
    Except ReadError Statement :=
  if word == "-P" then
    match arguments with
    | [target] => .ok ⟨line, family, chain, .policy target⟩
    | _ => .error (.noTarget line)
  else if word == "-N" then
    if arguments.isEmpty then .ok ⟨line, family, chain, .declare⟩ else .error (.extraArguments line)
  else if word == "-A" then
    if arguments.isEmpty then .error (.noRule line)
    else .ok ⟨line, family, chain, .append arguments⟩
  else .error (.unknownCommand line word)

def readStatement (line : Nat) (family : Family) (text : List Char) : Except ReadError Statement :=
  match words text with
  | .error e => .error (.badWords line e)
  | .ok (word :: chain :: arguments) => readCommand line family chain word arguments
  | .ok _ => .error (.noChain line (String.ofList text))

inductive Content where
  | blank
  | comment (family : Option Family)
  | statement (text : List Char)
  deriving DecidableEq, Repr

def contentOf (line : List Char) : Content :=
  match Text.trimChars line with
  | [] => .blank
  | '#' :: rest => .comment (Family.ofKeyword? (String.ofList (Text.trimChars rest)))
  | text => .statement text

def readLines (number : Nat) (family : Family) : List (List Char) → Reading
  | [] => ⟨[], none⟩
  | line :: rest =>
    if lineLimit ≤ Text.byteSize line then ⟨[], some .lineTooLong⟩
    else
      match contentOf line with
      | .blank => readLines (number + 1) family rest
      | .comment f => readLines (number + 1) (f.getD family) rest
      | .statement text =>
        match readStatement number family text with
        | .error e => ⟨[], some e⟩
        | .ok s => (readLines (number + 1) family rest).cons s

/--
Reads a script. Commands before the first comment that names a family are for IPv4.
-/
def read (s : String) : Reading :=
  readLines 1 .v4 (lines s.toList)

end Script
end PacketPolicy

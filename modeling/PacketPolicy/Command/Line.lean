import PacketPolicy.Command.Flag
import PacketPolicy.Text.Bytes
import PacketPolicy.Text.Case

namespace PacketPolicy
namespace CommandLine

inductive Error where
  | unknownCommand (word : String)
  | surplusWord (word : String) (topic : Topic)
  | badSyntax (argument : String)
  | unknownFlag (name : String)
  | unknownLetter (letter : Char) (letters : String)
  | noValue (argument : String)
  | noLetterValue (letter : Char) (letters : String)
  | badValue (flag : Flag) (value : String) (cause : Arguments.ValueError)
  deriving DecidableEq, Repr

/--
The next row of distances between the starts of two texts: `c` is the next character of the one,
`cs` the other, `corner` and `left` are the distances above and before the next field, and `above`
is the rest of the row above.
-/
def nextRow (c : Nat) (corner left : Nat) : List Nat → List Nat → List Nat
  | d :: cs, above :: rest =>
    let distance := min (min (above + 1) (left + 1)) (if c == d then corner else corner + 1)
    distance :: nextRow c above distance cs rest
  | _, _ => []

def distance (a b : List Nat) : Nat :=
  let row := a.foldl (fun row c =>
    match row with
    | [] => []
    | corner :: rest =>
      (corner + 1) :: nextRow c corner (corner + 1) b rest) (List.range (b.length + 1))
  row.getLastD 0

def suggestions (word : String) : List Command :=
  let typed := Text.lower word
  Command.all.filter fun c =>
    c != .help && (distance (Text.bytesOfText typed) (Text.bytesOfText c.name) ≤ 2
      || typed.toList.isPrefixOf c.name.toList)

def suggestionText (commands : List Command) : String :=
  if commands.isEmpty then ""
  else "\n\nDid you mean this?\n" ++ String.join (commands.map fun c => "\t" ++ c.name ++ "\n")

def firstByte (c : Char) : Char :=
  Char.ofNat ((Text.bytesOfChar c).headD 0)

def Error.message : Error → String
  | .unknownCommand word =>
    "unknown command " ++ Text.quote word ++ " for " ++ Text.quote (Topic.path .program)
      ++ suggestionText (suggestions word)
  | .surplusWord word topic =>
    "unknown command " ++ Text.quote word ++ " for " ++ Text.quote topic.path
  | .badSyntax argument => "bad flag syntax: " ++ argument
  | .unknownFlag name => "unknown flag: --" ++ name
  | .unknownLetter letter letters =>
    "unknown shorthand flag: " ++ Text.quoteChar (firstByte letter) ++ " in -" ++ letters
  | .noValue argument => "flag needs an argument: " ++ argument
  | .noLetterValue letter letters =>
    "flag needs an argument: " ++ Text.quoteChar letter ++ " in -" ++ letters
  | .badValue flag value cause =>
    "invalid argument " ++ Text.quote value ++ " for " ++ Text.quote flag.title ++ " flag: "
      ++ cause.message

def flagOfName? (flags : List Flag) (name : List Char) : Option Flag :=
  flags.find? fun f => f.name.toList == name

def flagOfLetter? (flags : List Flag) (letter : Char) : Option Flag :=
  flags.find? fun f => f.letter? == some letter

/--
Whether an argument before the command is a flag whose value is the next argument. An unknown flag
is taken to have one.
-/
def takesNext (argument : String) : Bool :=
  match argument.toList with
  | '-' :: '-' :: name => !name.contains '=' && needsValue (flagOfName? Flag.shared name)
  | ['-', letter] =>
    letter.utf8Size == 1 && letter != '=' && needsValue (flagOfLetter? Flag.shared letter)
  | _ => false
where
  needsValue (f : Option Flag) : Bool :=
    ((f.map Flag.implied?).getD none).isNone

def isWord (argument : String) : Bool :=
  argument != "" && argument.toList.head? != some '-'

/--
The first argument that is no flag and no value of one. A flag right before the last argument ends
the search.
-/
def commandWord? : List String → Option String
  | [] => none
  | a :: rest =>
    if a == "--" then none
    else if takesNext a then
      match rest with
      | [] => none
      | [_] => none
      | _ :: rest => commandWord? rest
    else if isWord a then some a
    else commandWord? rest

def withoutWord (word : String) : List String → List String
  | [] => []
  | a :: rest =>
    if a == "--" then a :: rest
    else if takesNext a then
      match rest with
      | [] => [a]
      | value :: rest => a :: value :: withoutWord word rest
    else if isWord a && a == word then rest
    else a :: withoutWord word rest

def assign (a : Arguments) (f : Flag) (value : String) : Except Error Arguments :=
  (a.set f value).mapError (.badValue f value)

structure Step where
  arguments : Arguments
  usedNext : Bool

def readLong (flags : List Flag) (next : Option String) (a : Arguments) (text : List Char) :
    Except Error Step := do
  let argument := "--" ++ String.ofList text
  if text.head? == some '-' || text.head? == some '=' then throw (.badSyntax argument)
  let name := text.takeWhile (· != '=')
  match flagOfName? flags name with
  | none => throw (.unknownFlag (String.ofList name))
  | some f =>
    match text.drop name.length, f.implied?, next with
    | _ :: value, _, _ => return ⟨← assign a f (String.ofList value), false⟩
    | [], some value, _ => return ⟨← assign a f value, false⟩
    | [], none, some value => return ⟨← assign a f value, true⟩
    | [], none, none => throw (.noValue argument)

def ignored : List Char :=
  ['t', 'e', 's', 't', '.']

def readLetters (flags : List Flag) (next : Option String) (a : Arguments) :
    List Char → Except Error Step
  | [] => return ⟨a, false⟩
  | c :: cs => do
    if ignored.isPrefixOf (c :: cs) then return ⟨a, false⟩
    match flagOfLetter? flags c with
    | none => throw (.unknownLetter c (String.ofList (c :: cs)))
    | some f =>
      match cs, f.implied?, next with
      | '=' :: d :: ds, _, _ => return ⟨← assign a f (String.ofList (d :: ds)), false⟩
      | cs, some value, _ => readLetters flags next (← assign a f value) cs
      | d :: ds, none, _ => return ⟨← assign a f (String.ofList (d :: ds)), false⟩
      | [], none, some value => return ⟨← assign a f value, true⟩
      | [], none, none => throw (.noLetterValue c (String.ofList [c]))

def readFlags (flags : List Flag) (a : Arguments) : List String → Except Error Arguments
  | [] => return a
  | argument :: rest => do
    match argument.toList with
    | ['-', '-'] => return { a with words := a.words ++ rest }
    | '-' :: '-' :: text => continueAfter (← readLong flags rest.head? a text) rest
    | '-' :: c :: cs => continueAfter (← readLetters flags rest.head? a (c :: cs)) rest
    | _ => readFlags flags { a with words := a.words ++ [argument] } rest
where
  continueAfter (s : Step) : List String → Except Error Arguments
    | [] => return s.arguments
    | next :: rest =>
      if s.usedNext then readFlags flags s.arguments rest
      else readFlags flags s.arguments (next :: rest)

def topic (arguments : List String) : Except Error (Topic × List String) :=
  match commandWord? arguments with
  | none => .ok (.program, arguments)
  | some word =>
    match Command.ofName? word with
    | none => .error (.unknownCommand word)
    | some .completion =>
      let rest := withoutWord word arguments
      match (commandWord? rest).bind Shell.ofName? with
      | none => .ok (.command .completion, rest)
      | some s => .ok (.completion s, withoutWord s.name rest)
    | some c => .ok (.command c, withoutWord word arguments)

inductive Request where
  | help (topic : Topic)
  | run (topic : Topic) (arguments : Arguments)
  deriving DecidableEq, Repr

def read (arguments : List String) : Except Error Request := do
  let (t, rest) ← topic arguments
  let a ← readFlags t.flags {} rest
  if a.help || !t.runs then return .help t
  match t, a.words with
  | .completion _, word :: _ => throw (.surplusWord word t)
  | _, _ => return .run t a

end CommandLine
end PacketPolicy

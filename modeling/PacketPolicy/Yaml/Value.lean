import PacketPolicy.Decimal.Shortest
import PacketPolicy.Text.Number
import PacketPolicy.Yaml.Node

namespace PacketPolicy
namespace Yaml

inductive Value where
  | null
  | bool (b : Bool)
  | int (n : Int)
  | float (x : Binary)
  | text (s : String)
  | list (items : List Value)
  | map (entries : List (Value × Value))
  deriving Repr, Inhabited

namespace Value

def nullWords : List String :=
  ["", "~", "null", "Null", "NULL"]

def trueWords : List String :=
  ["y", "Y", "yes", "Yes", "YES", "true", "True", "TRUE", "on", "On", "ON"]

def falseWords : List String :=
  ["n", "N", "no", "No", "NO", "false", "False", "FALSE", "off", "Off", "OFF"]

def floatWords : List (String × Binary) := [
  (".nan", .undefined), (".NaN", .undefined), (".NAN", .undefined),
  (".inf", .infinite false), (".Inf", .infinite false), (".INF", .infinite false),
  ("+.inf", .infinite false), ("+.Inf", .infinite false), ("+.INF", .infinite false),
  ("-.inf", .infinite true), ("-.Inf", .infinite true), ("-.INF", .infinite true)]

def digitsValue (cs : List Char) : Nat :=
  cs.foldl (fun n c => n * 10 + (c.toNat - '0'.toNat)) 0

/--
The exponent behind the digits of a number, which is nothing or a mark, an optional sign and digits.
It is limited to five digits, beyond which no number is in range.
-/
def readExponent : List Char → Option Int
  | [] => some 0
  | mark :: cs =>
    if mark != 'e' && mark != 'E' then none
    else
      match cs with
      | '-' :: ds => (number ds).map fun n => -(n : Int)
      | '+' :: ds => (number ds).map Int.ofNat
      | ds => (number ds).map Int.ofNat
where
  number (ds : List Char) : Option Nat :=
    if ds.isEmpty || !ds.all Char.isDigit then none
    else
      let significant := ds.dropWhile (· == '0')
      some (if 5 < significant.length then 100000 else digitsValue significant)

def readUnsigned (negative : Bool) (cs : List Char) : Option Binary := do
  let whole := cs.takeWhile Char.isDigit
  let rest := cs.dropWhile Char.isDigit
  let (fraction, rest) := match rest with
    | '.' :: rest => (rest.takeWhile Char.isDigit, rest.dropWhile Char.isDigit)
    | rest => ([], rest)
  if whole.isEmpty && fraction.isEmpty then none
  else
    let e ← readExponent rest
    match Binary.ofDecimal negative (digitsValue (whole ++ fraction)) (e - fraction.length) with
    | .infinite _ => none
    | x => some x

def readFloat : List Char → Option Binary
  | '-' :: cs => readUnsigned true cs
  | '+' :: cs => readUnsigned false cs
  | cs => readUnsigned false cs

def readMarkedBinary? : List Char → Option Int
  | '0' :: 'b' :: cs => (Text.readSigned (Text.readNatural 2 Text.maxNatural) cs).toOption
  | _ => none

def ofNumber (s : String) : Value :=
  let cs := s.toList.filter (· != '_')
  match Text.readInteger cs with
  | .ok n => .int n
  | .error _ =>
    match Text.readMarked Text.maxNatural cs with
    | .ok n => .int n
    | .error _ =>
      match readFloat cs with
      | some x => .float x
      | none => ((readMarkedBinary? cs).map Value.int).getD (.text s)

def ofFraction (s : String) : Value :=
  match readFloat (s.toList.filter (· != '_')) with
  | some x => if Text.separatorsAllowed s.toList then .float x else .text s
  | none => .text s

def ofPlain (s : String) : Value :=
  if nullWords.contains s then .null
  else if trueWords.contains s then .bool true
  else if falseWords.contains s then .bool false
  else
    match floatWords.lookup s with
    | some x => .float x
    | none =>
      match s.toList with
      | [] => .null
      | c :: _ =>
        if c.isDigit || c == '+' || c == '-' then ofNumber s
        else if c == '.' then ofFraction s
        else .text s

def isCollection : Value → Bool
  | .list _ => true
  | .map _ => true
  | _ => false

def rank : Value → Nat
  | .null => 0
  | .bool _ => 1
  | .int _ => 2
  | .float _ => 3
  | .text _ => 4
  | .list _ => 5
  | .map _ => 6

def precedes : Value → Value → Bool
  | .bool a, .bool b => !a || b
  | .int a, .int b => a ≤ b
  | .float a, .float b => a.notAbove b
  | .text a, .text b => a ≤ b
  | a, b => a.rank ≤ b.rank

structure Entry where
  key : Value
  keyText : String
  text : String

def Entry.hasKeyOf (a b : Entry) : Bool :=
  a.key.rank == b.key.rank && a.keyText == b.keyText

def sorted (entries : List Entry) : List String :=
  let last := entries.foldr (fun e es => if es.any e.hasKeyOf then es else e :: es) []
  (last.mergeSort fun a b => a.key.precedes b.key).map fun e => e.keyText ++ ":" ++ e.text

mutual

def nestedText : Value → String
  | .null => "<nil>"
  | .bool b => if b then "true" else "false"
  | .int n => toString n
  | .float x => x.text
  | .text s => s
  | .list items => "[" ++ String.intercalate " " (itemTexts items) ++ "]"
  | .map entries => "map[" ++ String.intercalate " " (sorted (entryTexts entries)) ++ "]"

def itemTexts : List Value → List String
  | [] => []
  | v :: vs => nestedText v :: itemTexts vs

def entryTexts : List (Value × Value) → List Entry
  | [] => []
  | (k, v) :: rest => ⟨k, nestedText k, nestedText v⟩ :: entryTexts rest

end

def toText : Value → String
  | .null => ""
  | v => nestedText v

mutual

def ofNode : Node → Except Error Value
  | .scalar isPlain s => .ok (if isPlain then ofPlain s else .text s)
  | .sequence items => do return .list (← ofNodes items)
  | .mapping entries => do return .map (← ofEntries entries)

def ofNodes : List Node → Except Error (List Value)
  | [] => .ok []
  | n :: ns => do
    let v ← ofNode n
    let vs ← ofNodes ns
    return v :: vs

def ofEntries : List (Node × Node) → Except Error (List (Value × Value))
  | [] => .ok []
  | (k, v) :: rest => do
    let key ← ofNode k
    let value ← ofNode v
    let entries ← ofEntries rest
    if key.isCollection then .error .mismatch else return (key, value) :: entries

end

end Value

namespace Node

/--
Nothing, as far as fields with a form of their own are concerned: these words mean it also between
quotes.
-/
def isNothing : Node → Bool
  | .scalar isPlain text => text == "null" || text == "~" || (isPlain && text == "")
  | _ => false

def isNull : Node → Bool
  | .scalar isPlain text => isPlain && Value.nullWords.contains text
  | _ => false

def asText (n : Node) : Except Error String :=
  match n with
  | .scalar _ text => .ok (if n.isNull then "" else text)
  | _ => .error .mismatch

def asItems (n : Node) : Except Error (List Node) :=
  match n with
  | .sequence items => .ok items
  | n => if n.isNull then .ok [] else .error .mismatch

def asTexts (n : Node) : Except Error (List String) := do
  (← n.asItems).mapM asText

def asEntries (n : Node) : Except Error (List (String × Node)) :=
  match n with
  | .mapping entries => entries.mapM fun (k, v) => do return (← k.asText, v)
  | n => if n.isNull then .ok [] else .error .mismatch

/--
A number without its fraction. What is out of range for 64 bits is the least number, except if it
lies above.
-/
def asInteger (n : Node) : Except Error Int :=
  match n with
  | .scalar true text =>
    match Value.ofPlain text with
    | .null => .ok 0
    | .int i => if i ≤ Text.maxInteger then .ok i else .error .mismatch
    | .float (.infinite true) => .ok Text.minInteger
    | .float x =>
      match x.truncate? with
      | none => .error .mismatch
      | some i =>
        if Text.maxInteger + 1 < i then .error .mismatch
        else if i < Text.minInteger || Text.maxInteger < i then .ok Text.minInteger
        else .ok i
    | _ => .error .mismatch
  | _ => .error .mismatch

def distinctKeys (entries : List (String × Node)) : Bool :=
  match entries with
  | [] => true
  | (k, _) :: rest => !rest.any (·.1 == k) && distinctKeys rest

end Node
end Yaml
end PacketPolicy

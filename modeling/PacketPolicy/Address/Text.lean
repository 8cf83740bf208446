import PacketPolicy.Text.Number

namespace PacketPolicy
namespace Address

def readOctet (cs : List Char) : Option Nat :=
  match cs with
  | '0' :: _ :: _ => none
  | cs => (Text.readNatural 10 255 cs).toOption

def readQuad (cs : List Char) : Option Nat :=
  match cs.splitOn '.' with
  | [a, b, c, d] => do
    let a ← readOctet a
    let b ← readOctet b
    let c ← readOctet c
    let d ← readOctet d
    return ((a * 256 + b) * 256 + c) * 256 + d
  | _ => none

def quad (n : Nat) : String :=
  String.intercalate "."
    [toString (n / 16777216 % 256), toString (n / 65536 % 256), toString (n / 256 % 256),
      toString (n % 256)]

def readGroup (cs : List Char) : Option Nat :=
  if cs.length ≤ 4 then (Text.readNatural 16 65535 cs).toOption else none

/--
Reads groups in order. Where `tail` allows it, the last one may be a dotted quad, which fills two
groups.
-/
def readGroups (tail : Bool) : List (List Char) → Option (List Nat)
  | [] => some []
  | [last] =>
    if tail && last.contains '.' then
      (readQuad last).map fun n => [n / 65536, n % 65536]
    else
      (readGroup last).map fun g => [g]
  | first :: rest => do
    let g ← readGroup first
    let gs ← readGroups tail rest
    return g :: gs

def splitGap : List Char → Option (List Char × List Char)
  | ':' :: ':' :: cs => some ([], cs)
  | c :: cs => (splitGap cs).map fun (left, right) => (c :: left, right)
  | [] => none

def readSide (tail : Bool) : List Char → Option (List Nat)
  | [] => some []
  | cs => readGroups tail (cs.splitOn ':')

def ofGroups (gs : List Nat) : Nat :=
  gs.foldl (fun n g => n * 65536 + g) 0

def readGrouped (cs : List Char) : Option Nat :=
  match splitGap cs with
  | none => do
    let gs ← readGroups true (cs.splitOn ':')
    if gs.length = 8 then some (ofGroups gs) else none
  | some (left, right) => do
    let ls ← readSide false left
    let rs ← readSide true right
    if ls.length + rs.length < 8 then
      some (ofGroups (ls ++ List.replicate (8 - ls.length - rs.length) 0 ++ rs))
    else
      none

def groups (n : Nat) : List Nat :=
  (List.range 8).map fun i => n / Nat.pow 65536 (7 - i) % 65536

def zerosAt (gs : List Nat) (i : Nat) : Nat :=
  ((gs.drop i).takeWhile (· == 0)).length

def longestGap (gs : List Nat) : Nat × Nat :=
  (List.range gs.length).foldl
    (fun best i => if best.2 < zerosAt gs i then (i, zerosAt gs i) else best) (0, 0)

def groupText (g : Nat) : String :=
  String.ofList (Nat.toDigits 16 g)

def joinGroups (gs : List Nat) : String :=
  String.intercalate ":" (gs.map groupText)

def grouped (n : Nat) : String :=
  let gs := groups n
  let (start, length) := longestGap gs
  if 2 ≤ length then joinGroups (gs.take start) ++ "::" ++ joinGroups (gs.drop (start + length))
  else joinGroups gs

end Address
end PacketPolicy

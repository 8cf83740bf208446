import PacketPolicy.Address.Set

/-!
This module contains the encoding of included and excluded addresses as rules: some prefixes leave
the rule list early, then every pair of a source and a destination prefix has a rule of its own. Of
all ways to encode the two sides the one with the fewest rules is taken.
-/

namespace PacketPolicy

structure Request where
  source : Option (List Prefix)
  sourceExclude : List Prefix
  destination : Option (List Prefix)
  destinationExclude : List Prefix
  deriving Repr, Inhabited

inductive Side where
  | source
  | destination
  deriving DecidableEq, Repr

def Side.word : Side → String
  | .source => "source"
  | .destination => "destination"

/--
One side of a plan: an address matches if it is in `includes` and not in `returns`.
-/
structure Encoding where
  includes : List Prefix
  returns : List Prefix
  deriving DecidableEq, Repr

inductive Plan where
  | empty (side : Side)
  | rules (source destination : Encoding)
  deriving DecidableEq, Repr

namespace Encoding

/--
The encodings of one side in order of preference: the difference itself, the inclusion list behind
early returns for what is excluded of it, and every address behind early returns for the complement.
There is none if the difference is empty.
-/
def candidates (f : Family) (inclusion : Option (List Prefix)) (exclusion : List Prefix) :
    List Encoding :=
  let included := match inclusion with
    | none => [Prefix.all f]
    | some ps => Prefix.collapse (Prefix.ofFamily f ps)
  let excluded := Prefix.collapse (Prefix.ofFamily f exclusion)
  let difference := Prefix.subtract included excluded
  if difference.isEmpty then []
  else
    let common := Prefix.intersect excluded included
    [⟨difference, []⟩]
      ++ (if common.isEmpty then [] else [⟨included, common⟩])
      ++ (if difference == [Prefix.all f] then []
        else [⟨[Prefix.all f], Prefix.complement f difference⟩])

def cost (s d : Encoding) : Nat :=
  s.returns.length + d.returns.length + s.includes.length * d.includes.length

def pairs (ss ds : List Encoding) : List (Encoding × Encoding) :=
  ss.flatMap fun s => ds.map fun d => (s, d)

def cheapest : List (Encoding × Encoding) → Option (Encoding × Encoding)
  | [] => none
  | p :: ps =>
    some (ps.foldl (fun best q => if cost q.1 q.2 < cost best.1 best.2 then q else best) p)

end Encoding

namespace Plan

def ofRequest (f : Family) (r : Request) : Plan :=
  match Encoding.candidates f r.source r.sourceExclude with
  | [] => .empty .source
  | ss =>
    match Encoding.cheapest
      (Encoding.pairs ss (Encoding.candidates f r.destination r.destinationExclude)) with
    | none => .empty .destination
    | some (s, d) => .rules s d

def emptySide? : Plan → Option Side
  | .empty side => some side
  | .rules _ _ => none

def size : Plan → Nat
  | .empty _ => 0
  | .rules s d => Encoding.cost s d

end Plan
end PacketPolicy

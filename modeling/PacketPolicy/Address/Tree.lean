import PacketPolicy.Address.Prefix

/-!
This module contains sets of addresses of one family as binary trees over the address bits, first
bit at the root. No node has two empty or two full children, so a set has one tree, and the full
leaves of the tree are the fewest prefixes that cover the set.
-/

namespace PacketPolicy

inductive PrefixTree where
  | empty
  | full
  | split (low high : PrefixTree)
  deriving DecidableEq, Repr, Inhabited

namespace PrefixTree

def join : PrefixTree → PrefixTree → PrefixTree
  | .empty, .empty => .empty
  | .full, .full => .full
  | low, high => .split low high

def block : (width length address : Nat) → PrefixTree
  | _, 0, _ => .full
  | 0, _ + 1, _ => .full
  | w + 1, l + 1, a =>
    if a.testBit w then .split .empty (block w l a) else .split (block w l a) .empty

def contains : PrefixTree → (width address : Nat) → Bool
  | .empty, _, _ => false
  | .full, _, _ => true
  | .split _ _, 0, _ => false
  | .split low high, w + 1, a => if a.testBit w then high.contains w a else low.contains w a

def union : PrefixTree → PrefixTree → PrefixTree
  | .empty, t => t
  | .full, _ => .full
  | .split a b, .empty => .split a b
  | .split _ _, .full => .full
  | .split a b, .split c d => join (union a c) (union b d)

def diff : PrefixTree → PrefixTree → PrefixTree
  | t, .empty => t
  | _, .full => .empty
  | .empty, .split _ _ => .empty
  | .full, .split c d => join (diff .full c) (diff .full d)
  | .split a b, .split c d => join (diff a c) (diff b d)

def inter : PrefixTree → PrefixTree → PrefixTree
  | .empty, _ => .empty
  | .full, t => t
  | .split _ _, .empty => .empty
  | .split a b, .full => .split a b
  | .split a b, .split c d => join (inter a c) (inter b d)

def leaves (family : Family) (tree : PrefixTree) : List Prefix :=
  go tree family.width 0 0
where
  go : PrefixTree → (width address length : Nat) → List Prefix
    | .empty, _, _, _ => []
    | .full, _, a, l => [.ofNat family a l]
    | .split low high, w, a, l =>
      go low (w - 1) a (l + 1) ++ go high (w - 1) (a + Nat.pow 2 (w - 1)) (l + 1)

def ofPrefixes (family : Family) (ps : List Prefix) : PrefixTree :=
  (ps.filter (·.family == family)).foldl
    (fun tree p => union tree (block family.width p.length p.address)) .empty

end PrefixTree
end PacketPolicy

import PacketPolicy.Address.Tree

/-!
This module contains sets of addresses of both families and the algebra of prefix lists, whose
results are the shortest lists for their sets: IPv4 before IPv6, ascending by address.
-/

namespace PacketPolicy

structure AddressSet where
  v4 : PrefixTree
  v6 : PrefixTree
  deriving DecidableEq, Repr

namespace AddressSet

def ofPrefixes (ps : List Prefix) : AddressSet :=
  ⟨PrefixTree.ofPrefixes .v4 ps, PrefixTree.ofPrefixes .v6 ps⟩

def prefixes (s : AddressSet) : List Prefix :=
  s.v4.leaves .v4 ++ s.v6.leaves .v6

def contains (s : AddressSet) (family : Family) (address : Nat) : Bool :=
  match family with
  | .v4 => s.v4.contains 32 address
  | .v6 => s.v6.contains 128 address

def diff (s t : AddressSet) : AddressSet :=
  ⟨s.v4.diff t.v4, s.v6.diff t.v6⟩

def inter (s t : AddressSet) : AddressSet :=
  ⟨s.v4.inter t.v4, s.v6.inter t.v6⟩

end AddressSet

namespace Prefix

def ofFamily (f : Family) (ps : List Prefix) : List Prefix :=
  ps.filter (·.family == f)

def collapse (ps : List Prefix) : List Prefix :=
  (AddressSet.ofPrefixes ps).prefixes

def subtract (ps qs : List Prefix) : List Prefix :=
  ((AddressSet.ofPrefixes ps).diff (AddressSet.ofPrefixes qs)).prefixes

def intersect (ps qs : List Prefix) : List Prefix :=
  ((AddressSet.ofPrefixes ps).inter (AddressSet.ofPrefixes qs)).prefixes

def complement (f : Family) (ps : List Prefix) : List Prefix :=
  subtract [all f] (ofFamily f ps)

end Prefix
end PacketPolicy

namespace PacketPolicy

inductive Family where
  | v4
  | v6
  deriving DecidableEq, Repr, Inhabited

namespace Family

def width : Family → Nat
  | .v4 => 32
  | .v6 => 128

def title : Family → String
  | .v4 => "IPv4"
  | .v6 => "IPv6"

def keyword : Family → String
  | .v4 => "inet"
  | .v6 => "inet6"

def ofKeyword? (word : String) : Option Family :=
  if word == "inet" then some .v4
  else if word == "inet6" then some .v6
  else none

def icmp : Family → String
  | .v4 => "icmp"
  | .v6 => "icmpv6"

def other : Family → Family
  | .v4 => .v6
  | .v6 => .v4

end Family
end PacketPolicy

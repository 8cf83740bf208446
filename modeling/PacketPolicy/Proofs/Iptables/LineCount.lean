import PacketPolicy.Proofs.Address.Optimum
import PacketPolicy.Proofs.Iptables.Flags

namespace PacketPolicy

open Prefix (Covered)

namespace Iptables
namespace Chain

variable {c : Chain}

def headLines (c : Chain) (parent : String) : List Line :=
  [.declare c.name, .append parent [] (some (.chain c.name))]
    ++ (Comment.lines c.term.comment c.term.owner).map c.commentLine

end Chain

end Iptables
end PacketPolicy

import PacketPolicy.Proofs.Address.Plan

namespace PacketPolicy

open Prefix (Covered)

namespace Encoding

end Encoding

namespace Plan

end Plan
end PacketPolicy

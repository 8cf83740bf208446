import PacketPolicy.Calendar.Expiration
import PacketPolicy.Policy.Term
import PacketPolicy.Render.Icmp
import PacketPolicy.Render.Log

namespace PacketPolicy

structure Clock where
  now : Moment
  weeks : Int
  deriving Repr

def Clock.expiry (clock : Clock) (expiration : Option Moment) : Expiry :=
  Expiry.classify expiration clock.now clock.weeks

def Expiry.log (e : Expiry) (term filter : String) (weeks : Int) : List Log.Entry :=
  let fields := [("filter", Log.Value.text filter), ("term", Log.Value.text term)]
  match e with
  | .notExpiring => []
  | .expiring =>
    [⟨.info, "Term " ++ term ++ " in policy " ++ filter ++ " expires in less than "
      ++ toString weeks ++ " weeks.", fields⟩]
  | .expired =>
    [⟨.warning, "Term " ++ term ++ " in policy " ++ filter
      ++ " is expired and will not be rendered.", fields⟩]

structure Place where
  platform : String
  filter : String
  term : String
  deriving Repr

namespace Place

def fields (p : Place) : List (String × Log.Value) :=
  [("platform", .text p.platform), ("filter", .text p.filter), ("term", .text p.term)]

def foreignProtocol (p : Place) (f : Family) (protocols : List String) : Log.Entry where
  level := .debug
  message := "Term " ++ p.term ++ " will not be rendered, as it has " ++ Icmp.protocolList protocols
    ++ " match specified but the ACL is of " ++ f.keyword ++ " address family."
  fields := p.fields

def noAddresses (p : Place) (f : Family) (side : Side) : Log.Entry where
  level := .debug
  message :=
    "Term " ++ p.term ++ " will not be rendered, as it has no " ++ f.keyword ++ " " ++ side.word
    ++ " addresses."
  fields := p.fields

def expiration (p : Place) (clock : Clock) (e : Expiry) : List Log.Entry :=
  (e.log p.term p.filter clock.weeks).map (Log.Entry.within "platform" p.platform)

end Place
end PacketPolicy

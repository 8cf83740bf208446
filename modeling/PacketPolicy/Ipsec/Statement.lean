import PacketPolicy.Address.Plan
import PacketPolicy.Port.Range

namespace PacketPolicy
namespace Ipsec

/--
One end of a filter. Without an address every address matches, without a port every port.
-/
structure Endpoint where
  address : Option Prefix
  port : Option PortRange
  deriving DecidableEq, Repr

namespace Endpoint

def addressText (e : Endpoint) : String :=
  match e.address with
  | none => "any"
  | some p => p.addressText

def columns (e : Endpoint) (side : String) : String :=
  String.intercalate " "
    ((e.address.map fun p => side ++ "mask=" ++ toString p.length).toList
      ++ (e.port.map fun r => side ++ "port=" ++ r.text).toList)

end Endpoint

inductive FilterAction where
  | permit
  | block
  deriving DecidableEq, Repr

def FilterAction.word : FilterAction → String
  | .permit => "permit"
  | .block => "block"

inductive Statement where
  | remark (text : String)
  | policy (name : String)
  | filterList (name : String)
  | filterAction (name : String) (action : FilterAction)
  | filter (list : String) (source destination : Endpoint) (protocol : String)
  | rule (name owner list action : String)
  | verbatim (text : String)
  deriving DecidableEq, Repr

namespace Statement

def command : String := "netsh ipsec static add "

def protocolText (protocol : String) : String :=
  if protocol == "" then "" else "protocol=" ++ protocol

def trimSpaces (s : String) : String :=
  String.ofList (s.toList.reverse.dropWhile (· == ' ')).reverse

def text : Statement → String
  | .remark text => ": " ++ text
  | .policy name => command ++ "policy name=" ++ name ++ " assign=yes"
  | .filterList name => command ++ "filterlist name=" ++ name
  | .filterAction name action =>
    command ++ "filteraction name=" ++ name ++ " action=" ++ action.word
  | .filter list source destination protocol =>
    trimSpaces (command ++ "filter filterlist=" ++ list ++ " mirrored=yes"
      ++ " srcaddr=" ++ source.addressText ++ " " ++ source.columns "src"
      ++ " dstaddr=" ++ destination.addressText ++ " " ++ destination.columns "dst"
      ++ " " ++ protocolText protocol)
  | .rule name owner list action =>
    command ++ "rule name=" ++ name ++ " policy=" ++ owner ++ " filterlist=" ++ list
      ++ " filteraction=" ++ action
  | .verbatim text => text

end Statement
end Ipsec
end PacketPolicy

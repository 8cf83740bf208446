import PacketPolicy.Text.Blank
import PacketPolicy.Text.Case
import PacketPolicy.Yaml.Value

/-!
This module contains policies as they are written, with names in the place of addresses and ports.
If a key is given twice its last value counts, except that a list of comments is added to the
comments before it.
-/

namespace PacketPolicy
namespace Draft

open Yaml (Node Value)

def wordList (n : Node) : Except Yaml.Error (List String) :=
  if n.isNothing then (if n.isNull then .ok [] else .error .mismatch)
  else do
    match ← Value.ofNode n with
    | .null => return []
    | .list items => return items.map Value.toText
    | v => return Text.words v.toText

/--
The texts of a list behind those before it, or one text in their place.
-/
def textList (before : List String) (n : Node) : Except Yaml.Error (List String) :=
  if n.isNothing then (if n.isNull then .ok [] else .error .mismatch)
  else do
    match ← Value.ofNode n with
    | .null => return before
    | .list items => return before ++ items.map Value.toText
    | v => return [v.toText]

structure Verbatim where
  platform : String := ""
  text : String := ""
  deriving Repr, Inhabited

def Verbatim.set (v : Verbatim) (key : String) (n : Node) : Except Yaml.Error Verbatim := do
  match key with
  | "platform" => return { v with platform := ← n.asText }
  | "text" => return { v with text := ← n.asText }
  | _ => return v

structure Term where
  name : String := ""
  protocol : List String := []
  protocolExcept : List String := []
  sourceAddress : List String := []
  sourceExclude : List String := []
  destinationAddress : List String := []
  destinationExclude : List String := []
  sourcePort : List String := []
  destinationPort : List String := []
  option : List String := []
  icmpType : List String := []
  action : String := ""
  logging : Value := .null
  owner : String := ""
  comment : List String := []
  verbatim : List Verbatim := []
  expiration : String := ""
  sourceInterface : String := ""
  destinationInterface : String := ""
  packetLength : String := ""
  fragmentOffset : String := ""
  etherType : List String := []
  platform : List String := []
  platformExclude : List String := []
  extensions : List (String × String) := []
  deriving Repr, Inhabited

def fill (set : α → String → Node → Except Yaml.Error α) (a : α) (n : Node) :
    Except Yaml.Error α := do
  (← n.asEntries).foldlM (fun a (key, n) => set a key n) a

def fillAll (set : α → String → Node → Except Yaml.Error α) (empty : α) (n : Node) :
    Except Yaml.Error (List α) := do
  (← n.asItems).mapM (fill set empty)

/--
Sets the field of a key. All other keys are extensions. So is the merge key `<<`, whose mapping is
not merged into the term.
-/
def Term.set (t : Term) (key : String) (n : Node) : Except Yaml.Error Term := do
  match key with
  | "name" => return { t with name := ← n.asText }
  | "protocol" => return { t with protocol := ← wordList n }
  | "protocol-except" => return { t with protocolExcept := ← wordList n }
  | "source-address" => return { t with sourceAddress := ← wordList n }
  | "source-exclude" => return { t with sourceExclude := ← wordList n }
  | "destination-address" => return { t with destinationAddress := ← wordList n }
  | "destination-exclude" => return { t with destinationExclude := ← wordList n }
  | "source-port" => return { t with sourcePort := ← wordList n }
  | "destination-port" => return { t with destinationPort := ← wordList n }
  | "option" => return { t with option := ← wordList n }
  | "icmp-type" => return { t with icmpType := ← wordList n }
  | "action" => return { t with action := ← n.asText }
  | "logging" => return { t with logging := ← Value.ofNode n }
  | "owner" => return { t with owner := ← n.asText }
  | "comment" => return { t with comment := ← textList t.comment n }
  | "verbatim" => return { t with verbatim := ← fillAll Verbatim.set {} n }
  | "expiration" => return { t with expiration := ← n.asText }
  | "source-interface" => return { t with sourceInterface := ← n.asText }
  | "destination-interface" => return { t with destinationInterface := ← n.asText }
  | "packet-length" => return { t with packetLength := ← n.asText }
  | "fragment-offset" => return { t with fragmentOffset := ← n.asText }
  | "ether-type" => return { t with etherType := ← wordList n }
  | "platform" => return { t with platform := ← wordList n }
  | "platform-exclude" => return { t with platformExclude := ← wordList n }
  | key =>
    let text := (← Value.ofNode n).toText
    return { t with extensions := t.extensions.filter (·.1 != key) ++ [(key, text)] }

def Term.logs (t : Term) : Bool :=
  let word := Text.lower t.logging.toText
  !(word == "" || word == "false" || word == "disable")

structure Header where
  comment : List String := []
  target : List String := []
  deriving Repr, Inhabited

def Header.set (h : Header) (key : String) (n : Node) : Except Yaml.Error Header := do
  match key with
  | "comment" => return { h with comment := ← textList h.comment n }
  | "target" => return { h with target := ← textList [] n }
  | _ => return h

structure Filter where
  header : Header := {}
  terms : List Term := []
  deriving Repr, Inhabited

/--
A header that is given twice is filled twice, unless the second one is empty.
-/
def Filter.set (f : Filter) (key : String) (n : Node) : Except Yaml.Error Filter := do
  match key with
  | "header" =>
    return { f with header := ← if n.isNull then .ok {} else fill Header.set f.header n }
  | "terms" => return { f with terms := ← fillAll Term.set {} n }
  | _ => return f

structure Policy where
  filters : List Filter := []
  deriving Repr, Inhabited

def Policy.set (p : Policy) (key : String) (n : Node) : Except Yaml.Error Policy := do
  match key with
  | "filters" => return { p with filters := ← fillAll Filter.set {} n }
  | _ => return p

def Policy.ofText (s : String) : Except Yaml.Error Policy := do
  match ← Node.ofText s with
  | none => return {}
  | some n => fill Policy.set {} n

end Draft
end PacketPolicy

import PacketPolicy.Iptables.Block
import PacketPolicy.Text.Case

namespace PacketPolicy
namespace Iptables

def suffix : String := ".ipt"

def builtinChains : List String :=
  ["INPUT", "OUTPUT", "FORWARD"]

def defaultActions : List String :=
  ["ACCEPT", "DROP"]

structure Options where
  common : FilterOptions := {}
  defaultAction : String := ""
  stateful : Bool := true
  deriving DecidableEq, Repr

namespace Options

def add? (o : Options) (word : String) : Option Options :=
  if defaultActions.contains word then some { o with defaultAction := word }
  else if word == "nostate" then some { o with stateful := false }
  else (o.common.add? word).map fun common => { o with common }

def readFrom (filter : String) (o : Options) : List String → Except Fault Options
  | [] =>
    if 1 < o.common.families then .error (FilterOptions.severalFamilies platform filter) else .ok o
  | word :: words =>
    match o.add? word with
    | none => .error (FilterOptions.unknown platform filter word)
    | some o => readFrom filter o words

end Options

structure FilterPart where
  chain : String
  defaultAction : String
  family : Family
  comment : List String
  blocks : List Block
  deriving Repr

def customChainLog (chain : String) : List Log.Entry :=
  if builtinChains.contains chain then []
  else [{
    level := .warning
    message :=
      "Filter is generating a non-standard chain that will not apply to traffic unless linked from "
      ++ "INPUT, OUTPUT or FORWARD filters. New chain name is: " ++ chain
    fields := [("platform", .text platform), ("filter", .text chain)] }]

def renderer (filter : String) (o : Options) : Renderer Matching Block where
  platform := platform
  filter := filter
  family := o.common.family
  check := Matching.ofTerm o.common.family o.stateful
  finish := Block.finish filter o.common.family o.stateful o.common.shortening
  label := Block.name
  emptySide := fun t => (Plan.ofRequest o.common.family t.request).emptySide?

def assembler : Assembler Options Matching Block FilterPart where
  platform := platform
  nameless := "target has no chain"
  readOptions chain := Options.readFrom chain {}
  notices := customChainLog
  renderer := renderer
  assemble chain o f blocks := ⟨chain, o.defaultAction, o.common.family, f.comment, blocks⟩

namespace FilterPart

def ofFilter (clock : Clock) (f : Filter) : Traced Fault FilterPart :=
  assembler.part clock f

/--
The lines that set up the chain of the filter: the default action of a built-in chain, or the
declaration of another one.
-/
def chainLines (p : FilterPart) : Except Fault (List Line) :=
  if builtinChains.contains p.chain then
    if p.defaultAction == "" then .ok []
    else if defaultActions.contains p.defaultAction then .ok [.policy p.chain p.defaultAction]
    else .error (FilterOptions.unknown platform p.chain p.defaultAction)
  else .ok [.declare p.chain]

def headLines (p : FilterPart) : List Line :=
  [.note ("Iptables " ++ p.chain ++ " Policy")]
    ++ p.comment.map (fun c => .note (Filter.commentLine c))
    ++ [.note p.family.keyword]

def lines (p : FilterPart) : Except Fault (List Line) := do
  let chain ← p.chainLines
  let blocks ← p.blocks.mapM fun b => (b.lines p.chain).mapError (·.annotate platform p.chain)
  return p.headLines ++ chain ++ blocks.flatten

def setTarget (chain action : String) (p : FilterPart) : FilterPart :=
  { p with
    chain := if chain == "" then p.chain else chain
    defaultAction := if action == "" then p.defaultAction else Text.upper action }

def setTargetLog (chain : String) (p : FilterPart) : List Log.Entry :=
  if chain == "" || chain == p.chain then [] else customChainLog chain

end FilterPart

structure Document where
  parts : List FilterPart
  deriving Repr

namespace Document

def ofPolicy (clock : Clock) (p : Policy) : Traced Fault Document := do
  let parts ← Policy.build platform (FilterPart.ofFilter clock) p.filters
  return ⟨parts⟩

def setTarget (chain action : String) (d : Document) : Document :=
  ⟨d.parts.map (FilterPart.setTarget chain action)⟩

def setTargetLog (chain : String) (d : Document) : List Log.Entry :=
  d.parts.flatMap (FilterPart.setTargetLog chain)

def partLines : List FilterPart → Except Fault (List Line)
  | [] => .ok []
  | p :: ps => do
    let first ← p.lines
    let rest ← partLines ps
    return first ++ rest

def lines (d : Document) : Except Fault (List Line) :=
  partLines d.parts

def render (d : Document) : Except Fault String := do
  let lines ← d.lines
  return String.join (lines.map fun l => l.text ++ "\n")

def summary (d : Document) : String :=
  match d.render with
  | .ok text => text
  | .error e => "# " ++ e.message ++ "\n"

end Document
end Iptables
end PacketPolicy

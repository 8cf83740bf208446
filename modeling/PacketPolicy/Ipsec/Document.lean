import PacketPolicy.Ipsec.Block

namespace PacketPolicy
namespace Ipsec

def suffix : String := ".bat"

def readOptionsFrom (filter : String) (o : FilterOptions) : List String → Except Fault FilterOptions
  | [] => if 1 < o.families then .error (FilterOptions.severalFamilies platform filter) else .ok o
  | word :: words =>
    match o.add? word with
    | none => .error (FilterOptions.unknown platform filter word)
    | some o => readOptionsFrom filter o words

def renderer (filter : String) (o : FilterOptions) : Renderer FilterAction Block where
  platform := platform
  filter := filter
  family := o.family
  check := check
  finish := Block.finish filter o.family o.shortening
  label := Block.name
  emptySide := fun t => emptySide? o.family t.request

structure FilterPart where
  name : String
  family : Family
  comment : List String
  blocks : List Block
  deriving Repr

def assembler : Assembler FilterOptions FilterAction Block FilterPart where
  platform := platform
  nameless := "target has no policy name"
  readOptions name := readOptionsFrom name {}
  notices _ := []
  renderer := renderer
  assemble name o f blocks := ⟨name, o.family, f.comment, blocks⟩

namespace FilterPart

def ofFilter (clock : Clock) (f : Filter) : Traced Fault FilterPart :=
  assembler.part clock f

def headStatements (p : FilterPart) : List Statement :=
  [.remark ("Windows IPSec " ++ p.name ++ " Policy")]
    ++ p.comment.map (fun c => .remark (Filter.commentLine c))
    ++ [.remark p.family.keyword, .policy (policyName p.name)]

def blockStatements (name : String) : List Block → Except Fault (List Statement)
  | [] => .ok []
  | b :: bs =>
    match b.statements name with
    | .error e => .error (e.annotate platform name)
    | .ok first => do
      let rest ← blockStatements name bs
      return first ++ rest

def statements (p : FilterPart) : Except Fault (List Statement) := do
  let blocks ← blockStatements p.name p.blocks
  return p.headStatements ++ blocks

def setTarget (name : String) (p : FilterPart) : FilterPart :=
  { p with name := if name == "" then p.name else name }

end FilterPart

structure Document where
  parts : List FilterPart
  deriving Repr

namespace Document

def ofPolicy (clock : Clock) (p : Policy) : Traced Fault Document := do
  let parts ← Policy.build platform (FilterPart.ofFilter clock) p.filters
  return ⟨parts⟩

def setTarget (name : String) (d : Document) : Document :=
  ⟨d.parts.map (FilterPart.setTarget name)⟩

def partStatements : List FilterPart → Except Fault (List Statement)
  | [] => .ok []
  | p :: ps => do
    let first ← p.statements
    let rest ← partStatements ps
    return first ++ rest

def statements (d : Document) : Except Fault (List Statement) :=
  partStatements d.parts

def render (d : Document) : Except Fault String := do
  let statements ← d.statements
  return String.join (statements.map fun s => s.text ++ "\n")

def summary (d : Document) : String :=
  match d.render with
  | .ok text => text
  | .error e => ": " ++ e.message ++ "\n"

end Document
end Ipsec
end PacketPolicy

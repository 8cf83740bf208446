import PacketPolicy.Iptables.Block
import PacketPolicy.Proofs.Basic

/-!
This module contains the lines of a term as a list. The statements for its ports are each for one
side, so none of them is refused, and every term has lines.
-/

namespace PacketPolicy
namespace Iptables

theorem portStatement_eq (side : Side) (rs : List PortRange) :
    portStatement rs (side == .source) (side == .destination) = .ok (sidePorts side rs) := by
  cases side <;> rfl

namespace Chain

def portLists (side : Side) (rs : List PortRange) : List (List Clause) :=
  if rs.isEmpty then [[]] else (sidePorts side rs).map fun clause => [clause]

def portClauseLists (c : Chain) (protocol : String) : List (List Clause) :=
  if protocol == "tcp" || protocol == "udp" then
    (portLists .source c.term.sourcePort).flatMap fun s =>
      (portLists .destination c.destinationPorts).map fun d =>
        if 1 < c.term.sourcePort.length && c.destinationPorts.length == 1 then d ++ s else s ++ d
  else [[]]

def shapeList (c : Chain) : List Shape :=
  c.protocols.flatMap fun p => c.protocolShapes p (c.portClauseLists p)

def ruleList (c : Chain) (source destination : Encoding) : List Line :=
  c.ruleLines c.shapeList source destination

def lineList (c : Chain) (parent : String) : List Line :=
  match c.plan with
  | .empty _ => []
  | .rules source destination =>
    [.declare c.name, .append parent [] (some (.chain c.name))]
      ++ (Comment.lines c.term.comment c.term.owner).map c.commentLine
      ++ c.ruleList source destination

theorem optionalPorts_eq (side : Side) (rs : List PortRange) :
    optionalPorts rs (side == .source) (side == .destination) = .ok (portLists side rs) := by
  unfold optionalPorts portLists
  rw [portStatement_eq]
  split <;> rfl

theorem portClauses_eq (c : Chain) (protocol : String) :
    c.portClauses protocol = .ok (c.portClauseLists protocol) := by
  have hsource : optionalPorts c.term.sourcePort true false = _ := optionalPorts_eq .source _
  have hdestination : optionalPorts c.destinationPorts false true = _ :=
    optionalPorts_eq .destination _
  unfold portClauses portClauseLists
  rw [hsource, hdestination]
  split <;> rfl

theorem shapes_eq (c : Chain) : c.shapes = .ok c.shapeList := by
  have hprotocols : ∀ p ∈ c.protocols,
    (do return c.protocolShapes p (← c.portClauses p) : Except Fault _)
      = .ok (c.protocolShapes p (c.portClauseLists p)) := by
    intro p _
    rw [portClauses_eq]
    rfl
  unfold shapes shapeList
  rw [mapM_eq_ok_map hprotocols, List.flatMap_def]
  rfl

theorem lines_eq (c : Chain) (parent : String) : c.lines parent = .ok (c.lineList parent) := by
  unfold lines lineList
  cases c.plan with
  | empty side => rfl
  | rules source destination =>
    dsimp only
    rw [shapes_eq]
    rfl

end Chain

namespace Block

def lineList (parent : String) : Block → List Line
  | .verbatim t => (t.verbatimFor platform).map .verbatim
  | .chain c => c.lineList parent

theorem lines_eq (b : Block) (parent : String) : b.lines parent = .ok (b.lineList parent) := by
  cases b with
  | verbatim t => rfl
  | chain c => exact c.lines_eq parent

end Block
end Iptables
end PacketPolicy

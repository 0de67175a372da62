-- Graphs and their parts as messages show them.
import SymbolicFrames.Graph.Basic
import SymbolicFrames.Instruction.Text

namespace SymbolicFrames

/-- Written as in `block7`. -/
def blockText (id : BlockId) : String := s!"block{id}"

def Block.text (b : Block) : String :=
  Text.record "BasicBlock" [("start", indexText b.start), ("end", indexText b.stop)]

def EdgeKind.text : EdgeKind → String
  | .normal => "Normal"
  | .exception caught => Text.group "Exception" [Text.option (caught.map ClassName.text)]

def Edge.text (e : Edge) : String :=
  Text.record "Edge" [("target", blockText e.target), ("kind", e.kind.text)]

def Graph.text (g : Graph) : String :=
  let nodes := g.nodes.toList
  Text.record "ControlFlowGraph"
    [("blocks", Text.list (nodes.map fun node => node.block.text)),
      ("successors", Text.list (nodes.map fun node => Text.list (node.edges.map Edge.text))),
      ("dangling_edges", Text.list (g.dangling.map blockText))]

end SymbolicFrames

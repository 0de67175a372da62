-- Whether a graph fits a method: there is a first block, every edge joins two blocks, no
-- block is empty or goes past the last instruction, and no two blocks share an instruction.
import SymbolicFrames.Graph.Text

namespace SymbolicFrames

/-- What is wrong with a graph. -/
inductive GraphFault where
  | noEntry
  | danglingEdge (source : BlockId)
  | emptyBlock (id : BlockId)
  | pastEnd (id : BlockId) (stop : Index) (instructions : Nat)
  | unknownTarget (source target : BlockId)
  | overlap (first second : BlockId)
  | unknownBlock (id : BlockId)
  | pastMethod (index : Index)
deriving DecidableEq

def GraphFault.message : GraphFault → String
  | .noEntry => "graph has no entry block"
  | .danglingEdge source => String.join ["edge from unknown block ", blockText source]
  | .emptyBlock id => String.join [blockText id, " is empty"]
  | .pastEnd id stop instructions =>
    String.join
      [blockText id, " ends at ", indexText stop, " but there are only ",
        toString instructions, " instructions"]
  | .unknownTarget source target =>
    String.join [blockText source, " has an edge to unknown ", blockText target]
  | .overlap first second => String.join [blockText first, " overlaps ", blockText second]
  | .unknownBlock id => String.join [blockText id, " is not in the graph"]
  | .pastMethod index => String.join [indexText index, " is past the end of the method"]

namespace Graph

/-- What is wrong with one block or its edges, for a method of so many instructions. -/
def blockFault? (g : Graph) (instructions : Nat) (id : BlockId) (b : Block) : Option GraphFault :=
  if b.isEmpty then
    some (.emptyBlock id)
  else if instructions < b.stop then
    some (.pastEnd id b.stop instructions)
  else
    (g.successors id).findSome? fun edge =>
      if edge.target < g.size then none else some (.unknownTarget id edge.target)

/-- The first of two neighbours in the list that share an instruction. -/
def overlap? : List (BlockId × Block) → Option GraphFault
  | (id₁, b₁) :: (id₂, b₂) :: rest =>
    if b₂.start < b₁.stop then
      some (.overlap id₁ id₂)
    else
      overlap? ((id₂, b₂) :: rest)
  | _ => none

/-- Blocks in the order of their instructions; those that start together stay as they were
added. -/
def sortedBlocks (g : Graph) : List (BlockId × Block) :=
  g.blocks.mergeSort fun (_, a) (_, b) => decide (a.start ≤ b.start)

/-- The first thing found wrong with the graph, if any. -/
def fault? (g : Graph) (instructions : Nat) : Option GraphFault :=
  if g.isEmpty then
    some .noEntry
  else
    match g.dangling with
    | source :: _ => some (.danglingEdge source)
    | [] =>
      (g.blocks.findSome? fun (id, b) => g.blockFault? instructions id b).or
        (overlap? g.sortedBlocks)

end Graph

end SymbolicFrames

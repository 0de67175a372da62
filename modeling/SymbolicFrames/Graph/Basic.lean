-- The control flow of a method: blocks of consecutive instructions and the edges between
-- them. Whoever cut the method into blocks builds the graph, block by block and edge by edge.
import SymbolicFrames.Instruction.Basic

namespace SymbolicFrames

/-- Number of a block, in the order in which blocks were added. -/
abbrev BlockId := Nat

/-- Instructions from `start` up to, but without, `stop`. -/
structure Block where
  start : Index
  stop : Index
deriving DecidableEq

namespace Block

def size (b : Block) : Nat := b.stop - b.start

def isEmpty (b : Block) : Bool := b.size == 0

def indices (b : Block) : List Index := List.range' b.start b.size

/-- The part of a sequence of instructions that the block covers. -/
def slice (b : Block) (instructions : List Instruction) : List Instruction :=
  (instructions.drop b.start).take b.size

end Block

inductive EdgeKind where
  /-- Control falls through, jumps or goes to a subroutine at the end of the block. -/
  | normal
  /-- An exception of the class, or any, is caught wherever it arises in the block. -/
  | exception (caught : Option ClassName)
deriving DecidableEq

structure Edge where
  target : BlockId
  kind : EdgeKind
deriving DecidableEq

/-- A block with the edges that leave it, in the order in which they were added. -/
structure Node where
  block : Block
  edges : List Edge
deriving DecidableEq

structure Graph where
  nodes : Array Node
  /-- Sources of edges that were added before their block, in order. The edges are lost. -/
  dangling : List BlockId
deriving DecidableEq

namespace Graph

def empty : Graph := { nodes := #[], dangling := [] }

/-! ## Building -/

def addBlock (g : Graph) (start stop : Index) : Graph :=
  { g with nodes := g.nodes.push { block := ⟨start, stop⟩, edges := [] } }

/-- One block of so many instructions. -/
def single (instructions : Nat) : Graph := empty.addBlock 0 instructions

def insertEdge (g : Graph) (source : BlockId) (edge : Edge) : Graph :=
  if source < g.nodes.size then
    { g with
      nodes := g.nodes.modify source fun node => { node with edges := node.edges ++ [edge] } }
  else
    { g with dangling := g.dangling ++ [source] }

def addEdge (g : Graph) (source target : BlockId) : Graph :=
  g.insertEdge source ⟨target, .normal⟩

def addExceptionEdge (g : Graph) (source handler : BlockId) (caught : Option ClassName) : Graph :=
  g.insertEdge source ⟨handler, .exception caught⟩

/-! ## Looking up -/

/-- The block that was added first. -/
def entry : BlockId := 0

def size (g : Graph) : Nat := g.nodes.size

def isEmpty (g : Graph) : Bool := g.nodes.isEmpty

def block? (g : Graph) (id : BlockId) : Option Block := g.nodes[id]?.map Node.block

/-- Edges out of a block; none out of a block that is not there. -/
def successors (g : Graph) (id : BlockId) : List Edge :=
  match g.nodes[id]? with
  | some node => node.edges
  | none => []

/-- Every block with its number. -/
def blocks (g : Graph) : List (BlockId × Block) :=
  g.nodes.toList.zipIdx.map fun (node, id) => (id, node.block)

end Graph

end SymbolicFrames

import Casework.Task

/-!
# The graph of a workflow

Tasks are numbered in the order of their names. Nodes are placed one by one, of those whose
predecessors are all placed always the least. If some node is never placed the requirements have a
cycle, and the error names a task on one.
-/

namespace Casework

/-! ## Increasing lists of nodes -/

def insertNode (n : Nat) : List Nat → List Nat
  | [] => [n]
  | m :: l => if n < m then n :: m :: l else if n = m then m :: l else m :: insertNode n l

def sortNodes (l : List Nat) : List Nat := l.foldr insertNode []

/-! ## Links

Requirements become lists of numbers in increasing order, kept in both directions; a repeated
requirement is one link.
-/

structure Links where
  names : Array String
  predecessors : Array (List Nat)
  successors : Array (List Nat)
  deriving DecidableEq, Repr, Inhabited

namespace Links

variable (l : Links)

def size : Nat := l.names.size

def name (n : Nat) : String := l.names.getD n ""

def node? (name : String) : Option Nat := l.names.toList.idxOf? name

def preds (n : Nat) : List Nat := l.predecessors.getD n []

def succs (n : Nat) : List Nat := l.successors.getD n []

def resolve (names : List String) (task : String) : List String → Except WorkflowError (List Nat)
  | [] => .ok []
  | d :: ds =>
    match names.idxOf? d with
    | none => .error (.unknownDependency task d)
    | some i => (resolve names task ds).map (i :: ·)

def resolveAll (names : List String) : List (String × Task) → Except WorkflowError (List (List Nat))
  | [] => .ok []
  | (name, t) :: ts =>
    match resolve names name t.requires with
    | .error e => .error e
    | .ok ps => (resolveAll names ts).map (sortNodes ps :: ·)

def reversed (preds : List (List Nat)) : List (List Nat) :=
  let nodes := List.range preds.length
  nodes.map fun p => nodes.filter fun n => (preds.getD n []).contains p

def ofTasks (tasks : NameMap Task) : Except WorkflowError Links :=
  (resolveAll tasks.keys tasks.entries).map fun ps =>
    ⟨tasks.keys.toArray, ps.toArray, (reversed ps).toArray⟩

end Links

/-! ## Placing nodes -/

/-- How far placing has come: for each node the number of its predecessors not yet placed, the nodes
that may be placed next in increasing order, and the placed ones, the latest first. -/
structure Placement where
  degrees : Array Nat
  ready : List Nat
  placed : List Nat
  deriving Repr

namespace Placement

def start (l : Links) : Placement :=
  let degrees := l.predecessors.map List.length
  ⟨degrees, (List.range l.size).filter fun n => degrees.getD n 0 = 0, []⟩

def release (p : Placement) (n : Nat) : Placement :=
  let d := p.degrees.getD n 0 - 1
  ⟨p.degrees.set! n d, if d = 0 then insertNode n p.ready else p.ready, p.placed⟩

def place (l : Links) (p : Placement) (n : Nat) : Placement :=
  (l.succs n).foldl release { p with placed := n :: p.placed }

def advance (l : Links) : Nat → Placement → Placement
  | 0, p => p
  | fuel + 1, p =>
    match p.ready with
    | [] => p
    | n :: rest => advance l fuel (place l { p with ready := rest } n)

/-- No node is placed twice, so one round for each node is enough. -/
def run (l : Links) : Placement := advance l l.size (start l)

def remaining (l : Links) (p : Placement) : List Nat :=
  (List.range l.size).filter fun n => 0 < p.degrees.getD n 0

end Placement

/-! ## A node on a cycle -/

/-- Steps from `n` to the first predecessor in `left`, over and over, until a node is met again. -/
def walkBack (l : Links) (left : List Nat) (unseen : List Nat) (n : Nat) : Nat :=
  if _h : n ∈ unseen then
    match (l.preds n).find? left.contains with
    | some p => walkBack l left (unseen.erase n) p
    | none => n
  else n
termination_by unseen.length
decreasing_by
  have := List.length_erase_of_mem ‹n ∈ unseen›
  have := List.length_pos_of_mem ‹n ∈ unseen›
  omega

def nodeOnCycle (l : Links) (left : List Nat) : Nat :=
  walkBack l left (List.range l.size) (left.headD 0)

/-! ## Graphs -/

structure Graph extends Links where
  order : List Nat
  deriving DecidableEq, Repr, Inhabited

namespace Graph

def ofLinks (l : Links) : Except WorkflowError Graph :=
  let p := Placement.run l
  if p.placed.length = l.size then .ok ⟨l, p.placed.reverse⟩
  else .error (.cyclicDependency (l.name (nodeOnCycle l (p.remaining l))))

def build (tasks : NameMap Task) : Except WorkflowError Graph := do ofLinks (← Links.ofTasks tasks)

def orderedNames (g : Graph) : List String := g.order.map g.name

/-! ## Levels -/

def depthOf (g : Graph) (depths : Array Nat) (n : Nat) : Nat :=
  (g.preds n).foldl (fun d p => max d (depths.getD p 0 + 1)) 0

/-- The number of links on the longest chain that ends in each node. -/
def depths (g : Graph) : Array Nat :=
  g.order.foldl (fun ds n => ds.set! n (g.depthOf ds n)) (Array.replicate g.size 0)

def height (g : Graph) : Nat := g.order.foldl (fun h n => max h (g.depths.getD n 0 + 1)) 0

def levelNodes (g : Graph) : List (List Nat) :=
  let ds := g.depths
  (List.range g.height).map fun k => g.order.filter fun n => ds.getD n 0 = k

def levels (g : Graph) : List (List String) := g.levelNodes.map fun ns => ns.map g.name

end Graph

end Casework

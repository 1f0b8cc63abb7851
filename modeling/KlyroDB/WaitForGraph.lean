import KlyroDB.CoreTypes

/-!
# The wait-for graph

`concurrency/wait_for_graph.cpp`.  The depth-first search walks unordered
containers, so it is modelled for an arbitrary enumeration of them.
-/

namespace KlyroDB

abbrev WaitForGraph := AList fun _ : Nat => List Nat

/-- The containers that `dfs_visit` passes along by reference. -/
structure DfsState where
  visited : List Nat := []
  stack : List Nat := []
  cyclePath : List Nat := []
  deriving DecidableEq, Repr

namespace WaitForGraph

def addEdge (graph : WaitForGraph) (waiting holding : Nat) : WaitForGraph :=
  if waiting = holding then graph
  else graph.insert waiting (((graph.lookup waiting).getD []).insert holding)

def removeEdge (graph : WaitForGraph) (waiting holding : Nat) : WaitForGraph :=
  match graph.lookup waiting with
  | none => graph
  | some holders =>
      if (holders.erase holding).isEmpty then graph.erase waiting
      else graph.insert waiting (holders.erase holding)

def removeTransaction (graph : WaitForGraph) (txn : Nat) : WaitForGraph :=
  let outgoing := graph.erase txn
  outgoing.keys.foldl (fun rest waiting => removeEdge rest waiting txn) outgoing

def visitNeighbors (visit : Nat → DfsState → Bool × DfsState) :
    List Nat → DfsState → Bool × DfsState
  | [], state => (false, state)
  | neighbor :: rest, state =>
      if neighbor ∈ state.stack then
        (true, { state with cyclePath := state.cyclePath ++ [neighbor] })
      else if neighbor ∈ state.visited then visitNeighbors visit rest state
      else
        match visit neighbor state with
        | (true, found) => (true, found)
        | (false, next) => visitNeighbors visit rest next

/-- `dfs_visit`; the first argument bounds the depth of the recursion. -/
def dfsVisit (graph : WaitForGraph) (enumeration : Enumeration) :
    Nat → Nat → DfsState → Bool × DfsState
  | 0, _, state => (false, state)
  | depth + 1, node, state =>
      let entered : DfsState :=
        { visited := node :: state.visited
          stack := node :: state.stack
          cyclePath := state.cyclePath ++ [node] }
      match visitNeighbors (dfsVisit graph enumeration depth)
          (enumeration.order ((graph.lookup node).getD [])) entered with
      | (true, found) => (true, found)
      | (false, left) =>
          (false, { left with
            stack := left.stack.erase node
            cyclePath := left.cyclePath.dropLast })

/-- The largest identifier on the recorded path. -/
def victim (path : List Nat) : Nat :=
  path.foldl (fun best txn => if best < txn then txn else best) (path.headD 0)

/-- The outer loop of `detect_cycle`.  All nodes on the stack but the last
have outgoing edges, so one more than the number of keys is depth enough. -/
def detectFrom (graph : WaitForGraph) (enumeration : Enumeration) : List Nat → DfsState → Option Nat
  | [], _ => none
  | node :: rest, state =>
      if node ∈ state.visited then detectFrom graph enumeration rest state
      else
        match dfsVisit graph enumeration (graph.keys.length + 1) node
            { state with cyclePath := [] } with
        | (true, found) => some (victim found.cyclePath)
        | (false, next) => detectFrom graph enumeration rest next

def detectCycle (graph : WaitForGraph) (enumeration : Enumeration) : Option Nat :=
  detectFrom graph enumeration (enumeration.order graph.keys) {}

end WaitForGraph

end KlyroDB

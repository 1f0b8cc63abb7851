import KlyroDB.WaitForEdges
import Mathlib.Data.List.Chain

/-!
# The search for deadlocks

The stack of the depth-first search is a path without repetitions.  The search
succeeds when the path runs into itself; the victim is the largest node of the
whole path, also of the part in front of that point.
-/

namespace KlyroDB

namespace WaitForGraph

variable {graph : WaitForGraph}

/-- Every walk from the node ends. -/
def Finished (graph : WaitForGraph) (node : Nat) : Prop :=
  Acc (fun later earlier => graph.Edge earlier later) node

/-- A path, last node first, that runs into itself. -/
structure Lasso (graph : WaitForGraph) (stack : List Nat) (closing : Nat) : Prop where
  distinct : stack.Nodup
  chain : stack.IsChain fun later earlier => graph.Edge earlier later
  closes : ∃ top rest, stack = top :: rest ∧ graph.Edge top closing
  inside : closing ∈ stack

structure OnPath (graph : WaitForGraph) (state : DfsState) : Prop where
  distinct : state.stack.Nodup
  chain : state.stack.IsChain fun later earlier => graph.Edge earlier later
  path : state.cyclePath = state.stack.reverse
  left_ : ∀ node ∈ state.visited, node ∈ state.stack ∨ graph.Finished node

def Ends (graph : WaitForGraph) (before : DfsState) (done : List Nat)
    (result : Bool × DfsState) : Prop :=
  if result.1 then
    ∃ stack closing, graph.Lasso stack closing ∧ result.2.cyclePath = stack.reverse ++ [closing]
  else
    graph.OnPath result.2 ∧ result.2.stack = before.stack ∧ ∀ node ∈ done, graph.Finished node

theorem Finished.acyclic {node : Nat} (finished : graph.Finished node) :
    ¬Relation.TransGen graph.Edge node node := by
  induction finished with
  | intro node _ induction =>
    intro cycle
    obtain ⟨next, edge, back⟩ := Relation.TransGen.head'_iff.mp cycle
    exact induction next edge (Relation.TransGen.tail' back edge)

theorem mem_keys_of_edge {node next : Nat} (edge : graph.Edge node next) : node ∈ graph.keys := by
  by_contra absent
  rw [Edge, AList.lookup_eq_none.mpr absent] at edge
  cases edge

/-- The top of a path is reached from every node of it. -/
theorem reaches_top {top : Nat} {rest : List Nat}
    (chain : (top :: rest).IsChain fun later earlier => graph.Edge earlier later) {node : Nat}
    (mem : node ∈ top :: rest) : Relation.ReflTransGen graph.Edge node top := by
  induction rest generalizing top with
  | nil => rw [List.mem_singleton.mp mem]
  | cons second rest induction =>
    rw [List.isChain_cons_cons] at chain
    rcases List.mem_cons.mp mem with rfl | below
    · exact .refl
    · exact (induction chain.2 below).tail chain.1

theorem Lasso.cycle {stack : List Nat} {closing : Nat} (lasso : graph.Lasso stack closing) :
    Relation.TransGen graph.Edge closing closing := by
  obtain ⟨top, rest, rfl, edge⟩ := lasso.closes
  exact Relation.TransGen.tail' (reaches_top lasso.chain lasso.inside) edge

/-- The loop over the neighbours of the top of the stack, for a visit that ends
well and another one that agrees with it. -/
theorem visitNeighbors_ends {visit again : Nat → DfsState → Bool × DfsState} {node : Nat}
    {rest : List Nat}
    (visits : ∀ neighbor state, graph.OnPath state → state.stack = node :: rest →
      neighbor ∉ state.stack → graph.Edge node neighbor →
      graph.Ends state [neighbor] (visit neighbor state) ∧
        again neighbor state = visit neighbor state)
    {neighbors : List Nat} (edges : ∀ neighbor ∈ neighbors, graph.Edge node neighbor)
    {state : DfsState} (onPath : graph.OnPath state) (top : state.stack = node :: rest) :
    graph.Ends state neighbors (visitNeighbors visit neighbors state) ∧
      visitNeighbors again neighbors state = visitNeighbors visit neighbors state := by
  induction neighbors generalizing state with
  | nil => exact ⟨⟨onPath, rfl, by simp⟩, rfl⟩
  | cons neighbor neighbors induction =>
    have edge := edges neighbor List.mem_cons_self
    have others := fun other mem => edges other (List.mem_cons_of_mem neighbor mem)
    have more : ∀ {next result}, graph.Finished neighbor → next.stack = state.stack → graph.Ends
        next neighbors result → graph.Ends state (neighbor :: neighbors) result := by
      intro next result finished stack ends
      unfold Ends at ends ⊢
      split_ifs at ends ⊢
      · exact ends
      · exact ⟨ends.1, ends.2.1.trans stack, List.forall_mem_cons.mpr ⟨finished, ends.2.2⟩⟩
    rw [visitNeighbors, visitNeighbors]
    by_cases closing : neighbor ∈ state.stack
    · rw [if_pos closing, if_pos closing]
      exact ⟨⟨state.stack, neighbor, ⟨onPath.distinct, onPath.chain, ⟨node, rest, top, edge⟩,
        closing⟩, by simp [onPath.path]⟩, rfl⟩
    rw [if_neg closing, if_neg closing]
    by_cases seen : neighbor ∈ state.visited
    · rw [if_pos seen, if_pos seen]
      obtain ⟨ends, same⟩ := induction others onPath top
      exact ⟨more ((onPath.left_ neighbor seen).resolve_left closing) rfl ends, same⟩
    rw [if_neg seen, if_neg seen]
    obtain ⟨ends, same⟩ := visits neighbor state onPath top closing edge
    rw [same]
    generalize visit neighbor state = result at ends
    obtain ⟨found, next⟩ := result
    cases found with
    | true => exact ⟨ends, rfl⟩
    | false =>
      obtain ⟨nextOnPath, stack, finished⟩ := ends
      obtain ⟨ends, same⟩ := induction others nextOnPath (stack.trans top)
      exact ⟨more (finished neighbor (List.mem_singleton_self _)) stack ends, same⟩

theorem edge_iff_mem_order (enumeration : Enumeration) {node neighbor : Nat} :
    graph.Edge node neighbor ↔ neighbor ∈ enumeration.order ((graph.lookup node).getD []) :=
  (enumeration.perm _).mem_iff.symm

/-- A visit ends well, and more depth changes nothing. -/
theorem dfsVisit_ends (enumeration : Enumeration) (extra : Nat) {depth node : Nat}
    {state : DfsState} (onPath : graph.OnPath state) (waiting : state.stack ⊆ graph.keys)
    (new : node ∉ state.stack) (linked : ∀ top ∈ state.stack.head?, graph.Edge top node)
    (deep : graph.keys.length < state.stack.length + depth) :
    graph.Ends state [node] (dfsVisit graph enumeration depth node state) ∧
      dfsVisit graph enumeration (depth + extra) node state =
        dfsVisit graph enumeration depth node state := by
  induction depth generalizing node state with
  | zero =>
    have := (List.subperm_of_subset onPath.distinct waiting).length_le
    omega
  | succ depth induction =>
    let entered : DfsState :=
      { visited := node :: state.visited
        stack := node :: state.stack
        cyclePath := state.cyclePath ++ [node] }
    have enters : graph.OnPath entered := by
      refine ⟨List.nodup_cons.mpr ⟨new, onPath.distinct⟩, List.isChain_cons.mpr
        ⟨linked, onPath.chain⟩, by simp [entered, onPath.path], ?_⟩
      intro other mem
      rcases List.mem_cons.mp mem with rfl | before
      · exact .inl List.mem_cons_self
      · exact (onPath.left_ other before).imp_left (List.mem_cons_of_mem node)
    obtain ⟨ends, same⟩ := @visitNeighbors_ends graph (dfsVisit graph enumeration depth)
      (dfsVisit graph enumeration (depth + extra)) node state.stack (by
        intro neighbor next nextOnPath stack outside edge
        apply induction nextOnPath ?_ outside
        · intro top mem
          rw [stack] at mem
          cases mem
          exact edge
        · rw [stack, List.length_cons]
          omega
        · rw [stack]
          exact List.cons_subset.mpr ⟨mem_keys_of_edge edge, waiting⟩)
      (enumeration.order ((graph.lookup node).getD []))
      (fun neighbor mem => (edge_iff_mem_order enumeration).mpr mem) entered enters rfl
    rw [Nat.add_right_comm, dfsVisit, dfsVisit, same]
    refine ⟨?_, rfl⟩
    generalize visitNeighbors (dfsVisit graph enumeration depth)
      (enumeration.order ((graph.lookup node).getD [])) entered = result at ends ⊢
    obtain ⟨found, left⟩ := result
    cases found with
    | true => exact ends
    | false =>
      obtain ⟨leftOnPath, stack, finished⟩ := ends
      change graph.OnPath left at leftOnPath
      change left.stack = node :: state.stack at stack
      have done : graph.Finished node :=
        .intro node fun next edge => finished next ((edge_iff_mem_order enumeration).mp edge)
      have erased : left.stack.erase node = state.stack := by simp [stack]
      refine ⟨⟨?_, ?_, ?_, ?_⟩, erased, by simpa using done⟩
      · simpa [erased] using onPath.distinct
      · simpa [erased] using onPath.chain
      · simp [leftOnPath.path, stack]
      intro other mem
      rcases leftOnPath.left_ other mem with onStack | gone
      · rw [stack] at onStack
        rcases List.mem_cons.mp onStack with rfl | below
        · exact .inr done
        · exact .inl (by simpa [erased] using below)
      · exact .inr gone

theorem detectFrom_ends (enumeration : Enumeration) {nodes : List Nat} {state : DfsState}
    (start : state.stack = []) (before : ∀ node ∈ state.visited, graph.Finished node) :
    (∀ result, detectFrom graph enumeration nodes state = some result →
      ∃ stack closing, graph.Lasso stack closing ∧ result = victim (stack.reverse ++ [closing])) ∧
    (detectFrom graph enumeration nodes state = none → ∀ node ∈ nodes, graph.Finished node) := by
  induction nodes generalizing state with
  | nil => simp [detectFrom]
  | cons node nodes induction =>
    rw [detectFrom, List.forall_mem_cons]
    by_cases seen : node ∈ state.visited
    · rw [if_pos seen]
      obtain ⟨found, none⟩ := induction start before
      exact ⟨found, fun nothing => ⟨before node seen, none nothing⟩⟩
    rw [if_neg seen]
    obtain ⟨ends, -⟩ := @dfsVisit_ends graph enumeration 0 (graph.keys.length + 1) node
      { state with cyclePath := [] } ⟨by simp [start], by simp [start], by simp [start], fun other
      mem => .inr (before other mem)⟩ (by simp [start]) (by simp [start]) (by simp [start])
      (by simp [start])
    generalize dfsVisit graph enumeration (graph.keys.length + 1) node
      { state with cyclePath := [] } = result at ends ⊢
    obtain ⟨found, next⟩ := result
    cases found with
    | true =>
      obtain ⟨stack, closing, lasso, path⟩ := ends
      refine ⟨fun result here => ⟨stack, closing, lasso, ?_⟩, by simp⟩
      rw [← path]
      exact (Option.some.inj here).symm
    | false =>
      obtain ⟨onPath, stack, finished⟩ := ends
      have empty : next.stack = [] := stack.trans start
      obtain ⟨found, none⟩ := @induction next empty fun other mem =>
        (onPath.left_ other mem).resolve_left (by simp [empty])
      exact ⟨found, fun nothing =>
        ⟨finished node (List.mem_singleton_self _), none nothing⟩⟩

/-- In whatever order nodes and neighbours are enumerated, the search ends, with
any depth above the number of waiting transactions in the same way, and finds a
victim exactly when there is a cycle. -/
theorem detectCycle_isSome_iff (graph : WaitForGraph) (enumeration : Enumeration) :
    ((detectCycle graph enumeration).isSome = true ↔
      ∃ node, Relation.TransGen graph.Edge node node) ∧
    ∀ node visited extra, (∀ other ∈ visited, graph.Finished other) →
      dfsVisit graph enumeration (graph.keys.length + 1 + extra) node { visited := visited } =
        dfsVisit graph enumeration (graph.keys.length + 1) node { visited := visited } := by
  constructor
  · obtain ⟨found, none⟩ := @detectFrom_ends graph enumeration (enumeration.order graph.keys) {}
      rfl (by simp)
    constructor
    · intro some
      obtain ⟨result, here⟩ := Option.isSome_iff_exists.mp some
      obtain ⟨_, closing, lasso, -⟩ := found result here
      exact ⟨closing, lasso.cycle⟩
    rintro ⟨node, cycle⟩
    by_contra nothing
    obtain ⟨next, edge, -⟩ := Relation.TransGen.head'_iff.mp cycle
    have key := (enumeration.perm graph.keys).mem_iff.mpr (mem_keys_of_edge edge)
    exact (none (Option.not_isSome_iff_eq_none.mp nothing) node key).acyclic cycle
  · intro node visited extra before
    exact (dfsVisit_ends enumeration extra ⟨List.nodup_nil, .nil, rfl, fun other member => .inr
      (before other member)⟩ (by simp) (by simp) (by simp) (by simp)).2

/-- The node lies on a directed cycle and is the largest node of it. -/
def LargestOnCycle (graph : WaitForGraph) (node : Nat) : Prop :=
  Relation.TransGen (fun first second => graph.Edge first second ∧ first ≤ node ∧ second ≤ node)
    node node

def prefer (graph : WaitForGraph) (node next : Nat) : WaitForGraph :=
  graph.insert node (next :: ((graph.lookup node).getD []).erase next)

def steer : List Nat → Nat → WaitForGraph → WaitForGraph
  | [], _, graph => graph
  | node :: rest, next, graph => steer rest node (graph.prefer node next)

def Leads (graph : WaitForGraph) : List Nat → Nat → Prop
  | [], _ => True
  | node :: rest, next => (∃ others, graph.lookup node = some (next :: others)) ∧
      graph.Leads rest node

theorem edge_prefer {node next : Nat} (edge : graph.Edge node next) :
    (graph.prefer node next).Edge = graph.Edge := by
  funext first second
  apply propext
  unfold Edge prefer at *
  by_cases same : first = node
  · subst same
    by_cases here : second = next
    · simp [here, edge]
    · simp [here, List.mem_erase_of_ne here]
  · rw [AList.lookup_insert_ne same]

theorem edge_steer {stack : List Nat} {next : Nat}
    (chain : (next :: stack).IsChain fun later earlier => graph.Edge earlier later) :
    (graph.steer stack next).Edge = graph.Edge := by
  induction stack generalizing graph next with
  | nil => rfl
  | cons node rest induction =>
    rw [List.isChain_cons_cons] at chain
    have same := edge_prefer chain.1
    rw [steer, induction (by rw [same]; exact chain.2), same]

theorem lookup_steer {stack : List Nat} {next node : Nat} (outside : node ∉ stack) :
    (steer stack next graph).lookup node = graph.lookup node := by
  induction stack generalizing graph next with
  | nil => rfl
  | cons top rest induction =>
    rw [List.mem_cons, not_or] at outside
    rw [steer, induction outside.2, prefer, AList.lookup_insert_ne outside.1]

theorem leads_steer {stack : List Nat} (distinct : stack.Nodup) (next : Nat) :
    (graph.steer stack next).Leads stack next := by
  induction stack generalizing graph next with
  | nil => trivial
  | cons node rest induction =>
    obtain ⟨outside, distinct⟩ := List.nodup_cons.mp distinct
    refine ⟨⟨((graph.lookup node).getD []).erase next, ?_⟩, induction distinct node⟩
    rw [steer, lookup_steer outside, prefer, AList.lookup_insert]

/-- The first node of the path is enumerated first. -/
theorem keys_steer (front : List Nat) (root next : Nat) :
    ∃ others, (graph.steer (front ++ [root]) next).keys = root :: others := by
  induction front generalizing graph next with
  | nil => exact ⟨_, AList.keys_insert graph⟩
  | cons node front induction => exact induction node

theorem Leads.next {front below : List Nat} {next node closing : Nat}
    (leads : graph.Leads (front ++ next :: node :: below) closing) :
    ∃ others, graph.lookup node = some (next :: others) := by
  induction front generalizing closing with
  | nil => exact leads.2.1
  | cons top front induction => exact induction leads.2

theorem Leads.subset_keys {stack : List Nat} {next : Nat} (leads : graph.Leads stack next) :
    stack ⊆ graph.keys := by
  induction stack generalizing next with
  | nil => exact List.nil_subset _
  | cons node rest induction =>
    obtain ⟨⟨others, first⟩, leads⟩ := leads
    have edge : graph.Edge node next := by simp [Edge, first]
    exact List.cons_subset.mpr ⟨mem_keys_of_edge edge, induction leads⟩

/-- The search follows the preferred edges to the end of the path. -/
theorem dfsVisit_leads {above below : List Nat} {node closing depth : Nat}
    (leads : graph.Leads (above ++ node :: below) closing)
    (distinct : (above ++ node :: below).Nodup) (inside : closing ∈ above ++ node :: below)
    (deep : above.length < depth) :
    ∃ found, dfsVisit graph .stored depth node
        { visited := below, stack := below, cyclePath := below.reverse } = (true, found) ∧
      found.cyclePath = (above ++ node :: below).reverse ++ [closing] := by
  have order : ∀ items, Enumeration.stored.order items = items := fun _ => rfl
  obtain ⟨depth, rfl⟩ : ∃ less, depth = less + 1 := ⟨depth - 1, by omega⟩
  induction above using List.reverseRecOn generalizing node below depth with
  | nil =>
    obtain ⟨others, first⟩ := leads.1
    rw [List.nil_append] at inside
    refine ⟨⟨node :: below, node :: below, below.reverse ++ [node] ++ [closing]⟩, ?_, by simp⟩
    simp only [dfsVisit, order, first, Option.getD_some, visitNeighbors, inside, if_true]
  | append_singleton front next induction =>
    rw [List.append_assoc, List.singleton_append] at leads distinct inside ⊢
    obtain ⟨others, first⟩ := leads.next
    have new : next ∉ node :: below := (List.nodup_cons.mp (List.nodup_append.mp distinct).2.1).1
    rw [List.length_append, List.length_singleton] at deep
    obtain ⟨more, rfl⟩ : ∃ more, depth = more + 1 := ⟨depth - 1, by omega⟩
    obtain ⟨found, visit, path⟩ := induction leads distinct inside more (by omega)
    refine ⟨found, ?_, path⟩
    rw [dfsVisit]
    simp only [order, first, Option.getD_some, visitNeighbors, new, if_false,
      ← List.reverse_cons, visit]

theorem detectCycle_steer {stack : List Nat} {closing : Nat} (lasso : graph.Lasso stack closing) :
    detectCycle (steer stack closing graph) .stored =
      some (victim (stack.reverse ++ [closing])) := by
  have leads := @leads_steer graph stack lasso.distinct closing
  have long := (List.subperm_of_subset lasso.distinct leads.subset_keys).length_le
  rcases List.eq_nil_or_concat' stack with rfl | ⟨front, root, rfl⟩
  · cases lasso.inside
  obtain ⟨others, keys⟩ := @keys_steer graph front root closing
  have deep : front.length < (steer (front ++ [root]) closing graph).keys.length + 1 := by
    rw [List.length_append] at long
    omega
  obtain ⟨found, visit, path⟩ := dfsVisit_leads leads lasso.distinct lasso.inside deep
  have start : Enumeration.stored.order (steer (front ++ [root]) closing graph).keys =
      root :: others := keys
  rw [detectCycle, start, detectFrom, if_neg List.not_mem_nil]
  rw [List.reverse_nil] at visit
  rw [visit, ← path]

/-- For every order of enumeration the victim is the largest node of a cycle,
exactly when the largest node of every path that runs into itself is. -/
theorem victim_on_cycle_iff (graph : WaitForGraph) :
    (∀ (listed : WaitForGraph) enumeration txn, listed.Edge = graph.Edge →
      detectCycle listed enumeration = some txn → graph.LargestOnCycle txn) ↔
    ∀ stack closing, graph.Lasso stack closing →
      graph.LargestOnCycle (victim (stack.reverse ++ [closing])) := by
  constructor
  · intro good stack closing lasso
    refine good (steer stack closing graph) .stored _ ?_ (detectCycle_steer lasso)
    obtain ⟨top, rest, rfl, edge⟩ := lasso.closes
    exact edge_steer (List.isChain_cons_cons.mpr ⟨edge, lasso.chain⟩)
  intro good listed enumeration txn same found
  obtain ⟨stack, closing, ⟨distinct, chain, closes, inside⟩, rfl⟩ :=
    (@detectFrom_ends listed enumeration _ {} rfl (by simp)).1 txn found
  rw [same] at chain closes
  exact good stack closing ⟨distinct, chain, closes, inside⟩

/-- The search starts at 9, which waits for the deadlocked 1 and 2. -/
theorem victim_outside_cycle :
    let graph : WaitForGraph := ((∅ : WaitForGraph).addEdge 1 2).addEdge 2 1 |>.addEdge 9 1
    detectCycle graph .stored = some 9 ∧ ¬Relation.TransGen graph.Edge 9 9 := by
  refine ⟨by decide +kernel, ?_⟩
  intro cycle
  obtain ⟨last, -, edge⟩ := Relation.TransGen.tail'_iff.mp cycle
  have key := mem_keys_of_edge edge
  have nobody : ∀ node ∈ [9, 2, 1], 9 ∉ ((((∅ : WaitForGraph).addEdge 1 2).addEdge 2 1
    |>.addEdge 9 1).lookup node).getD [] := by decide +kernel
  exact nobody last key edge

end WaitForGraph

end KlyroDB

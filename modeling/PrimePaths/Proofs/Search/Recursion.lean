import PrimePaths.Proofs.Search.Course

namespace PrimePaths

namespace Graph

def succsOfLast (g : Graph) (path : Path) : List Int :=
  path.getLast?.elim [] g.succsOf

theorem succsOfLast_concat (g : Graph) (path : Path) (u : Int) :
    g.succsOfLast (path ++ [u]) = g.succsOf u := by
  rw [succsOfLast, List.getLast?_concat, Option.elim_some]

theorem mem_nodes_of_mem_succsOfLast {g : Graph} {path : Path} {v : Int}
    (h : v ∈ g.succsOfLast path) : v ∈ g.nodes := by
  unfold succsOfLast at h
  cases hlast : path.getLast? with
  | none => simp [hlast] at h
  | some u =>
    rw [hlast] at h
    exact mem_nodes_of_mem_succsOf h

end Graph

section Recursion

variable {m : Type → Type} [Monad m]

/-- A path is counted as a call and recorded. Then each successor of its last node is the start and closes
the path, or lies on it, or prolongs it to a path that is visited in turn. -/
def Budget.visit (b : Budget m) (g : Graph) (start : Int) (path : Path) : Search m Unit := do
  b.expand path
  (g.succsOfLast path).attach.forM fun v =>
    if v.1 = start ∧ 1 < path.length then b.record (path ++ [v.1])
    else if _ : v.1 ∈ path then pure ()
    else b.visit g start (path ++ [v.1])
termination_by (g.unvisited path).length
decreasing_by
  exact Graph.length_unvisited_lt (Graph.mem_nodes_of_mem_succsOfLast v.2) ‹v.1 ∉ path›

def Budget.explore (b : Budget m) (g : Graph) (starts : List Int) : Search m Unit := do
  remark (.started g.n b.limits)
  starts.forM fun s => b.visit g s [s]
  let p ← get
  remark (.complete p.calls p.paths.size)

/-- The search by recursion from the given starts, all nodes if there are none given, with the time at which
it started. The clock is read once for that time. A verbose search says its limits first, and does not go on
if they cannot be written. -/
def explore (now : m (Except Interruption Number)) (verbose : Bool) (limits : Limits) (g : Graph)
    (starts? : Option (List Int)) : m (Option Number × Outcome) := do
  match ← now with
  | .error i => pure (none, .cut i)
  | .ok startedAt =>
    if verbose ∧ ¬(Remark.started g.n limits).Writable then
      pure (some startedAt, .cut (.crash .unwritable))
    else
      let b : Budget m := { limits, now, startedAt }
      let outcome ← (b.explore g (starts?.getD g.nodes)).outcome {}
      pure (some startedAt, outcome)

end Recursion

variable {m : Type → Type} [Monad m] [LawfulMonad m]

theorem Budget.visit_eq (b : Budget m) (g : Graph) (start : Int) (path : Path) :
    b.visit g start path = (do
      b.expand path
      forM (g.succsOfLast path) fun v =>
        if v = start ∧ 1 < path.length then b.record (path ++ [v])
        else if v ∈ path then pure ()
        else b.visit g start (path ++ [v])) := by
  rw [visit]
  conv_rhs => rw [← List.attach_map_subtype_val (g.succsOfLast path)]
  rw [List.forM_map]
  simp only [dite_eq_ite]
  rfl

/-- A visit acts on what the depth-first search finds at its path and beyond. -/
theorem Budget.visit_eq_forM (b : Budget m) (g : Graph) (start : Int) (path : Path) (u : Int) :
    b.visit g start (path ++ [u]) =
      forM (.enter (path ++ [u]) :: (g.beyond start (path ++ [u]) u ++ [.back])) b.act := by
  induction hn : (g.unvisited (path ++ [u])).length using Nat.strongRecOn generalizing path u with
  | ind n ih =>
  have hbranch : ∀ v ∈ g.succsOf u,
      (if v = start ∧ 1 < (path ++ [u]).length then b.record (path ++ [u] ++ [v])
        else if v ∈ path ++ [u] then pure ()
        else b.visit g start (path ++ [u] ++ [v])) =
      forM (g.branch start (path ++ [u]) v) b.act := by
    intro v hv
    rw [Graph.branch]
    by_cases hclose : v = start ∧ 1 < (path ++ [u]).length
    · rw [if_pos hclose, if_pos hclose, List.forM_cons, List.forM_nil]
      exact (bind_pure _).symm
    by_cases hold : v ∈ path ++ [u]
    · rw [if_neg hclose, if_neg hclose, if_pos hold, if_pos hold, List.forM_cons, List.forM_nil]
      exact (bind_pure _).symm
    · -- A new node is visited in turn, and there is one node less to visit beyond it.
      rw [if_neg hclose, if_neg hclose, if_neg hold, if_neg hold]
      have hless := Graph.length_unvisited_lt (Graph.mem_nodes_of_mem_succsOf hv) hold
      exact ih _ (hn ▸ hless) (path ++ [u]) v rfl
  have hback : forM [Finding.back] b.act = (pure () : Search m Unit) := by
    rw [List.forM_cons, List.forM_nil]
    exact bind_pure _
  rw [visit_eq, Graph.succsOfLast_concat, Graph.beyond_eq, List.forM_cons, List.forM_append,
    Search.forM_eq_forM_flatMap hbranch, hback, bind_pure]
  rfl

theorem Budget.explore_eq_enumerate (b : Budget m) {g : Graph} {starts : List Int}
    (h : ∀ s ∈ starts, s ∈ g.nodes) : b.explore g starts = b.enumerate g starts := by
  have hvisits : forM starts (fun s => b.visit g s [s]) = forM starts (b.walkFrom g) := by
    rw [b.forM_walkFrom h]
    exact Search.forM_eq_forM_flatMap fun s _ => b.visit_eq_forM g s [] s
  rw [explore, enumerate, List.forM_eq_forM, hvisits]

/-- From any nodes, under any limits and on any clock, the search with a stack is the search by recursion.
Under numbers it ends by itself, at a limit or because its clock fails, and a limit that can be written is
what the caller hears of. -/
theorem enumerate_eq_explore (now : m (Except Interruption Number)) (verbose : Bool) (limits : Limits)
    (g : Graph) (starts? : Option (List Int)) (h : ∀ s ∈ starts?.getD g.nodes, s ∈ g.nodes) :
    enumerate now verbose limits g starts? = explore now verbose limits g starts? ∧
      (limits.Numeric → ∀ (r : Recording) (t : Readings) (e : Halt),
        (r.search t limits g starts?).halt? = some e → e.IsDue r.Fails) ∧
      (limits.Writable → ∀ (r : Recording) (t : Readings) (reached : LimitReached),
        (r.search t limits g starts?).halt? = some (.limit reached) →
          (Halt.limit reached).raised = .ok reached) := by
  refine ⟨?_, fun hl r t e hhalt => ?_, fun hl r t reached hhalt => ?_⟩
  · rw [explore]
    simp only [Budget.explore_eq_enumerate _ h]
    rfl
  · exact Recording.isDue_of_search hl h hhalt
  · exact Recording.raised_of_search hl h hhalt

/-- Two calls are allowed on a cycle of two nodes, whose starts are repeated and out of order. -/
theorem enumerate_eq_explore_cycle :
    ∃ g, (Graph.empty 2).addEdges [(0, 1), (1, 0)] = .ok g ∧
      (∀ s ∈ (some [1, 0, 1]).getD g.nodes, s ∈ g.nodes) ∧
      Limits.Numeric { maxCalls := some (.number (.whole 2)) } ∧
      Limits.Writable { maxCalls := some (.number (.whole 2)) } ∧
      enumerate (Recording.counting 0).clocks.seconds true { maxCalls := some (.number (.whole 2)) } g
          (some [1, 0, 1]) =
        explore (Recording.counting 0).clocks.seconds true { maxCalls := some (.number (.whole 2)) } g
          (some [1, 0, 1]) := by
  refine ⟨_, rfl, ?_, ?_, ?_, ?_⟩
  · decide
  · exact ⟨by decide, by decide, by decide⟩
  · decide +kernel
  · exact (enumerate_eq_explore _ _ _ _ (some [1, 0, 1]) (by decide)).1

end PrimePaths

import PrimePaths.Proofs.Search.Descent
import PrimePaths.Search.Enumeration
import Mathlib.Data.List.Basic

namespace PrimePaths.Search

variable {m : Type → Type} [Monad m] [LawfulMonad m] {α β : Type}

omit [LawfulMonad m] in
@[simp] theorem run_bind (x : Search m α) (f : α → Search m β) (p : Progress) :
    (x >>= f).run.run p = x.run.run p >>= fun r =>
      match r with
      | (.ok a, p) => (f a).run.run p
      | (.error e, p) => pure (.error e, p) := by
  rw [ExceptT.run_bind, StateT.run_bind]
  congr 1
  funext ⟨r, p⟩
  cases r <;> rfl

@[simp] theorem run_get (p : Progress) :
    (get : Search m Progress).run.run p = pure (.ok p, p) := by
  change ((pure (p, p) : m (Progress × Progress)) >>= fun r => pure (Except.ok r.1, r.2)) = _
  simp

@[simp] theorem run_modify (f : Progress → Progress) (p : Progress) :
    (modify f : Search m Unit).run.run p = pure (.ok (), f p) := by
  change ((pure ((), f p) : m (Unit × Progress)) >>= fun r => pure (Except.ok r.1, r.2)) = _
  simp

omit [LawfulMonad m] in
@[simp] theorem run_stopAt (halt? : Option Halt) (p : Progress) :
    (Budget.stopAt halt? : Search m Unit).run.run p =
      pure (halt?.elim (.ok ()) .error, p) := by
  cases halt? <;> rfl

/-- Where the work on each element is to act on a list, the work on all acts on these lists in turn. -/
theorem forM_eq_forM_flatMap {l : List α} {work : α → Search m Unit} {lists : α → List β}
    {act : β → Search m Unit} (h : ∀ a ∈ l, work a = forM (lists a) act) :
    forM l work = forM (l.flatMap lists) act := by
  induction l with
  | nil => rfl
  | cons a l ih =>
    rw [List.forM_cons, List.flatMap_cons, List.forM_append, h a List.mem_cons_self,
      ih fun b hb => h b (List.mem_cons_of_mem a hb)]

end PrimePaths.Search

namespace PrimePaths

/-- The path that a finding records. -/
def Finding.path? : Finding → Option Path
  | .close path => some path
  | .enter path => some path
  | .skip => none
  | .back => none

namespace Progress

/-- What a search that nothing limits has done after one more finding. -/
def after (p : Progress) : Finding → Progress
  | .close path => { p with paths := p.paths.push path }
  | .enter path =>
    { paths := p.paths.push path
      calls := p.calls + 1
      maxDepth := max p.maxDepth path.length
      remarks :=
        if (p.calls + 1) % Budget.remarkEvery = 0 then
          p.remarks.push (.passing (p.calls + 1) p.paths.size path.length)
        else p.remarks }
  | .skip => p
  | .back => p

theorem paths_after (p : Progress) (f : Finding) :
    (p.after f).paths.toList = p.paths.toList ++ f.path?.toList := by
  cases f <;> simp [after, Finding.path?]

theorem paths_foldl_after (fs : List Finding) (p : Progress) :
    (fs.foldl after p).paths.toList = p.paths.toList ++ fs.filterMap Finding.path? := by
  induction fs generalizing p with
  | nil => simp
  | cons f fs ih =>
    rw [List.foldl_cons, ih, paths_after, List.append_assoc]
    cases hf : f.path? <;> simp [hf]

end Progress

namespace Budget

variable {m : Type → Type} [Monad m] [LawfulMonad m]

theorem act_unlimited (b : Budget m) (hb : b.limits = {}) (f : Finding) (p : Progress) :
    (b.act f).run.run p = pure (.ok (), p.after f) := by
  cases f with
  | close path => simp [act, record, hb, Limits.pathsHalt?, Progress.after]
  | enter path =>
    by_cases hremark : (p.calls + 1) % remarkEvery = 0 <;>
      simp [act, expand, check, record, hb, Limits.pathsHalt?, Limits.callsHalt?, Progress.after,
        hremark]
  | skip => rfl
  | back => rfl

theorem forM_act_unlimited (b : Budget m) (hb : b.limits = {}) (fs : List Finding) (p : Progress) :
    (forM fs b.act).run.run p = pure (.ok (), fs.foldl Progress.after p) := by
  induction fs generalizing p with
  | nil => rfl
  | cons f fs ih =>
    rw [List.forM_cons]
    simp [act_unlimited b hb, ih]

/-- Walks from nodes act on the trees of their starts, one after the other. -/
theorem forM_walkFrom (b : Budget m) {g : Graph} {starts : List Int}
    (h : ∀ s ∈ starts, s ∈ g.nodes) :
    forM starts (b.walkFrom g) = forM (starts.flatMap g.tree) b.act :=
  Search.forM_eq_forM_flatMap fun s hs => b.walkFrom_eq_forM (h s hs)

end Budget

namespace Graph

/-- The progress of a search from the given starts that nothing limits. -/
def survey (g : Graph) (starts : List Int) : Progress :=
  let p := (starts.flatMap g.tree).foldl Progress.after { remarks := #[.started g.n {}] }
  { p with remarks := p.remarks.push (.complete p.calls p.paths.size) }

/-- The paths of a graph, in the order in which a search finds them. -/
def paths (g : Graph) : List Path :=
  (g.nodes.flatMap g.tree).filterMap Finding.path?

theorem paths_survey (g : Graph) (starts : List Int) :
    (g.survey starts).paths.toList = (starts.flatMap g.tree).filterMap Finding.path? := by
  rw [survey, Progress.paths_foldl_after]
  rfl

/-- A search of the whole graph without limits ends by itself with the given progress; it reads the clock
once, whatever clock that is, and is cut short if that reading is. -/
def FullSearch (g : Graph) (done : Progress) : Prop :=
  ∀ (m : Type → Type) [Monad m] [LawfulMonad m] (now : m (Except Interruption Number)),
    enumerate now false {} g none = Outcome.since { halt? := none, progress := done } <$> now

end Graph

theorem enumerate_unlimited {m : Type → Type} [Monad m] [LawfulMonad m]
    (now : m (Except Interruption Number)) (g : Graph) (starts? : Option (List Int))
    (h : ∀ s ∈ starts?.getD g.nodes, s ∈ g.nodes) :
    enumerate now false {} g starts? =
      Outcome.since { halt? := none, progress := g.survey (starts?.getD g.nodes) } <$> now := by
  rw [enumerate, map_eq_pure_bind]
  congr 1
  funext reading
  cases reading with
  | error i => rfl
  | ok t =>
    have hwalks := fun b : Budget m => b.forM_walkFrom h
    simp only [Search.outcome, Budget.enumerate, remark, Search.run_bind, Search.run_modify,
      Search.run_get, pure_bind, List.forM_eq_forM, hwalks, Budget.forM_act_unlimited]
    rfl

theorem Graph.fullSearch_survey (g : Graph) : g.FullSearch (g.survey g.nodes) :=
  fun _ _ _ now => enumerate_unlimited now g none fun _ hs => hs

/-- There is one progress that a full search ends with. -/
theorem Graph.FullSearch.eq_survey {g : Graph} {done : Progress} (h : g.FullSearch done) :
    done = g.survey g.nodes := by
  have hsame := (h Id (pure (.ok (.whole 0)))).symm.trans (g.fullSearch_survey Id (pure (.ok (.whole 0))))
  simp only [map_pure] at hsame
  exact congrArg (fun found : Option Number × Outcome => found.2.progress) hsame

end PrimePaths

namespace PrimePaths.Graph

variable {g : Graph} {start : Int}

/-- The paths that are recorded beyond a path whose last node is `u`. -/
def pathsBeyond (g : Graph) (start : Int) (path : Path) (u : Int) : List Path :=
  (g.beyond start path u).filterMap Finding.path?

def pathsAt (g : Graph) (start : Int) (path : Path) (v : Int) : List Path :=
  if v = start ∧ 1 < path.length then [path ++ [v]]
  else if v ∈ path then []
  else (path ++ [v]) :: g.pathsBeyond start (path ++ [v]) v

theorem pathsBeyond_eq (g : Graph) (start : Int) (path : Path) (u : Int) :
    g.pathsBeyond start path u = (g.succsOf u).flatMap (g.pathsAt start path) := by
  rw [pathsBeyond, beyond_eq, List.filterMap_flatMap]
  apply List.flatMap_congr
  intro v _
  unfold branch pathsAt
  split
  · rfl
  · split
    · rfl
    · simp [pathsBeyond, Finding.path?]

theorem paths_eq (g : Graph) :
    g.paths = g.nodes.flatMap fun s => [s] :: g.pathsBeyond s [s] s := by
  rw [paths, List.filterMap_flatMap]
  apply List.flatMap_congr
  intro s _
  simp [tree, pathsBeyond, Finding.path?]

theorem paths_eq_pathsAt (g : Graph) : g.paths = g.nodes.flatMap fun s => g.pathsAt s [] s := by
  rw [paths_eq]
  simp [pathsAt]

theorem paths_survey_nodes (g : Graph) : (g.survey g.nodes).paths.toList = g.paths :=
  g.paths_survey g.nodes

theorem exists_append_of_mem_pathsAt {path q : Path} {v : Int} (hv : v ∈ g.nodes)
    (h : q ∈ g.pathsAt start path v) : ∃ r, q = path ++ v :: r := by
  induction path, v, hv using visit_induction with
  | step path v hv ih =>
  unfold pathsAt at h
  split at h
  · exact ⟨[], List.mem_singleton.mp h⟩
  split at h
  · simp at h
  · rename_i hnew
    rcases List.mem_cons.mp h with rfl | h
    · exact ⟨[], rfl⟩
    · rw [pathsBeyond_eq, List.mem_flatMap] at h
      obtain ⟨w, hw, hq⟩ := h
      obtain ⟨r, rfl⟩ := ih hnew w hw hq
      exact ⟨w :: r, by simp⟩

theorem exists_append_of_mem_pathsBeyond {path q : Path} {u : Int}
    (h : q ∈ g.pathsBeyond start path u) : ∃ v r, q = path ++ v :: r := by
  rw [pathsBeyond_eq, List.mem_flatMap] at h
  obtain ⟨v, hv, hq⟩ := h
  obtain ⟨r, rfl⟩ := exists_append_of_mem_pathsAt (mem_nodes_of_mem_succsOf hv) hq
  exact ⟨v, r, rfl⟩

theorem not_mem_pathsBeyond (path : Path) (u : Int) : path ∉ g.pathsBeyond start path u := by
  intro hmem
  obtain ⟨v, r, hr⟩ := exists_append_of_mem_pathsBeyond hmem
  simp at hr

/-- The paths on from different nodes are different. -/
theorem disjoint_pathsAt {start' v w : Int} {path : Path} (hv : v ∈ g.nodes) (hw : w ∈ g.nodes)
    (hne : v ≠ w) : (g.pathsAt start path v).Disjoint (g.pathsAt start' path w) := by
  intro q hq hq'
  obtain ⟨r, rfl⟩ := exists_append_of_mem_pathsAt hv hq
  obtain ⟨r', heq⟩ := exists_append_of_mem_pathsAt hw hq'
  exact hne (List.cons.inj (List.append_cancel_left heq)).1

end PrimePaths.Graph

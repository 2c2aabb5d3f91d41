import PrimePaths.Search.Session
import PrimePaths.Proofs.Search.Tracks

namespace PrimePaths.Session

/-- An entry of a log that tells of an edge that was added. -/
def isAddition : Step × Option Failure → Bool
  | (.addEdge .., none) => true
  | _ => false

/-- A session on `n` nodes in which so many edges were added. -/
structure Sound (n : Int) (added : Nat) (s : Session) : Prop where
  n_eq : s.graph.n = n
  inRange : ∀ us ∈ s.graph.succs, ∀ v ∈ us, 0 ≤ v ∧ v < n
  edgeCount : s.graph.edgeCount = added
  refused : ∀ u v e, (s.addEdge u v).1 = some e → (s.addEdge u v).2 = s
  progress : s.progress.Sound s.graph

variable {σ : Type} {n : Int} {added : Nat} {s : Session}

theorem addEdge_refused {u v : Int} {e : GraphFault} (h : (s.addEdge u v).1 = some e) :
    (s.addEdge u v).2 = s := by
  unfold addEdge at h ⊢
  cases hadd : s.graph.addEdge u v with
  | ok g => simp [hadd] at h
  | error e => rfl

theorem Sound.of_parts (hn : s.graph.n = n) (hcount : s.graph.edgeCount = added)
    (hprogress : s.progress.Sound s.graph) : s.Sound n added where
  n_eq := hn
  inRange := hn ▸ s.graph.inRange
  edgeCount := hcount
  refused := fun _ _ _ => addEdge_refused
  progress := hprogress

theorem sound_start (n : Int) (verbose : Bool) : (start n verbose).Sound n 0 :=
  .of_parts rfl (Graph.edgeCount_empty n) Progress.sound_empty

theorem Sound.with_progress (h : s.Sound n added) {p : Progress} (hp : p.Sound s.graph)
    (startedAt : Number) : Sound n added { s with progress := p, startedAt } :=
  .of_parts h.n_eq h.edgeCount hp

theorem Sound.addEdge (h : s.Sound n added) (u v : Int) :
    (s.addEdge u v).2.Sound n (added + if (s.addEdge u v).1.isNone then 1 else 0) := by
  unfold Session.addEdge
  cases hadd : s.graph.addEdge u v with
  | error e => exact h
  | ok g =>
    have hn := Graph.n_addEdge hadd
    refine .of_parts (hn.trans h.n_eq) ?_ (h.progress.of_subset hn (Graph.subset_succsOf_addEdge hadd))
    exact (Graph.edgeCount_addEdge hadd).trans (congrArg (· + 1) h.edgeCount)

theorem Sound.enumerate (h : s.Sound n added) (now : StateM σ (Except Interruption Number))
    (starts? : Option (List Int)) (t : σ) : ((s.enumerate now starts?).run t).1.2.Sound n added := by
  have hprogress : ((PrimePaths.enumerate now s.verbose s.limits s.graph starts?).run
      t).1.2.progress.Sound s.graph := by
    rw [PrimePaths.enumerate, StateT.run_bind]
    rcases now.run t with ⟨i | startedAt, t'⟩
    · exact Progress.sound_empty
    · dsimp only
      split
      · exact Progress.sound_empty
      · let b : Budget (StateM σ) := { limits := s.limits, now, startedAt }
        have hkept := b.preserves_enumerate (g := s.graph) (starts?.getD s.graph.nodes)
        exact hkept.outcome (s := t') Progress.sound_empty
  exact h.with_progress hprogress _

theorem Sound.walk (h : s.Sound n added) (now : StateM σ (Except Interruption Number)) (start : Int) (t : σ) :
    ((s.walk now start).run t).1.2.Sound n added := by
  let b : Budget (StateM σ) := { limits := s.limits, now, startedAt := s.startedAt }
  have hfirst : Progress.Sound s.graph { s.progress with remarks := #[] } :=
    h.progress.of_le rfl (Nat.le_refl _) (Nat.le_refl _)
  have hkept := b.preserves_walkFrom (g := s.graph) start
  exact h.with_progress (hkept.outcome (s := t) hfirst) _

/-- A step keeps a session sound, whether it fails or not, and counts as an edge only if it added one. -/
theorem Sound.perform (h : s.Sound n added) (now : StateM σ (Except Interruption Number)) (step : Step)
    (t : σ) :
    ((s.perform now step).run t).1.2.Sound n
      (added + if isAddition (step, ((s.perform now step).run t).1.1) then 1 else 0) := by
  cases step with
  | addEdge u v =>
    have hadded := h.addEdge u v
    change (s.addEdge u v).2.Sound n
      (added + if isAddition (.addEdge u v, (s.addEdge u v).1.map .edge) then 1 else 0)
    cases hedge : (s.addEdge u v).1 with
    | none => rwa [hedge] at hadded
    | some e => rwa [hedge] at hadded
  | setLimits limits => exact .of_parts h.n_eq h.edgeCount h.progress
  | enumerate starts? => exact h.enumerate now starts? t
  | walk start => exact h.walk now start t

theorem Sound.performAll (h : s.Sound n added) (now : StateM σ (Except Interruption Number))
    (steps : List Step) (t : σ) :
    ((s.performAll now steps).run t).1.2.Sound n
      (added + ((s.performAll now steps).run t).1.1.countP isAddition) := by
  induction steps generalizing s added t with
  | nil => exact h
  | cons step steps ih =>
    have hfirst := h.perform now step t
    have hrest := ih hfirst ((s.perform now step).run t).2
    rw [Nat.add_assoc, Nat.add_comm (ite _ _ _), ← List.countP_cons] at hrest
    exact hrest

/-- In every state that steps lead to, the successors are nodes, the edges are those that were not refused,
an edge that is refused changes nothing, and what is recorded runs along the edges that there are. -/
theorem sound_performAll (now : StateM σ (Except Interruption Number)) (t : σ) (n : Int) (verbose : Bool)
    (steps : List Step) :
    (((start n verbose).performAll now steps).run t).1.2.Sound n
      ((((start n verbose).performAll now steps).run t).1.1.countP isAddition) := by
  have hsound := (sound_start n verbose).performAll now steps t
  rwa [Nat.zero_add] at hsound

end PrimePaths.Session

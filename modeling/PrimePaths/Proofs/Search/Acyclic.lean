import PrimePaths.Proofs.Search.Ends
import Mathlib.Logic.Relation

namespace PrimePaths.Graph

open PrimePaths.Path

variable {g : Graph} {p : Path} {u v w : Int}

/-- One edge or more lead from a node to another one. -/
def Reaches (g : Graph) : Int → Int → Prop :=
  Relation.TransGen fun u v => (u, v) ∈ g.edges

instance (g : Graph) : Trans g.Reaches g.Reaches g.Reaches :=
  ⟨Relation.TransGen.trans⟩

/-- No node is reached from itself; an edge from a node to itself is a cycle, too. -/
def Acyclic (g : Graph) : Prop :=
  ∀ v, ¬g.Reaches v v

/-- The path leads from a node that no edge enters to one that no edge leaves. -/
def Spans (g : Graph) (p : Path) : Prop :=
  (∃ u ∈ p.head?, u ∈ g.initialNodes) ∧ ∃ v ∈ p.getLast?, v ∈ g.finalNodes

instance (g : Graph) (p : Path) : Decidable (g.Spans p) :=
  inferInstanceAs (Decidable (_ ∧ _))

/-- On a recorded path, each node reaches all later ones. -/
theorem pairwise_reaches (hp : p ∈ g.paths) : p.Pairwise g.Reaches := by
  obtain ⟨⟨-, hnodes⟩, hchain⟩ := (mem_paths_iff p).mp hp
  have hreaches : p.IsChain g.Reaches := by
    refine hchain.imp_of_mem_imp ?_
    intro u v hu _ hedge
    exact .single (mem_edges.mpr ⟨hnodes u hu, hedge⟩)
  exact hreaches.pairwise

theorem reaches_getLast (h : p.Pairwise g.Reaches) (hv : v ∈ p.getLast?) (hw : w ∈ p) :
    w = v ∨ g.Reaches w v := by
  obtain ⟨r, rfl⟩ := List.getLast?_eq_some_iff.mp hv
  rcases List.mem_append.mp hw with hw | hw
  · exact Or.inr ((List.pairwise_append.mp h).2.2 w hw v List.mem_cons_self)
  · exact Or.inl (List.mem_singleton.mp hw)

theorem head_reaches (h : p.Pairwise g.Reaches) (hu : u ∈ p.head?) (hw : w ∈ p) :
    u = w ∨ g.Reaches u w := by
  obtain ⟨r, rfl⟩ := List.head?_eq_some_iff.mp hu
  rcases List.mem_cons.mp hw with hw | hw
  · exact Or.inl hw.symm
  · exact Or.inr ((List.pairwise_cons.mp h).1 w hw)

theorem Acyclic.nodup (h : g.Acyclic) (hp : p ∈ g.paths) : p.Nodup := by
  refine (pairwise_reaches hp).imp ?_
  intro u v hreach heq
  subst heq
  exact h u hreach

/-- Without cycles, an edge to a node of the path can neither leave its end nor enter its start. -/
theorem Acyclic.confines_iff (h : g.Acyclic) (hp : p ∈ g.paths) : g.Confines p ↔ g.Spans p := by
  have hpairs := pairwise_reaches hp
  have hnodes := ((mem_paths_iff p).mp hp).1.2
  have hne := ne_nil_of_mem_paths hp
  have hu : p.head hne ∈ p.head? := List.head?_eq_some_head hne
  have hv : p.getLast hne ∈ p.getLast? := List.getLast?_eq_some_getLast hne
  have hunode := hnodes _ (List.head_mem hne)
  have hvnode := hnodes _ (List.getLast_mem hne)
  constructor
  · intro hconfines
    obtain ⟨hsuccs, hpreds, -⟩ := hconfines _ hu _ hv
    refine ⟨⟨_, hu, mem_initialNodes.mpr ⟨hunode, ?_⟩⟩, _, hv, mem_finalNodes.mpr ⟨hvnode, ?_⟩⟩
    · intro w hedge
      obtain ⟨hw, hsucc⟩ := mem_edges.mp hedge
      rcases head_reaches hpairs hu (hpreds w hw hsucc) with heq | hreach
      · exact h _ (.single (heq ▸ hedge))
      · exact h _ (hreach.tail hedge)
    · intro w hedge
      rcases reaches_getLast hpairs hv (hsuccs w (mem_edges.mp hedge).2) with heq | hreach
      · exact h _ (.single (heq ▸ hedge))
      · exact h _ (hreach.tail hedge)
  · intro hspans x hx y hy
    obtain ⟨⟨u, hu', hinitial⟩, v, hv', hfinal⟩ := hspans
    obtain rfl := Option.mem_unique hu' hx
    obtain rfl := Option.mem_unique hv' hy
    have hsource := (mem_initialNodes.mp hinitial).2
    have hsink := (mem_finalNodes.mp hfinal).2
    refine ⟨?_, ?_, ?_⟩
    · intro w hw
      exact absurd (mem_edges.mpr ⟨(mem_finalNodes.mp hfinal).1, hw⟩) (hsink w)
    · intro w hw hedge
      exact absurd (mem_edges.mpr ⟨hw, hedge⟩) (hsource w)
    · intro _ hedge
      exact hsource v (mem_edges.mpr ⟨(mem_finalNodes.mp hfinal).1, hedge⟩)

theorem Acyclic.not_dominated_iff (h : g.Acyclic) (hp : p ∈ g.paths) :
    ¬Dominated g.paths p ↔ g.Spans p := by
  have hnodup := h.nodup hp
  rw [Graph.not_dominated_iff hp, ← h.confines_iff hp]
  constructor
  · intro hends
    rcases hends with ⟨hlen, hends⟩ | ⟨-, hconfines⟩
    · have hclosing : p.IsClosing := ⟨hlen, hends, hnodup.sublist p.dropLast_sublist⟩
      exact absurd hnodup hclosing.not_nodup
    · exact hconfines
  · intro hconfines
    exact Or.inr ⟨⟨ne_nil_of_mem_paths hp, hnodup⟩, hconfines⟩

/-- In a graph without cycles, either filter keeps the paths of a search without limits that lead from an
initial node to a final one, and each path that the search records is a part of one of these. -/
theorem primePaths_of_acyclic (h : g.Acyclic) :
    ∃ done, g.FullSearch done ∧
      (∀ s : Strategy, primePaths s done.paths.toList =
        done.paths.toList.filter fun p => decide (g.Spans p)) ∧
      ∀ p ∈ done.paths.toList, ∃ q ∈ done.paths.toList, g.Spans q ∧ p <:+: q := by
  refine ⟨g.survey g.nodes, g.fullSearch_survey, ?_, ?_⟩
  · intro s
    rw [g.paths_survey_nodes, primePaths_of_ne_nil fun p hp => ne_nil_of_mem_paths hp]
    apply List.filter_congr
    intro p hp
    rw [decide_eq_decide]
    exact h.not_dominated_iff hp
  · rw [g.paths_survey_nodes]
    intro p hp
    obtain ⟨q, hq, hpart, hfree⟩ := exists_undominated_of_mem hp
    exact ⟨q, hq, (h.not_dominated_iff hq).mp hfree, hpart⟩

/-- Edges that lead upwards close no cycle. -/
theorem acyclic_of_ascending (h : ∀ e ∈ g.edges, e.1 < e.2) : g.Acyclic := by
  have hlt : ∀ u v, g.Reaches u v → u < v := by
    intro u v hreach
    induction hreach with
    | single hedge => exact h _ hedge
    | tail _ hedge ih => exact ih.trans (h _ hedge)
  exact fun v hreach => (hlt v v hreach).false

/-- Two ways from the first node to the last one. -/
theorem primePaths_of_acyclic_diamond :
    ∃ g, (Graph.empty 4).addEdges [(0, 1), (0, 2), (1, 3), (2, 3)] = .ok g ∧ g.Acyclic ∧
      ∃ done, g.FullSearch done ∧
        (∀ s : Strategy, primePaths s done.paths.toList =
          done.paths.toList.filter fun p => decide (g.Spans p)) ∧
        ∀ p ∈ done.paths.toList, ∃ q ∈ done.paths.toList, g.Spans q ∧ p <:+: q := by
  have hacyclic : ∀ g, (Graph.empty 4).addEdges [(0, 1), (0, 2), (1, 3), (2, 3)] = .ok g → g.Acyclic := by
    intro g hg
    obtain rfl := Except.ok.inj hg
    exact acyclic_of_ascending (by decide)
  exact ⟨_, rfl, hacyclic _ rfl, primePaths_of_acyclic (hacyclic _ rfl)⟩

end PrimePaths.Graph

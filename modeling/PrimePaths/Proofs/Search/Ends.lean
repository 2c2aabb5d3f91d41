import PrimePaths.Proofs.Path.Primes
import PrimePaths.Proofs.Search.Multiplicity

namespace PrimePaths.Graph

open PrimePaths.Path

variable {g : Graph}

/-- No edge leads from the last node off the path, none enters the first node from off the path, and none
closes a path of two nodes or more. -/
def Confines (g : Graph) (p : Path) : Prop :=
  ∀ u ∈ p.head?, ∀ v ∈ p.getLast?,
    (∀ w ∈ g.succsOf v, w ∈ p) ∧
    (∀ w ∈ g.nodes, u ∈ g.succsOf w → w ∈ p) ∧
    (2 ≤ p.length → u ∉ g.succsOf v)

instance (g : Graph) (p : Path) : Decidable (g.Confines p) :=
  inferInstanceAs (Decidable (∀ u ∈ p.head?, ∀ v ∈ p.getLast?, _ ∧ _ ∧ _))

theorem append_mem_paths {p : Path} {v w : Int} (hp : p ∈ g.paths) (hv : v ∈ p.getLast?)
    (hw : w ∈ g.succsOf v) (hshape : HasShape (p ++ [w])) : p ++ [w] ∈ g.paths := by
  obtain ⟨⟨-, hnodes⟩, hchain⟩ := (mem_paths_iff p).mp hp
  refine (mem_paths_iff _).mpr ⟨⟨hshape, ?_⟩, ?_⟩
  · intro x hx
    rcases List.mem_append.mp hx with hx | hx
    · exact hnodes x hx
    · rw [List.mem_singleton.mp hx]
      exact mem_nodes_of_mem_succsOf hw
  · refine List.isChain_append.mpr ⟨hchain, List.isChain_singleton w, ?_⟩
    intro x hx y hy
    rw [Option.mem_unique hx hv, ← Option.some.inj hy]
    exact hw

theorem cons_mem_paths {p : Path} {u w : Int} (hp : p ∈ g.paths) (hu : u ∈ p.head?)
    (hw : w ∈ g.nodes) (hedge : u ∈ g.succsOf w) (hshape : HasShape (w :: p)) : w :: p ∈ g.paths := by
  obtain ⟨⟨-, hnodes⟩, hchain⟩ := (mem_paths_iff p).mp hp
  refine (mem_paths_iff _).mpr ⟨⟨hshape, List.forall_mem_cons.mpr ⟨hw, hnodes⟩⟩, ?_⟩
  refine List.isChain_cons.mpr ⟨fun y hy => ?_, hchain⟩
  rw [Option.mem_unique hy hu]
  exact hedge

theorem not_dominated_of_isClosing {p : Path} (hp : p.IsClosing) : ¬Dominated g.paths p := by
  intro hdom
  obtain ⟨q, hq, hpq⟩ := hdom
  exact hp.not_nodup (((mem_paths_iff q).mp hq).1.1.nodup_of_isProperSubpath hpq)

/-- A path that goes on after `p` leaves `p` or closes it. -/
theorem not_confines_of_append {a p b : Path} {w : Int} (hne : p ≠ [])
    (hq : a ++ p ++ w :: b ∈ g.paths) : ¬g.Confines p := by
  obtain ⟨⟨hshape, -⟩, hchain⟩ := (mem_paths_iff _).mp hq
  obtain ⟨u, t, rfl⟩ := List.exists_cons_of_ne_nil hne
  obtain ⟨v, hv⟩ : ∃ v, v ∈ (u :: t).getLast? := ⟨_, List.getLast?_eq_some_getLast hne⟩
  have hedge : w ∈ g.succsOf v := by
    refine (List.isChain_append.mp hchain).2.2 v ?_ w rfl
    rw [List.getLast?_append, hv]
    rfl
  intro hconfines
  obtain ⟨hsuccs, -, hopen⟩ := hconfines u rfl v hv
  have hw := hsuccs w hedge
  -- `w` repeats a node, so it is the end of the recorded path and its start.
  rcases b with _ | ⟨x, b⟩
  · have hnodup : (a ++ u :: t).Nodup := by
      have hdrop := hshape.nodup_dropLast
      rwa [List.dropLast_concat] at hdrop
    rcases a with _ | ⟨s, a⟩
    · rcases (hasShape_append_singleton hnodup).mp hshape with hnew | ⟨rfl, hlen⟩
      · exact hnew hw
      · exact hopen hlen hedge
    · rw [List.cons_append] at hnodup hshape
      rcases (hasShape_append_singleton hnodup).mp hshape with hnew | ⟨rfl, -⟩
      · exact hnew (List.mem_cons_of_mem s (List.mem_append_right a hw))
      · exact (List.nodup_cons.mp hnodup).1 (List.mem_append_right a hw)
  · exact hshape.not_mem_of_append (List.mem_append_right a hw)

/-- A path that comes before `p` enters it from off the path or closes it. -/
theorem not_confines_of_cons {a p : Path} {w : Int} (hsimple : p.IsSimple)
    (hq : a ++ w :: p ∈ g.paths) : ¬g.Confines p := by
  obtain ⟨⟨hshape, hnodes⟩, hchain⟩ := (mem_paths_iff _).mp hq
  obtain ⟨u, t, rfl⟩ := List.exists_cons_of_ne_nil hsimple.1
  obtain ⟨v, hv⟩ : ∃ v, v ∈ (u :: t).getLast? := ⟨_, List.getLast?_eq_some_getLast hsimple.1⟩
  have hedge : u ∈ g.succsOf w :=
    (List.isChain_cons_cons.mp (List.isChain_append.mp hchain).2.1).1
  intro hconfines
  obtain ⟨-, hpreds, hopen⟩ := hconfines u rfl v hv
  have hw := hpreds w (hnodes w (by simp)) hedge
  -- `w` is repeated later, so it is the start of the recorded path and its end.
  rcases a with _ | ⟨s, a⟩
  · rcases hshape with hshape | ⟨hlen, hends, -⟩
    · exact (List.nodup_cons.mp hshape.2).1 hw
    · rw [List.nil_append, List.head?_cons, List.getLast?_cons_cons, hv] at hends
      obtain rfl := Option.some.inj hends
      exact hopen (by simpa using hlen) hedge
  · have htail := hshape.nodup_tail
    rw [List.cons_append, List.tail_cons] at htail
    exact (List.nodup_cons.mp (List.nodup_append.mp htail).2.1).1 hw

theorem not_dominated_of_confines {p : Path} (hsimple : p.IsSimple) (hconfines : g.Confines p) :
    ¬Dominated g.paths p := by
  intro hdom
  obtain ⟨q, hq, a, b, rfl, hproper⟩ := hdom
  rcases b with _ | ⟨w, b⟩
  · rcases List.eq_nil_or_concat a with rfl | ⟨a, w, rfl⟩
    · exact hproper ⟨rfl, rfl⟩
    · refine not_confines_of_cons (a := a) (w := w) hsimple ?_ hconfines
      simpa using hq
  · exact not_confines_of_append hsimple.1 hq hconfines

/-- Each edge that the law forbids prolongs the path to a recorded one. -/
theorem confines_of_not_dominated {p : Path} (hp : p ∈ g.paths) (hsimple : p.IsSimple)
    (hfree : ¬Dominated g.paths p) : g.Confines p := by
  intro u hu v hv
  have happend : ∀ w ∈ g.succsOf v, ¬HasShape (p ++ [w]) := by
    intro w hw hshape
    exact hfree ⟨p ++ [w], append_mem_paths hp hv hw hshape, [], [w], rfl, by simp⟩
  have hcons : ∀ w ∈ g.nodes, u ∈ g.succsOf w → ¬HasShape (w :: p) := by
    intro w hw hedge hshape
    exact hfree ⟨w :: p, cons_mem_paths hp hu hw hedge hshape, [w], [], by simp, by simp⟩
  obtain ⟨s, t, rfl⟩ := List.exists_cons_of_ne_nil hsimple.1
  obtain rfl := Option.some.inj hu
  refine ⟨?_, ?_, ?_⟩
  · intro w hw
    by_contra hnew
    exact happend w hw ((hasShape_append_singleton hsimple.2).mpr (Or.inl hnew))
  · intro w hw hedge
    by_contra hnew
    exact hcons w hw hedge (Or.inl ⟨by simp, List.nodup_cons.mpr ⟨hnew, hsimple.2⟩⟩)
  · intro hlen hedge
    exact happend s hedge ((hasShape_append_singleton hsimple.2).mpr (Or.inr ⟨rfl, hlen⟩))

theorem not_dominated_iff {p : Path} (hp : p ∈ g.paths) :
    ¬Dominated g.paths p ↔
      (3 ≤ p.length ∧ p.head? = p.getLast?) ∨ (p.IsSimple ∧ g.Confines p) := by
  constructor
  · intro hfree
    rcases ((mem_paths_iff p).mp hp).1.1 with hsimple | hclosing
    · exact Or.inr ⟨hsimple, confines_of_not_dominated hp hsimple hfree⟩
    · exact Or.inl ⟨hclosing.1, hclosing.2.1⟩
  · intro hends
    rcases hends with ⟨hlen, hends⟩ | ⟨hsimple, hconfines⟩
    · have hdrop := ((mem_paths_iff p).mp hp).1.1.nodup_dropLast
      exact not_dominated_of_isClosing ⟨hlen, hends, hdrop⟩
    · exact not_dominated_of_confines hsimple hconfines

/-- Of the paths of a search without limits, either filter keeps the closing ones and the simple ones that
the graph confines. -/
theorem primePaths_enumerate (g : Graph) :
    ∃ done, g.FullSearch done ∧ ∀ s : Strategy,
      primePaths s done.paths.toList =
        done.paths.toList.filter fun p =>
          decide ((3 ≤ p.length ∧ p.head? = p.getLast?) ∨ (p.IsSimple ∧ g.Confines p)) := by
  refine ⟨g.survey g.nodes, g.fullSearch_survey, ?_⟩
  intro s
  have hne : ∀ p ∈ g.paths, p ≠ [] := fun p hp => ((mem_paths_iff p).mp hp).1.1.ne_nil
  rw [g.paths_survey_nodes, primePaths_of_ne_nil hne]
  apply List.filter_congr
  intro p hp
  rw [decide_eq_decide]
  exact not_dominated_iff hp

end PrimePaths.Graph

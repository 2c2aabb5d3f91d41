import PrimePaths.Proofs.Graph.Edges
import PrimePaths.Proofs.Search.Preservation
import PrimePaths.Proofs.Search.Tally
import Mathlib.Data.List.Chain

namespace PrimePaths

open PrimePaths.Path

/-- A path along edges of the graph. Only its start may be no node, and a negative one counts from the last
node backwards. -/
structure Path.Tracks (g : Graph) (p : Path) : Prop where
  shape : p.HasShape
  nodes : ∀ v ∈ p.tail, 0 ≤ v ∧ v < g.n
  steps : p.IsChain fun u v => v ∈ g.succsOf u

theorem Path.Tracks.of_subset {g g' : Graph} {p : Path} (h : p.Tracks g) (hn : g'.n = g.n)
    (hsub : ∀ u, g.succsOf u ⊆ g'.succsOf u) : p.Tracks g' where
  shape := h.shape
  nodes := hn ▸ h.nodes
  steps := h.steps.imp fun u _ hv => hsub u hv

/-- The path of a finding, if it has one, is a path along edges and has the shape of its kind. -/
structure Finding.Sound (g : Graph) (f : Finding) : Prop where
  shaped : f.Shaped
  tracks : ∀ p ∈ f.path?, p.Tracks g

namespace Graph

variable {g : Graph} {start : Int}

theorem tracks_of_mem_branch {t : Path} {v : Int} {f : Finding} (hnodup : (start :: t).Nodup)
    (hnodes : ∀ w ∈ t, 0 ≤ w ∧ w < g.n) (hv : v ∈ g.nodes)
    (hsteps : (start :: t ++ [v]).IsChain fun u w => w ∈ g.succsOf u)
    (hf : f ∈ g.branch start (start :: t) v) : ∀ p ∈ f.path?, p.Tracks g := by
  generalize hpath : start :: t = path at hnodup hsteps hf
  induction path, v, hv using visit_induction generalizing t with
  | step path v hv ih =>
  subst hpath
  have hmore : ∀ w ∈ t ++ [v], 0 ≤ w ∧ w < g.n := by
    intro w hw
    rcases List.mem_append.mp hw with hw | hw
    · exact hnodes w hw
    · rw [List.mem_singleton.mp hw]
      exact mem_nodes.mp hv
  have htracks (hshape : HasShape (start :: t ++ [v])) : Tracks g (start :: t ++ [v]) :=
    ⟨hshape, hmore, hsteps⟩
  unfold branch at hf
  split at hf
  · rename_i hclose
    rw [List.mem_singleton.mp hf]
    rintro p ⟨⟩
    exact htracks ((hasShape_append_singleton hnodup).mpr (Or.inr hclose))
  split at hf
  · rw [List.mem_singleton.mp hf]
    exact nofun
  rename_i hnew
  rcases List.mem_cons.mp hf with rfl | hf
  · rintro p ⟨⟩
    exact htracks ((hasShape_append_singleton hnodup).mpr (Or.inl hnew))
  rcases List.mem_append.mp hf with hf | hf
  · rw [beyond_eq, List.mem_flatMap] at hf
    obtain ⟨w, hw, hf⟩ := hf
    have hlonger : (start :: t ++ [v] ++ [w]).IsChain fun u w => w ∈ g.succsOf u := by
      refine List.isChain_append.mpr ⟨hsteps, List.isChain_singleton w, ?_⟩
      intro u hu x hx
      rw [List.getLast?_concat, Option.mem_some_iff] at hu
      rw [List.head?_cons, Option.mem_some_iff] at hx
      rw [← hu, ← hx]
      exact hw
    exact ih hnew w hw hmore rfl (nodup_append_singleton.mpr ⟨hnodup, hnew⟩) hlonger hf
  · rw [List.mem_singleton.mp hf]
    exact nofun

theorem sound_of_mem_tree {f : Finding} (hf : f ∈ g.tree start) : f.Sound g := by
  refine ⟨shaped_of_mem_tree hf, ?_⟩
  rcases List.mem_cons.mp hf with rfl | hf
  · rintro p ⟨⟩
    exact ⟨hasShape_singleton start, nofun, List.isChain_singleton start⟩
  rcases List.mem_append.mp hf with hf | hf
  · rw [beyond_eq, List.mem_flatMap] at hf
    obtain ⟨v, hv, hf⟩ := hf
    exact tracks_of_mem_branch (List.nodup_singleton start) nofun (mem_nodes_of_mem_succsOf hv)
      (List.isChain_pair.mpr hv) hf
  · rw [List.mem_singleton.mp hf]
    exact nofun

end Graph

/-- Each recorded path runs along edges, and the counters cover the recorded paths that do not close. -/
structure Progress.Sound (g : Graph) (p : Progress) : Prop where
  tracks : ∀ q ∈ p.paths.toList, q.Tracks g
  calls : openCount p.paths.toList ≤ p.calls
  depth : ∀ q ∈ p.paths.toList, ¬q.IsClosing → q.length ≤ p.maxDepth

namespace Progress

variable {g g' : Graph} {p : Progress} {f : Finding}

theorem sound_empty : Sound g {} :=
  ⟨nofun, Nat.le_refl 0, nofun⟩

namespace Sound

theorem of_subset (h : p.Sound g) (hn : g'.n = g.n) (hsub : ∀ u, g.succsOf u ⊆ g'.succsOf u) :
    p.Sound g' where
  tracks := fun q hq => (h.tracks q hq).of_subset hn hsub
  calls := h.calls
  depth := h.depth

/-- Counters may run ahead of the paths. -/
theorem of_le {q : Progress} (h : p.Sound g) (hpaths : q.paths = p.paths) (hcalls : p.calls ≤ q.calls)
    (hdepth : p.maxDepth ≤ q.maxDepth) : q.Sound g where
  tracks := hpaths ▸ h.tracks
  calls := hpaths ▸ h.calls.trans hcalls
  depth := hpaths ▸ fun r hr hopen => (h.depth r hr hopen).trans hdepth

theorem after (h : p.Sound g) (hf : f.Sound g) : (p.after f).Sound g where
  tracks := by
    intro q hq
    rw [paths_after, List.mem_append, Option.mem_toList] at hq
    rcases hq with hq | hq
    · exact h.tracks q hq
    · exact hf.tracks q hq
  calls := by
    have hcalls := h.calls
    rw [paths_after, calls_after hf.shaped, openCount, List.countP_append]
    exact Nat.add_le_add_right hcalls _
  depth := by
    intro q hq hopen
    rw [paths_after, List.mem_append, Option.mem_toList] at hq
    cases f with
    | close path =>
      rcases hq with hq | hq
      · exact h.depth q hq hopen
      · obtain rfl := Option.some.inj hq
        exact absurd hf.shaped hopen
    | enter path =>
      rcases hq with hq | hq
      · exact (h.depth q hq hopen).trans (Nat.le_max_left _ _)
      · obtain rfl := Option.some.inj hq
        exact Nat.le_max_right _ _
    | skip => exact h.depth q (hq.resolve_right (Option.some_ne_none q).symm) hopen
    | back => exact h.depth q (hq.resolve_right (Option.some_ne_none q).symm) hopen

theorem of_stop {l : Limits} {fails : Interruption → Prop} {e : Halt} {q : Progress} (h : p.Sound g)
    (hstop : Stop l fails p f e q) : q.Sound g := by
  cases hstop with
  | calls => exact h.of_le rfl (Nat.le_succ _) (Nat.le_refl _)
  | seconds => exact h.of_le rfl (Nat.le_succ _) (Nat.le_refl _)
  | clock => exact h.of_le rfl (Nat.le_succ _) (Nat.le_refl _)
  | paths => exact h.of_le rfl (Nat.le_succ _) (Nat.le_max_left _ _)
  | close => exact h

end Sound

end Progress

namespace Budget

open Search

variable {σ : Type} (b : Budget (StateM σ)) {g : Graph}

theorem preserves_remark (r : Remark) :
    Preserves (fun p _ => p.Sound g) (remark r : Search (StateM σ) Unit) :=
  preserves_modify fun _ _ hp => hp.of_le rfl (Nat.le_refl _) (Nat.le_refl _)

theorem preserves_act {f : Finding} (hf : f.Sound g) : Preserves (fun p _ => p.Sound g) (b.act f) := by
  intro p s hp
  obtain ⟨s', ⟨-, hrun⟩ | ⟨e, q, hstop, hrun⟩⟩ := b.act_cases f p s
  · rw [hrun]
    exact hp.after hf
  · rw [hrun]
    exact hp.of_stop hstop

/-- A walk from anywhere; one from no node records its start before it ends. -/
theorem preserves_walkFrom (start : Int) : Preserves (fun p _ => p.Sound g) (b.walkFrom g start) := by
  have htree : ∀ f ∈ g.tree start, Preserves (fun p _ => p.Sound g) (b.act f) :=
    fun f hf => b.preserves_act (Graph.sound_of_mem_tree hf)
  have hfirst : Preserves (fun p _ => p.Sound g) (b.expand [start]) := htree _ List.mem_cons_self
  rw [walkFrom]
  refine hfirst.bind fun _ => ?_
  split
  · exact preserves_throw _
  · rename_i us hus
    rw [follow_eq_forM]
    apply preserves_forM
    intro f hf
    apply htree
    rw [← Walk.findings_begin hus]
    exact List.mem_cons_of_mem _ hf

theorem preserves_enumerate (starts : List Int) :
    Preserves (fun p _ => p.Sound g) (b.enumerate g starts) := by
  rw [enumerate, List.forM_eq_forM]
  refine (preserves_remark _).bind fun _ => ?_
  refine (preserves_forM fun s _ => b.preserves_walkFrom s).bind fun _ => ?_
  exact preserves_get.bind fun _ => preserves_remark _

end Budget

end PrimePaths

import PrimePaths.Proofs.Generator.Listing
import PrimePaths.Proofs.Graph.Ascending
import PrimePaths.Proofs.Path.Parts
import PrimePaths.Proofs.Search.Unlimited

namespace PrimePaths

namespace Graph

variable {g : Graph} {start v w : Int} {path p q : Path}

/-- The paths on from a node come before those on from a later one. -/
theorem lt_of_mem_pathsAt {start' : Int} (hv : v ∈ g.nodes) (hw : w ∈ g.nodes) (hlt : v < w)
    (hp : p ∈ g.pathsAt start path v) (hq : q ∈ g.pathsAt start' path w) : p < q := by
  obtain ⟨r, rfl⟩ := exists_append_of_mem_pathsAt hv hp
  obtain ⟨r', rfl⟩ := exists_append_of_mem_pathsAt hw hq
  apply List.append_left_lt
  exact List.cons_lt_cons_iff.mpr (Or.inl hlt)

theorem lt_of_mem_pathsBeyond (hq : q ∈ g.pathsBeyond start path v) : path < q := by
  obtain ⟨w, r, rfl⟩ := exists_append_of_mem_pathsBeyond hq
  have hlonger : path ++ [] < path ++ w :: r := List.append_left_lt (List.nil_lt_cons w r)
  rwa [List.append_nil] at hlonger

/-- Ascending nodes are searched in turn, so what is recorded ascends if it does on from each of them. -/
theorem pairwise_flatMap_pathsAt {l : List Int} {starts : Int → Int} (hl : l.Pairwise (· < ·))
    (hnodes : ∀ v ∈ l, v ∈ g.nodes)
    (heach : ∀ v ∈ l, (g.pathsAt (starts v) path v).Pairwise (· < ·)) :
    (l.flatMap fun v => g.pathsAt (starts v) path v).Pairwise (· < ·) := by
  rw [List.pairwise_flatMap]
  refine ⟨heach, ?_⟩
  apply hl.imp_of_mem
  intro v w hv hw hlt p hp q hq
  exact lt_of_mem_pathsAt (hnodes v hv) (hnodes w hw) hlt hp hq

namespace Ascending

theorem pairwise_pathsAt (h : g.Ascending) (hv : v ∈ g.nodes) :
    (g.pathsAt start path v).Pairwise (· < ·) := by
  induction path, v, hv using visit_induction with
  | step path v hv ih =>
  unfold pathsAt
  split
  · exact List.pairwise_singleton _ _
  split
  · exact List.Pairwise.nil
  rename_i hnew
  rw [List.pairwise_cons, pathsBeyond_eq]
  refine ⟨fun q hq => lt_of_mem_pathsBeyond (pathsBeyond_eq g _ _ _ ▸ hq), ?_⟩
  apply pairwise_flatMap_pathsAt (h v hv) fun w hw => mem_nodes_of_mem_succsOf hw
  exact ih hnew

theorem pairwise_paths (h : g.Ascending) : g.paths.Pairwise (· < ·) := by
  rw [paths_eq_pathsAt]
  apply pairwise_flatMap_pathsAt g.pairwise_nodes fun _ hs => hs
  intro s hs
  exact h.pairwise_pathsAt hs

end Ascending

end Graph

theorem nodup_of_pairwise_lt {paths : List Path} (h : paths.Pairwise (· < ·)) : paths.Nodup := by
  apply h.imp
  intro p q hlt heq
  subst heq
  exact List.lt_irrefl p hlt

open Generator in
/-- Where all successor lists ascend, a search without limits records its paths in ascending lexicographic
order, a path before those that prolong it, and either filter keeps this order, so that no path is repeated.
Generated listings have such graphs, whatever is drawn and whichever blocks are dead. -/
theorem enumerate_increasing :
    (∀ g : Graph, g.Ascending →
      ∃ done, g.FullSearch done ∧
        done.paths.toList.Pairwise (· < ·) ∧ done.paths.toList.Nodup ∧
        ∀ s : Strategy, (primePaths s done.paths.toList).Pairwise (· < ·) ∧
          (primePaths s done.paths.toList).Nodup) ∧
    ∀ {σ : Type} (c : Chooser σ) (shape : Shape) (s : σ), c.Lawful → shape.Sensible →
      ∃ bs, blocks c shape s = .ok bs ∧
        -- The index of a block has too many digits to be read only after so many other blocks.
        (shape.count ≤ 10 ^ Crash.maxDigits → ∀ (read : String → Except Crash ByteArray) (path : String),
          read path = .ok (Listing.write [("generated", bs)]).toUTF8 →
          ∃ u g, Listing.load read path = .ok [u] ∧ u.graph = .ok g ∧ g.graph.Ascending) := by
  constructor
  · intro g h
    have hpaths : (g.survey g.nodes).paths.toList.Pairwise (· < ·) := by
      rw [g.paths_survey_nodes]
      exact h.pairwise_paths
    refine ⟨g.survey g.nodes, g.fullSearch_survey, hpaths, nodup_of_pairwise_lt hpaths, ?_⟩
    intro s
    have hprimes := hpaths.sublist (primePaths_sublist s _)
    exact ⟨hprimes, nodup_of_pairwise_lt hprimes⟩
  · intro σ c shape s hc hshape
    obtain ⟨bs, hbs, hpromised⟩ := exists_blocks hc hshape s
    exact ⟨bs, hbs, fun hfits read path hfile => hpromised.exists_ascending hfits hfile⟩

open Generator in
/-- A graph with a cycle and a node that leads to itself, and three blocks drawn from a seed, one of them
dead. -/
theorem enumerate_increasing_samples :
    (∃ g, (Graph.empty 3).addEdges [(0, 1), (0, 2), (1, 0), (1, 2), (2, 2)] = .ok g ∧ g.Ascending ∧
      ∃ done, g.FullSearch done ∧
        done.paths.toList.Pairwise (· < ·) ∧ done.paths.toList.Nodup ∧
        ∀ s : Strategy, (primePaths s done.paths.toList).Pairwise (· < ·) ∧
          (primePaths s done.paths.toList).Nodup) ∧
    Chooser.twister.Lawful ∧ Shape.Sensible ⟨3, 3, 1⟩ ∧ (3 : Nat) ≤ 10 ^ Crash.maxDigits ∧
    ∃ bs, blocks .twister ⟨3, 3, 1⟩ (Twister.ofSeed 7) = .ok bs ∧
      ∃ u g, Listing.load (fun _ => .ok (Listing.write [("generated", bs)]).toUTF8) "out.txt" = .ok [u] ∧
        u.graph = .ok g ∧ g.graph.Ascending := by
  obtain ⟨hsearch, hgenerated⟩ := enumerate_increasing
  have hsensible : Shape.Sensible ⟨3, 3, 1⟩ := ⟨by decide, by decide, by decide⟩
  have hfits : 3 ≤ 10 ^ Crash.maxDigits :=
    calc 3 ≤ 10 ^ 1 := by decide
      _ ≤ 10 ^ Crash.maxDigits := Nat.pow_le_pow_right (by decide) (by decide)
  obtain ⟨bs, hbs, hload⟩ :=
    hgenerated .twister ⟨3, 3, 1⟩ (Twister.ofSeed 7) Chooser.lawful_twister hsensible
  refine ⟨⟨_, rfl, by decide, hsearch _ (by decide)⟩, Chooser.lawful_twister, hsensible, hfits, bs, hbs, ?_⟩
  exact hload hfits _ "out.txt" rfl

end PrimePaths

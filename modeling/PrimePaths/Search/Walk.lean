import PrimePaths.Graph.Basic
import PrimePaths.Search.Progress

namespace PrimePaths

/-- A walk under way. The path and the stack go together: `unread` holds, for each node of the path,
the last one first, the successors that are still to draw. -/
structure Walk where
  path : Path
  onPath : List Int
  unread : List (List Int)
  deriving DecidableEq, Repr

inductive Finding
  /-- The successor lies on the path. -/
  | skip
  /-- The successor is the start, so the path closes. -/
  | close (path : Path)
  /-- The successor is new and prolongs the path. -/
  | enter (path : Path)
  /-- All successors of the last node are drawn. -/
  | back
  deriving DecidableEq, Repr

namespace Walk

/-- The walk that stands on its start node. -/
def begin (start : Int) (successors : List Int) : Walk where
  path := [start]
  onPath := [start]
  unread := [successors]

/-- One step, or nothing when the start node was left. -/
def next? (g : Graph) (start : Int) (w : Walk) : Option (Finding × Walk) :=
  match w.unread with
  | [] => none
  | [] :: rest =>
    some (.back, {
      path := w.path.dropLast
      onPath := w.path.getLast?.elim w.onPath w.onPath.erase
      unread := rest })
  | (v :: vs) :: rest =>
    if v = start ∧ 1 < w.path.length then
      some (.close (w.path ++ [v]), { w with unread := vs :: rest })
    else if v ∈ w.onPath then
      some (.skip, { w with unread := vs :: rest })
    else
      some (.enter (w.path ++ [v]), {
        path := w.path ++ [v]
        onPath := v :: w.onPath
        unread := g.succsOf v :: vs :: rest })

/-- The nodes on the path are distinct nodes of the graph or the start, and enough for the stack. -/
structure InBounds (g : Graph) (start : Int) (w : Walk) : Prop where
  nodup : w.onPath.Nodup
  nodes : ∀ v ∈ w.onPath, v = start ∨ 0 ≤ v ∧ v < g.n
  unread : ∀ us ∈ w.unread, ∀ v ∈ us, 0 ≤ v ∧ v < g.n
  depth : w.unread.length ≤ w.onPath.length

/-- More nodes than a path can hold. -/
def room (g : Graph) : Nat := g.n.toNat + 1

theorem InBounds.depth_le {g : Graph} {start : Int} {w : Walk} (h : w.InBounds g start) :
    w.unread.length ≤ room g := by
  refine Nat.le_trans h.depth ?_
  have hsub : w.onPath ⊆ start :: g.nodes := by
    intro v hv
    rcases h.nodes v hv with rfl | ⟨hlo, hhi⟩
    · exact List.mem_cons_self
    · refine List.mem_cons_of_mem _ ?_
      refine List.mem_map.mpr ⟨v.toNat, List.mem_range.mpr ?_, ?_⟩
      · omega
      · exact Int.toNat_of_nonneg hlo
  simpa [room, Graph.nodes] using h.nodup.length_le_of_subset hsub

theorem inBounds_begin {g : Graph} {start : Int} {us : List Int} (h : g.succsOf? start = some us) :
    (begin start us).InBounds g start where
  nodup := by simp [begin]
  nodes := by simp [begin]
  depth := by simp [begin]
  unread := by
    intro vs hvs v hv
    rw [List.mem_singleton.mp hvs] at hv
    exact Graph.mem_succsOf (u := start) (by simpa [Graph.succsOf, h] using hv)

theorem InBounds.next {g : Graph} {start : Int} {w w' : Walk} {f : Finding} (h : w.InBounds g start)
    (hstep : w.next? g start = some (f, w')) : w'.InBounds g start := by
  obtain ⟨hnodup, hnodes, hunread, hdepth⟩ := h
  unfold next? at hstep
  split at hstep
  · simp at hstep
  · rename_i rest hw
    rw [hw] at hunread hdepth
    obtain ⟨-, rfl⟩ := Prod.mk.inj (Option.some.inj hstep)
    have hrest : ∀ us ∈ rest, ∀ v ∈ us, 0 ≤ v ∧ v < g.n :=
      fun us hus => hunread us (List.mem_cons_of_mem _ hus)
    cases hlast : w.path.getLast? with
    | none => exact ⟨hnodup, hnodes, hrest, by simp at hdepth ⊢; omega⟩
    | some v =>
      refine ⟨hnodup.erase v, fun u hu => hnodes u (List.mem_of_mem_erase hu), hrest, ?_⟩
      have := List.le_length_erase (a := v) (l := w.onPath)
      simp at hdepth ⊢
      omega
  · rename_i v vs rest hw
    rw [hw] at hunread hdepth
    have hv : 0 ≤ v ∧ v < g.n := hunread _ List.mem_cons_self v List.mem_cons_self
    have hkeep : ∀ us ∈ vs :: rest, ∀ u ∈ us, 0 ≤ u ∧ u < g.n := by
      intro us hus u hu
      rcases List.mem_cons.mp hus with rfl | hus
      · exact hunread _ List.mem_cons_self u (List.mem_cons_of_mem _ hu)
      · exact hunread us (List.mem_cons_of_mem _ hus) u hu
    split at hstep
    · obtain ⟨-, rfl⟩ := Prod.mk.inj (Option.some.inj hstep)
      exact ⟨hnodup, hnodes, hkeep, by simpa using hdepth⟩
    · split at hstep
      · obtain ⟨-, rfl⟩ := Prod.mk.inj (Option.some.inj hstep)
        exact ⟨hnodup, hnodes, hkeep, by simpa using hdepth⟩
      · rename_i hnew
        obtain ⟨-, rfl⟩ := Prod.mk.inj (Option.some.inj hstep)
        refine ⟨List.nodup_cons.mpr ⟨hnew, hnodup⟩, ?_, ?_, by simpa using hdepth⟩
        · intro u hu
          rcases List.mem_cons.mp hu with rfl | hu
          · exact Or.inr hv
          · exact hnodes u hu
        · intro us hus u hu
          rcases List.mem_cons.mp hus with rfl | hus
          · exact Graph.mem_succsOf hu
          · exact hkeep us hus u hu

end Walk

end PrimePaths

import PrimePaths.Proofs.Path.Shape
import PrimePaths.Proofs.Search.Recursion
import Mathlib.Data.List.Chain

namespace PrimePaths

open PrimePaths.Path

private theorem getElem?_concat_eq_some_iff {α : Type} {l : List α} {a x : α} {i : Nat} :
    (l ++ [a])[i]? = some x ↔ l[i]? = some x ∨ i = l.length ∧ a = x := by
  rw [List.getElem?_append]
  split
  · simp
    omega
  · have hnone : l[i]? = none := List.getElem?_eq_none (by omega)
    rw [List.getElem?_singleton, hnone]
    simp
    omega

namespace Walk

/-- The parts of a walk that has not left its start fit together. The stack holds what is left of the
successors of each node of the path, and the next node of the path is the one drawn last. -/
structure Aligned (g : Graph) (start : Int) (w : Walk) : Prop where
  length_unread : w.unread.length = w.path.length
  head?_path : w.path.head? = some start
  nodup_path : w.path.Nodup
  mem_onPath : ∀ v, v ∈ w.onPath ↔ v ∈ w.path
  nodup_onPath : w.onPath.Nodup
  steps : w.path.IsChain fun u v => v ∈ g.succsOf u
  drawn : ∀ i u us, w.path[i]? = some u → w.unread.reverse[i]? = some us →
    ∃ drawn, g.succsOf u = drawn ++ us ∧ ∀ v ∈ w.path[i + 1]?, drawn.getLast? = some v

/-- The walk that has left its start. -/
def finished : Walk where
  path := []
  onPath := []
  unread := []

namespace Aligned

variable {g : Graph} {start u v : Int} {path : Path} {onPath us vs : List Int} {rest : List (List Int)}

theorem begin (g : Graph) (start : Int) : (begin start (g.succsOf start)).Aligned g start where
  length_unread := rfl
  head?_path := rfl
  nodup_path := List.nodup_singleton start
  mem_onPath := fun _ => Iff.rfl
  nodup_onPath := List.nodup_singleton start
  steps := List.isChain_singleton start
  drawn := by
    intro i u us hu hus
    cases i with
    | zero =>
      cases hu
      cases hus
      exact ⟨[], rfl, nofun⟩
    | succ i => simp [Walk.begin] at hu

/-- The node at the end of the path has at the top of the stack what is left of its successors. -/
theorem drawn_last (h : Aligned g start ⟨path, onPath, us :: rest⟩) {i : Nat} (hi : i = rest.length)
    (hu : path[i]? = some u) : ∃ drawn, g.succsOf u = drawn ++ us := by
  have htop : (us :: rest).reverse[i]? = some us := by
    rw [List.reverse_cons, getElem?_concat_eq_some_iff, List.length_reverse]
    exact Or.inr ⟨hi, rfl⟩
  obtain ⟨drawn, hdrawn, -⟩ := h.drawn i u us hu htop
  exact ⟨drawn, hdrawn⟩

/-- Below the top of the stack nothing depends on what is left at the top. -/
theorem drawn_below (h : Aligned g start ⟨path, onPath, us :: rest⟩) {i : Nat}
    (hu : path[i]? = some u) (hvs : rest.reverse[i]? = some vs) :
    ∃ drawn, g.succsOf u = drawn ++ vs ∧ ∀ v ∈ path[i + 1]?, drawn.getLast? = some v := by
  have hbelow : (us :: rest).reverse[i]? = some vs := by
    rw [List.reverse_cons, getElem?_concat_eq_some_iff]
    exact Or.inl hvs
  exact h.drawn i u vs hu hbelow

theorem draw (h : Aligned g start ⟨path, onPath, (v :: vs) :: rest⟩) :
    Aligned g start ⟨path, onPath, vs :: rest⟩ where
  length_unread := h.length_unread
  head?_path := h.head?_path
  nodup_path := h.nodup_path
  mem_onPath := h.mem_onPath
  nodup_onPath := h.nodup_onPath
  steps := h.steps
  drawn := by
    intro i u us hu hus
    have hlength : rest.length + 1 = path.length := h.length_unread
    rw [List.reverse_cons, getElem?_concat_eq_some_iff, List.length_reverse] at hus
    rcases hus with hus | ⟨hi, rfl⟩
    · exact h.drawn_below hu hus
    · obtain ⟨drawn, hdrawn⟩ := h.drawn_last hi hu
      have hend : path[i + 1]? = none := List.getElem?_eq_none (by omega)
      refine ⟨drawn ++ [v], by simp [hdrawn], ?_⟩
      rw [hend]
      exact nofun

theorem mem_succsOf (h : Aligned g start ⟨path, onPath, (v :: vs) :: rest⟩) :
    ∀ u ∈ path.getLast?, v ∈ g.succsOf u := by
  intro u hu
  have hlength : rest.length + 1 = path.length := h.length_unread
  rw [List.getLast?_eq_getElem?, Option.mem_def] at hu
  obtain ⟨drawn, hdrawn⟩ := h.drawn_last (by omega) hu
  rw [hdrawn]
  exact List.mem_append_right _ List.mem_cons_self

theorem enter (h : Aligned g start ⟨path, onPath, (v :: vs) :: rest⟩) (hnew : v ∉ path) :
    Aligned g start ⟨path ++ [v], v :: onPath, g.succsOf v :: vs :: rest⟩ where
  length_unread := by
    have hlength : rest.length + 1 = path.length := h.length_unread
    simpa using hlength
  head?_path := by
    have hhead : path.head? = some start := h.head?_path
    simp [hhead]
  nodup_path := nodup_append_singleton.mpr ⟨h.nodup_path, hnew⟩
  mem_onPath := by
    intro u
    rw [List.mem_cons, h.mem_onPath u, List.mem_append, List.mem_singleton, or_comm]
  nodup_onPath := List.nodup_cons.mpr ⟨(h.mem_onPath v).not.mpr hnew, h.nodup_onPath⟩
  steps := by
    refine List.isChain_append.mpr ⟨h.steps, List.isChain_singleton v, ?_⟩
    intro u hu w hw
    obtain rfl : v = w := by simpa using hw
    exact h.mem_succsOf u hu
  drawn := by
    intro i u us hu hus
    have hlength : rest.length + 1 = path.length := h.length_unread
    rw [getElem?_concat_eq_some_iff] at hu
    rw [List.reverse_cons, List.reverse_cons, getElem?_concat_eq_some_iff, getElem?_concat_eq_some_iff,
      List.length_append, List.length_reverse, List.length_singleton] at hus
    simp only [Option.mem_def, getElem?_concat_eq_some_iff]
    rcases hus with (hus | ⟨hi, rfl⟩) | ⟨hi, rfl⟩
    · -- A node below the end of the path goes on as before.
      have hlt : i < rest.length := by
        have := (List.getElem?_eq_some_iff.mp hus).1
        simpa using this
      obtain ⟨drawn, hdrawn, hnext⟩ := h.drawn_below (hu.resolve_right (by omega)) hus
      refine ⟨drawn, hdrawn, fun w hw => hnext w (hw.resolve_right (by omega))⟩
    · -- The node that was the end of the path goes on to the new one.
      obtain ⟨drawn, hdrawn⟩ := h.drawn_last hi (hu.resolve_right (by omega))
      have hend : path[i + 1]? = none := List.getElem?_eq_none (by omega)
      refine ⟨drawn ++ [v], by simp [hdrawn], ?_⟩
      intro w hw
      rw [hend] at hw
      obtain ⟨-, rfl⟩ := hw.resolve_left nofun
      exact List.getLast?_concat
    · have hold : path[i]? = none := List.getElem?_eq_none (by omega)
      rw [hold] at hu
      obtain ⟨-, rfl⟩ := hu.resolve_left nofun
      have hend : path[i + 1]? = none := List.getElem?_eq_none (by omega)
      refine ⟨[], rfl, ?_⟩
      intro w hw
      rw [hend] at hw
      obtain ⟨hi', -⟩ := hw.resolve_left nofun
      omega

theorem back (h : Aligned g start ⟨path ++ [v], onPath, us :: rest⟩) (hsome : path ≠ []) :
    Aligned g start ⟨path, onPath.erase v, rest⟩ where
  length_unread := by
    have hlength := h.length_unread
    simpa using hlength
  head?_path := by
    have hhead : (path ++ [v]).head? = some start := h.head?_path
    rwa [List.head?_append_of_ne_nil path hsome] at hhead
  nodup_path := (nodup_append_singleton.mp h.nodup_path).1
  mem_onPath := by
    intro u
    have hold : v ∉ path := (nodup_append_singleton.mp h.nodup_path).2
    have hmem : u ∈ onPath ↔ u ∈ path ++ [v] := h.mem_onPath u
    rw [h.nodup_onPath.mem_erase_iff, hmem]
    simp only [List.mem_append, List.mem_singleton]
    grind
  nodup_onPath := h.nodup_onPath.erase v
  steps := h.steps.left_of_append
  drawn := by
    intro i w ws hw hws
    have hw' : (path ++ [v])[i]? = some w := getElem?_concat_eq_some_iff.mpr (Or.inl hw)
    obtain ⟨drawn, hdrawn, hnext⟩ := h.drawn_below hw' hws
    refine ⟨drawn, hdrawn, fun x hx => hnext x ?_⟩
    exact getElem?_concat_eq_some_iff.mpr (Or.inl hx)

/-- The start is the last node to be left. -/
theorem erase_start (h : Aligned g start ⟨[v], onPath, us :: rest⟩) :
    onPath.erase v = [] ∧ rest = [] := by
  constructor
  · rw [List.eq_nil_iff_forall_not_mem]
    intro u hu
    obtain ⟨hne, hmem⟩ := h.nodup_onPath.mem_erase_iff.mp hu
    exact hne (List.mem_singleton.mp ((h.mem_onPath u).mp hmem))
  · have hlength := h.length_unread
    simpa using hlength

end Aligned

theorem leave_concat {path : Path} {v : Int} {onPath us : List Int} {rest : List (List Int)} :
    leave ⟨path ++ [v], onPath, us :: rest⟩ = ⟨path, onPath.erase v, rest⟩ := by
  simp [leave]

theorem Aligned.path_ne_nil {g : Graph} {start : Int} {w : Walk} (h : w.Aligned g start) : w.path ≠ [] := by
  intro hnil
  have hhead := h.head?_path
  rw [hnil] at hhead
  cases hhead

theorem Aligned.unread_ne_nil {g : Graph} {start : Int} {w : Walk} (h : w.Aligned g start) :
    w.unread ≠ [] := by
  rw [← List.length_pos_iff, h.length_unread, List.length_pos_iff]
  exact h.path_ne_nil

theorem Aligned.exists_concat {g : Graph} {start : Int} {w : Walk} (h : w.Aligned g start) :
    ∃ path v, w.path = path ++ [v] := by
  have hsome := h.path_ne_nil
  exact ⟨w.path.dropLast, w.path.getLast hsome, (List.dropLast_append_getLast hsome).symm⟩

/-- A step keeps the parts of a walk together, or it leaves the start and with it the last of them. -/
theorem Aligned.next {g : Graph} {start : Int} {w w' : Walk} {f : Finding} (h : w.Aligned g start)
    (hstep : w.next? g start = some (f, w')) : w'.Aligned g start ∨ w' = finished := by
  obtain ⟨path, onPath, unread⟩ := w
  rcases unread with _ | ⟨_ | ⟨v, vs⟩, rest⟩
  · cases hstep
  · rw [next?_back] at hstep
    cases hstep
    obtain ⟨path, v, rfl⟩ : ∃ front v, path = front ++ [v] := h.exists_concat
    rw [leave_concat]
    by_cases hsome : path = []
    · subst hsome
      obtain ⟨honPath, hrest⟩ := h.erase_start
      exact Or.inr (by rw [honPath, hrest]; rfl)
    · exact Or.inl (h.back hsome)
  · by_cases hclose : v = start ∧ 1 < path.length
    · rw [next?_close hclose] at hstep
      cases hstep
      exact Or.inl h.draw
    by_cases hold : v ∈ onPath
    · rw [next?_skip hclose hold] at hstep
      cases hstep
      exact Or.inl h.draw
    · rw [next?_enter hclose hold] at hstep
      cases hstep
      exact Or.inl (h.enter ((h.mem_onPath v).not.mp hold))

theorem unread_of_next? {g : Graph} {start : Int} {w : Walk} (h : w.next? g start = none) : w.unread = [] := by
  unfold next? at h
  split at h
  · assumption
  · cases h
  · split at h
    · cases h
    · split at h <;> cases h

/-- How many successors are still to draw. -/
def left (w : Walk) : Nat :=
  w.unread.flatten.length

end Walk

/-- How many successors were drawn: each finding but a way back comes from one. -/
def Finding.draws (fs : List Finding) : Nat :=
  fs.countP fun f => decide (f ≠ .back)

/-- How many successors the ends of the paths have that do not close. -/
def Graph.workOf (g : Graph) (paths : List Path) : Nat :=
  ((paths.filter fun p => decide ¬p.IsClosing).flatMap g.succsOfLast).length

section Work

variable {g : Graph} {start : Int} {path : Path} {ps qs : List Path} {w w' : Walk} {f : Finding}

theorem Graph.workOf_append : g.workOf (ps ++ qs) = g.workOf ps + g.workOf qs := by
  rw [workOf, List.filter_append, List.flatMap_append, List.length_append]
  rfl

theorem Graph.workOf_of_nodup {v : Int} (h : (path ++ [v]).Nodup) :
    g.workOf [path ++ [v]] = (g.succsOf v).length := by
  have hopen : ¬(path ++ [v]).IsClosing := fun hclosing => hclosing.not_nodup h
  simp [workOf, hopen, g.succsOfLast_concat]

theorem Graph.workOf_of_isClosing (h : path.IsClosing) : g.workOf [path] = 0 := by
  simp [workOf, h]

/-- What a step draws is no longer left, and a path that it enters brings the successors of its end. -/
theorem Walk.Aligned.left_next (h : w.Aligned g start) (hstep : w.next? g start = some (f, w')) :
    Finding.draws [f] + w'.left = w.left + g.workOf f.path?.toList := by
  obtain ⟨path, onPath, unread⟩ := w
  rcases unread with _ | ⟨_ | ⟨v, vs⟩, rest⟩
  · cases hstep
  · rw [next?_back] at hstep
    cases hstep
    simp [Finding.draws, Finding.path?, leave, left, Graph.workOf]
  · by_cases hclose : v = start ∧ 1 < path.length
    · rw [next?_close hclose] at hstep
      cases hstep
      have hclosing : (path ++ [v]).IsClosing :=
        isClosing_append_singleton hclose.2 (hclose.1 ▸ h.head?_path) h.nodup_path
      simp [Finding.draws, Finding.path?, left, Graph.workOf_of_isClosing hclosing]
      omega
    by_cases hold : v ∈ onPath
    · rw [next?_skip hclose hold] at hstep
      cases hstep
      simp [Finding.draws, Finding.path?, left, Graph.workOf]
      omega
    · rw [next?_enter hclose hold] at hstep
      cases hstep
      have hnodup : (path ++ [v]).Nodup := (h.enter ((h.mem_onPath v).not.mp hold)).nodup_path
      simp [Finding.draws, Finding.path?, left, Graph.workOf_of_nodup hnodup]
      omega

end Work

namespace Budget

variable {σ : Type}

theorem replay_act (b : Budget (StateM σ)) (hb : b.limits = {}) (f : Finding) (p : Progress) (s : σ) :
    (b.act f).replay p s = ((.ok (), p.after f), s) := by
  rw [Search.replay, b.act_unlimited hb]
  rfl

/-- What a walk under a budget goes through: it stands on its start once this is expanded, and goes on as
long as the budget lets it act on its findings. -/
inductive Reaches (b : Budget (StateM σ)) (g : Graph) (start : Int) (p : Progress) (s : σ) :
    List Finding → Walk → Progress → σ → Prop
  | begin {us : List Int} {q : Progress} {s' : σ} (hus : g.succsOf? start = some us)
    (hexpand : (b.expand [start]).replay p s = ((.ok (), q), s')) :
    Reaches b g start p s [] (.begin start us) q s'
  | next {fs : List Finding} {w w' : Walk} {f : Finding} {q q' : Progress} {s' s'' : σ}
    (hreach : Reaches b g start p s fs w q s') (hstep : w.next? g start = some (f, w'))
    (hact : (b.act f).replay q s' = ((.ok (), q'), s'')) :
    Reaches b g start p s (fs ++ [f]) w' q' s''

namespace Reaches

variable {b : Budget (StateM σ)} {g : Graph} {start : Int} {p q : Progress} {s s' : σ} {fs : List Finding}
  {w : Walk}

/-- The walk goes on from what it reached. -/
theorem replay_walkFrom (h : b.Reaches g start p s fs w q s') :
    ∃ hw : w.InBounds g start, (b.walkFrom g start).replay p s = (b.follow g start w hw).replay q s' := by
  induction h with
  | begin hus hexpand =>
    refine ⟨Walk.inBounds_begin hus, ?_⟩
    rw [b.walkFrom_of_succs hus, Search.replay_bind, hexpand]
  | next _ hstep hact ih =>
    obtain ⟨hw, hreplay⟩ := ih
    refine ⟨hw.next hstep, ?_⟩
    rw [hreplay, follow_eq_forM, follow_eq_forM, Walk.findings_of_next hw hstep,
      Search.replay_forM_cons_of_ok hact]

theorem aligned (h : b.Reaches g start p s fs w q s') : w.Aligned g start ∨ w = .finished := by
  induction h with
  | begin hus hexpand =>
    have hsuccs := Walk.Aligned.begin g start
    rw [Graph.succsOf, hus] at hsuccs
    exact Or.inl hsuccs
  | next _ hstep _ ih =>
    rcases ih with haligned | rfl
    · exact haligned.next hstep
    · cases hstep

/-- At any moment the successors that were drawn or are left are those of the paths that were entered. -/
theorem work (h : b.Reaches g start p s fs w q s') :
    Finding.draws fs + w.left = g.workOf ([start] :: fs.filterMap Finding.path?) := by
  induction h with
  | @begin us q s' hus hexpand =>
    have hstart : g.workOf [[] ++ [start]] = (g.succsOf start).length :=
      Graph.workOf_of_nodup (List.nodup_singleton start)
    rw [List.nil_append] at hstart
    have hsuccs : g.succsOf start = us := by rw [Graph.succsOf, hus, Option.getD_some]
    rw [List.filterMap_nil, hstart, hsuccs]
    simp [Finding.draws, Walk.left, Walk.begin]
  | @next fs w w' f q q' s' s'' hreach hstep hact ih =>
    rcases hreach.aligned with haligned | rfl
    swap
    · cases hstep
    have hnext := haligned.left_next hstep
    have hdraws : Finding.draws (fs ++ [f]) = Finding.draws fs + Finding.draws [f] := List.countP_append
    have hpaths : [start] :: (fs ++ [f]).filterMap Finding.path? =
        ([start] :: fs.filterMap Finding.path?) ++ f.path?.toList := by
      rw [List.filterMap_append, List.cons_append]
      cases hpath : f.path? <;> simp [hpath]
    rw [hdraws, hpaths, Graph.workOf_append, ← ih]
    omega

theorem paths (h : b.Reaches g start p s fs w q s') :
    q.paths.toList = p.paths.toList ++ [start] :: fs.filterMap Finding.path? := by
  induction h with
  | begin hus hexpand =>
    obtain rfl := b.eq_after_of_act (f := .enter [start]) hexpand
    exact Progress.paths_after p _
  | @next fs w w' f q q' s' s'' _ hstep hact ih =>
    obtain rfl := b.eq_after_of_act hact
    rw [Progress.paths_after, ih, List.filterMap_append, List.append_assoc, List.cons_append]
    cases hpath : f.path? <;> simp [hpath]

/-- Without limits a walk goes on until it leaves its start, as its weight falls with each step. -/
theorem exists_finished (h : b.Reaches g start p s fs w q s') (hb : b.limits = {}) :
    ∃ fs q s', b.Reaches g start p s fs .finished q s' := by
  induction hn : w.weight g using Nat.strongRecOn generalizing fs w q s' with
  | ind n ih =>
  obtain ⟨hw, -⟩ := h.replay_walkFrom
  cases hnext : w.next? g start with
  | none =>
    rcases h.aligned with haligned | rfl
    · exact absurd (Walk.unread_of_next? hnext) haligned.unread_ne_nil
    · exact ⟨fs, q, s', h⟩
  | some step =>
    obtain ⟨f, w'⟩ := step
    have hact := b.replay_act hb f q s'
    exact ih _ (hn ▸ Walk.weight_next hw hnext) (h.next hnext hact) rfl

end Reaches

end Budget

/-- Wherever a walk from a node stands between two steps, under whatever limits, its path starts there,
repeats no node and runs along edges, the marked nodes are those of the path, and the stack is as high as
the path and holds what each node has left after the successor that the path goes on to. Without limits the
walk ends with nothing on its path, no mark and no stack, and it has drawn all successors of the ends of the
paths that it recorded and that do not close. -/
theorem walk_aligned {σ : Type} (b : Budget (StateM σ)) {g : Graph} {start : Int} (hs : start ∈ g.nodes)
    (p : Progress) (s : σ) :
    (∀ fs w q s', b.Reaches g start p s fs w q s' →
      (∃ hw, (b.walkFrom g start).replay p s = (b.follow g start w hw).replay q s') ∧
        (w.unread ≠ [] → w.Aligned g start)) ∧
    (b.limits = {} → ∃ fs q s' recorded, b.Reaches g start p s fs ⟨[], [], []⟩ q s' ∧
      (b.walkFrom g start).replay p s = ((.ok (), q), s') ∧
      q.paths.toList = p.paths.toList ++ recorded ∧ Finding.draws fs = g.workOf recorded) := by
  constructor
  · intro fs w q s' h
    refine ⟨h.replay_walkFrom, fun hunread => ?_⟩
    rcases h.aligned with haligned | rfl
    · exact haligned
    · exact absurd rfl hunread
  · intro hb
    have hus := Graph.succsOf?_of_mem hs
    have hexpand : (b.expand [start]).replay p s = ((.ok (), p.after (.enter [start])), s) :=
      b.replay_act hb (.enter [start]) p s
    obtain ⟨fs, q, s', h⟩ := (Budget.Reaches.begin hus hexpand).exists_finished hb
    refine ⟨fs, q, s', _, h, ?_, h.paths, ?_⟩
    · obtain ⟨hw, hreplay⟩ := h.replay_walkFrom
      rw [hreplay, Budget.follow_eq_forM, Walk.findings_of_unread_nil hw rfl]
      rfl
    · exact h.work

/-- On two nodes that lead to each other, the second one with a loop, a walk from the first one draws three
successors and records three paths, of which one closes. -/
theorem walk_aligned_cycle :
    ∃ g, (Graph.empty 2).addEdges [(0, 1), (1, 0), (1, 1)] = .ok g ∧ 0 ∈ g.nodes ∧
      ∃ fs q s, (Budget.mk (m := StateM Unit) {} (pure (.ok (.whole 0))) (.whole 0)).Reaches g 0 {} () fs
          ⟨[], [], []⟩ q s ∧
        q.paths = #[[0], [0, 1], [0, 1, 0]] ∧ Finding.draws fs = 3 := by
  refine ⟨_, rfl, ?_⟩
  generalize hg : Graph.mk _ _ _ _ = g
  have hnodes : g.nodes = [0, 1] := by
    rw [← hg]
    rfl
  have hzero : g.succsOf 0 = [1] := by
    rw [← hg]
    rfl
  have hone : g.succsOf 1 = [0, 1] := by
    rw [← hg]
    rfl
  have hs : 0 ∈ g.nodes := by
    rw [hnodes]
    exact List.mem_cons_self
  have htree : g.tree 0 = [.enter [0], .enter [0, 1], .close [0, 1, 0], .skip, .back, .back] := by
    simp [Graph.tree, Graph.beyond_eq, Graph.branch, hzero, hone]
  obtain ⟨-, hfinished⟩ :=
    walk_aligned (Budget.mk (m := StateM Unit) {} (pure (.ok (.whole 0))) (.whole 0)) hs {} ()
  obtain ⟨fs, q, s, recorded, hreach, hreplay, hpaths, hdraws⟩ := hfinished rfl
  rw [Budget.walkFrom_eq_forM _ hs, htree] at hreplay
  have hq : q.paths = #[[0], [0, 1], [0, 1, 0]] := by
    have hprogress := congrArg (fun r => r.1.2.paths) hreplay
    exact hprogress.symm
  obtain rfl : recorded = [[0], [0, 1], [0, 1, 0]] := by
    rw [hq] at hpaths
    exact hpaths.symm
  refine ⟨hs, fs, q, s, hreach, hq, ?_⟩
  have hopen : List.filter (fun p : Path => decide ¬p.IsClosing) [[0], [0, 1], [0, 1, 0]] = [[0], [0, 1]] := by
    decide
  rw [hdraws, Graph.workOf, hopen]
  simp [Graph.succsOfLast, hzero, hone]

end PrimePaths

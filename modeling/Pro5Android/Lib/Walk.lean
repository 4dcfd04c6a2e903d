import Pro5Android.Lib.While
import Mathlib.Data.Finset.Card
import Mathlib.Data.Finset.Lattice.Basic
import Mathlib.Tactic.SplitIfs

/-!
# Walks over a graph

A depth-first walk with a stack of nodes to expand and a set of nodes seen. A node is
named when it is first seen, by the way to it; every edge of an expanded node is shown
to a visitor, which keeps what it wants and may fail. The graph may have cycles, and
nodes without edges of their own (`edges` is `none`) are shown, but not expanded.

Results:
* `Ends.explored`: a walk that ends has shown every edge of every node that can be
  reached, once, under a way that leads there.
* `ends_of_finite`: a walk over finitely many nodes ends, if the visitor does not fail.
-/

namespace Pro5Android.Lib

/-- A graph over nodes `ν` with labels `ℓ` at its edges and names `π` for the ways in it. -/
structure Graph (ν ℓ π : Type*) where
  edges : ν → Option (List (ℓ × ν))
  extend : π → ℓ → π

/-- A walk over a graph with a visitor that keeps a `σ`. -/
structure Walk (ν ℓ π σ : Type*) extends Graph ν ℓ π where
  visit : σ → π → ℓ → ν → Option σ

structure WalkState (ν π σ : Type*) where
  stack : List (ν × π)
  visited : Finset ν
  kept : σ

namespace Graph

variable {ν ℓ π : Type*} (G : Graph ν ℓ π)

/-- `labels` leads from `root` to a node, over nodes that have edges. -/
inductive Leads (root : ν) : List ℓ → ν → Prop
  | nil : Leads root [] root
  | snoc {labels : List ℓ} {d t : ν} {es : List (ℓ × ν)} {l : ℓ} (h : Leads root labels d)
      (hedges : G.edges d = some es) (hmem : (l, t) ∈ es) : Leads root (labels ++ [l]) t

/-- The name of a way. -/
def name (p : π) (labels : List ℓ) : π := labels.foldl G.extend p

theorem name_snoc (p : π) (labels : List ℓ) (l : ℓ) :
    G.name p (labels ++ [l]) = G.extend (G.name p labels) l := by
  rw [name, List.foldl_append]
  rfl

/-- The node can be reached, and has edges. -/
def Reachable (root d : ν) : Prop := (∃ labels, G.Leads root labels d) ∧ (G.edges d).isSome

/-- A set that contains the root and what the nodes in it have edges to. -/
theorem Leads.mem {G : Graph ν ℓ π} {nodes : Finset ν} {root t : ν} {labels : List ℓ}
    (h : G.Leads root labels t) (hroot : root ∈ nodes)
    (hclosed : ∀ d ∈ nodes, ∀ e ∈ (G.edges d).getD [], e.2 ∈ nodes) : t ∈ nodes := by
  induction h with
  | nil => exact hroot
  | @snoc labels d t es l _ hedges hmem ih =>
    refine hclosed d ih (l, t) ?_
    rw [hedges]
    exact hmem

/-- What a walk shows of the nodes in `order`. -/
def shown (order : List (ν × π)) : List (π × ℓ × ν) :=
  order.flatMap fun d => ((G.edges d.1).getD []).map fun e => (G.extend d.2 e.1, e.1, e.2)

/-- The nodes that were expanded, in order, each under one way to it. -/
structure Explored (root : ν) (p : π) (order : List (ν × π)) : Prop where
  nodup : (order.map Prod.fst).Nodup
  leads : ∀ d ∈ order, ∃ labels, G.Leads root labels d.1 ∧ d.2 = G.name p labels
  all : ∀ d, G.Reachable root d ↔ d ∈ order.map Prod.fst

variable {G}

/-- Everything that is shown is at the end of a way that the walk has a name for. -/
theorem Explored.shown_leads {root : ν} {p : π} {order : List (ν × π)}
    (h : G.Explored root p order) {q : π} {l : ℓ} {t : ν} (hmem : (q, l, t) ∈ G.shown order) :
    ∃ labels, G.Leads root (labels ++ [l]) t ∧ q = G.name p (labels ++ [l]) := by
  obtain ⟨d, hd, hmem⟩ := List.mem_flatMap.mp hmem
  obtain ⟨e, he, heq⟩ := List.mem_map.mp hmem
  obtain ⟨labels, hlabels, hname⟩ := h.leads d hd
  cases hes : G.edges d.1 with
  | none => simp [hes] at he
  | some es =>
    rw [hes] at he
    simp only [Prod.mk.injEq] at heq
    obtain ⟨rfl, rfl, rfl⟩ := heq
    exact ⟨labels, .snoc hlabels hes he, by rw [name_snoc, hname]⟩

/-- Every edge of a node that can be reached is shown. -/
theorem Explored.exists_shown {root : ν} {p : π} {order : List (ν × π)}
    (h : G.Explored root p order) {labels : List ℓ} {l : ℓ} {t : ν}
    (hleads : G.Leads root (labels ++ [l]) t) : ∃ q, (q, l, t) ∈ G.shown order := by
  generalize hend : labels ++ [l] = way at hleads
  cases hleads with
  | nil => simp at hend
  | @snoc labels' d t es l' hlabels hes hmem =>
    obtain ⟨-, hl⟩ := List.append_inj' hend rfl
    obtain rfl := List.singleton_inj.mp hl
    have hd := (h.all d).mp ⟨⟨labels', hlabels⟩, by rw [hes]; rfl⟩
    obtain ⟨e, he, rfl⟩ := List.mem_map.mp hd
    refine ⟨G.extend e.2 l, List.mem_flatMap.mpr ⟨e, he, List.mem_map.mpr ⟨(l, t), ?_, rfl⟩⟩⟩
    rw [hes]
    exact hmem

end Graph

namespace Walk

variable {ν ℓ π σ : Type*} {W : Walk ν ℓ π σ}

def visitShown (W : Walk ν ℓ π σ) (kept : σ) (e : π × ℓ × ν) : Option σ :=
  W.visit kept e.1 e.2.1 e.2.2

/-! ## On the way -/

def start (root : ν) (p : π) (kept : σ) : WalkState ν π σ := ⟨[(root, p)], {root}, kept⟩

/-- A walk from `root` that has expanded the nodes in `order`. -/
structure Walking (W : Walk ν ℓ π σ) (root : ν) (p : π) (kept : σ) (order : List (ν × π))
    (s : WalkState ν π σ) : Prop where
  nodup : ((order ++ s.stack).map Prod.fst).Nodup
  visited : ∀ d, d ∈ s.visited ↔ d ∈ (order ++ s.stack).map Prod.fst
  leads : ∀ d ∈ order ++ s.stack, (W.edges d.1).isSome ∧
    ∃ labels, W.Leads root labels d.1 ∧ d.2 = W.name p labels
  closed : ∀ d ∈ order, ∀ es, W.edges d.1 = some es →
    ∀ e ∈ es, (W.edges e.2).isSome → e.2 ∈ s.visited
  root : root ∈ s.visited
  kept : (W.shown order).foldlM W.visitShown kept = some s.kept

theorem walking_start {root : ν} (p : π) (kept : σ) (hroot : (W.edges root).isSome) :
    Walking W root p kept [] (start root p kept) where
  nodup := List.nodup_singleton _
  visited d := by simp [start]
  leads d hd := by
    obtain rfl := List.mem_singleton.mp hd
    exact ⟨hroot, [], .nil, rfl⟩
  closed := by simp
  root := Finset.mem_singleton_self _
  kept := rfl

theorem Walking.explored {root : ν} {p : π} {kept : σ} {order : List (ν × π)}
    {s : WalkState ν π σ} (h : Walking W root p kept order s) (hstack : s.stack = []) :
    W.Explored root p order := by
  have hnodup := h.nodup
  have hvisited := h.visited
  have hleads := h.leads
  rw [hstack, List.append_nil] at hnodup hleads
  simp only [hstack, List.append_nil] at hvisited
  refine ⟨hnodup, fun d hd => (hleads d hd).2, fun d => ⟨?_, fun hd => ?_⟩⟩
  · rintro ⟨⟨labels, hlabels⟩, hsome⟩
    rw [← hvisited]
    induction hlabels with
    | nil => exact h.root
    | @snoc labels d t es l _ hedges hmem ih =>
      obtain ⟨e, he, rfl⟩ := List.mem_map.mp ((hvisited d).mp (ih (by rw [hedges]; rfl)))
      exact h.closed e he es hedges (l, t) hmem hsome
  · obtain ⟨e, he, rfl⟩ := List.mem_map.mp hd
    obtain ⟨hsome, labels, hlabels, -⟩ := hleads e he
    exact ⟨⟨labels, hlabels⟩, hsome⟩

/-! ## The edges of one node -/

variable [DecidableEq ν]

/-- One edge of a node whose way is named `p`. -/
def visitEdge (W : Walk ν ℓ π σ) (p : π) (s : WalkState ν π σ) (e : ℓ × ν) : Option (WalkState ν π σ) :=
  (W.visit s.kept (W.extend p e.1) e.1 e.2).map fun kept =>
    if (W.edges e.2).isSome ∧ e.2 ∉ s.visited then
      ⟨(e.2, W.extend p e.1) :: s.stack, insert e.2 s.visited, kept⟩
    else { s with kept }

/-- The loop over the stack. -/
def loop (W : Walk ν ℓ π σ) : Loop (WalkState ν π σ) where
  more s := !s.stack.isEmpty
  body s := match s.stack with
    | [] => none
    | (d, p) :: stack => (W.edges d).bind fun es => es.foldlM (W.visitEdge p) { s with stack }

/-- What became of `s` over the edges `es`. -/
structure Expanded (W : Walk ν ℓ π σ) (p : π) (es : List (ℓ × ν)) (s s' : WalkState ν π σ)
    (new : List (ν × π)) : Prop where
  stack : s'.stack = new ++ s.stack
  visited : ∀ d, d ∈ s'.visited ↔ d ∈ s.visited ∨ d ∈ new.map Prod.fst
  nodup : (new.map Prod.fst).Nodup
  fresh : ∀ d ∈ new, d.1 ∉ s.visited ∧ (W.edges d.1).isSome ∧
    ∃ l, (l, d.1) ∈ es ∧ d.2 = W.extend p l
  seen : ∀ e ∈ es, (W.edges e.2).isSome → e.2 ∈ s'.visited
  kept : (es.map fun e => (W.extend p e.1, e.1, e.2)).foldlM W.visitShown s.kept = some s'.kept

theorem visitEdge_cases {p : π} {s s' : WalkState ν π σ} {e : ℓ × ν}
    (h : W.visitEdge p s e = some s') :
    W.visit s.kept (W.extend p e.1) e.1 e.2 = some s'.kept ∧
      ((W.edges e.2).isSome ∧ e.2 ∉ s.visited ∧
          s'.stack = (e.2, W.extend p e.1) :: s.stack ∧ s'.visited = insert e.2 s.visited ∨
        ((W.edges e.2).isSome → e.2 ∈ s.visited) ∧ s'.stack = s.stack ∧
          s'.visited = s.visited) := by
  obtain ⟨kept, hkept, rfl⟩ := Option.map_eq_some_iff.mp h
  split_ifs with hnew
  · exact ⟨hkept, .inl ⟨hnew.1, hnew.2, rfl, rfl⟩⟩
  · exact ⟨hkept, .inr ⟨fun hsome => by_contra fun hmem => hnew ⟨hsome, hmem⟩, rfl, rfl⟩⟩

theorem expanded_of_foldlM {p : π} {es : List (ℓ × ν)} {s s' : WalkState ν π σ}
    (h : es.foldlM (W.visitEdge p) s = some s') : ∃ new, Expanded W p es s s' new := by
  induction es generalizing s with
  | nil =>
    obtain rfl := Option.some.inj h
    exact ⟨[], rfl, by simp, List.nodup_nil, by simp, by simp, rfl⟩
  | cons e es ih =>
    rw [List.foldlM_cons] at h
    obtain ⟨s₁, h₁, hrest⟩ := Option.bind_eq_some_iff.mp h
    obtain ⟨new, hstack, hvisited, hnodup, hfresh, hseen, hkept⟩ := ih hrest
    obtain ⟨hvisit, hcases⟩ := visitEdge_cases h₁
    have hfold : ((e :: es).map fun e => (W.extend p e.1, e.1, e.2)).foldlM W.visitShown s.kept =
        some s'.kept := by
      rw [List.map_cons, List.foldlM_cons, visitShown, hvisit]
      exact hkept
    rcases hcases with ⟨hsome, hnew, hstack₁, hvisited₁⟩ | ⟨hold, hstack₁, hvisited₁⟩
    · have hnot : e.2 ∉ new.map Prod.fst := by
        intro hmem
        obtain ⟨d, hd, hde⟩ := List.mem_map.mp hmem
        exact (hfresh d hd).1 (by rw [hvisited₁, hde]; exact Finset.mem_insert_self _ _)
      refine ⟨new ++ [(e.2, W.extend p e.1)], ?_, fun d => ?_, ?_, fun d hd => ?_, ?_, hfold⟩
      · rw [hstack, hstack₁, List.append_assoc, List.singleton_append]
      · rw [hvisited, hvisited₁, Finset.mem_insert, List.map_append, List.mem_append]
        simp only [List.map_cons, List.map_nil, List.mem_singleton]
        tauto
      · rw [List.map_append, List.nodup_append]
        refine ⟨hnodup, List.nodup_singleton _, fun a ha b hb hab => ?_⟩
        obtain rfl := List.mem_singleton.mp hb
        rw [hab] at ha
        exact hnot ha
      · rcases List.mem_append.mp hd with hd | hd
        · obtain ⟨hd₁, hd₂, l, hl, hdl⟩ := hfresh d hd
          exact ⟨fun hs => hd₁ (by rw [hvisited₁]; exact Finset.mem_insert_of_mem hs), hd₂, l,
            List.mem_cons_of_mem e hl, hdl⟩
        · obtain rfl := List.mem_singleton.mp hd
          exact ⟨hnew, hsome, e.1, List.mem_cons_self, rfl⟩
      · intro e' he' hsome'
        rcases List.mem_cons.mp he' with rfl | he'
        · rw [hvisited, hvisited₁]
          exact .inl (Finset.mem_insert_self _ _)
        · exact hseen e' he' hsome'
    · refine ⟨new, by rw [hstack, hstack₁], fun d => by rw [hvisited, hvisited₁], hnodup,
        fun d hd => ?_, ?_, hfold⟩
      · obtain ⟨hd₁, hd₂, l, hl, hdl⟩ := hfresh d hd
        exact ⟨hvisited₁ ▸ hd₁, hd₂, l, List.mem_cons_of_mem e hl, hdl⟩
      · intro e' he' hsome'
        rcases List.mem_cons.mp he' with rfl | he'
        · rw [hvisited, hvisited₁]
          exact .inl (hold hsome')
        · exact hseen e' he' hsome'

/-! ## The whole walk -/

theorem Walking.step {root : ν} {p : π} {kept : σ} {order : List (ν × π)}
    {s s₁ : WalkState ν π σ} (h : Walking W root p kept order s)
    (hbody : W.loop.body s = some s₁) : ∃ order₁, Walking W root p kept order₁ s₁ := by
  obtain ⟨stack, visited, acc⟩ := s
  cases stack with
  | nil => cases hbody
  | cons d stack =>
    obtain ⟨d, q⟩ := d
    obtain ⟨es, hes, hfold⟩ := Option.bind_eq_some_iff.mp hbody
    obtain ⟨new, hstack, hvisited, hnodup, hfresh, hseen, hkept⟩ := expanded_of_foldlM hfold
    have hold := h.visited
    have hlead : ∃ labels, W.Leads root labels d ∧ q = W.name p labels :=
      (h.leads (d, q) (by simp)).2
    refine ⟨order ++ [(d, q)], ⟨?_, fun e => ?_, ?_, ?_, ?_, ?_⟩⟩
    · have hbefore : ((order ++ [(d, q)] ++ stack).map Prod.fst).Nodup := by
        rw [List.append_assoc]
        exact h.nodup
      have hperm : (order ++ [(d, q)] ++ s₁.stack).Perm (new ++ (order ++ [(d, q)] ++ stack)) := by
        rw [hstack]
        exact List.perm_append_comm_assoc _ _ _
      rw [(hperm.map Prod.fst).nodup_iff, List.map_append, List.nodup_append]
      refine ⟨hnodup, hbefore, fun a ha b hb hab => ?_⟩
      obtain ⟨e, he, rfl⟩ := List.mem_map.mp ha
      refine (hfresh e he).1 ((hold e.1).mpr ?_)
      rw [hab, ← List.singleton_append, ← List.append_assoc]
      exact hb
    · rw [hvisited, hstack, hold]
      simp only [List.map_append, List.mem_append, List.map_cons, List.map_nil, List.mem_cons]
      tauto
    · intro e he
      have hcases : e ∈ order ++ (d, q) :: stack ∨ e ∈ new := by
        rw [hstack] at he
        simp only [List.mem_append, List.mem_cons] at he ⊢
        tauto
      rcases hcases with hmem | hmem
      · exact h.leads e hmem
      · obtain ⟨-, hsome, l, hl, hname⟩ := hfresh e hmem
        obtain ⟨labels, hlabels, rfl⟩ := hlead
        exact ⟨hsome, labels ++ [l], .snoc hlabels hes hl, by rw [hname, Graph.name_snoc]⟩
    · intro e he es' hes' x hx hsome
      rcases List.mem_append.mp he with he | he
      · exact (hvisited x.2).mpr (.inl (h.closed e he es' hes' x hx hsome))
      · obtain rfl := List.mem_singleton.mp he
        obtain rfl := Option.some.inj (hes.symm.trans hes')
        exact hseen x hx hsome
    · exact (hvisited root).mpr (.inl h.root)
    · rw [Graph.shown, List.flatMap_append, List.foldlM_append]
      have hone : [(d, q)].flatMap (fun d => ((W.edges d.1).getD []).map
          fun e => (W.extend d.2 e.1, e.1, e.2)) = es.map fun e => (W.extend q e.1, e.1, e.2) := by
        rw [List.flatMap_singleton, hes]
        rfl
      have hacc := h.kept
      rw [Graph.shown] at hacc
      rw [hone, hacc]
      exact hkept

/-- A walk that ends has expanded every node that can be reached, and what it kept is what
    the visitor made of all their edges. -/
theorem Ends.explored {root : ν} {p : π} {kept : σ} {s : WalkState ν π σ}
    (hroot : (W.edges root).isSome) (h : W.loop.Ends (start root p kept) s) :
    ∃ order, W.Explored root p order ∧ (W.shown order).foldlM W.visitShown kept = some s.kept := by
  obtain ⟨⟨order, hwalking⟩, hstop⟩ := h.invariant
    (fun s => ∃ order, Walking W root p kept order s)
    (fun ⟨_, h⟩ _ hbody => h.step hbody) ⟨[], walking_start p kept hroot⟩
  have hstack : s.stack = [] := by simpa [loop] using hstop
  exact ⟨order, hwalking.explored hstack, hwalking.kept⟩

/-! ## Termination -/

theorem foldlM_isSome {p : π} {es : List (ℓ × ν)}
    (h : ∀ e ∈ es, ∀ kept, (W.visit kept (W.extend p e.1) e.1 e.2).isSome) (s : WalkState ν π σ) :
    ∃ s', es.foldlM (W.visitEdge p) s = some s' := by
  induction es generalizing s with
  | nil => exact ⟨s, rfl⟩
  | cons e es ih =>
    obtain ⟨kept, hkept⟩ := Option.isSome_iff_exists.mp (h e List.mem_cons_self s.kept)
    rw [List.foldlM_cons, visitEdge, hkept]
    exact ih (fun e' he' => h e' (List.mem_cons_of_mem e he')) _

/-- A walk over nodes of a finite set ends, if the visitor does not fail at the edges of the
    nodes that can be reached. -/
theorem ends_of_finite {root : ν} (p : π) (kept : σ) (hroot : (W.edges root).isSome)
    (nodes : Finset ν) (hnodes : ∀ d, W.Reachable root d → d ∈ nodes)
    (hvisit : ∀ d es, W.Reachable root d → W.edges d = some es → ∀ e ∈ es, ∀ q kept,
      (W.visit kept q e.1 e.2).isSome) : ∃ s, W.loop.Ends (start root p kept) s := by
  refine Loop.ends_of_measure (fun s => ∃ order, Walking W root p kept order s)
    (fun s => (nodes \ s.visited).card + s.stack.length) ?_ ⟨[], walking_start p kept hroot⟩
  rintro ⟨stack, visited, acc⟩ ⟨order, h⟩ hmore
  cases stack with
  | nil => simp [loop] at hmore
  | cons d stack =>
    obtain ⟨d, q⟩ := d
    obtain ⟨hsome, labels, hlabels, -⟩ := h.leads (d, q) (by simp)
    obtain ⟨es, hes⟩ := Option.isSome_iff_exists.mp hsome
    have hreach : W.Reachable root d := ⟨⟨labels, hlabels⟩, hsome⟩
    obtain ⟨s₁, hfold⟩ := foldlM_isSome (p := q) (fun e he kept => hvisit d es hreach hes e he _ kept)
      ⟨stack, visited, acc⟩
    have hbody : W.loop.body ⟨(d, q) :: stack, visited, acc⟩ = some s₁ := by
      rw [loop]
      dsimp only
      rw [hes]
      exact hfold
    refine ⟨s₁, hbody, h.step hbody, ?_⟩
    obtain ⟨new, hstack, hvisited, hnodup, hfresh, -, -⟩ := expanded_of_foldlM hfold
    dsimp only at hstack hvisited
    have hsub : (new.map Prod.fst).toFinset ⊆ nodes \ visited := by
      intro x hx
      obtain ⟨e, he, rfl⟩ := List.mem_map.mp (List.mem_toFinset.mp hx)
      obtain ⟨hnot, hsome', l, hl, -⟩ := hfresh e he
      exact Finset.mem_sdiff.mpr ⟨hnodes _ ⟨⟨_, .snoc hlabels hes hl⟩, hsome'⟩, hnot⟩
    have hrest : nodes \ s₁.visited = (nodes \ visited) \ (new.map Prod.fst).toFinset := by
      ext x
      simp only [Finset.mem_sdiff, hvisited, List.mem_toFinset]
      tauto
    have hcard : (new.map Prod.fst).toFinset.card = new.length := by
      rw [List.toFinset_card_of_nodup hnodup, List.length_map]
    have hle := Finset.card_le_card hsub
    dsimp only
    rw [hrest, Finset.card_sdiff_of_subset hsub, hcard, hstack, List.length_append,
      List.length_cons]
    omega

end Walk

end Pro5Android.Lib

-- How a plan is visited. A visit keeps a stack of the nodes that are still to come, takes off the
-- one on top, and puts those right below it in its place. It comes to its end, and it has met every
-- node once by then: a node in front of what is below it, and that in front of what is beside it.
-- So the counts of a plan and its height, which are taken on a visit, are those of the recursion.
import Mathlib.Algebra.GroupWithZero.Nat
import QueryReview.Proofs.Plan.Concatenation
import QueryReview.Proofs.Plan.RoundTrip

namespace QueryReview.Plan

open List (Forall₂)

/-! ## Visits -/

section Visits

variable {α σ : Type}

/-- The items are put on the stack, the last one first, so that the first one comes out first. -/
def pushAll (items stack : List α) : List α := items.reverse.foldl (fun s x => x :: s) stack

/-- One turn of a visit: the item on top is taken off the stack, and what is right below it is put
there. -/
def turn (below : α → List α) : List α → Option (α × List α)
  | [] => none
  | x :: stack => some (x, pushAll (below x) stack)

/-- Turn after turn gives the items, and then nothing more. -/
inductive Drains (next : σ → Option (α × σ)) : σ → List α → Prop
  | done {s : σ} : next s = none → Drains next s []
  | more {s t : σ} {x : α} {xs : List α} :
      next s = some (x, t) → Drains next t xs → Drains next s (x :: xs)

theorem Drains.unique {next : σ → Option (α × σ)} {s : σ} {xs ys : List α} (hx : Drains next s xs)
    (hy : Drains next s ys) : xs = ys := by
  induction hx generalizing ys with
  | done hnone =>
    cases hy with
    | done _ => rfl
    | more hsome _ =>
      rw [hnone] at hsome
      cases hsome
  | more hsome _ ih =>
    cases hy with
    | done hnone =>
      rw [hnone] at hsome
      cases hsome
    | more hsome' hrest =>
      rw [hsome] at hsome'
      cases hsome'
      rw [ih hrest]

theorem pushAll_eq_append (items stack : List α) : pushAll items stack = items ++ stack := by
  simp [pushAll]

/-- A visit takes the items of the stack from the top on, each with all below it in the order of the
recursion. Each turn leaves one item less to come. -/
theorem drains_flatMap {below order : α → List α} (h : ∀ x, order x = x :: (below x).flatMap order)
    (stack : List α) : Drains (turn below) stack (stack.flatMap order) := by
  induction hn : (stack.flatMap order).length generalizing stack with
  | zero =>
    cases stack with
    | nil => exact .done rfl
    | cons x stack => simp [h x] at hn
  | succ n ih =>
    cases stack with
    | nil => cases hn
    | cons x stack =>
      have hturn : turn below (x :: stack) = some (x, below x ++ stack) := by
        rw [turn, pushAll_eq_append]
      have hrest : (x :: stack).flatMap order = x :: (below x ++ stack).flatMap order := by
        rw [List.flatMap_cons, h x, List.flatMap_append, List.cons_append]
      rw [hrest] at hn ⊢
      exact .more hturn (ih _ (Nat.succ.inj hn))

theorem drains_iff {below order : α → List α} (h : ∀ x, order x = x :: (below x).flatMap order)
    {roots xs : List α} :
    Drains (turn below) (pushAll roots []) xs ↔ xs = roots.flatMap order := by
  rw [pushAll_eq_append, List.append_nil]
  exact ⟨fun hx => hx.unique (drains_flatMap h roots), fun hx => hx ▸ drains_flatMap h roots⟩

end Visits

/-! ## Nodes -/

/-- A step with the plan below it. -/
abbrev Node := Step × Forest

/-- The nodes right below a node. -/
def Node.below (node : Node) : List Node := node.2.roots

/-- The nodes right below a node on a level, with theirs. -/
def Node.belowOn (entry : Nat × Node) : List (Nat × Node) :=
  entry.2.below.map fun node => (entry.1 + 1, node)

namespace Forest

/-- The nodes with their levels, where the outermost ones are on the given level: each node in front
of those below it, and these in front of those beside it. -/
def nodes (level : Nat) : Forest → List (Nat × Node)
  | empty => []
  | grow step children rest =>
    (level, (step, children)) :: (children.nodes (level + 1) ++ rest.nodes level)

theorem preorder_eq_map_nodes (f : Forest) (level : Nat) :
    f.preorder level = (f.nodes level).map fun entry => (entry.1, entry.2.1) := by
  induction f generalizing level with
  | empty => rfl
  | grow step children rest ihc ihr => simp [preorder, nodes, ihc, ihr]

/-- The nodes with levels are those of the roots, one root after the other. -/
theorem nodes_eq_flatMap (f : Forest) (level : Nat) :
    f.nodes level = (f.roots.map fun node => (level, node)).flatMap fun entry =>
      entry :: entry.2.2.nodes (entry.1 + 1) := by
  induction f with
  | empty => rfl
  | grow step children rest _ ih => simp [nodes, roots, ← ih]

theorem map_nodes_eq_flatMap (f : Forest) (level : Nat) :
    (f.nodes level).map Prod.snd = f.roots.flatMap fun node =>
      node :: (node.2.nodes 0).map Prod.snd := by
  induction f generalizing level with
  | empty => rfl
  | grow step children rest ihc ihr => simp [nodes, roots, ihr, ihc (level + 1), ← ihc 0]

/-- A visit of the nodes ends, and gives them in the order of the recursion. -/
theorem drains_nodes_iff (f : Forest) (xs : List Node) :
    Drains (turn Node.below) (pushAll f.roots []) xs ↔ xs = (f.nodes 0).map Prod.snd := by
  rw [map_nodes_eq_flatMap]
  exact drains_iff fun node => congrArg _ (map_nodes_eq_flatMap node.2 0)

/-- So does a visit that keeps the levels. -/
theorem drains_levels_iff (f : Forest) (xs : List (Nat × Node)) :
    Drains (turn Node.belowOn) (pushAll (f.roots.map fun node => (0, node)) []) xs
      ↔ xs = f.nodes 0 := by
  rw [nodes_eq_flatMap]
  exact drains_iff fun entry => congrArg _ (nodes_eq_flatMap entry.2.2 (entry.1 + 1))

/-! ## Addresses -/

/-- The node at an address: its root by the place among the roots, and then, level by level, the
place among the nodes right below the same node. -/
def at? : List Nat → Forest → Option Node
  | [], _ => none
  | [place], f => f.roots[place]?
  | place :: next :: places, f => f.roots[place]?.bind fun node => node.2.at? (next :: places)

theorem at?_empty (address : List Nat) : at? address empty = none := by
  match address with
  | [] => rfl
  | [_] => rfl
  | _ :: _ :: _ => rfl

theorem at?_beside (step : Step) (children rest : Forest) (place : Nat) (places : List Nat) :
    at? ((place + 1) :: places) (grow step children rest) = at? (place :: places) rest := by
  cases places <;> rfl

/-- The addresses of the nodes in their order, where the first root is at the given place. -/
def addresses (place : Nat) : Forest → List (List Nat)
  | empty => []
  | grow _ children rest =>
    [place] :: ((children.addresses 0).map (place :: ·) ++ rest.addresses (place + 1))

theorem mem_addresses_iff {f : Forest} {place : Nat} {address : List Nat} :
    address ∈ f.addresses place ↔
      ∃ root places, address = (place + root) :: places ∧
        (at? (root :: places) f).isSome = true := by
  induction f generalizing place address with
  | empty => simp [addresses, at?_empty]
  | grow step children rest ihc ihr =>
    simp only [addresses, List.mem_cons, List.mem_append, List.mem_map, ihc, ihr]
    constructor
    · rintro (rfl | ⟨_, ⟨root, places, rfl, hsome⟩, rfl⟩ | ⟨root, places, rfl, hsome⟩)
      · exact ⟨0, [], rfl, rfl⟩
      · rw [Nat.zero_add]
        exact ⟨0, root :: places, rfl, hsome⟩
      · refine ⟨root + 1, places, ?_, ?_⟩
        · rw [Nat.add_right_comm, Nat.add_assoc]
        · rwa [at?_beside]
    · rintro ⟨root, places, rfl, hsome⟩
      cases root with
      | zero =>
        cases places with
        | nil => exact .inl rfl
        | cons next places => exact .inr (.inl ⟨_, ⟨next, places, rfl, hsome⟩, by simp⟩)
      | succ root =>
        rw [at?_beside] at hsome
        exact .inr (.inr ⟨root, places, by rw [Nat.add_right_comm, Nat.add_assoc], hsome⟩)

/-- The addresses are in lexicographic order, so no two of them are the same. -/
theorem pairwise_addresses (f : Forest) (place : Nat) : (f.addresses place).Pairwise (· < ·) := by
  induction f generalizing place with
  | empty => exact .nil
  | grow step children rest ihc ihr =>
    rw [addresses, List.pairwise_cons, List.pairwise_append, List.pairwise_map]
    refine ⟨fun address hmem => ?_, ?_, ihr _, fun inner hinner beside hbeside => ?_⟩
    · rw [List.mem_append, List.mem_map] at hmem
      rcases hmem with ⟨inner, hinner, rfl⟩ | hbeside
      · obtain ⟨root, places, rfl, _⟩ := mem_addresses_iff.mp hinner
        simp
      · obtain ⟨root, places, rfl, _⟩ := mem_addresses_iff.mp hbeside
        simp only [List.cons_lt_cons_iff]
        omega
    · exact (ihc 0).imp fun hlt => List.cons_lt_cons_iff.mpr (.inr ⟨rfl, hlt⟩)
    · obtain ⟨_, _, rfl⟩ := List.mem_map.mp hinner
      obtain ⟨root, places, rfl, _⟩ := mem_addresses_iff.mp hbeside
      exact List.cons_lt_cons_iff.mpr (.inl (by omega))

/-- Each address is that of the node in the same place, on whose level it ends. -/
theorem forall₂_addresses (f : Forest) (place level : Nat) :
    Forall₂ (fun address entry => ∃ root places, address = (place + root) :: places ∧
        at? (root :: places) f = some entry.2 ∧ entry.1 = level + places.length)
      (f.addresses place) (f.nodes level) := by
  induction f generalizing place level with
  | empty => exact .nil
  | grow step children rest ihc ihr =>
    refine .cons ⟨0, [], rfl, rfl, rfl⟩ (List.rel_append ?_ ?_)
    · rw [List.forall₂_map_left_iff]
      refine (ihc 0 (level + 1)).imp ?_
      rintro _ entry ⟨root, places, rfl, hat, hlevel⟩
      refine ⟨0, root :: places, by simp, hat, ?_⟩
      rw [hlevel, List.length_cons]
      omega
    · refine (ihr (place + 1) level).imp ?_
      rintro _ entry ⟨root, places, rfl, hat, hlevel⟩
      refine ⟨root + 1, places, ?_, ?_, hlevel⟩
      · rw [Nat.add_right_comm, Nat.add_assoc]
      · rwa [at?_beside]

/-- The entries are the nodes of the plan, each once, in the order of their addresses and with their
levels: as many as there are steps down from the root. -/
def MetOnce (f : Forest) (entries : List (Nat × Node)) : Prop :=
  ∃ addresses : List (List Nat), addresses.Pairwise (· < ·) ∧
    (∀ address, address ∈ addresses ↔ (at? address f).isSome = true) ∧
    Forall₂ (fun address entry => at? address f = some entry.2 ∧ address.length = entry.1 + 1)
      addresses entries

theorem metOnce_nodes (f : Forest) : f.MetOnce (f.nodes 0) := by
  refine ⟨f.addresses 0, f.pairwise_addresses 0, fun address => ?_, ?_⟩
  · rw [mem_addresses_iff]
    constructor
    · rintro ⟨root, places, rfl, hsome⟩
      rwa [Nat.zero_add]
    · intro hsome
      cases address with
      | nil => cases hsome
      | cons root places => exact ⟨root, places, by rw [Nat.zero_add], hsome⟩
  · refine (f.forall₂_addresses 0 0).imp ?_
    rintro _ entry ⟨root, places, rfl, hat, hlevel⟩
    rw [Nat.zero_add] at hlevel ⊢
    exact ⟨hat, by rw [hlevel, List.length_cons]⟩

/-! ## Counts and height -/

/-- The number of levels by recursion: that of a node, and those below it. -/
def recursiveHeight : Forest → Nat
  | empty => 0
  | grow _ children rest => max (children.recursiveHeight + 1) rest.recursiveHeight

theorem foldl_preorder (f : Forest) {level most : Nat} (h : level ≤ most) :
    (f.preorder level).foldl (fun most entry => max most (entry.1 + 1)) most
      = max most (level + f.recursiveHeight) := by
  induction f generalizing level most with
  | empty => simp [preorder, recursiveHeight, h]
  | grow step children rest ihc ihr =>
    have hchildren : level + 1 ≤ max most (level + 1) := Nat.le_max_right ..
    have hrest : level ≤ max (max most (level + 1)) (level + 1 + children.recursiveHeight) := by
      omega
    rw [preorder, List.foldl_cons, List.foldl_append, ihc hchildren, ihr hrest, recursiveHeight]
    omega

theorem height_eq (f : Forest) : f.height = f.recursiveHeight := by
  have h := f.foldl_preorder (Nat.le_refl 0)
  rw [height, walk_eq_preorder, h]
  simp

theorem stepCount_eq (f : Forest) : f.stepCount = (f.nodes 0).length := by
  rw [stepCount, walk_eq_preorder, preorder_eq_map_nodes, List.length_map]

/-- The size of a tree is the number of nodes that a visit of its root alone meets. -/
theorem forall₂_treeSizes (f : Forest) :
    Forall₂ (fun size node => ∃ xs, Drains (turn Node.below) (pushAll [node] []) xs ∧
      size = xs.length) f.treeSizes f.roots := by
  induction f with
  | empty => exact .nil
  | grow step children rest _ ih =>
    refine .cons ⟨_, ((grow step children empty).drains_nodes_iff _).mpr rfl, ?_⟩ ih
    rw [stepCount_eq, List.length_map]

theorem sum_treeSizes (f : Forest) : f.treeSizes.sum = f.stepCount := by
  induction f with
  | empty => simp [treeSizes, stepCount_eq, nodes]
  | grow step children rest _ ih =>
    rw [treeSizes, List.sum_cons, ih]
    simp only [stepCount_eq, nodes, List.length_cons, List.length_append, List.length_nil]
    omega

end Forest

/-! ## Depths of a plan that is read from text -/

/-- A step that is read from text is as deep as it stands in the plan. -/
theorem depth_of_mem_walk {mode : Mode} {text : String} :
    ∀ entry ∈ (Forest.parse mode text).walk, entry.2.depth = entry.1 := by
  intro entry hentry
  rw [walk_parse] at hentry
  obtain ⟨line, _, heq⟩ := mem_nested hentry
  rw [heq]

/-- The fold of the height is at least its start and above every level, and no higher than that. -/
theorem foldl_levels (entries : List (Nat × Step)) (most : Nat) :
    let top := entries.foldl (fun most entry => max most (entry.1 + 1)) most
    most ≤ top ∧ (∀ entry ∈ entries, entry.1 < top) ∧
      (top = most ∨ ∃ entry ∈ entries, top = entry.1 + 1) := by
  induction entries generalizing most with
  | nil => exact ⟨Nat.le_refl _, by simp, .inl rfl⟩
  | cons entry entries ih =>
    obtain ⟨hle, hlt, htop⟩ := ih (max most (entry.1 + 1))
    refine ⟨Nat.le_trans (Nat.le_max_left ..) hle, ?_, ?_⟩
    · rw [List.forall_mem_cons]
      exact ⟨Nat.le_trans (Nat.le_max_right ..) hle, hlt⟩
    · rcases htop with htop | ⟨e, he, htop⟩
      · rcases Nat.le_total most (entry.1 + 1) with hmost | hmost
        · exact .inr ⟨entry, List.mem_cons_self, htop.trans (Nat.max_eq_right hmost)⟩
        · exact .inl (htop.trans (Nat.max_eq_left hmost))
      · exact .inr ⟨e, List.mem_cons_of_mem _ he, htop⟩

/-- The height of a plan that is read from text is one more than the greatest depth. -/
theorem height_parse (mode : Mode) (text : String) :
    let plan := Forest.parse mode text
    (∀ step ∈ plan.steps, step.depth < plan.height) ∧
      (plan.steps ≠ [] → ∃ step ∈ plan.steps, plan.height = step.depth + 1) := by
  intro plan
  obtain ⟨_, hlt, htop⟩ := foldl_levels plan.walk 0
  refine ⟨fun step hstep => ?_, fun hne => ?_⟩
  · obtain ⟨entry, hentry, rfl⟩ := List.mem_map.mp hstep
    rw [depth_of_mem_walk entry hentry]
    exact hlt entry hentry
  · have hsome : ∃ entry ∈ plan.walk, plan.height = entry.1 + 1 := by
      refine htop.resolve_left fun hzero => ?_
      obtain ⟨entry, hentry⟩ := List.exists_mem_of_ne_nil _ (List.map_eq_nil_iff.not.mp hne)
      have hpos := hlt entry hentry
      rw [hzero] at hpos
      exact Nat.not_lt_zero _ hpos
    obtain ⟨entry, hentry, hheight⟩ := hsome
    refine ⟨entry.2, List.mem_map_of_mem hentry, ?_⟩
    rw [hheight, depth_of_mem_walk entry hentry]

/-- A visit of a plan that keeps the nodes to come on a stack ends, whether it keeps the levels or
not, and gives the nodes in the order of the recursion, each once and with its level. The steps of
the plan, their number, the sizes of the trees and the height are those of such a visit. The height
of a plan that is read from text is one more than the greatest depth that a step was recorded
with. -/
theorem every_visit_follows_the_recursion :
    (∀ f : Forest,
      (∀ xs, Drains (turn Node.below) (pushAll f.roots []) xs ↔ xs = (f.nodes 0).map Prod.snd) ∧
      (∀ xs, Drains (turn Node.belowOn) (pushAll (f.roots.map fun node => (0, node)) []) xs
        ↔ xs = f.nodes 0) ∧
      f.MetOnce (f.nodes 0) ∧
      f.walk = (f.nodes 0).map (fun entry => (entry.1, entry.2.1)) ∧
      f.steps = (f.nodes 0).map (fun entry => entry.2.1) ∧
      f.stepCount = f.steps.length ∧ f.stepCount = f.treeSizes.sum ∧
      Forall₂ (fun size node => ∃ xs, Drains (turn Node.below) (pushAll [node] []) xs ∧
        size = xs.length) f.treeSizes f.roots ∧
      f.height = f.recursiveHeight) ∧
    ∀ mode text, let plan := Forest.parse mode text
      (∀ step ∈ plan.steps, step.depth < plan.height) ∧
      (plan.steps ≠ [] → ∃ step ∈ plan.steps, plan.height = step.depth + 1) := by
  refine ⟨fun f => ?_, height_parse⟩
  have hwalk : f.walk = (f.nodes 0).map fun entry => (entry.1, entry.2.1) := by
    rw [Forest.walk_eq_preorder, Forest.preorder_eq_map_nodes]
  have hsteps : f.steps = (f.nodes 0).map fun entry => entry.2.1 := by
    rw [Forest.steps, hwalk, List.map_map]
    rfl
  refine ⟨f.drains_nodes_iff, f.drains_levels_iff, f.metOnce_nodes, hwalk, hsteps, ?_,
    f.sum_treeSizes.symm, f.forall₂_treeSizes, f.height_eq⟩
  rw [f.stepCount_eq, hsteps, List.length_map]

end QueryReview.Plan

-- How steps are put together when each names the one above it. The steps need not stand in the
-- order of a plan: it is enough that each stands behind the step that it names. Then none is lost
-- or doubled, and what hangs below a step are the steps that name it, in their order.
import Mathlib.Data.List.Perm.Basic
import QueryReview.Proofs.Plan.Outline
import QueryReview.Proofs.Plan.Traversal

namespace QueryReview.Plan

open scoped List

/-! ## What the entries ask for -/

/-- Each entry stands behind the one that it names. -/
def ParentsInFront (numbered : List (Entry × Nat)) : Prop :=
  ∀ e ∈ numbered, ∀ parent ∈ e.1.parent?, parent < e.2

instance (numbered : List (Entry × Nat)) : Decidable (ParentsInFront numbered) :=
  inferInstanceAs (Decidable (∀ e ∈ numbered, ∀ parent ∈ e.1.parent?, parent < e.2))

/-- The entries that name the same one, or none, in their order. -/
def hanging (parent? : Option Nat) (numbered : List (Entry × Nat)) : List (Entry × Nat) :=
  numbered.filter fun e => e.1.parent? = parent?

/-- The node of an entry, where the plan below each entry is known. -/
def nodeOf (below : Nat → Forest) (e : Entry × Nat) : Node := (e.1.step, below e.2)

theorem map_nodeOf_congr {below below' : Nat → Forest} {es : List (Entry × Nat)}
    (h : ∀ e ∈ es, below e.2 = below' e.2) : es.map (nodeOf below) = es.map (nodeOf below') :=
  List.map_congr_left fun e he => by rw [nodeOf, nodeOf, h e he]

theorem hanging_subset (parent? : Option Nat) (numbered : List (Entry × Nat)) :
    hanging parent? numbered ⊆ numbered :=
  List.filter_subset_self numbered

theorem lt_of_mem_hanging {numbered : List (Entry × Nat)} (h : ParentsInFront numbered) {k : Nat}
    {e : Entry × Nat} (he : e ∈ hanging (some k) numbered) : k < e.2 := by
  obtain ⟨hmem, hparent⟩ := List.mem_filter.mp he
  exact h e hmem k (of_decide_eq_true hparent)

theorem lt_length_of_mem_hanging {entries : List Entry} {parent? : Option Nat} {e : Entry × Nat}
    (he : e ∈ hanging parent? entries.zipIdx) : e.2 < entries.length := by
  simpa using List.snd_lt_add_of_mem_zipIdx (hanging_subset _ _ he)

/-- The roots are the entries that name none, and below each entry are those that name it. -/
structure Nests (entries : List Entry) (plan : Forest) (below : Nat → Forest) : Prop where
  roots : plan.roots = (hanging none entries.zipIdx).map (nodeOf below)
  children : ∀ k < entries.length,
    (below k).roots = (hanging (some k) entries.zipIdx).map (nodeOf below)

/-- The plan with the given roots. -/
def Forest.ofRoots : List Node → Forest
  | [] => empty
  | (step, children) :: rest => grow step children (ofRoots rest)

theorem Forest.ofRoots_roots (f : Forest) : ofRoots f.roots = f := by
  induction f with
  | empty => rfl
  | grow step children rest _ ih => rw [roots, ofRoots, ih]

theorem Forest.roots_injective : Function.Injective roots :=
  Function.LeftInverse.injective ofRoots_roots

/-- There is one plan that the entries ask for. -/
theorem Nests.unique {entries : List Entry} {plan plan' : Forest} {below below' : Nat → Forest}
    (h : ParentsInFront entries.zipIdx) (hn : Nests entries plan below)
    (hn' : Nests entries plan' below') : plan = plan' := by
  -- By induction from the last entry on, since those that name an entry are all behind it.
  have hbelow : ∀ k < entries.length, below k = below' k := by
    intro k
    induction hm : entries.length - k using Nat.strongRecOn generalizing k with
    | ind m ih =>
      intro hk
      apply Forest.roots_injective
      rw [hn.children k hk, hn'.children k hk]
      apply map_nodeOf_congr
      intro e he
      have hbehind : k < e.2 := lt_of_mem_hanging h he
      exact ih _ (by omega) e.2 rfl (lt_length_of_mem_hanging he)
  apply Forest.roots_injective
  rw [hn.roots, hn'.roots]
  exact map_nodeOf_congr fun e he => hbelow e.2 (lt_length_of_mem_hanging he)

/-! ## One graft -/

/-- What hangs below an entry so far, or below none. -/
def Grafts.under (g : Grafts) : Option Nat → Forest
  | none => g.roots
  | some k => g.below k

theorem under_add (g : Grafts) (index : Nat) (entry : Entry) (parent? : Option Nat) :
    (g.add index entry).under parent? = if entry.parent? = parent?
      then .grow entry.step (g.below index) (g.under parent?) else g.under parent? := by
  cases he : entry.parent? with
  | none => cases parent? <;> simp [Grafts.add, Grafts.under, he]
  | some parent =>
    cases parent? with
    | none => simp [Grafts.add, Grafts.under, he]
    | some k =>
      by_cases hk : k = parent
      · simp [Grafts.add, Grafts.under, he, hk]
      · simp [Grafts.add, Grafts.under, he, hk, Ne.symm hk]

section

variable {g : Grafts} {index next : Nat} {entry : Entry} {entries rest : List Entry}

theorem parentsInFront_cons : ParentsInFront ((entry :: rest).zipIdx index) ↔
    (∀ parent ∈ entry.parent?, parent < index) ∧ ParentsInFront (rest.zipIdx (index + 1)) :=
  List.forall_mem_cons

/-! ## All entries -/

/-- An entry leaves alone what hangs below itself and below the entries behind it. -/
theorem map_nodeOf_graftFrom_cons (h : ParentsInFront ((entry :: rest).zipIdx next))
    {es : List (Entry × Nat)} (hes : es ⊆ (entry :: rest).zipIdx next) :
    es.map (nodeOf (graftFrom next (entry :: rest)).below)
      = es.map (nodeOf (graftFrom (next + 1) rest).below) := by
  apply map_nodeOf_congr
  intro e he
  have hle : next ≤ e.2 := List.le_snd_of_mem_zipIdx (hes he)
  have hne : entry.parent? ≠ some e.2 := fun hname =>
    Nat.not_lt.mpr hle ((parentsInFront_cons.mp h).1 e.2 hname)
  exact add_below_of_ne hne

/-- What hangs below an entry when all from `next` on are grafted are those of them that name it. -/
theorem roots_under_graftFrom (h : ParentsInFront (entries.zipIdx next)) (parent? : Option Nat) :
    ((graftFrom next entries).under parent?).roots
      = (hanging parent? (entries.zipIdx next)).map (nodeOf (graftFrom next entries).below) := by
  induction entries generalizing next with
  | nil => cases parent? <;> rfl
  | cons entry rest ih =>
    have hrest := ih (parentsInFront_cons.mp h).2
    rw [map_nodeOf_graftFrom_cons h (hanging_subset _ _), graftFrom, under_add, List.zipIdx_cons,
      hanging, List.filter_cons]
    by_cases hp : entry.parent? = parent?
    · rw [if_pos hp, if_pos (decide_eq_true hp), Forest.roots, hrest]
      rfl
    · rw [if_neg hp, if_neg (by simpa using hp), hrest]
      rfl

theorem nests_assemble (h : ParentsInFront entries.zipIdx) :
    Nests entries (assemble entries) (graftFrom 0 entries).below :=
  ⟨roots_under_graftFrom h none, fun k _ => roots_under_graftFrom h (some k)⟩

/-! ## Every entry once -/

/-- The nodes of a plan in document order. -/
def Forest.allNodes (f : Forest) : List Node := (f.nodes 0).map Prod.snd

theorem Forest.allNodes_grow (step : Step) (children rest : Forest) :
    (grow step children rest).allNodes
      = (step, children) :: (children.allNodes ++ rest.allNodes) := by
  have hlevel : (children.nodes 1).map Prod.snd = children.allNodes := by
    rw [allNodes, map_nodes_eq_flatMap children 1, map_nodes_eq_flatMap children 0]
  rw [allNodes, nodes, List.map_cons, List.map_append, hlevel]
  rfl

/-- The nodes of what hangs below none, and of what hangs below the entries in front of `next`.
When all from `next` on are grafted, each of them is there once. -/
def Grafts.loose (g : Grafts) (next : Nat) : List Node :=
  (none :: (List.range next).map some).flatMap fun parent? => (g.under parent?).allNodes

/-- More in one place is more in all. -/
theorem perm_flatMap_of_append {α β : Type} [DecidableEq α] {places : List α}
    {f f' : α → List β} {place : α} {more : List β} (hn : places.Nodup) (hmem : place ∈ places)
    (hplace : f' place = more ++ f place) (hother : ∀ other ≠ place, f' other = f other) :
    places.flatMap f' ~ more ++ places.flatMap f := by
  have herase : (places.erase place).flatMap f' = (places.erase place).flatMap f :=
    List.flatMap_congr fun other h => hother other (hn.mem_erase_iff.mp h).1
  have hfront := List.perm_cons_erase hmem
  calc places.flatMap f'
    _ ~ (place :: places.erase place).flatMap f' := hfront.flatMap_right f'
    _ = more ++ (place :: places.erase place).flatMap f := by
      rw [List.flatMap_cons, List.flatMap_cons, hplace, herase, List.append_assoc]
    _ ~ more ++ places.flatMap f := (hfront.flatMap_right f).symm.append_left more

theorem nodup_places (next : Nat) : (none :: (List.range next).map some).Nodup := by
  rw [List.nodup_cons]
  exact ⟨by simp, List.nodup_range.map (Option.some_injective _)⟩

/-- An entry that is grafted takes what hangs below it to the place where it hangs itself. -/
theorem loose_add (h : ∀ parent ∈ entry.parent?, parent < index) :
    (g.add index entry).loose index ~ (entry.step, g.below index) :: g.loose (index + 1) := by
  have hplace : ((g.add index entry).under entry.parent?).allNodes
      = (entry.step, g.below index) :: (g.below index).allNodes
        ++ (g.under entry.parent?).allNodes := by
    rw [under_add, if_pos rfl, Forest.allNodes_grow, List.cons_append]
  have hother : ∀ other ≠ entry.parent?,
      ((g.add index entry).under other).allNodes = (g.under other).allNodes := by
    intro other hne
    rw [under_add, if_neg hne.symm]
  have hmem : entry.parent? ∈ none :: (List.range index).map some := by
    cases hp : entry.parent? with
    | none => exact List.mem_cons_self
    | some parent => simpa using h parent hp
  calc (g.add index entry).loose index
    _ ~ (entry.step, g.below index) :: (g.below index).allNodes ++ g.loose index :=
      perm_flatMap_of_append (nodup_places index) hmem hplace hother
    _ ~ (entry.step, g.below index) :: (g.loose index ++ (g.below index).allNodes) :=
      List.perm_append_comm.cons _
    _ = (entry.step, g.below index) :: g.loose (index + 1) := by
      simp [Grafts.loose, List.range_succ, Grafts.under]

theorem loose_graftFrom (h : ParentsInFront (entries.zipIdx next)) :
    (graftFrom next entries).loose next
      ~ (entries.zipIdx next).map (nodeOf (graftFrom next entries).below) := by
  induction entries generalizing next with
  | nil =>
    have hempty : ∀ parent? : Option Nat, (({} : Grafts).under parent?).allNodes = [] := by
      intro parent?
      cases parent? <;> rfl
    simp [graftFrom, Grafts.loose, hempty]
  | cons entry rest ih =>
    obtain ⟨hfirst, hrest⟩ := parentsInFront_cons.mp h
    rw [map_nodeOf_graftFrom_cons h (List.Subset.refl _), List.zipIdx_cons, List.map_cons]
    exact (loose_add hfirst).trans ((ih hrest).cons _)

theorem allNodes_assemble (h : ParentsInFront entries.zipIdx) :
    (assemble entries).allNodes ~ entries.zipIdx.map (nodeOf (graftFrom 0 entries).below) := by
  have hloose : (graftFrom 0 entries).loose 0 = (assemble entries).allNodes := by
    simp [Grafts.loose, Grafts.under, assemble]
  rw [← hloose]
  exact loose_graftFrom h

end

/-! ## One pass over the entries -/

/-- What a pass over the entries has found: the nodes that wait for each entry, and the roots. The
entries come last to first, and so do the nodes in each list. -/
structure Pass where
  waiting : List (List Node)
  roots : List Node

/-- The entry takes all that waits for it, the other way round, and waits in turn. -/
def Pass.take? (index : Nat) (entry : Entry) (pass : Pass) : Option Pass := do
  let children ← pass.waiting[index]?
  let node := (entry.step, Forest.ofRoots children.reverse)
  let waiting := pass.waiting.set index []
  match entry.parent? with
  | none => return { waiting, roots := pass.roots ++ [node] }
  | some parent =>
    let others ← waiting[parent]?
    return { pass with waiting := waiting.set parent (others ++ [node]) }

/-- The pass over the entries from `index` on, among so many in all. -/
def passFrom? (count index : Nat) : List Entry → Option Pass
  | [] => some { waiting := List.replicate count [], roots := [] }
  | entry :: rest => (passFrom? count (index + 1) rest).bind (Pass.take? index entry)

/-- The plan that the pass ends with. -/
def passed? (entries : List Entry) : Option Forest :=
  (passFrom? entries.length 0 entries).map fun pass => .ofRoots pass.roots.reverse

/-- The pass has found what is grafted. An entry from `next` on has taken what waited for it. -/
structure Pass.Holds (pass : Pass) (next : Nat) (g : Grafts) : Prop where
  waiting : ∀ k < next, pass.waiting[k]? = some (g.below k).roots.reverse
  roots : pass.roots = g.roots.roots.reverse

section

variable {pass : Pass} {g : Grafts} {index : Nat} {entry : Entry}

theorem Pass.Holds.take? (hp : pass.Holds (index + 1) g)
    (h : ∀ parent ∈ entry.parent?, parent < index) :
    ∃ pass', pass.take? index entry = some pass' ∧ pass'.Holds index (g.add index entry) := by
  have hchildren := hp.waiting index (Nat.lt_succ_self _)
  have hrest : ∀ k < index, (pass.waiting.set index [])[k]? = some (g.below k).roots.reverse := by
    intro k hk
    rw [List.getElem?_set_ne (Nat.ne_of_gt hk)]
    exact hp.waiting k (Nat.lt_succ_of_lt hk)
  cases he : entry.parent? with
  | none =>
    have htake : pass.take? index entry = some
        { waiting := pass.waiting.set index [],
          roots := pass.roots ++ [(entry.step, g.below index)] } := by
      simp [Pass.take?, he, hchildren, Forest.ofRoots_roots]
    refine ⟨_, htake, ?_, ?_⟩
    · intro k hk
      rw [add_below_of_ne (by simp [he])]
      exact hrest k hk
    · simp [Grafts.add, he, Forest.roots, hp.roots]
  | some parent =>
    have hparent := hrest parent (h parent he)
    have hlength := (List.getElem?_eq_some_iff.mp hparent).1
    have htake : pass.take? index entry = some
        { waiting := (pass.waiting.set index []).set parent
            ((g.below parent).roots.reverse ++ [(entry.step, g.below index)]),
          roots := pass.roots } := by
      simp [Pass.take?, he, hchildren, hparent, Forest.ofRoots_roots]
    refine ⟨_, htake, ?_, ?_⟩
    · intro k hk
      by_cases hkp : parent = k
      · subst hkp
        simp [List.getElem?_set_self hlength, Grafts.add, he, Forest.roots]
      · rw [List.getElem?_set_ne hkp, add_below_of_ne (by simpa [he] using hkp)]
        exact hrest k hk
    · simp [Grafts.add, he, hp.roots]

theorem passFrom?_eq_some {entries : List Entry} {count next : Nat}
    (h : ParentsInFront (entries.zipIdx next)) (hcount : next + entries.length = count) :
    ∃ pass, passFrom? count next entries = some pass ∧
      pass.Holds next (graftFrom next entries) := by
  induction entries generalizing next with
  | nil =>
    refine ⟨_, rfl, fun k hk => ?_, rfl⟩
    have hlt : k < count := by rwa [← hcount, List.length_nil, Nat.add_zero]
    simp [graftFrom, Forest.roots, hlt]
  | cons entry rest ih =>
    obtain ⟨hfirst, hrest⟩ := parentsInFront_cons.mp h
    obtain ⟨pass, hpass, hholds⟩ := ih hrest (by rw [← hcount, List.length_cons]; omega)
    obtain ⟨pass', htake, hholds'⟩ := hholds.take? hfirst
    exact ⟨pass', by rw [passFrom?, hpass, Option.bind_some, htake], hholds'⟩

theorem passed?_eq_some {entries : List Entry} (h : ParentsInFront entries.zipIdx) :
    passed? entries = some (assemble entries) := by
  obtain ⟨pass, hpass, hholds⟩ := passFrom?_eq_some h (Nat.zero_add _)
  rw [passed?, hpass, Option.map_some, hholds.roots, List.reverse_reverse, Forest.ofRoots_roots]
  rfl

end

/-! ## The entries of a text -/

/-- A line hangs below one of the steps that are open when it comes, and these stand in front. -/
theorem parentsInFront_placeLines {stem : List Nat} {next : Nat} (h : ∀ s ∈ stem, s < next)
    (ls : List Line) : ParentsInFront ((placeLines stem next ls).zipIdx next) := by
  induction ls generalizing stem next with
  | nil => exact fun e he => nomatch he
  | cons line rest ih =>
    have habove : ∀ s ∈ stem.take line.level, s < next := fun s hs => h s (List.mem_of_mem_take hs)
    refine parentsInFront_cons.mpr ⟨fun parent hparent => ?_, ih fun s hs => ?_⟩
    · exact habove parent (List.mem_of_getLast? hparent)
    · rcases List.mem_append.mp hs with hs | hs
      · exact Nat.lt_succ_of_lt (habove s hs)
      · exact Nat.lt_succ_of_le (Nat.le_of_eq (List.mem_singleton.mp hs))

/-- A plan that is read from text is the one that the entries of its lines ask for. -/
theorem nests_parse (mode : Mode) (text : String) :
    ∃ below, Nests (placeLines [] 0 (stepLines mode text)) (Forest.parse mode text) below :=
  ⟨_, nests_assemble (parentsInFront_placeLines (by simp) _)⟩

/-! ## The plan of the entries -/

/-- Where each entry stands behind the one that it names, there is a plan whose roots are the
entries that name none, and in which those that name an entry hang below it, in their order. There
is one such plan, and its nodes are the entries, each once and with its own step. A pass from the
last entry to the first, which keeps the nodes that wait for an entry in a list, comes to its end
with this plan. -/
theorem every_entry_hangs_below_its_parent_once {entries : List Entry}
    (h : ParentsInFront entries.zipIdx) :
    let plan := assemble entries
    passed? entries = some plan ∧
    (∃ below : Nat → Forest, Nests entries plan below ∧
      plan.allNodes ~ entries.zipIdx.map (nodeOf below)) ∧
    ∀ plan' below', Nests entries plan' below' → plan' = plan := by
  refine ⟨passed?_eq_some h, ⟨_, nests_assemble h, allNodes_assemble h⟩, ?_⟩
  intro plan' below' hn
  exact hn.unique h (nests_assemble h)

/-- Two trees whose entries stand in turn, as they never do in the order of a plan. -/
theorem two_trees_grow_in_turn :
    let entry (operation : String) (parent? : Option Nat) : Entry :=
      { step := { operation }, parent? }
    let tree (operation : String) : Forest → Forest → Forest := .grow { operation }
    let entries := [entry "A" none, entry "B" none, entry "C" (some 0), entry "D" (some 1),
      entry "E" (some 0), entry "F" (some 2)]
    let plan := tree "A" (tree "C" (tree "F" .empty .empty) (tree "E" .empty .empty))
      (tree "B" (tree "D" .empty .empty) .empty)
    ParentsInFront entries.zipIdx ∧ assemble entries = plan ∧ passed? entries = some plan := by
  intro entry tree entries plan
  have hfront : ParentsInFront entries.zipIdx := by decide
  have hnests : Nests entries plan fun
      | 0 => tree "C" (tree "F" .empty .empty) (tree "E" .empty .empty)
      | 1 => tree "D" .empty .empty
      | 2 => tree "F" .empty .empty
      | _ => .empty := by
    refine ⟨rfl, fun k hk => ?_⟩
    match k, hk with
    | 0, _ | 1, _ | 2, _ | 3, _ | 4, _ | 5, _ => rfl
  obtain ⟨hpass, _, honly⟩ := every_entry_hangs_below_its_parent_once hfront
  have hplan : assemble entries = plan := (honly plan _ hnests).symm
  exact ⟨hfront, hplan, hplan ▸ hpass⟩

end QueryReview.Plan

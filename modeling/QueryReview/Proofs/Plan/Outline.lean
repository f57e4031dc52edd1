-- The laws of nesting. The lines of a plan are placed from the first to the last, but grafted
-- from the last to the first. Between the two stands `pending`: what is still to be visited below
-- the open steps. Each graft puts one step in front of it, so the plan has the steps of its lines
-- in their order.
import Mathlib.Data.List.Nodup
import QueryReview.Plan.Outline
import QueryReview.Proofs.Plan.Preorder

namespace QueryReview.Plan

/-- The steps of the lines with their depths. A step is as deep as its line is indented, but no
deeper than `most`, and the step after it is at most one deeper. -/
def nested (most : Nat) : List Line → List (Nat × Step)
  | [] => []
  | line :: rest =>
    let depth := min line.level most
    (depth, { line.step with depth }) :: nested (depth + 1) rest

theorem nested_length (most : Nat) (ls : List Line) : (nested most ls).length = ls.length := by
  induction ls generalizing most with
  | nil => rfl
  | cons line rest ih => simp [nested, ih]

/-! ## One graft -/

/-- What hangs below the open steps, the innermost of them first, and then the roots. -/
def Grafts.pending (g : Grafts) : List Nat → List (Nat × Step)
  | [] => g.roots.preorder 0
  | s :: outer => (g.below s).preorder (outer.length + 1) ++ g.pending outer

theorem pending_congr {g g' : Grafts} {open_ : List Nat} (hr : g.roots = g'.roots)
    (hb : ∀ s ∈ open_, g.below s = g'.below s) : g.pending open_ = g'.pending open_ := by
  induction open_ with
  | nil => simp [Grafts.pending, hr]
  | cons s outer ih =>
    simp only [Grafts.pending, hb s (by simp)]
    rw [ih fun t ht => hb t (by simp [ht])]

/-- Steps with nothing below them may be closed. -/
theorem pending_append_of_empty {g : Grafts} {closed outer : List Nat}
    (h : ∀ s ∈ closed, g.below s = .empty) : g.pending (closed ++ outer) = g.pending outer := by
  induction closed with
  | nil => rfl
  | cons s rest ih =>
    simp only [List.cons_append, Grafts.pending, h s (by simp), Forest.preorder, List.nil_append]
    exact ih fun t ht => h t (by simp [ht])

theorem add_below_of_ne {g : Grafts} {index k : Nat} {entry : Entry}
    (h : entry.parent? ≠ some k) : (g.add index entry).below k = g.below k := by
  unfold Grafts.add
  split
  · rfl
  · rename_i parent hp
    have hk : k ≠ parent := fun he => h (by rw [hp, he])
    simp [hk]

/-- A step that is grafted below the innermost open step is visited next, and then what hangs
below it. -/
theorem pending_add (g : Grafts) (index : Nat) (entry : Entry) (open_ : List Nat)
    (hp : entry.parent? = open_.head?) (hn : open_.Nodup) :
    (g.add index entry).pending open_ = (open_.length, entry.step) :: g.pending (index :: open_) := by
  cases open_ with
  | nil =>
    simp only [List.head?_nil] at hp
    simp [Grafts.add, hp, Grafts.pending, Forest.preorder]
  | cons p outer =>
    simp only [List.head?_cons] at hp
    have hout : (g.add index entry).pending outer = g.pending outer := by
      apply pending_congr
      · simp [Grafts.add, hp]
      · intro s hs
        apply add_below_of_ne
        rintro he
        rw [hp] at he
        cases he
        exact (List.nodup_cons.mp hn).1 hs
    have hbelow : (g.add index entry).below p = .grow entry.step (g.below index) (g.below p) := by
      simp [Grafts.add, hp]
    simp [Grafts.pending, hout, hbelow, Forest.preorder]

/-! ## All lines -/

/-- The invariant of the grafts from some line on: nothing hangs below a step that is closed, and
what hangs below the open ones are the lines, in order. -/
theorem pending_graftFrom (ls : List Line) (stem : List Nat) (next : Nat)
    (hlt : ∀ s ∈ stem, s < next) (hn : stem.Nodup) :
    (graftFrom next (placeLines stem next ls)).pending stem.reverse = nested stem.length ls ∧
      ∀ k < next, k ∉ stem → (graftFrom next (placeLines stem next ls)).below k = .empty := by
  induction ls generalizing stem next with
  | nil =>
    refine ⟨?_, fun k _ _ => rfl⟩
    have h : ({} : Grafts).pending (stem.reverse ++ []) = ({} : Grafts).pending [] :=
      pending_append_of_empty fun _ _ => rfl
    rw [List.append_nil] at h
    exact h
  | cons line rest ih =>
    have hsub : ∀ s ∈ stem.take line.level, s ∈ stem := fun s hs => List.mem_of_mem_take hs
    have hnext : next ∉ stem := fun h => absurd (hlt next h) (Nat.lt_irrefl next)
    obtain ⟨hpending, hempty⟩ := ih (stem.take line.level ++ [next]) (next + 1)
      (by
        intro s hs
        rcases List.mem_append.mp hs with hs | hs
        · exact Nat.lt_succ_of_lt (hlt s (hsub s hs))
        · rw [List.mem_singleton.mp hs]; exact Nat.lt_succ_self next)
      (by
        rw [List.nodup_append]
        refine ⟨hn.sublist (List.take_sublist _ _), List.nodup_singleton next, ?_⟩
        rintro a ha b hb rfl
        exact hnext (List.mem_singleton.mp hb ▸ hsub a ha))
    simp only [placeLines, graftFrom]
    generalize graftFrom (next + 1) (placeLines (stem.take line.level ++ [next]) (next + 1) rest) = g
      at hpending hempty ⊢
    -- A step below which `g` has nothing, and which is not the innermost open one, stays bare.
    have hbare : ∀ k < next, k ∉ stem.take line.level →
        (g.add next ⟨{ line.step with depth := (stem.take line.level).length },
          (stem.take line.level).getLast?⟩).below k = .empty := by
      intro k hk hnot
      rw [add_below_of_ne]
      · apply hempty k (Nat.lt_succ_of_lt hk)
        simp only [List.mem_append, List.mem_singleton, not_or]
        exact ⟨hnot, Nat.ne_of_lt hk⟩
      · intro he
        exact hnot (List.mem_of_getLast? he)
    refine ⟨?_, fun k hk hnot => hbare k hk fun h => hnot (hsub k h)⟩
    have hsplit : stem.reverse = (stem.drop line.level).reverse ++ (stem.take line.level).reverse := by
      rw [← List.reverse_append, List.take_append_drop]
    rw [hsplit, pending_append_of_empty, pending_add]
    · simp only [List.reverse_append, List.reverse_cons, List.reverse_nil, List.nil_append,
        List.singleton_append] at hpending
      rw [hpending]
      simp [nested, List.length_take]
    · simp
    · exact List.nodup_reverse.mpr (hn.sublist (List.take_sublist _ _))
    · intro s hs
      have hs := List.mem_reverse.mp hs
      apply hbare s (hlt s (List.mem_of_mem_drop hs))
      intro ht
      exact (List.disjoint_take_drop hn (Nat.le_refl _)) ht hs

theorem assemble_preorder (ls : List Line) :
    (assemble (placeLines [] 0 ls)).preorder 0 = nested 0 ls :=
  (pending_graftFrom ls [] 0 (by simp) List.nodup_nil).1

end QueryReview.Plan

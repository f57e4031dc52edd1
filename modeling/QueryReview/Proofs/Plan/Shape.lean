-- Plans that are alike. The steps in document order, each with its level, say how a plan is nested:
-- where the levels are the same and the steps are alike one by one, the plans have one shape.
import Mathlib.Data.List.Forall2
import QueryReview.Proofs.Plan.Preorder

namespace QueryReview.Plan

open List (Forall₂)

/-- The plans have the same shape, and steps in the same place are alike. -/
inductive Forest.Alike (same : Step → Step → Prop) : Forest → Forest → Prop
  | empty : Alike same empty empty
  | grow {step step' : Step} {children children' rest rest' : Forest} :
      same step step' → Alike same children children' → Alike same rest rest' →
      Alike same (grow step children rest) (grow step' children' rest')

/-- Steps on the same level that are alike. -/
def SameLevel (same : Step → Step → Prop) (a b : Nat × Step) : Prop := a.1 = b.1 ∧ same a.2 b.2

theorem Forest.Alike.preorder {same : Step → Step → Prop} {f g : Forest} (h : Alike same f g)
    (level : Nat) : Forall₂ (SameLevel same) (f.preorder level) (g.preorder level) := by
  induction h generalizing level with
  | empty => exact .nil
  | grow hs _ _ ihc ihr => exact .cons ⟨rfl, hs⟩ (List.rel_append (ihc (level + 1)) (ihr level))

/-- What alike steps have in common, alike plans have in common step by step. -/
theorem Forest.Alike.map_steps {α : Type} {same : Step → Step → Prop} {f g : Forest}
    (h : Alike same f g) {read : Step → α} (hr : ∀ a b, same a b → read a = read b) :
    f.steps.map read = g.steps.map read := by
  have hrows := h.preorder 0
  simp only [steps, walk_eq_preorder]
  generalize f.preorder 0 = xs at hrows ⊢
  generalize g.preorder 0 = ys at hrows ⊢
  induction hrows with
  | nil => rfl
  | cons hab _ ih =>
    simp only [List.map_cons]
    rw [hr _ _ hab.2, ih]

/-- Two rows that agree on where a mark stands agree on what is in front of the first one. -/
theorem forall₂_split {α : Type} {R : α → α → Prop} (mark : α → Prop)
    (hR : ∀ a b, R a b → (mark a ↔ mark b)) {xs xs' ys ys' : List α}
    (h : Forall₂ R (xs ++ ys) (xs' ++ ys')) (hx : ∀ a ∈ xs, ¬ mark a) (hx' : ∀ a ∈ xs', ¬ mark a)
    (hy : ∀ a ∈ ys.head?, mark a) (hy' : ∀ a ∈ ys'.head?, mark a) :
    Forall₂ R xs xs' ∧ Forall₂ R ys ys' := by
  induction xs generalizing xs' with
  | nil =>
    cases xs' with
    | nil => exact ⟨.nil, h⟩
    | cons b xs' =>
      cases ys with
      | nil => cases h
      | cons a ys =>
        cases h with
        | cons hab _ => exact absurd ((hR a b hab).mp (hy a rfl)) (hx' b List.mem_cons_self)
  | cons a xs ih =>
    cases xs' with
    | nil =>
      cases ys' with
      | nil => cases h
      | cons b ys' =>
        cases h with
        | cons hab _ => exact absurd ((hR a b hab).mpr (hy' b rfl)) (hx a List.mem_cons_self)
    | cons b xs' =>
      cases h with
      | cons hab hrest =>
        obtain ⟨hfront, hback⟩ := ih hrest (fun c hc => hx c (List.mem_cons_of_mem _ hc))
          fun c hc => hx' c (List.mem_cons_of_mem _ hc)
        exact ⟨.cons hab hfront, hback⟩

theorem Forest.head?_preorder (f : Forest) (level : Nat) :
    ∀ e ∈ (f.preorder level).head?, e.1 ≤ level := by
  cases f with
  | empty => simp [Forest.preorder]
  | grow step children rest =>
    rintro e ⟨⟩
    exact Nat.le_refl _

theorem Forest.alike_of_preorder {same : Step → Step → Prop} {f g : Forest} {level : Nat}
    (h : Forall₂ (SameLevel same) (f.preorder level) (g.preorder level)) : Alike same f g := by
  induction f generalizing g level with
  | empty =>
    cases g with
    | empty => exact .empty
    | grow => cases h
  | grow step children rest ihc ihr =>
    cases g with
    | empty => cases h
    | grow step' children' rest' =>
      cases h with
      | cons hstep hrest =>
        -- What is below the first step ends with the first step that is as high as it.
        have hdeep : ∀ (f : Forest), ∀ e ∈ f.preorder (level + 1), ¬ e.1 ≤ level := by
          intro f e he
          exact Nat.not_le.mpr (Forest.le_of_mem_levels e.1 (List.mem_map_of_mem he))
        obtain ⟨hc, hr⟩ := forall₂_split (fun e => e.1 ≤ level)
          (fun a b hab => by rw [hab.1]) hrest (hdeep children) (hdeep children')
          (rest.head?_preorder level) (rest'.head?_preorder level)
        exact .grow hstep.2 (ihc hc) (ihr hr)

theorem Forest.Alike.eq {f g : Forest} (h : Alike Eq f g) : f = g := by
  induction h with
  | empty => rfl
  | grow hstep _ _ ihc ihr => rw [hstep, ihc, ihr]

/-- There is one plan with these steps on these levels. -/
theorem Forest.eq_of_preorder {f g : Forest} (level : Nat)
    (h : f.preorder level = g.preorder level) : f = g := by
  have hrows : Forall₂ (SameLevel Eq) (f.preorder level) (g.preorder level) := by
    rw [h]
    exact List.forall₂_same.mpr fun e _ => ⟨rfl, rfl⟩
  exact (alike_of_preorder hrows).eq

end QueryReview.Plan

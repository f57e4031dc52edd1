-- The laws of warnings. A plan has one warning for each step and each kind that applies to it, in
-- document order, and of two about one step the full scan stands first. So a plan is warned about
-- for a full scan exactly when some step of it, however deep, is one. The search for a needle finds
-- the same steps, in whatever case the needle is written.
import Mathlib.Data.List.Forall2
import QueryReview.Plan.Warning
import QueryReview.Proofs.Plan.Preorder
import QueryReview.Proofs.Text.Fold

namespace QueryReview.Plan

open List (Forall₂)

/-! ## Steps in a plan -/

/-- The step is in the plan, at whatever depth. -/
inductive Forest.Has (step : Step) : Forest → Prop
  | here {children rest : Forest} : Has step (grow step children rest)
  | deeper {above : Step} {children rest : Forest} :
      Has step children → Has step (grow above children rest)
  | later {before : Step} {children rest : Forest} :
      Has step rest → Has step (grow before children rest)

theorem Forest.steps_eq_preorder (f : Forest) (level : Nat) :
    f.steps = (f.preorder level).map Prod.snd := by
  have hlevel : ∀ (f : Forest) (k l : Nat),
      (f.preorder k).map Prod.snd = (f.preorder l).map Prod.snd := by
    intro f
    induction f with
    | empty => exact fun _ _ => rfl
    | grow step children rest ihc ihr =>
      intro k l
      simp only [preorder, List.map_cons, List.map_append, ihc (k + 1) (l + 1), ihr k l]
  rw [steps, walk_eq_preorder, hlevel]

theorem Forest.steps_grow (step : Step) (children rest : Forest) :
    (grow step children rest).steps = step :: (children.steps ++ rest.steps) := by
  rw [steps_eq_preorder _ 0, preorder, List.map_cons, List.map_append, ← steps_eq_preorder,
    ← steps_eq_preorder]

theorem Forest.mem_steps_iff {f : Forest} {step : Step} : step ∈ f.steps ↔ f.Has step := by
  constructor
  · intro h
    induction f with
    | empty => simp [steps_eq_preorder _ 0, preorder] at h
    | grow other children rest ihc ihr =>
      rw [steps_grow, List.mem_cons, List.mem_append] at h
      rcases h with rfl | h | h
      · exact .here
      · exact .deeper (ihc h)
      · exact .later (ihr h)
  · intro h
    induction h with
    | here => simp [steps_grow]
    | deeper _ ih => simp [steps_grow, ih]
    | later _ ih => simp [steps_grow, ih]

/-! ## Full scans -/

theorem Forest.hasTableScans_iff {f : Forest} :
    f.hasTableScans = true ↔ ∃ step, f.Has step ∧ step.isTableScan = true := by
  simp only [hasTableScans, List.any_eq_true, mem_steps_iff]

theorem Forest.mem_warnings_iff {f : Forest} {w : Warning} :
    w ∈ f.warnings ↔ ∃ step kind, f.Has step ∧ kind.applies step = true ∧ w = .about step kind := by
  simp only [warnings, List.mem_flatMap, List.mem_map, List.mem_filter, mem_steps_iff]
  constructor
  · rintro ⟨step, hstep, kind, ⟨_, happlies⟩, rfl⟩
    exact ⟨step, kind, hstep, happlies, rfl⟩
  · rintro ⟨step, kind, hstep, happlies, rfl⟩
    exact ⟨step, hstep, kind, ⟨by cases kind <;> simp [WarningKind.all], happlies⟩, rfl⟩

theorem Forest.hasTableScans_iff_warned {f : Forest} :
    f.hasTableScans = true ↔ ∃ w ∈ f.warnings, w.kind = .fullTableScan := by
  rw [hasTableScans_iff]
  constructor
  · rintro ⟨step, hstep, hscan⟩
    have happlies : WarningKind.fullTableScan.applies step = true := hscan
    exact ⟨_, mem_warnings_iff.mpr ⟨step, _, hstep, happlies, rfl⟩, rfl⟩
  · rintro ⟨w, hw, hkind⟩
    obtain ⟨step, kind, hstep, happlies, rfl⟩ := mem_warnings_iff.mp hw
    obtain rfl : kind = .fullTableScan := hkind
    exact ⟨step, hstep, happlies⟩

/-! ## Needles in any case -/

/-- ASCII has no letter with a small form outside of it. -/
theorem lower_of_ascii {cs : List Char} (h : ∀ c ∈ cs, c.toNat < 0x80) :
    Text.lower cs = cs.map Char.toLower := by
  have hafter : ∀ before, Text.lowerAfter before cs = cs.map Char.toLower := by
    induction cs with
    | nil => exact fun _ => rfl
    | cons c cs ih =>
      intro before
      obtain ⟨hc, hcs⟩ := List.forall_mem_cons.mp h
      have hsigma : c ≠ Text.sigma := by
        rintro rfl
        exact absurd hc (by decide)
      rw [Text.lowerAfter, if_neg hsigma, Text.lowerChar, if_pos hc, ih hcs]
      rfl
  exact hafter []

/-- A needle that is written in letters of either case finds what it finds in small letters. -/
theorem Forest.containsOperation_eq {needle small : String} {f : Forest}
    (hsmall : ∀ c ∈ small.toList, c.toNat < 0x80)
    (h : needle.toList.map Char.toLower = small.toList) :
    f.containsOperation needle = f.steps.any (·.mentions small.toList) := by
  have hascii : ∀ c ∈ needle.toList, c.toNat < 0x80 := by
    intro c hc
    have hlower := hsmall c.toLower (h ▸ List.mem_map_of_mem hc)
    rw [Text.toNat_toLower] at hlower
    split at hlower <;> omega
  rw [containsOperation, lower_of_ascii hascii, h]

/-! ## The list of warnings -/

/-- A place in a list of steps, from 0, and a kind of warning. -/
abbrev Mark := Nat × WarningKind

/-- An earlier place stands first, and at one place the full scan stands in front of the temporary
table. -/
def Mark.Before (a b : Mark) : Prop :=
  a.1 < b.1 ∨ a.1 = b.1 ∧ a.2 = .fullTableScan ∧ b.2 = .temporaryTable

/-- The warnings are those of the marks, one for each, and the marks are all places with a kind that
applies there, in order and none of them twice. -/
structure Warned (steps : List Step) (marks : List Mark) (warnings : List Warning) : Prop where
  ordered : marks.Pairwise Mark.Before
  complete : ∀ place kind, (place, kind) ∈ marks ↔
    ∃ step, steps[place]? = some step ∧ kind.applies step = true
  told : Forall₂ (fun mark w => ∃ step, steps[mark.1]? = some step ∧ w = .about step mark.2)
    marks warnings

theorem warned_nil : Warned [] [] [] where
  ordered := .nil
  complete := by simp
  told := .nil

theorem ordered_all (place : Nat) :
    (WarningKind.all.map fun kind => (place, kind)).Pairwise Mark.Before := by
  simp [WarningKind.all, Mark.Before]

/-- The warnings about one more step in front. -/
theorem Warned.cons {steps : List Step} {marks : List Mark} {warnings : List Warning}
    (h : Warned steps marks warnings) (step : Step) :
    let kinds := WarningKind.all.filter fun kind => kind.applies step
    Warned (step :: steps)
      (kinds.map (fun kind => (0, kind)) ++ marks.map fun mark => (mark.1 + 1, mark.2))
      (kinds.map (Warning.about step) ++ warnings) where
  ordered := by
    rw [List.pairwise_append]
    refine ⟨?_, ?_, ?_⟩
    · exact (ordered_all 0).sublist (List.filter_sublist.map _)
    · rw [List.pairwise_map]
      refine h.ordered.imp fun hab => ?_
      rcases hab with hlt | ⟨heq, hkinds⟩
      · exact .inl (Nat.succ_lt_succ hlt)
      · exact .inr ⟨congrArg (· + 1) heq, hkinds⟩
    · intro a ha b hb
      obtain ⟨_, _, rfl⟩ := List.mem_map.mp ha
      obtain ⟨_, _, rfl⟩ := List.mem_map.mp hb
      exact .inl (Nat.succ_pos _)
  complete := by
    intro place kind
    have hall : kind ∈ WarningKind.all := by cases kind <;> simp [WarningKind.all]
    cases place with
    | zero => simp [hall]
    | succ k =>
      rw [List.getElem?_cons_succ, ← h.complete]
      simp
  told := by
    refine List.rel_append ?_ ?_
    · rw [List.forall₂_map_left_iff, List.forall₂_map_right_iff, List.forall₂_same]
      exact fun kind _ => ⟨step, rfl, rfl⟩
    · rw [List.forall₂_map_left_iff]
      exact h.told

theorem exists_warned (steps : List Step) :
    ∃ marks, Warned steps marks (steps.flatMap fun step =>
      (WarningKind.all.filter fun kind => kind.applies step).map (Warning.about step)) := by
  induction steps with
  | nil => exact ⟨[], warned_nil⟩
  | cons step steps ih =>
    obtain ⟨marks, hmarks⟩ := ih
    exact ⟨_, hmarks.cons step⟩

theorem Forest.exists_warned_preorder (f : Forest) :
    ∃ marks, Warned ((f.preorder 0).map Prod.snd) marks f.warnings := by
  rw [← steps_eq_preorder]
  exact exists_warned f.steps

end QueryReview.Plan

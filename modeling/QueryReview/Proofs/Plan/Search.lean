-- The search of a plan for an operation. Needle and operation are put into small letters apart from
-- each other, so what stands in an operation is found there unless a sigma of the needle gets
-- another small form by what stands around it. There are needles to which that can happen, and they
-- are told by their ends alone.
import Mathlib.Data.List.Basic
import QueryReview.Proofs.Plan.Warnings
import QueryReview.Proofs.Text.Lower

namespace QueryReview.Plan

open Text

theorem Forest.containsOperation_iff {f : Forest} {needle : String} :
    f.containsOperation needle = true ↔
      ∃ step, f.Has step ∧ lower needle.toList <:+: lower step.operation.toList := by
  simp only [containsOperation, List.any_eq_true, mem_steps_iff, Step.mentions, occursIn_iff]

/-- The plan of one step that does what the text says. -/
def Forest.single (operation : String) : Forest := .grow { operation } .empty .empty

theorem Forest.containsOperation_single {operation needle : String} :
    (single operation).containsOperation needle = true ↔
      lower needle.toList <:+: lower operation.toList := by
  rw [containsOperation_iff]
  constructor
  · rintro ⟨step, hstep, hpart⟩
    cases hstep with
    | here => exact hpart
    | deeper h => cases h
    | later h => cases h
  · exact fun hpart => ⟨_, .here, hpart⟩

/-- A needle is found in a plan where it stands in the operation of a step, at whatever depth, and
its sigmas have the form there that they have in the needle. It is found wherever it stands exactly
when no sigma of it is open. -/
theorem a_part_of_an_operation_is_found_unless_a_sigma_is_open (needle : String) :
    (∀ (f : Forest) (step : Step) (before after : List Char), f.Has step →
      step.operation.toList = before ++ needle.toList ++ after →
      KeepsSigmas before needle.toList after → f.containsOperation needle = true) ∧
    ((∀ (f : Forest) (step : Step), f.Has step → needle.toList <:+: step.operation.toList →
        f.containsOperation needle = true) ↔
      hasOpenSigma needle.toList = false) := by
  refine ⟨?_, ?_⟩
  · intro f step before after hstep he hkeeps
    refine Forest.containsOperation_iff.mpr ⟨step, hstep, ?_⟩
    rw [he]
    exact hkeeps.lower_isInfix
  · rw [← lower_isInfix_iff]
    constructor
    · intro hfound around hpart
      have h := hfound (.single (String.ofList around)) _ .here (by rwa [String.toList_ofList])
      rwa [Forest.containsOperation_single, String.toList_ofList] at h
    · intro hlower f step hstep hpart
      exact Forest.containsOperation_iff.mpr ⟨step, hstep, hlower _ hpart⟩

/-- A word with a sigma at its end is found where it stands whole. -/
theorem a_whole_word_is_found :
    let needle := "\u039f\u0394\u039f\u03a3"
    hasOpenSigma needle.toList = true ∧
      (Forest.single "Table scan on \u039f\u0394\u039f\u03a3").containsOperation needle = true := by
  intro needle
  refine ⟨by decide +kernel, ?_⟩
  refine (a_part_of_an_operation_is_found_unless_a_sigma_is_open needle).1 _ _
    "Table scan on ".toList [] .here (by decide) ?_
  intro front back he
  have hneedle : needle.toList = ['\u039f', '\u0394', '\u039f'] ++ sigma :: [] := by decide
  rw [hneedle, List.append_cons_inj_of_notMem (by decide) (by simp)] at he
  obtain ⟨rfl, _, rfl⟩ := he
  decide +kernel

/-- The front of that word is not found in a longer one: its sigma ends a word by itself, and none
where it stands. -/
theorem the_front_of_a_word_is_not_found :
    ∃ (f : Forest) (step : Step) (needle : String), f.Has step ∧
      needle.toList <:+: step.operation.toList ∧ f.containsOperation needle = false := by
  refine ⟨.single "Table scan on \u039f\u0394\u039f\u03a3\u0397\u039c\u0391", _,
    "\u039f\u0394\u039f\u03a3", .here, ?_, ?_⟩
  · exact ⟨"Table scan on ".toList, "\u0397\u039c\u0391".toList, by decide⟩
  · rw [← Bool.not_eq_true, Forest.containsOperation_single, ← occursIn_iff]
    decide +kernel

end QueryReview.Plan

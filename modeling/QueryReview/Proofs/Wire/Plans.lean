-- Plans that are read back from their documents. Every number that is read from a text is finite, and
-- so is every number that a plan has from its text, but one: the time over all loops, which is a
-- product. Where the product is not finite it is written as null, and no plan with such a null is
-- read back.
import QueryReview.Proofs.Plan.Reprint
import QueryReview.Proofs.Plan.Warnings
import QueryReview.Proofs.Wire.Fields

namespace QueryReview.Plan

/-! ## The numbers of a plan that was parsed -/

/-- The time over all loops, where there is one, is finite. -/
def Step.totalIsFinite (step : Step) : Bool := step.timing.all (·.total.isFinite)

def Forest.totalsAreFinite (f : Forest) : Bool := f.steps.all Step.totalIsFinite

/-- The time over all loops is the time of one loop, as often as the step ran. -/
def Step.TotalOfLoops (step : Step) : Prop :=
  ∀ t ∈ step.timing, t = .ofLoops t.first t.last (step.actualLoops.getD 1)

theorem totalOfLoops_of_read? {mode : Mode} {line : List Char} {l : Line}
    (h : Line.read? mode line = some l) : l.step.TotalOfLoops := by
  obtain ⟨_, _, _, hstep⟩ := exists_of_read? h
  rw [hstep]
  refine Step.withMetrics_induction (P := Step.TotalOfLoops) ?_ (fun _ _ hs => hs) ?_ _
  · rintro t ⟨⟩
  · intro _ _ group _ t ht
    obtain ⟨⟨n, m⟩, _, ht⟩ := Option.bind_eq_some_iff.mp ht
    simp only [bind, pure, Option.bind_eq_some_iff] at ht
    obtain ⟨first, _, last, _, ht⟩ := ht
    cases ht
    rfl

theorem indentLevel_le_length (line : List Char) : indentLevel line ≤ line.length :=
  (Nat.div_le_self _ _).trans (List.takeWhile_sublist _).length_le

theorem le_of_mem_nested {most bound : Nat} {ls : List Line} (h : ∀ l ∈ ls, l.level ≤ bound) :
    ∀ e ∈ nested most ls, e.1 ≤ bound := by
  induction ls generalizing most with
  | nil => simp [nested]
  | cons line rest ih =>
    obtain ⟨hline, hrest⟩ := List.forall_mem_cons.mp h
    exact List.forall_mem_cons.mpr ⟨(Nat.min_le_left _ _).trans hline, ih hrest⟩

/-- What a step has from its text. All its numbers are finite but the time over all loops, and it is
no deeper than the text is long. -/
structure Step.OfText (mode : Mode) (text : String) (step : Step) : Prop where
  finite : step.Finite
  depth : step.depth ≤ text.length
  total : step.TotalOfLoops
  unmeasured : mode = .estimated → step.Unmeasured

theorem Forest.ofText_of_mem_steps {mode : Mode} {text : String} :
    ∀ step ∈ (Forest.parse mode text).steps, step.OfText mode text := by
  intro step hstep
  obtain ⟨e, he, rfl⟩ := List.mem_map.mp hstep
  obtain ⟨line, l, _, hread, heq⟩ := exists_line_of_mem_walk he
  have htotal := totalOfLoops_of_read? hread
  refine ⟨(readable_of_mem_walk e he).finite, ?_, ?_, ?_⟩
  · have hdepth : e.2.depth = e.1 := by rw [heq]
    rw [hdepth]
    rw [walk_parse] at he
    refine le_of_mem_nested (fun l' hl' => ?_) e he
    obtain ⟨line', hline', hread'⟩ := List.mem_filterMap.mp hl'
    rw [read?_level hread', ← String.length_toList]
    exact (indentLevel_le_length line').trans (Text.length_le_of_mem_lines line' hline')
  · rw [heq]
    exact htotal
  · rintro rfl
    exact unmeasured_of_mem_walk e he

end QueryReview.Plan

namespace QueryReview.Wire

open QueryReview.Json (member?)
open QueryReview.Plan

/-! ## Reading a plan back -/

theorem readTiming_ofTiming {t : Timing} (h : t.first.isFinite = true ∧ t.last.isFinite = true) :
    readTiming (ofTiming t) = if t.total.isFinite then some t else none := by
  refine bind_object ?_
  refine bind_required rfl (readFloat_of_isFinite h.1) ?_
  refine bind_required rfl (readFloat_of_isFinite h.2) ?_
  exact bind_required_ite rfl (readFloat_ofFloat t.total) rfl

theorem readStep_ofStep {step : Step} (hf : step.Finite) (hd : step.depth ≤ max64)
    (children : Json) :
    readStep (ofStep step children) = if step.totalIsFinite then some step else none := by
  have htiming : nullable readTiming (.ofOption ofTiming step.timing)
      = if step.totalIsFinite then some (step.timing.map id) else none :=
    nullable_ofOption_ite (fun _ _ => Json.noConfusion)
      fun t ht => readTiming_ofTiming (hf.timing t ht)
  rw [Option.map_id] at htiming
  refine bind_object ?_
  refine bind_required rfl rfl ?_
  refine bind_optional rfl (nullable_float hf.cost) ?_
  refine bind_optional rfl (nullable_float hf.estimatedRows) ?_
  refine bind_optional_ite rfl htiming ?_
  refine bind_optional rfl (nullable_float hf.actualRows) ?_
  refine bind_optional rfl (nullable_nat hf.actualLoops) ?_
  exact bind_required rfl (readNat_ofNat hd) rfl

theorem readChildren_ofStep (step : Step) (children : Json) :
    readChildren (ofStep step children) = readForest children := by
  simp only [ofStep, readChildren, readChildrenByName, String.reduceEq, reduceIte]

/-- The numbers of the plan can be written, but for the times over all loops. -/
def Writable (f : Forest) : Prop := ∀ step ∈ f.steps, step.Finite ∧ step.depth ≤ max64

theorem readTrees_ofTrees {f : Forest} (h : Writable f) :
    readTrees (ofTrees f) = if f.totalsAreFinite then some f else none := by
  induction f with
  | empty =>
    have hnone : Forest.empty.totalsAreFinite = true := by
      simp [Forest.totalsAreFinite, Forest.steps_eq_preorder _ 0, Forest.preorder]
    rw [ofTrees, readTrees, if_pos hnone]
  | grow step children rest ihc ihr =>
    unfold Writable at h
    rw [Forest.steps_grow, List.forall_mem_cons, List.forall_mem_append] at h
    obtain ⟨⟨hf, hd⟩, hc, hr⟩ := h
    have hall : (Forest.grow step children rest).totalsAreFinite
        = (step.totalIsFinite && (children.totalsAreFinite && rest.totalsAreFinite)) := by
      simp only [Forest.totalsAreFinite, Forest.steps_grow, List.all_cons, List.all_append]
    rw [ofTrees, readTrees, readStep_ofStep hf hd, readChildren_ofStep, readForest, ihc hc, ihr hr,
      hall]
    cases step.totalIsFinite <;> cases children.totalsAreFinite <;> cases rest.totalsAreFinite <;>
      rfl

/-- A plan is read back as it is, exactly when all its times are finite. -/
theorem readForest_ofForest {f : Forest} (h : Writable f) :
    readForest (ofForest f) = if f.totalsAreFinite then some f else none := by
  rw [ofForest, readForest, readTrees_ofTrees h]

theorem writable_parse (mode : Mode) {text : String} (h : text.length ≤ max64) :
    Writable (.parse mode text) := fun step hstep =>
  have hof := Forest.ofText_of_mem_steps step hstep
  ⟨hof.finite, hof.depth.trans h⟩

/-- Without measurements there is no time that could be too large. -/
theorem totalsAreFinite_parse_estimated (text : String) :
    (Forest.parse .estimated text).totalsAreFinite = true := by
  refine List.all_eq_true.mpr fun step hstep => ?_
  have hnone := ((Forest.ofText_of_mem_steps step hstep).unmeasured rfl).timing
  rw [Step.totalIsFinite, hnone]
  rfl

end QueryReview.Wire

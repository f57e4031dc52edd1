-- The laws of finding a piece in a text, and of cutting a text into lines.
import QueryReview.Text.Find

namespace QueryReview.Text

/-! ## A piece in a longer text -/

theorem after?_append_of_not_mem {piece : List Char} {x : Char} (hx : x ∉ piece)
    (cs : List Char) : after? piece (cs ++ [x]) = (after? piece cs).map (· ++ [x]) := by
  fun_induction after? piece cs with
  | case1 cs => simp [after?]
  | case2 p ps =>
    have hp : p ≠ x := fun he => hx (by simp [he])
    simp [after?, hp]
  | case3 ps p cs ih =>
    simp only [List.cons_append, after?, if_true]
    exact ih fun h => hx (List.mem_cons_of_mem _ h)
  | case4 p ps c cs hne => simp [after?, hne]

/-- A character that is not in the piece changes nothing behind the text but what is left. -/
theorem cut?_append_of_not_mem {piece : List Char} (hp : piece ≠ []) {x : Char} (hx : x ∉ piece)
    (cs : List Char) :
    cut? piece (cs ++ [x]) = (cut? piece cs).map fun p => (p.1, p.2 ++ [x]) := by
  induction cs with
  | nil =>
    have hnone : after? piece [x] = none := by
      have h := after?_append_of_not_mem hx []
      rw [List.nil_append] at h
      cases piece with
      | nil => exact absurd rfl hp
      | cons p ps => simpa [after?] using h
    simp [cut?, hnone, hp]
  | cons c cs ih =>
    have ha := after?_append_of_not_mem hx (c :: cs)
    rw [List.cons_append] at ha
    simp only [List.cons_append, cut?, ha, ih]
    cases after? piece (c :: cs) with
    | none => cases cut? piece cs <;> rfl
    | some rest => rfl

theorem after?_eq_some_iff {piece cs rest : List Char} :
    after? piece cs = some rest ↔ cs = piece ++ rest := by
  fun_induction after? piece cs with
  | case1 cs => simp [eq_comm]
  | case2 p ps => simp
  | case3 ps p cs ih => simpa using ih
  | case4 p ps c cs hne => simp [Ne.symm hne]

theorem startsWith_iff {piece cs : List Char} : startsWith piece cs = true ↔ piece <+: cs := by
  unfold startsWith
  rw [Option.isSome_iff_exists]
  constructor
  · rintro ⟨rest, h⟩
    exact ⟨rest, (after?_eq_some_iff.mp h).symm⟩
  · rintro ⟨rest, rfl⟩
    exact ⟨rest, after?_eq_some_iff.mpr rfl⟩

theorem occursIn_iff {piece cs : List Char} : occursIn piece cs = true ↔ piece <:+: cs := by
  induction cs with
  | nil => simp [occursIn]
  | cons c cs ih =>
    rw [occursIn, Bool.or_eq_true, startsWith_iff, ih, List.infix_cons_iff]

/-- What occurs nowhere in a text occurs nowhere in a part of it. -/
theorem not_occursIn_part {piece cs part : List Char} (h : occursIn piece cs = false)
    (hp : part <:+: cs) : occursIn piece part = false := by
  rw [← Bool.not_eq_true, occursIn_iff] at h ⊢
  exact fun hpart => h (hpart.trans hp)

theorem isSome_cut? (piece cs : List Char) : (cut? piece cs).isSome = occursIn piece cs := by
  induction cs with
  | nil =>
    simp only [cut?, occursIn]
    split
    · rename_i h
      simp [h]
    · rename_i h
      simp [h]
  | cons c cs ih =>
    simp only [cut?, occursIn, startsWith, ← ih]
    cases after? piece (c :: cs) <;> simp

theorem after?_of_ne {piece more : List Char} {k c : Char} (hp : piece.head? = some k)
    (hc : c ≠ k) : after? piece (c :: more) = none := by
  cases piece with
  | nil => cases hp
  | cons p ps =>
    cases hp
    exact if_neg (Ne.symm hc)

theorem after?_append (piece rest : List Char) : after? piece (piece ++ rest) = some rest :=
  after?_eq_some_iff.mpr rfl

/-- A piece is found behind a text that does not have its first character. -/
theorem cut?_append {piece front : List Char} {k : Char} (hp : piece.head? = some k)
    (hf : k ∉ front) (rest : List Char) : cut? piece (front ++ (piece ++ rest)) = some (front, rest) := by
  induction front with
  | nil =>
    obtain ⟨ps, rfl⟩ : ∃ ps, piece = k :: ps := by
      cases piece with
      | nil => cases hp
      | cons p ps => exact ⟨ps, by rw [Option.some.inj hp]⟩
    have hafter := after?_append (k :: ps) rest
    rw [List.cons_append] at hafter
    rw [List.nil_append, List.cons_append, cut?, hafter]
  | cons c front ih =>
    rw [List.mem_cons, not_or] at hf
    rw [List.cons_append, cut?, after?_of_ne hp (Ne.symm hf.1), ih hf.2]
    rfl

theorem eq_of_cut? {piece cs front behind : List Char} (h : cut? piece cs = some (front, behind)) :
    cs = front ++ piece ++ behind := by
  induction cs generalizing front with
  | nil =>
    unfold cut? at h
    split at h
    · rename_i hempty
      cases h
      simpa using hempty
    · cases h
  | cons c cs ih =>
    unfold cut? at h
    split at h
    · rename_i rest hafter
      cases h
      exact after?_eq_some_iff.mp hafter
    · obtain ⟨⟨before, rest⟩, hcut, heq⟩ := Option.map_eq_some_iff.mp h
      cases heq
      rw [ih hcut]
      rfl

/-! ## Texts in a row -/

theorem mem_join {gap : List Char} {c : Char} {ls : List (List Char)} (h : c ∈ join gap ls) :
    c ∈ gap ∨ ∃ l ∈ ls, c ∈ l := by
  fun_induction join gap ls with
  | case1 => cases h
  | case2 line => exact .inr ⟨line, List.mem_singleton_self _, h⟩
  | case3 line more _ ih =>
    simp only [List.mem_append] at h
    rcases h with (h | h) | h
    · exact .inr ⟨line, List.mem_cons_self, h⟩
    · exact .inl h
    · rcases ih h with h | ⟨l, hl, hc⟩
      · exact .inl h
      · exact .inr ⟨l, List.mem_cons_of_mem _ hl, hc⟩

theorem join_cons_cons (gap line next : List Char) (more : List (List Char)) :
    join gap (line :: next :: more) = line ++ (gap ++ join gap (next :: more)) :=
  List.append_assoc ..

/-- A gap stands behind each part but the last. -/
theorem join_append_cons (gap : List Char) (lead : List (List Char)) (part : List Char)
    (parts : List (List Char)) :
    join gap (lead ++ part :: parts)
      = (lead.flatMap fun p => p ++ gap) ++ join gap (part :: parts) := by
  induction lead with
  | nil => rfl
  | cons p lead ih =>
    have hne : lead ++ part :: parts ≠ [] := by simp
    obtain ⟨q, qs, hq⟩ := List.exists_cons_of_ne_nil hne
    rw [List.cons_append, List.flatMap_cons, List.append_assoc, ← ih, hq, List.append_assoc,
      join_cons_cons]

theorem part_isInfixOf_join (gap : List Char) {ls : List (List Char)} {l : List Char} (h : l ∈ ls) :
    l <:+: join gap ls := by
  fun_induction join gap ls with
  | case1 => cases h
  | case2 line =>
    obtain rfl := List.mem_singleton.mp h
    exact List.infix_rfl
  | case3 line more _ ih =>
    rcases List.mem_cons.mp h with rfl | h
    · exact ⟨[], gap ++ join gap more, by simp⟩
    · exact (ih h).trans (List.suffix_append _ _).isInfix

theorem part_isPrefixOf_join (gap part : List Char) (parts : List (List Char)) :
    part <+: join gap (part :: parts) := by
  cases parts with
  | nil => exact List.prefix_rfl
  | cons p ps => exact ⟨gap ++ join gap (p :: ps), by simp [join]⟩

/-! ## Lines -/

theorem lines_cons {c : Char} {cs : List Char} (hc : c ≠ '\n')
    (hr : c = '\r' → cs.head? ≠ some '\n') :
    lines (c :: cs) = match lines cs with
      | [] => [[c]]
      | line :: more => (c :: line) :: more := by
  conv => lhs; unfold lines
  split
  · rename_i h
    cases h
  · rename_i h
    cases h
    exact absurd rfl hc
  · rename_i h
    cases h
    exact absurd rfl (hr rfl)
  · rename_i h
    cases h
    rfl

/-- Every text but the empty one has a line. -/
theorem lines_eq_nil_iff {cs : List Char} : lines cs = [] ↔ cs = [] := by
  constructor
  · intro h
    unfold lines at h
    split at h
    · rfl
    · cases h
    · cases h
    · split at h <;> cases h
  · rintro rfl
    rfl

/-- A line goes on with the text behind it, up to a line feed. -/
theorem lines_cons_append {c : Char} {cs : List Char} (hc : c ≠ '\n') (hcs : cs ≠ [])
    (hr : c = '\r' → cs.head? ≠ some '\n') (rest : List Char) :
    ∃ line more, lines (cs ++ rest) = line :: more ∧
      lines (c :: cs ++ rest) = (c :: line) :: more := by
  have hne : lines (cs ++ rest) ≠ [] := by simp [lines_eq_nil_iff, hcs]
  obtain ⟨line, more, hl⟩ := List.exists_cons_of_ne_nil hne
  refine ⟨line, more, hl, ?_⟩
  rw [List.cons_append, lines_cons hc, hl]
  intro he
  rw [List.head?_append, Option.or_of_isSome (by simp [hcs])]
  exact hr he

/-- What stands behind a line feed does not change the lines before it. -/
theorem lines_append_feed (above below : List Char) :
    lines (above ++ '\n' :: below) = lines (above ++ ['\n']) ++ lines below := by
  fun_induction lines above with
  | case1 => simp [lines]
  | case2 cs ih => simp [lines, ih]
  | case3 cs ih => simp [lines, ih]
  | case4 c cs hc _ hnil =>
    rw [lines_eq_nil_iff.mp hnil]
    by_cases hcr : c = '\r'
    · simp [lines, hcr]
    · have h : ∀ rest, lines ([c] ++ '\n' :: rest) = [c] :: lines rest := by
        intro rest
        rw [List.singleton_append, lines_cons hc fun he => absurd he hcr]
        rfl
      rw [h, h]
      rfl
  | case5 c cs hc hr line more hl ih =>
    have hcs : cs ≠ [] := by
      rintro rfl
      cases hl
    have hhead : c = '\r' → cs.head? ≠ some '\n' := by
      intro he hh
      obtain ⟨ds, rfl⟩ := List.head?_eq_some_iff.mp hh
      exact hr ds he rfl
    obtain ⟨l₁, m₁, h₁, h₁'⟩ := lines_cons_append hc hcs hhead ('\n' :: below)
    obtain ⟨l₂, m₂, h₂, h₂'⟩ := lines_cons_append hc hcs hhead ['\n']
    rw [h₁', h₂']
    rw [h₁, h₂, List.cons_append] at ih
    cases ih
    rfl

/-- A text that is empty or ends with a line feed. What follows it starts a line. -/
def Ended (cs : List Char) : Prop := cs = [] ∨ cs.getLast? = some '\n'

theorem lines_append_of_ended {above : List Char} (h : Ended above) (below : List Char) :
    lines (above ++ below) = lines above ++ lines below := by
  rcases h with rfl | h
  · simp [lines]
  · obtain ⟨init, rfl⟩ := List.getLast?_eq_some_iff.mp h
    rw [List.append_assoc, List.singleton_append, lines_append_feed]

theorem lines_of_no_feed {line : List Char} (h : '\n' ∉ line) (hne : line ≠ []) :
    lines line = [line] := by
  induction line with
  | nil => exact absurd rfl hne
  | cons c cs ih =>
    simp only [List.mem_cons, not_or] at h
    rw [lines_cons (Ne.symm h.1) fun _ hh => h.2 (List.mem_of_mem_head? hh)]
    cases cs with
    | nil => rfl
    | cons d ds => rw [ih h.2 (by simp)]

/-- A line with its line feed is one line, less a carriage return at its end. -/
theorem lines_append_single_feed {line : List Char} (h : '\n' ∉ line) :
    ∃ l, lines (line ++ ['\n']) = [l] ∧ (line = l ∨ line = l ++ ['\r']) := by
  induction line with
  | nil => exact ⟨[], by simp [lines], Or.inl rfl⟩
  | cons c cs ih =>
    simp only [List.mem_cons, not_or] at h
    by_cases hcs : cs = []
    · subst hcs
      by_cases hcr : c = '\r'
      · exact ⟨[], by simp [lines, hcr], Or.inr (by simp [hcr])⟩
      · refine ⟨[c], ?_, Or.inl rfl⟩
        rw [List.singleton_append, lines_cons (Ne.symm h.1) fun he => absurd he hcr]
        rfl
    · obtain ⟨l, hl, hor⟩ := ih h.2
      obtain ⟨l', more, h₁, h₂⟩ := lines_cons_append (Ne.symm h.1) hcs
        (fun _ hh => h.2 (List.mem_of_mem_head? hh)) ['\n']
      rw [hl] at h₁
      cases h₁
      refine ⟨c :: l, h₂, ?_⟩
      rcases hor with hor | hor
      · exact Or.inl (by rw [hor])
      · exact Or.inr (by rw [hor, List.cons_append])

/-- Every text is whole lines, and then a last one that no line feed ends. -/
theorem exists_last_line (cs : List Char) :
    ∃ init last, cs = init ++ last ∧ Ended init ∧ '\n' ∉ last := by
  induction cs with
  | nil => exact ⟨[], [], rfl, Or.inl rfl, by simp⟩
  | cons c cs ih =>
    obtain ⟨init, last, rfl, he, hl⟩ := ih
    rcases he with rfl | he
    · by_cases hc : c = '\n'
      · exact ⟨[c], last, rfl, Or.inr (by simp [hc]), hl⟩
      · refine ⟨[], c :: last, rfl, Or.inl rfl, ?_⟩
        simp only [List.mem_cons, not_or]
        exact ⟨Ne.symm hc, hl⟩
    · obtain ⟨front, rfl⟩ := List.getLast?_eq_some_iff.mp he
      refine ⟨c :: front ++ ['\n'], last, rfl, Or.inr ?_, hl⟩
      exact List.getLast?_concat

theorem feed_not_mem_of_mem_lines {cs : List Char} : ∀ line ∈ lines cs, '\n' ∉ line := by
  fun_induction lines cs with
  | case1 => simp
  | case2 cs ih => simpa using ih
  | case3 cs ih => simpa using ih
  | case4 c cs hc _ hnil => simpa using Ne.symm hc
  | case5 c cs hc _ line more hl ih =>
    intro l hmem
    rcases List.mem_cons.mp hmem with rfl | hmem
    · have hline := ih line (by rw [hl]; exact List.mem_cons_self)
      simp only [List.mem_cons, not_or]
      exact ⟨Ne.symm hc, hline⟩
    · exact ih l (by rw [hl]; exact List.mem_cons_of_mem _ hmem)

theorem length_le_of_mem_lines {cs : List Char} : ∀ line ∈ lines cs, line.length ≤ cs.length := by
  fun_induction lines cs with
  | case1 => simp
  | case2 cs ih =>
    rw [List.forall_mem_cons]
    exact ⟨Nat.zero_le _, fun l hl => Nat.le_succ_of_le (ih l hl)⟩
  | case3 cs ih =>
    rw [List.forall_mem_cons]
    exact ⟨Nat.zero_le _, fun l hl => Nat.le_succ_of_le (Nat.le_succ_of_le (ih l hl))⟩
  | case4 c cs hc _ hnil => simp
  | case5 c cs hc _ line more hl ih =>
    rw [hl, List.forall_mem_cons] at ih
    rw [List.forall_mem_cons]
    exact ⟨Nat.succ_le_succ ih.1, fun l hmem => Nat.le_succ_of_le (ih.2 l hmem)⟩


/-- Lines that are written one below the other are the lines of the text. -/
theorem lines_join {ls : List (List Char)}
    (h : ∀ l ∈ ls, l ≠ [] ∧ '\n' ∉ l ∧ l.getLast? ≠ some '\r') : lines (join ['\n'] ls) = ls := by
  induction ls with
  | nil => rfl
  | cons l ls ih =>
    obtain ⟨hne, hfeed, hlast⟩ := h l List.mem_cons_self
    have hrest := ih fun l' hl' => h l' (List.mem_cons_of_mem _ hl')
    cases ls with
    | nil => exact lines_of_no_feed hfeed hne
    | cons l' ls =>
      have hjoin : join ['\n'] (l :: l' :: ls) = l ++ '\n' :: join ['\n'] (l' :: ls) := by
        simp [join]
      obtain ⟨line, hline, hor⟩ := lines_append_single_feed hfeed
      rw [hjoin, lines_append_feed, hrest, hline]
      rcases hor with rfl | rfl
      · rfl
      · exact absurd (List.getLast?_concat ..) hlast

/-! ## Lines read one by one -/

section Reading

variable {α : Type} {read : List Char → Option α}

/-- A reader that skips blank lines, and to which a carriage return at the end of a line means
nothing, finds the same on a text whether or not its last line is ended. -/
theorem filterMap_lines_append_feed (hr : ∀ l, read (l ++ ['\r']) = read l)
    (hnil : read [] = none) (cs : List Char) :
    (lines (cs ++ ['\n'])).filterMap read = (lines cs).filterMap read := by
  obtain ⟨init, last, rfl, he, hlast⟩ := exists_last_line cs
  obtain ⟨l, hl, hor⟩ := lines_append_single_feed hlast
  have hread : read l = read last := by
    rcases hor with rfl | rfl
    · rfl
    · exact (hr l).symm
  rw [List.append_assoc, lines_append_of_ended he, lines_append_of_ended he, hl]
  by_cases hne : last = []
  · subst hne
    simp [hread, hnil, lines]
  · simp [List.filterMap_cons, hread, lines_of_no_feed hlast hne]

/-- A line that the reader skips may stand between any two lines, or not. -/
theorem filterMap_lines_insert (hr : ∀ l, read (l ++ ['\r']) = read l) {above line : List Char}
    (ha : Ended above) (hf : '\n' ∉ line) (hl : read line = none) (below : List Char) :
    (lines (above ++ line ++ '\n' :: below)).filterMap read
      = (lines (above ++ below)).filterMap read := by
  obtain ⟨l, hlines, hor⟩ := lines_append_single_feed hf
  have hread : read l = none := by
    rcases hor with rfl | rfl
    · exact hl
    · rw [← hr l]; exact hl
  rw [List.append_assoc, lines_append_of_ended ha, lines_append_of_ended ha,
    lines_append_feed line below, hlines]
  simp [hread]

/-- A line that the reader skips may be the last one of a text, or not. -/
theorem filterMap_lines_insert_last (hr : ∀ l, read (l ++ ['\r']) = read l)
    (hnil : read [] = none) {line : List Char} (hf : '\n' ∉ line) (hl : read line = none)
    (above : List Char) :
    (lines (above ++ '\n' :: line)).filterMap read = (lines above).filterMap read := by
  rw [lines_append_feed, List.filterMap_append, filterMap_lines_append_feed hr hnil]
  by_cases hne : line = []
  · simp [hne, lines]
  · simp [lines_of_no_feed hf hne, hl]

end Reading

end QueryReview.Text

-- Which lists of requests are accepted, and what is said of the others. A list is refused for one
-- fault: it is empty, it is too long, or else some request cannot be told by its name, and of these
-- requests it is the first that counts. A list that is refused costs the database nothing.
import QueryReview.Proofs.Session.Outcome

namespace QueryReview.Session

open Text

/-! ## The rules for a list -/

/-- The name of the request has something to see in it. -/
def Request.IsNamed (r : Request) : Prop := ∃ c ∈ r.id.toList, isBlank c = false

/-- The name of the request is the name of an earlier one. -/
def Request.Repeats (r : Request) (earlier : List Request) : Prop := ∃ r' ∈ earlier, r'.id = r.id

/-- Each request has a name, and no two have the same. -/
structure ToldApart (requests : List Request) : Prop where
  named : ∀ r ∈ requests, r.IsNamed
  different : requests.Pairwise fun r r' => r.id ≠ r'.id

/-- What a list must be to be accepted, where `most` is the longest list allowed, and 0 allows
any. -/
structure Acceptable (most : Nat) (requests : List Request) : Prop where
  notEmpty : requests ≠ []
  inBounds : most = 0 ∨ requests.length ≤ most
  toldApart : ToldApart requests

/-- The fault for which a list is refused. Of the requests, those in front of the one that is told
are in order. -/
inductive Fault (most : Nat) : List Request → RequestError → Prop
  | empty : Fault most [] .emptyRequest
  | tooLong {requests : List Request} :
      0 < most → most < requests.length →
      Fault most requests (.tooManyQueries requests.length most)
  | unnamed {front back : List Request} {r : Request} :
      (most = 0 ∨ (front ++ r :: back).length ≤ most) → ToldApart front → ¬ r.IsNamed →
      Fault most (front ++ r :: back) (.blankQueryId front.length)
  | repeated {front back : List Request} {r : Request} :
      (most = 0 ∨ (front ++ r :: back).length ≤ most) → ToldApart front → r.IsNamed →
      r.Repeats front → Fault most (front ++ r :: back) (.duplicateQueryId r.id)

/-! ## The names, gone through in order -/

theorem isBlankText_id (r : Request) : isBlankText r.id = true ↔ ¬ r.IsNamed := by
  simp [isBlankText, allBlank, Request.IsNamed]

/-- Requests that are in order are passed over, and their names are remembered. -/
theorem checkIds_append {front : List Request} (h : ToldApart front) {seen : List String}
    (hs : ∀ r ∈ front, r.id ∉ seen) (index : Nat) (rest : List Request) :
    checkIds index seen (front ++ rest)
      = checkIds (index + front.length) (front.reverse.map (·.id) ++ seen) rest := by
  induction front generalizing index seen with
  | nil => rfl
  | cons r front ih =>
    obtain ⟨hnamed, hdifferent⟩ := h
    rw [List.forall_mem_cons] at hnamed hs
    rw [List.pairwise_cons] at hdifferent
    have hblank : ¬ isBlankText r.id = true := by
      rw [isBlankText_id, not_not]
      exact hnamed.1
    have hnew : ¬ seen.contains r.id = true := by simpa using hs.1
    have hrest : ∀ r' ∈ front, r'.id ∉ r.id :: seen := by
      intro r' hr'
      rw [List.mem_cons, not_or]
      exact ⟨(hdifferent.1 r' hr').symm, hs.2 r' hr'⟩
    rw [List.cons_append, checkIds, if_neg hblank, if_neg hnew, ih ⟨hnamed.2, hdifferent.2⟩ hrest]
    simp [Nat.add_assoc, Nat.add_comm 1]

/-- The scan comes to the first request that is not in order with the names of those in front. -/
theorem ToldApart.checkIds_append {front : List Request} (h : ToldApart front)
    (rest : List Request) :
    checkIds 0 [] (front ++ rest) = checkIds front.length (front.reverse.map (·.id)) rest := by
  rw [Session.checkIds_append h (by simp), Nat.zero_add, List.append_nil]

theorem ToldApart.concat {front : List Request} {r : Request} (h : ToldApart front)
    (hn : r.IsNamed) (hr : ¬ r.Repeats front) : ToldApart (front ++ [r]) where
  named := by
    intro r' hr'
    rcases List.mem_append.mp hr' with hmem | hmem
    · exact h.named r' hmem
    · rw [List.mem_singleton.mp hmem]
      exact hn
  different := by
    refine List.pairwise_append.mpr ⟨h.different, List.pairwise_singleton _ _, ?_⟩
    intro r' hr' r'' hr'' he
    rw [List.mem_singleton.mp hr''] at he
    exact hr ⟨r', hr', he⟩

/-- All requests can be told apart, or there is a first one that cannot. -/
theorem toldApart_or_first (requests : List Request) :
    ToldApart requests ∨ ∃ front r back, requests = front ++ r :: back ∧ ToldApart front ∧
      (¬ r.IsNamed ∨ r.IsNamed ∧ r.Repeats front) := by
  induction requests using List.reverseRecOn with
  | nil => exact .inl ⟨by simp, .nil⟩
  | append_singleton requests r ih =>
    rcases ih with h | ⟨front, r', back, rfl, hfront, hr'⟩
    · by_cases hn : r.IsNamed
      · by_cases hr : r.Repeats requests
        · exact .inr ⟨requests, r, [], rfl, h, .inr ⟨hn, hr⟩⟩
        · exact .inl (h.concat hn hr)
      · exact .inr ⟨requests, r, [], rfl, h, .inl hn⟩
    · exact .inr ⟨front, r', back ++ [r], by simp, hfront, hr'⟩

/-! ## The answer to a list -/

theorem validate_of_inBounds {most : Nat} {requests : List Request} (hne : requests ≠ [])
    (hb : most = 0 ∨ requests.length ≤ most) : validate most requests = checkIds 0 [] requests := by
  have hlong : ¬ (0 < most ∧ most < requests.length) := by omega
  rw [validate, if_neg (by simpa using hne), if_neg hlong]

theorem Acceptable.validate_eq {most : Nat} {requests : List Request}
    (h : Acceptable most requests) : validate most requests = .ok () := by
  have hscan := h.toldApart.checkIds_append []
  rw [List.append_nil] at hscan
  rw [validate_of_inBounds h.notEmpty h.inBounds, hscan, checkIds]

theorem Fault.validate_eq {most : Nat} {requests : List Request} {e : RequestError}
    (h : Fault most requests e) : validate most requests = .error e := by
  cases h with
  | empty => rfl
  | tooLong hmost hlong =>
    have hne : ¬ requests.isEmpty = true := by
      rw [List.isEmpty_iff_length_eq_zero]
      omega
    rw [validate, if_neg hne, if_pos ⟨hmost, hlong⟩]
  | @unnamed front back r hb hfront hn =>
    rw [validate_of_inBounds (by simp) hb, hfront.checkIds_append, checkIds,
      if_pos ((isBlankText_id r).mpr hn)]
  | @repeated front back r hb hfront hn hr =>
    have hblank : ¬ isBlankText r.id = true := by
      rw [isBlankText_id, not_not]
      exact hn
    have hseen : (front.reverse.map (·.id)).contains r.id = true := by
      simpa [Request.Repeats] using hr
    rw [validate_of_inBounds (by simp) hb, hfront.checkIds_append, checkIds, if_neg hblank,
      if_pos hseen]

/-- Every list is acceptable or at fault. -/
theorem acceptable_or_fault (most : Nat) (requests : List Request) :
    Acceptable most requests ∨ ∃ e, Fault most requests e := by
  by_cases hne : requests = []
  · subst hne
    exact .inr ⟨_, .empty⟩
  by_cases hb : most = 0 ∨ requests.length ≤ most
  · rcases toldApart_or_first requests with h | ⟨front, r, back, rfl, hfront, hn | ⟨hn, hr⟩⟩
    · exact .inl ⟨hne, hb, h⟩
    · exact .inr ⟨_, .unnamed hb hfront hn⟩
    · exact .inr ⟨_, .repeated hb hfront hn hr⟩
  · exact .inr ⟨_, .tooLong (by omega) (by omega)⟩

theorem validate_eq_ok_iff {most : Nat} {requests : List Request} :
    validate most requests = .ok () ↔ Acceptable most requests := by
  refine ⟨fun hv => ?_, Acceptable.validate_eq⟩
  rcases acceptable_or_fault most requests with h | ⟨e, h⟩
  · exact h
  · rw [h.validate_eq] at hv
    cases hv

theorem validate_eq_error_iff {most : Nat} {requests : List Request} {e : RequestError} :
    validate most requests = .error e ↔ Fault most requests e := by
  refine ⟨fun hv => ?_, Fault.validate_eq⟩
  rcases acceptable_or_fault most requests with h | ⟨e', h⟩
  · rw [h.validate_eq] at hv
    cases hv
  · rw [h.validate_eq] at hv
    cases hv
    exact h

/-! ## Sessions that are refused -/

variable {S : Setting}

/-- A session that is refused stays where it starts. -/
theorem Reaches.eq_start {s : Stage} {e : RequestError} (h : Reaches S s)
    (hv : validate S.options.maxQueries S.requests = .error e) : s = {} := by
  cases h with
  | start => rfl
  | step hopen _ _ =>
    rw [hopen.1] at hv
    cases hv

/-- A list of requests is accepted when it is not empty, not too long, and can be told apart by its
names. Every other list is refused for its first fault and for no other one, and then nothing is
asked of the database, in whatever way the session is run. -/
theorem a_list_is_refused_for_its_first_fault (S : Setting) :
    (validate S.options.maxQueries S.requests = .ok () ↔
      Acceptable S.options.maxQueries S.requests) ∧
    (∀ e, validate S.options.maxQueries S.requests = .error e ↔
      Fault S.options.maxQueries S.requests e) ∧
    ∀ e, Fault S.options.maxQueries S.requests e →
      (∀ s, Reaches S s → s.log = []) ∧ (∀ o, Comes S o → o = .error (.refused e)) ∧
      ∀ collaborator, run S.options collaborator S.includeActual S.requests
        = { calls := [], outcome := .error (.refused e) } := by
  refine ⟨validate_eq_ok_iff, fun _ => validate_eq_error_iff, fun e he => ?_⟩
  have hv := he.validate_eq
  refine ⟨?_, ?_, ?_⟩
  · intro s hs
    rw [hs.eq_start hv]
  · intro o ho
    exact ho.eq_of_refused hv
  · intro collaborator
    unfold run
    rw [hv]

end QueryReview.Session

-- Which requests to analyse are turned down for the size of their body. Two limits stand on the way
-- of a body that is read: the one that the service is configured with, and the size of the buffer.
-- A body of JSON has to keep to both. Of other messages only the length that they declare is held
-- against the first limit, since their body is never read.
import QueryReview.Proofs.Http.Answers

namespace QueryReview.Http

open Session

/-! ## Faults -/

/-- The size of a body is all that can make it too long. -/
theorem readMessage_eq_tooLong_iff {service : Service} {m : Message} :
    readMessage service m = .error .tooLong ↔
      m.saysJson = true ∧ bodyTooLong service m = true := by
  unfold readMessage
  split
  · rename_i hjson
    simp only [Bool.not_eq_true'] at hjson
    simp [hjson]
  · rename_i hjson
    simp only [Bool.not_eq_true', Bool.not_eq_false] at hjson
    split
    · rename_i hlong
      simp [hjson, hlong]
    · rename_i hlong
      refine iff_of_false ?_ fun h => hlong h.2
      cases readBody m.body <;> nofun

/-! ## Responses -/

/-- The response turns the request down for its size: by the length that it declares, or by the body
that is read. -/
def RefusesSize (r : Response) : Prop :=
  r.status = 413 ∨ Rejects 400 ("invalid request body: " ++ BodyFault.tooLong.message) r

theorem rejects_rejected_iff {status status' : Nat} {message message' : String} :
    Rejects status message (.rejected status' message') ↔
      status' = status ∧ message' = message := by
  constructor
  · rintro ⟨hstatus, j, hcontent, _, hmessage, _⟩
    cases hcontent
    refine ⟨hstatus, ?_⟩
    simpa [Wire.ofAnswer, Service.Answer.rejected, field?, Json.member?] using hmessage
  · rintro ⟨rfl, rfl⟩
    exact rejects_rejected _ _

/-- A request that is turned down with another message is not turned down for its size. -/
theorem refusesSize_rejected_iff {message : String} :
    RefusesSize (.rejected 400 message) ↔
      message = "invalid request body: " ++ BodyFault.tooLong.message := by
  rw [RefusesSize, rejects_rejected_iff]
  simp [Response.rejected, Response.ofJson]

/-- A message with a character that the words for a body that is too long lack is another one. -/
theorem ne_tooLong_of_mem {message : String} {c : Char} (h : c ∈ message.toList)
    (hc : c ∉ ("invalid request body: " ++ BodyFault.tooLong.message).toList) :
    message ≠ "invalid request body: " ++ BodyFault.tooLong.message :=
  fun he => hc (he ▸ h)

/-- A body that does not decode is never refused in those words, whatever the decoder says: the kind
of the fault names JSON, and those words have no letter J. -/
theorem undecodable_ne_tooLong (f : DecodeFault) (detail : Option String) :
    "invalid request body: " ++ (BodyFault.undecodable f detail).message
      ≠ "invalid request body: " ++ BodyFault.tooLong.message := by
  have hkind : 'J' ∈ f.kind.toList := by cases f <;> decide
  have hmessage : 'J' ∈ (f.message detail).toList := by
    cases detail with
    | none => exact hkind
    | some detail =>
      rw [DecodeFault.message, String.toList_append, String.toList_append]
      exact List.mem_append_left _ (List.mem_append_left _ hkind)
  refine ne_tooLong_of_mem ?_ (by decide : 'J' ∉ _)
  rw [String.toList_append]
  exact List.mem_append_right _ hmessage

theorem refusesSize_badBody_iff {f : BodyFault} : RefusesSize (.badBody f) ↔ f = .tooLong := by
  rw [Response.badBody, refusesSize_rejected_iff]
  cases f with
  | notJson => decide
  | tooLong => decide
  | undecodable fault detail => exact iff_of_false (undecodable_ne_tooLong fault detail) nofun

/-- A list of queries is never refused in the words for a body that is too long: those have no
comma, no apostrophe and no letter k. -/
theorem message_ne (e : RequestError) :
    e.message ≠ "invalid request body: " ++ BodyFault.tooLong.message := by
  cases e with
  | emptyRequest => decide
  | tooManyQueries count most =>
    refine ne_tooLong_of_mem ?_ (by decide : ',' ∉ _)
    change ',' ∈ (toString count ++ " queries submitted, at most " ++ toString most
      ++ " allowed").toList
    rw [String.toList_append, String.toList_append, String.toList_append]
    exact List.mem_append_left _ (List.mem_append_left _ (List.mem_append_right _ (by decide)))
  | duplicateQueryId id =>
    refine ne_tooLong_of_mem ?_ (by decide : '\x27' ∉ _)
    change '\x27' ∈ ("duplicate query id \x27" ++ id ++ "\x27").toList
    rw [String.toList_append]
    exact List.mem_append_right _ (by decide)
  | blankQueryId index =>
    refine ne_tooLong_of_mem ?_ (by decide : 'k' ∉ _)
    change 'k' ∈ ("query " ++ toString (index + 1) ++ " has a blank id").toList
    rw [String.toList_append]
    exact List.mem_append_right _ (by decide)

theorem not_refusesSize_stopped (stop : Stop) : ¬ RefusesSize (.stopped stop) := by
  cases stop with
  | refused e => exact fun h => message_ne e (refusesSize_rejected_iff.mp h)
  | aborted a =>
    rintro (hstatus | hrejects)
    · cases hstatus
    · cases hrejects.status

theorem not_refusesSize_of_status {r : Response} (h : r.status ≠ 413) (h' : r.status ≠ 400) :
    ¬ RefusesSize r := by
  rintro (hstatus | hrejects)
  · exact h hstatus
  · exact h' hrejects.status

variable {service : Service} {m : Message}

theorem refusesSize_answerQueries_iff :
    RefusesSize (answerQueries service m).response ↔
      m.saysJson = true ∧ bodyTooLong service m = true := by
  rw [← readMessage_eq_tooLong_iff]
  unfold answerQueries
  split
  · rename_i f hfault
    rw [refusesSize_badBody_iff, hfault]
    simp
  · rename_i request hok
    have hread : readMessage service m ≠ .error .tooLong := by
      rw [hok]
      nofun
    refine iff_of_false ?_ hread
    dsimp only
    split
    · exact not_refusesSize_of_status nofun nofun
    · exact not_refusesSize_stopped _

theorem declaresTooMuch_iff :
    declaresTooMuch service m = true ↔ ∃ n ∈ m.contentLength?, service.maxBodyBytes < n := by
  simp [declaresTooMuch, Option.any_eq_true]

/-- Of the two limits for a body the lesser one decides. -/
theorem bodyTooLong_iff :
    bodyTooLong service m = true ↔ min service.maxBodyBytes bufferLimit < m.body.length ∨
      ∃ n ∈ m.contentLength?, n < m.body.length := by
  have hlesser : min service.maxBodyBytes bufferLimit < m.body.length ↔
      service.maxBodyBytes < m.body.length ∨ bufferLimit < m.body.length := by omega
  simp [bodyTooLong, Option.any_eq_true, hlesser]

/-- A message to analyse is turned down for its size when it declares too much, and else only as a
post of JSON. -/
theorem refusesSize_answer_iff (hpath : pathOf m.target.toList = "/api/analyze".toList) :
    RefusesSize (answer service m).response ↔
      declaresTooMuch service m = true ∨
        m.method = "POST" ∧ m.saysJson = true ∧ bodyTooLong service m = true := by
  have hroute : Route.ofPath? (pathOf m.target.toList) = some .analyze := by
    rw [hpath]
    rfl
  unfold answer
  rw [hroute]
  dsimp only
  by_cases hmethod : m.method = "POST"
  · have hcontains : Route.analyze.methods.contains m.method = true := by
      rw [hmethod]
      rfl
    have hhead : m.method ≠ "HEAD" := by
      rw [hmethod]
      decide
    rw [if_pos hcontains, if_neg hhead]
    unfold Route.answer
    by_cases hdeclares : declaresTooMuch service m = true
    · rw [if_pos hdeclares]
      exact iff_of_true (.inl rfl) (.inl hdeclares)
    · rw [if_neg hdeclares]
      dsimp only
      rw [refusesSize_answerQueries_iff]
      simp [hdeclares, hmethod]
  · have hcontains : ¬ Route.analyze.methods.contains m.method = true := by
      simpa [Route.methods] using hmethod
    rw [if_neg hcontains]
    unfold Route.refuse
    by_cases hdeclares : declaresTooMuch service m = true
    · rw [if_pos hdeclares]
      exact iff_of_true (.inl rfl) (.inl hdeclares)
    · rw [if_neg hdeclares]
      refine iff_of_false (not_refusesSize_of_status nofun nofun) ?_
      simp [hdeclares, hmethod]

/-- A post of JSON to be analysed is turned down for its size when it is longer than the lesser of
two limits, the one of the service and the size of the buffer, or when it declares a length above
the first or below its own. So a post that declares its true length, or none, is turned down exactly
above the lesser limit, and the limit of the service is the limit as long as it is no larger than
the buffer. Other messages to the same place are turned down for their size exactly when they
declare a length above the limit of the service. -/
theorem a_body_is_refused_above_the_lesser_of_two_limits
    (hpath : pathOf m.target.toList = "/api/analyze".toList) :
    let refused := RefusesSize (answer service m).response
    let limit := min service.maxBodyBytes bufferLimit
    (m.method = "POST" ∧ m.saysJson = true →
      (refused ↔ limit < m.body.length ∨
        ∃ n ∈ m.contentLength?, service.maxBodyBytes < n ∨ n < m.body.length) ∧
      ((∀ n ∈ m.contentLength?, n = m.body.length) →
        (refused ↔ limit < m.body.length) ∧
        (service.maxBodyBytes ≤ bufferLimit → (refused ↔ service.maxBodyBytes < m.body.length)))) ∧
    (¬ (m.method = "POST" ∧ m.saysJson = true) →
      (refused ↔ ∃ n ∈ m.contentLength?, service.maxBodyBytes < n)) := by
  intro refused limit
  have hrefused : refused ↔ declaresTooMuch service m = true ∨
      m.method = "POST" ∧ m.saysJson = true ∧ bodyTooLong service m = true :=
    refusesSize_answer_iff hpath
  rw [declaresTooMuch_iff, bodyTooLong_iff] at hrefused
  refine ⟨fun hpost => ?_, fun hother => ?_⟩
  · have hall : refused ↔ limit < m.body.length ∨
        ∃ n ∈ m.contentLength?, service.maxBodyBytes < n ∨ n < m.body.length := by
      rw [hrefused]
      constructor
      · rintro (⟨n, hn, hlt⟩ | ⟨_, _, hlt | ⟨n, hn, hlt⟩⟩)
        · exact .inr ⟨n, hn, .inl hlt⟩
        · exact .inl hlt
        · exact .inr ⟨n, hn, .inr hlt⟩
      · rintro (hlt | ⟨n, hn, hlt | hlt⟩)
        · exact .inr ⟨hpost.1, hpost.2, .inl hlt⟩
        · exact .inl ⟨n, hn, hlt⟩
        · exact .inr ⟨hpost.1, hpost.2, .inr ⟨n, hn, hlt⟩⟩
    refine ⟨hall, fun hlength => ?_⟩
    -- A declared length that is true is above no limit that the body itself is not above.
    have hlesser : refused ↔ limit < m.body.length := by
      rw [hall]
      refine or_iff_left_of_imp ?_
      rintro ⟨n, hn, hlt⟩
      have heq := hlength n hn
      omega
    refine ⟨hlesser, fun hle => ?_⟩
    rw [hlesser]
    exact iff_of_eq (congrArg (· < m.body.length) (Nat.min_eq_left hle))
  · rw [hrefused]
    exact or_iff_left fun h => hother ⟨h.1, h.2.1⟩

/-- A body of nine bytes where eight are allowed. -/
theorem nine_bytes_are_refused_where_eight_are_allowed :
    let service : Service :=
      { options := {}, collaborator := fun _ => ⟨0, .panic none⟩
        clock := .error (.clock "clock stopped"), maxBodyBytes := 8 }
    let message : Message :=
      { method := "POST", target := "/api/analyze?x"
        headers := [("content-type", "application/json"), ("content-length", "9")]
        body := List.replicate 9 0x20 }
    pathOf message.target.toList = "/api/analyze".toList ∧
    RefusesSize (answer service message).response := by
  intro service message
  have hpath : pathOf message.target.toList = "/api/analyze".toList := by decide +kernel
  have hlength : message.contentLength? = some 9 := by decide +kernel
  have hjson : message.saysJson = true := by decide +kernel
  obtain ⟨hposted, _⟩ :=
    @a_body_is_refused_above_the_lesser_of_two_limits service message hpath
  have hhonest : ∀ n ∈ message.contentLength?, n = message.body.length := by
    rw [hlength]
    rintro n ⟨⟩
    rfl
  exact ⟨hpath, ((hposted ⟨rfl, hjson⟩).2 hhonest).1.mpr (by decide)⟩

/-- With a limit of three mebibytes a body of one byte more than two is turned down for its size. -/
theorem a_body_within_the_limit_is_refused :
    ∃ (service : Service) (m : Message), m.method = "POST" ∧
      pathOf m.target.toList = "/api/analyze".toList ∧ m.saysJson = true ∧
      m.contentLength? = none ∧ m.body.length ≤ service.maxBodyBytes ∧
      RefusesSize (answer service m).response := by
  let service : Service :=
    { options := {}, collaborator := fun _ => ⟨0, .panic none⟩
      clock := .error (.clock "clock stopped"), maxBodyBytes := 3 * 1024 * 1024 }
  let message : Message :=
    { method := "POST", target := "/api/analyze"
      headers := [("content-type", "application/json")]
      body := List.replicate (2 * 1024 * 1024 + 1) 0x20 }
  have hpath : pathOf message.target.toList = "/api/analyze".toList := by decide +kernel
  have hjson : message.saysJson = true := by decide +kernel
  have hsize : message.body.length = 2 * 1024 * 1024 + 1 := List.length_replicate
  refine ⟨service, message, rfl, hpath, hjson, by decide +kernel, ?_, ?_⟩
  · rw [hsize]
    decide
  · refine (refusesSize_answer_iff hpath).mpr (.inr ⟨rfl, hjson, ?_⟩)
    simp [bodyTooLong, hsize, bufferLimit]

end QueryReview.Http

-- What stripping the comments leaves of a statement. A statement in segments keeps its code and its
-- literals, and each comment is a space, also one at the end that nothing closes. Stripping what is
-- left once more changes nothing, as long as no quote gets a partner by it: a quote that opens no
-- literal has none in what follows, or meets a backslash before a line feed first, and only where
-- that backslash stands in a comment can it go.
import QueryReview.Proofs.Statement.Segments
import QueryReview.Proofs.Text.Find

namespace QueryReview.Statement

open Piece Text

/-! ## Statements in segments -/

/-- The segment as it is written, or a space for a comment. -/
def Segment.uncommented : Segment → List Char
  | lineComment _ | blockComment _ => [' ']
  | s => s.text

theorem left_eq_uncommented :
    Segment.left (fun q body => q :: (body ++ [q])) = Segment.uncommented := by
  funext s
  cases s with
  | code cs => rfl
  | literal q body => rfl
  | lineComment body => rfl
  | blockComment body => rfl

theorem blockBody_of_open {body : List Char} (h : occursIn ['*', '/'] body = false) :
    blockBody body = (body, []) := by
  fun_induction blockBody body with
  | case1 => rfl
  | case2 cs => simp [occursIn, startsWith, after?] at h
  | case3 c cs _ body rest hb ih =>
    simp only [occursIn, Bool.or_eq_false_iff] at h
    rw [ih h.2] at hb
    cases hb
    rfl

theorem commentAt?_of_open {body : List Char} (h : occursIn ['*', '/'] body = false) :
    commentAt? ('/' :: '*' :: body) = some (comment ('/' :: '*' :: body), []) := by
  simp only [commentAt?]
  rw [blockBody_of_open h]

/-- In a statement that is written in segments each comment becomes one space, and all else stays
as it is written. So it is with a comment at the end that is never closed. -/
theorem each_comment_becomes_one_space {ss : List Segment} (hw : ∀ s ∈ ss, s.Whole) :
    (Joined ss → stripComments (written ss) = ss.flatMap Segment.uncommented) ∧
    ∀ body, occursIn ['*', '/'] body = false → Joined (ss ++ [.blockComment body]) →
      stripComments (written ss ++ '/' :: '*' :: body)
        = ss.flatMap Segment.uncommented ++ [' '] := by
  rw [← left_eq_uncommented]
  refine ⟨fun hj => pass_stripComments.written hw hj, fun body hbody hj => ?_⟩
  have hhead : ('/' :: '*' :: body).head? = (written [.blockComment body]).head? := rfl
  rw [pass_stripComments.written_append hw hj hhead,
    pass_stripComments.comment (commentAt?_of_open hbody), pass_stripComments.nil]

/-- A literal with an escaped quote and comment openers, a line comment with an apostrophe, a block
comment with a quote, and one that is never closed. -/
theorem an_open_comment_becomes_a_space :
    let ss : List Segment := [.code "SELECT ".toList, .literal '\x27' "\\'--/*".toList,
      .lineComment "don't".toList, .code "\nFROM t".toList, .blockComment "\"".toList,
      .code "x ".toList]
    (∀ s ∈ ss, s.Whole) ∧
    stripComments (written ss) = "SELECT '\\'--/*' \nFROM t x ".toList ∧
    stripComments (written ss ++ "/* it's".toList) = "SELECT '\\'--/*' \nFROM t x  ".toList := by
  intro ss
  have hliteral : LiteralBody '\x27' "\\'--/*".toList :=
    .escape (by decide) (.plain (by decide) (by decide) (.plain (by decide) (by decide)
      (.plain (by decide) (by decide) (.plain (by decide) (by decide) .nil))))
  have hw : ∀ s ∈ ss, s.Whole := by
    simp only [ss, List.forall_mem_cons]
    have hcode : ∀ cs : List Char, (∀ c ∈ cs, isQuote c = false) → (Segment.code cs).Whole :=
      fun _ h => h
    refine ⟨hcode _ (by simp [isQuote]), ⟨rfl, hliteral⟩, ?_, hcode _ (by simp [isQuote]), ?_,
      hcode _ (by simp [isQuote]), by simp⟩
    · change '\n' ∉ "don't".toList
      decide
    · change occursIn ['*', '/'] "\"".toList = false
      decide
  have hselect : ("SELECT ".toList ++ ['\x27']).IsChain fun c d => opensComment c d = false := by
    decide
  have hfrom : ("\nFROM t".toList ++ ['/']).IsChain fun c d => opensComment c d = false := by
    decide
  have hlast : "x ".toList.IsChain fun c d => opensComment c d = false := by decide
  have hopenLast : ("x ".toList ++ ['/']).IsChain fun c d => opensComment c d = false := by decide
  obtain ⟨hclosed, hopen⟩ := each_comment_becomes_one_space hw
  refine ⟨hw, hclosed ?_, hopen " it's".toList (by decide) ?_⟩
  · exact ⟨hselect, by simp [written, Segment.text], hfrom, hlast, trivial⟩
  · exact ⟨hselect, by simp [written, Segment.text], hfrom, hopenLast, trivial⟩

/-! ## How a quote finds its partner -/

/-- How far the search for the quote that closes a literal has come. -/
inductive Search
  | open_
  /-- Behind a backslash, which takes the next character along. -/
  | escaping
  | closed
  /-- A line feed stood behind a backslash: there is no literal. -/
  | broken
deriving DecidableEq, Repr

def Search.step (q : Char) : Search → Char → Search
  | open_, c => if c = q then closed else if c = '\\' then escaping else open_
  | escaping, c => if c = '\n' then broken else open_
  | closed, _ => closed
  | broken, _ => broken

/-- The search goes on through the text. -/
def Search.through (q : Char) (s : Search) (cs : List Char) : Search := cs.foldl (Search.step q) s

theorem through_append (q : Char) (s : Search) (cs ds : List Char) :
    s.through q (cs ++ ds) = (s.through q cs).through q ds := List.foldl_append

theorem through_closed (q : Char) (cs : List Char) : Search.closed.through q cs = .closed := by
  induction cs with
  | nil => rfl
  | cons c cs ih => exact ih

theorem through_broken (q : Char) (cs : List Char) : Search.broken.through q cs = .broken := by
  induction cs with
  | nil => rfl
  | cons c cs ih => exact ih

/-- A quote has no partner exactly when the search for it does not end with one. -/
theorem literalBody?_eq_none_iff {q : Char} (hq : isQuote q = true) {cs : List Char} :
    literalBody? q cs = none ↔ Search.open_.through q cs ≠ .closed := by
  have hqb : '\\' ≠ q := ne_of_isQuote hq (by decide)
  fun_induction literalBody? q cs with
  | case1 => simp [Search.through]
  | case2 cs =>
    have hstep : Search.open_.through q (q :: cs) = Search.closed.through q cs := by
      simp [Search.through, Search.step]
    simp [hstep, through_closed]
  | case3 => simp [Search.through, Search.step, hqb]
  | case4 ds =>
    have hstep : Search.open_.through q ('\\' :: '\n' :: ds) = Search.broken.through q ds := by
      simp [Search.through, Search.step, hqb]
    simp [hstep, through_broken]
  | case5 d ds hd _ ih =>
    have hstep : Search.open_.through q ('\\' :: d :: ds) = Search.open_.through q ds := by
      simp [Search.through, Search.step, hqb, hd]
    rw [hstep, Option.map_eq_none_iff]
    exact ih
  | case6 c cs hc hb ih =>
    have hstep : Search.open_.through q (c :: cs) = Search.open_.through q cs := by
      simp [Search.through, Search.step, hc, hb]
    rw [hstep, Option.map_eq_none_iff]
    exact ih

/-- A search that breaks off has met a line feed behind a backslash. -/
theorem feed_of_through_broken {q : Char} {s : Search} {cs : List Char}
    (h : s.through q cs = .broken) (hs : s ≠ .broken)
    (hfirst : s = .escaping → ∀ c ∈ cs.head?, c ≠ '\n') : ['\\', '\n'] <:+: cs := by
  induction cs generalizing s with
  | nil => exact absurd h hs
  | cons c cs ih =>
    have hrest : s.through q (c :: cs) = (s.step q c).through q cs := rfl
    rw [hrest] at h
    by_cases hfeed : s.step q c = .escaping ∧ '\n' ∈ cs.head?
    · obtain ⟨hstep, hhead⟩ := hfeed
      obtain ⟨more, rfl⟩ := List.head?_eq_some_iff.mp hhead
      have hc : c = '\\' := by
        cases s <;> grind [Search.step]
      subst hc
      exact ⟨[], more, rfl⟩
    · refine (ih h ?_ ?_).trans (List.suffix_cons c cs).isInfix
      · cases s <;> grind [Search.step]
      · rintro hstep d hd rfl
        exact hfeed ⟨hstep, hd⟩

/-- A search stands behind a backslash only if there is one. -/
theorem getLast?_of_through_escaping {q : Char} {s : Search} {cs : List Char} (hne : cs ≠ [])
    (h : s.through q cs = .escaping) : cs.getLast? = some '\\' := by
  rcases List.eq_nil_or_concat cs with rfl | ⟨front, last, rfl⟩
  · exact absurd rfl hne
  · rw [List.concat_eq_append, through_append] at h
    have hlast : last = '\\' := by
      change (s.through q front).step q last = .escaping at h
      cases hfront : s.through q front <;> grind [Search.step]
    simp [hlast]

/-! ## Comments behind a quote -/

theorem getLast?_blockBody (cs : List Char) :
    (blockBody cs).2 = [] ∨ (blockBody cs).1.getLast? = some '/' := by
  fun_induction blockBody cs with
  | case1 => exact .inl rfl
  | case2 cs => exact .inr rfl
  | case3 c cs _ body rest hb ih =>
    rw [hb] at ih
    refine ih.imp_right fun hlast => ?_
    rw [List.getLast?_cons, hlast]
    rfl

/-- A comment that ends with a backslash is ended by its line, or by the end of the text. -/
theorem head?_of_backslash {cs words after : List Char}
    (h : commentAt? cs = some (comment words, after)) (hlast : words.getLast? = some '\\') :
    ∀ c ∈ after.head?, c = '\n' := by
  unfold commentAt? at h
  split at h
  · rename_i tail
    obtain ⟨_, rfl⟩ := Prod.mk.inj (Option.some.inj h)
    intro c hc
    have hhead := List.head?_dropWhile_not (· != '\n') tail
    rw [Option.mem_def] at hc
    simpa [hc] using hhead
  · rename_i tail
    obtain ⟨hwords, rfl⟩ := Prod.mk.inj (Option.some.inj h)
    cases hwords
    rcases getLast?_blockBody tail with hnil | hslash
    · rw [hnil]
      simp
    · simp [List.getLast?_cons, hslash] at hlast
  · cases h

/-- In some comment a backslash stands before a line feed, be it the one that ends the comment. -/
def commentEscapesFeed : List Piece → Bool
  | [] => false
  | comment words :: ps =>
    occursIn ['\\', '\n'] (words ++ (ps.flatMap text).take 1) || commentEscapesFeed ps
  | _ :: ps => commentEscapesFeed ps

/-- Behind some quote that opens no literal there is such a comment. -/
def loneQuoteMeetsFeed : List Piece → Bool
  | [] => false
  | code c :: ps => (isQuote c && commentEscapesFeed ps) || loneQuoteMeetsFeed ps
  | _ :: ps => loneQuoteMeetsFeed ps

/-- No comment starts with a line feed. -/
theorem head?_of_commentAt? {cs words after : List Char}
    (h : commentAt? cs = some (comment words, after)) : ∃ c more, words = c :: more ∧ c ≠ '\n' := by
  have htext : cs = words ++ after := commentAt?_text h
  obtain ⟨c, more, rfl⟩ := List.exists_cons_of_ne_nil (commentAt?_text_ne_nil h)
  refine ⟨c, more, rfl, ?_⟩
  obtain ⟨_, ⟨tail, hcs, _⟩ | ⟨tail, hcs, _⟩⟩ := commentAt?_cases h
  · rw [hcs] at htext
    obtain ⟨rfl, _⟩ := List.cons.inj htext
    decide
  · rw [hcs] at htext
    obtain ⟨rfl, _⟩ := List.cons.inj htext
    decide

/-- A search comes out of a comment with its partner, or as out of a space, or the text ends
there. -/
theorem through_comment {q : Char} {s : Search} {cs words after : List Char}
    (h : commentAt? cs = some (comment words, after))
    (hf : ¬ ['\\', '\n'] <:+: words ++ after.take 1) (hs : s = .open_ ∨ s = .escaping) :
    s.through q words = .closed ∨ s.through q words = .open_ ∨ after = [] := by
  obtain ⟨c, more, hwords, hc⟩ := head?_of_commentAt? h
  have hwhole : s.through q (words ++ after.take 1) ≠ .broken := by
    refine fun hb => hf (feed_of_through_broken hb ?_ ?_)
    · rcases hs with rfl | rfl <;> simp
    · rintro - d hd
      rw [hwords] at hd
      cases hd
      exact hc
  rw [through_append] at hwhole
  cases hthrough : s.through q words with
  | open_ => exact .inr (.inl rfl)
  | closed => exact .inl rfl
  | broken => exact absurd (by rw [hthrough, through_broken]) hwhole
  | escaping =>
    -- The next character would be the line feed that ends the comment.
    have hlast := getLast?_of_through_escaping (commentAt?_text_ne_nil h) hthrough
    refine .inr (.inr ?_)
    cases after with
    | nil => rfl
    | cons d after =>
      obtain rfl := head?_of_backslash h hlast d rfl
      exact absurd (by rw [hthrough]; rfl) hwhole

theorem step_space {q : Char} (hq : isQuote q = true) {s : Search}
    (hs : s = .open_ ∨ s = .escaping) : s.step q ' ' = .open_ := by
  have hne : ' ' ≠ q := ne_of_isQuote hq (by decide)
  rcases hs with rfl | rfl
  · simp [Search.step, hne]
  · simp [Search.step]

/-- Without its comments, what follows a quote holds no partner for it that was not there. -/
theorem through_stripComments {q : Char} (hq : isQuote q = true) {cs : List Char}
    (hf : commentEscapesFeed (split cs) = false) {s : Search} (h : s.through q cs ≠ .closed) :
    s.through q (stripComments cs) ≠ .closed := by
  fun_induction split cs generalizing s with
  | case1 => simpa [stripComments, split] using h
  | case2 c cs p after hl ih =>
    obtain ⟨q', body, tail, hcs, hq', hb, rfl⟩ := literalAt?_cases hl
    have htext : c :: cs = (q' :: (body ++ [q'])) ++ after := literalAt?_text hl
    rw [htext, through_append] at h
    rw [hcs, pass_stripComments.literal hq' hb, through_append]
    exact ih hf h
  | case3 c cs hl p after hc ih =>
    obtain ⟨⟨words, rfl⟩, _⟩ := commentAt?_cases hc
    simp only [commentEscapesFeed, flatMap_text_split, Bool.or_eq_false_iff] at hf
    obtain ⟨hwords, hafter⟩ := hf
    have htext : c :: cs = words ++ after := commentAt?_text hc
    have hinfix : ¬ ['\\', '\n'] <:+: words ++ after.take 1 := by
      rw [← occursIn_iff, hwords]
      simp
    have hspace : ∀ more, s.through q (' ' :: more) = (s.step q ' ').through q more := fun _ => rfl
    rw [htext, through_append] at h
    rw [pass_stripComments.comment hc, hspace]
    by_cases hs : s = .open_ ∨ s = .escaping
    · rw [step_space hq hs]
      rcases through_comment hc hinfix hs with hclosed | hopen | rfl
      · rw [hclosed, through_closed] at h
        exact absurd rfl h
      · rw [hopen] at h
        exact ih hafter h
      · simp [pass_stripComments.nil, Search.through]
    · -- The search was over in front of the comment.
      cases s with
      | open_ => exact absurd (.inl rfl) hs
      | escaping => exact absurd (.inr rfl) hs
      | closed =>
        rw [through_closed, through_closed] at h
        exact absurd rfl h
      | broken => simp [Search.step, through_broken]
  | case4 c cs hl hc ih =>
    rw [stripComments_code hl hc]
    exact ih hf h

theorem literalBody?_stripComments {q : Char} (hq : isQuote q = true) {cs : List Char}
    (hf : commentEscapesFeed (split cs) = false) (h : literalBody? q cs = none) :
    literalBody? q (stripComments cs) = none := by
  rw [literalBody?_eq_none_iff hq] at h ⊢
  exact through_stripComments hq hf h

/-! ## Stripping once more -/

/-- The piece, or a space for a comment. -/
def Piece.spaced : Piece → Piece
  | comment _ => code ' '
  | p => p

theorem withoutComment_spaced (p : Piece) : p.spaced.withoutComment = p.withoutComment := by
  cases p with
  | code c => rfl
  | literal q body => rfl
  | comment words => rfl

theorem head?_stripComments (cs : List Char) :
    ∀ d ∈ (stripComments cs).head?, d = ' ' ∨ d ∈ cs.head? := by
  fun_cases split cs with
  | case1 => simp [pass_stripComments.nil]
  | case2 c cs p after hl =>
    obtain ⟨q, body, tail, hcs, hq, hb, rfl⟩ := literalAt?_cases hl
    rw [hcs, pass_stripComments.literal hq hb]
    exact fun d hd => .inr hd
  | case3 c cs hl p after hc =>
    rw [pass_stripComments.comment hc]
    rintro d ⟨⟩
    exact .inl rfl
  | case4 c cs hl hc =>
    rw [stripComments_code hl hc]
    exact fun d hd => .inr hd

theorem opensComment_of_commentAt? {c : Char} {cs : List Char} (h : commentAt? (c :: cs) = none) :
    ∀ d ∈ cs.head?, opensComment c d = false := by
  intro d hd
  obtain ⟨more, rfl⟩ := List.head?_eq_some_iff.mp hd
  rw [← Bool.not_eq_true]
  intro hopens
  simp only [opensComment, Bool.or_eq_true, Bool.and_eq_true, beq_iff_eq] at hopens
  rcases hopens with ⟨rfl, rfl⟩ | ⟨rfl, rfl⟩
  · simp [commentAt?] at h
  · simp [commentAt?] at h

/-- Stripping makes no new comment: of two characters that come to meet, the second is a space. -/
theorem commentAt?_stripComments {c : Char} {cs : List Char} (h : commentAt? (c :: cs) = none) :
    commentAt? (c :: stripComments cs) = none := by
  apply commentAt?_eq_none_of_code
  intro d hd
  rcases head?_stripComments cs d hd with rfl | hd
  · simp [opensComment]
  · exact opensComment_of_commentAt? h d hd

/-- What is stripped falls into the same pieces, with a space for each comment. -/
theorem split_stripComments {cs : List Char} (h : loneQuoteMeetsFeed (split cs) = false) :
    split (stripComments cs) = (split cs).map Piece.spaced := by
  fun_induction split cs with
  | case1 => simp [pass_stripComments.nil, split]
  | case2 c cs p after hl ih =>
    obtain ⟨q, body, tail, hcs, hq, hb, rfl⟩ := literalAt?_cases hl
    have hlong := literalBody?_append hb (stripComments after)
    rw [hcs, pass_stripComments.literal hq hb, List.map_cons, ← ih h]
    simpa [Piece.spaced] using split_literal (literalAt?_cons hq hlong)
  | case3 c cs hl p after hc ih =>
    obtain ⟨⟨words, rfl⟩, _⟩ := commentAt?_cases hc
    have hlit : literalAt? (' ' :: stripComments after) = none :=
      literalAt?_eq_none fun hq => absurd hq (by decide)
    have hcom : commentAt? (' ' :: stripComments after) = none :=
      commentAt?_eq_none_of_code fun d _ => by simp [opensComment]
    rw [pass_stripComments.comment hc, split_code hlit hcom, ih h]
    rfl
  | case4 c cs hl hc ih =>
    simp only [loneQuoteMeetsFeed, Bool.or_eq_false_iff] at h
    obtain ⟨hquote, hrest⟩ := h
    have hlit : literalAt? (c :: stripComments cs) = none := by
      apply literalAt?_eq_none
      intro hq
      rw [hq, Bool.true_and] at hquote
      have hnone : literalBody? c cs = none := by simpa [literalAt?, hq] using hl
      exact literalBody?_stripComments hq hquote hnone
    rw [stripComments_code hl hc, split_code hlit (commentAt?_stripComments hc), ih hrest]
    rfl

/-- A statement that is stripped of its comments stays as it is when it is stripped again, and it
is judged and read like the statement itself, unless behind a quote that opens no literal a comment
has a backslash before a line feed. -/
theorem stripping_again_changes_nothing {sql : String}
    (h : loneQuoteMeetsFeed (split sql.toList) = false) :
    let stripped := stripComments sql.toList
    stripComments stripped = stripped ∧
    (∀ policy, classify policy (String.ofList stripped) = classify policy sql) ∧
    tableNames (String.ofList stripped) = tableNames sql := by
  intro stripped
  have hagain : stripComments stripped = stripped := by
    change (split stripped).flatMap withoutComment = (split sql.toList).flatMap withoutComment
    rw [split_stripComments h, List.flatMap_map]
    simp only [withoutComment_spaced]
  refine ⟨hagain, fun policy => ?_, ?_⟩
  · rw [classify, String.toList_ofList, hagain]
    rfl
  · simp only [tableNames, bareCode, String.toList_ofList, hagain]
    rfl

/-- An apostrophe without a partner, with an escaped one in a comment behind it, and a comment
opener in a literal. -/
theorem a_lone_apostrophe_stays_alone :
    let sql := "SELECT \"--\", it's /* \\' */ FROM t -- done"
    let stripped := stripComments sql.toList
    loneQuoteMeetsFeed (split sql.toList) = false ∧ stripComments stripped = stripped ∧
    (∀ policy, classify policy (String.ofList stripped) = classify policy sql) ∧
    tableNames (String.ofList stripped) = tableNames sql := by
  intro sql stripped
  have h : loneQuoteMeetsFeed (split sql.toList) = false := by decide +kernel
  exact ⟨h, stripping_again_changes_nothing h⟩

/-- The first apostrophe opens no literal, as a line feed stands behind the backslash that ends the
comment. Without the comment it finds a partner, and what was a literal becomes a comment: it names
no table and writes no file any more. -/
theorem a_quote_finds_a_partner_when_a_comment_goes :
    ∃ sql : String, let stripped := stripComments sql.toList
      stripComments stripped ≠ stripped ∧
      (∃ policy, classify policy (String.ofList stripped) ≠ classify policy sql) ∧
      tableNames (String.ofList stripped) ≠ tableNames sql := by
  refine ⟨"SELECT '--\\\n'--INTO OUTFILE FROM x'", ?_, ⟨.strict, ?_⟩, ?_⟩
  · decide +kernel
  · decide +kernel
  · decide +kernel

end QueryReview.Statement

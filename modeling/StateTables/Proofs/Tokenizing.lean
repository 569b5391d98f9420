import StateTables.Proofs.CharacterTokens

/-! # Tokenizing

Whoever reads a key expression asks for one token after the other. A request starts where the last
token ended: blanks are passed over, unmatched segments are reported and passed over, until there is
a token or the end of the text. The segments are found by a matcher, of which no more is asked than
the longest match, the earliest rule on a tie, and at least one byte where nothing matches. Whatever
the text, requests come to its end, and nothing of it is lost on the way.
-/

namespace StateTables

open LexicalRule

/-! ## Matchers -/

/-- What finds the length and the kind of the segment that a text starts with. -/
structure Matcher (rules : List LexicalRule) where
  find : List UInt8 → Nat × SegmentKind
  progress : ∀ text, text ≠ [] → 0 < (find text).1
  within : ∀ text, (find text).1 ≤ text.length
  longest : ∀ text, text ≠ [] → (find text).2 ≠ .unmatched →
    Longest rules (find text).2 (text.take (find text).1) (text.drop (find text).1)
  unrecognized : ∀ text, text ≠ [] → (find text).2 = .unmatched → Unrecognized rules text

namespace Munch

theorem read_le (rules : List LexicalRule) (read : Nat) (best : Option (Nat × SegmentKind))
    (text : List UInt8) : (run rules read best text).read ≤ read + text.length := by
  induction text generalizing rules read best with
  | nil => exact Nat.le_refl _
  | cons value rest induction =>
      rw [run_cons, List.length_cons]
      split
      next => exact Nat.add_le_add_left (Nat.le_add_left 1 _) read
      next =>
        refine Nat.le_trans (induction _ _ _) ?_
        omega

theorem le_read (rules : List LexicalRule) (read : Nat) (best : Option (Nat × SegmentKind))
    (text : List UInt8) : read ≤ (run rules read best text).read := by
  induction text generalizing rules read best with
  | nil => exact Nat.le_refl _
  | cons value rest induction =>
      rw [run_cons]
      split
      next => exact Nat.le_succ read
      next => exact Nat.le_trans (Nat.le_succ read) (induction _ _ _)

theorem read_pos (rules : List LexicalRule) {text : List UInt8} (someByte : text ≠ []) :
    0 < (run rules 0 none text).read := by
  cases text with
  | nil => exact absurd rfl someByte
  | cons value rest =>
      rw [run_cons]
      split
      next => exact Nat.zero_lt_one
      next => exact le_read _ 1 _ rest

/-- The outcome is the longest match, or all bytes read if no prefix is recognized. -/
theorem outcome_cases (rules : List LexicalRule) (text : List UInt8) :
    (Unrecognized rules text ∧
      (run rules 0 none text).outcome = ((run rules 0 none text).read, .unmatched)) ∨
    ∃ lexeme rest kind, text = lexeme ++ rest ∧ lexeme ≠ [] ∧ Longest rules kind lexeme rest ∧
      (run rules 0 none text).outcome = (lexeme.length, kind) := by
  unfold outcome
  rcases best_run rules 0 none text with
    ⟨unrecognized, best⟩ | ⟨lexeme, rest, kind, split, someByte, longest, best⟩
  · rw [best]
    exact .inl ⟨unrecognized, rfl⟩
  · refine .inr ⟨lexeme, rest, kind, split, someByte, longest, ?_⟩
    rw [best, Option.getD_some, Nat.zero_add]

end Munch

/-- Key expressions are matched by reading bytes until no rule can go on. -/
def Matcher.keyExpression : Matcher LexicalRule.keyExpression where
  find text := (Munch.run LexicalRule.keyExpression 0 none text).outcome
  progress := by
    intro text someByte
    rcases Munch.outcome_cases LexicalRule.keyExpression text with
      ⟨_, same⟩ | ⟨lexeme, _, _, _, someByte, _, same⟩
    · rw [same]
      exact Munch.read_pos _ someByte
    · rw [same]
      exact List.length_pos_iff.mpr someByte
  within := by
    intro text
    rcases Munch.outcome_cases LexicalRule.keyExpression text with
      ⟨_, same⟩ | ⟨lexeme, rest, _, rfl, _, _, same⟩
    · rw [same]
      exact Nat.le_trans (Munch.read_le _ _ _ _) (Nat.le_of_eq (Nat.zero_add _))
    · rw [same, List.length_append]
      exact Nat.le_add_right _ _
  longest := by
    intro text _ matched
    rcases Munch.outcome_cases LexicalRule.keyExpression text with
      ⟨_, same⟩ | ⟨lexeme, rest, kind, rfl, _, longest, same⟩
    · rw [same] at matched
      exact absurd rfl matched
    · rw [same, List.take_left, List.drop_left]
      exact longest
  unrecognized := by
    intro text _ unmatched
    have kinds : ∀ rule ∈ LexicalRule.keyExpression, rule.kind ≠ .unmatched := by decide +kernel
    rcases Munch.outcome_cases LexicalRule.keyExpression text with
      ⟨unrecognized, _⟩ | ⟨lexeme, rest, kind, rfl, _, longest, same⟩
    · exact unrecognized
    · rw [same] at unmatched
      rcases longest.recognized.exists_rule with ⟨rule, member, own, _⟩
      exact absurd (own.trans unmatched) (kinds rule member)

/-! ## Requests -/

/-- What a request does: the segments it passes over, and the token it answers with, which is empty
at the end of the text. -/
structure Request where
  passed : List Segment
  token : Segment

def Request.segments (request : Request) : List Segment :=
  request.passed ++ [request.token]

namespace Matcher

variable {rules : List LexicalRule} (matcher : Matcher rules) (text : List UInt8)

def segment (place : Nat) : Segment where
  kind := (matcher.find (text.drop place)).2
  start := place
  bytes := (text.drop place).take (matcher.find (text.drop place)).1

theorem stop_segment (place : Nat) :
    (matcher.segment text place).stop = place + (matcher.find (text.drop place)).1 := by
  have within := matcher.within (text.drop place)
  rw [Segment.stop, segment, List.length_take, Nat.min_eq_left within]

theorem lt_stop_segment {place : Nat} (inside : place < text.length) :
    place < (matcher.segment text place).stop := by
  rw [stop_segment]
  exact Nat.lt_add_of_pos_right (matcher.progress _ (by simpa using inside))

def request (place : Nat) : Request :=
  if _inside : place < text.length then
    match (matcher.segment text place).kind with
    | .token _ => ⟨[], matcher.segment text place⟩
    | _ =>
      let later := request (matcher.segment text place).stop
      ⟨matcher.segment text place :: later.passed, later.token⟩
  else ⟨[], ⟨.token .endOfText, place, []⟩⟩
termination_by text.length - place
decreasing_by
  all_goals
    have further := matcher.lt_stop_segment text _inside
    omega

def requests (place : Nat) : Nat → List Request
  | 0 => []
  | count + 1 =>
    let request := matcher.request text place
    request :: requests request.token.stop count

end Matcher

/-! ## Segments of a text -/

/-- The segment is a part of the text at its place. It is the longest prefix there that a rule
matches, with the kind of the earliest rule that does, or no rule matches there. -/
structure Segment.Stands (rules : List LexicalRule) (text : List UInt8) (segment : Segment) :
    Prop where
  someByte : segment.start < segment.stop
  within : segment.stop ≤ text.length
  bytes : segment.bytes = (text.drop segment.start).take (segment.stop - segment.start)
  longest : segment.kind ≠ .unmatched →
    Longest rules segment.kind segment.bytes (text.drop segment.stop)
  unrecognized : segment.kind = .unmatched → Unrecognized rules (text.drop segment.start)

theorem Segment.Stands.text_eq {rules : List LexicalRule} {text : List UInt8} {segment : Segment}
    (stands : segment.Stands rules text) :
    text = text.take segment.start ++ segment.bytes ++ text.drop segment.stop := by
  have behind : text.drop segment.stop =
      (text.drop segment.start).drop (segment.stop - segment.start) := by
    rw [List.drop_drop, Nat.add_sub_cancel' (Nat.le_of_lt stands.someByte)]
  rw [behind, stands.bytes, List.append_assoc, List.take_append_drop, List.take_append_drop]

/-- The segments are all of the text, one behind the other. -/
structure Segment.Cover (rules : List LexicalRule) (text : List UInt8) (segments : List Segment) :
    Prop where
  stands : ∀ segment ∈ segments, segment.Stands rules text
  ascending : segments.Pairwise fun first second => first.stop ≤ second.start
  whole : ∀ place < text.length, ∃ segment ∈ segments,
    segment.start ≤ place ∧ place < segment.stop

/-- Segments from one place of a text to another one, without a gap. -/
inductive Segment.Tiles (rules : List LexicalRule) (text : List UInt8) :
    Nat → List Segment → Nat → Prop where
  | nil (place : Nat) : Tiles rules text place [] place
  | cons {segment : Segment} {later : List Segment} {place : Nat} :
      segment.Stands rules text → Tiles rules text segment.stop later place →
      Tiles rules text segment.start (segment :: later) place

namespace Segment.Tiles

variable {rules : List LexicalRule} {text : List UInt8} {segments later : List Segment}
  {start middle stop : Nat}

theorem append (tiles : Tiles rules text start segments middle)
    (further : Tiles rules text middle later stop) :
    Tiles rules text start (segments ++ later) stop := by
  induction tiles with
  | nil => exact further
  | cons stands _ induction => exact .cons stands (induction further)

theorem start_le (tiles : Tiles rules text start segments stop) : start ≤ stop := by
  induction tiles with
  | nil => exact Nat.le_refl _
  | cons stands _ induction => exact Nat.le_trans (Nat.le_of_lt stands.someByte) induction

theorem start_le_of_mem (tiles : Tiles rules text start segments stop) {segment : Segment}
    (member : segment ∈ segments) : start ≤ segment.start := by
  induction tiles with
  | nil => cases member
  | cons stands _ induction =>
      rcases List.mem_cons.mp member with rfl | member
      · exact Nat.le_refl _
      · exact Nat.le_trans (Nat.le_of_lt stands.someByte) (induction member)

/-- Segments without a gap from the start of a text to its end are all of it. -/
theorem cover (tiles : Tiles rules text 0 segments text.length) :
    Segment.Cover rules text segments := by
  have general : ∀ {start stop : Nat} {segments : List Segment},
      Tiles rules text start segments stop →
      (∀ segment ∈ segments, segment.Stands rules text) ∧
      (segments.Pairwise fun first second => first.stop ≤ second.start) ∧
      ∀ place, start ≤ place → place < stop → ∃ segment ∈ segments,
        segment.start ≤ place ∧ place < segment.stop := by
    intro start stop segments tiles
    induction tiles with
    | nil => exact ⟨by simp, .nil, fun place above below => absurd below (Nat.not_lt.mpr above)⟩
    | @cons segment later _ stands behind induction =>
        refine ⟨List.forall_mem_cons.mpr ⟨stands, induction.1⟩,
          .cons (fun other => behind.start_le_of_mem) induction.2.1, fun place above below => ?_⟩
        by_cases own : place < segment.stop
        · exact ⟨segment, List.mem_cons_self, above, own⟩
        · rcases induction.2.2 place (Nat.not_lt.mp own) below with ⟨other, member, inside⟩
          exact ⟨other, List.mem_cons_of_mem _ member, inside⟩
  rcases general tiles with ⟨stands, ascending, whole⟩
  exact ⟨stands, ascending, fun place => whole place (Nat.zero_le _)⟩

end Segment.Tiles

namespace Matcher

variable (text : List UInt8)

theorem stands_segment {rules : List LexicalRule} (matcher : Matcher rules) {place : Nat}
    (inside : place < text.length) : (matcher.segment text place).Stands rules text := by
  have someByte : text.drop place ≠ [] := by simpa using inside
  have within := matcher.within (text.drop place)
  rw [List.length_drop] at within
  have stop := matcher.stop_segment text place
  exact
    { someByte := matcher.lt_stop_segment text inside
      within := by omega
      bytes := by
        rw [stop]
        change _ = (text.drop place).take (place + _ - place)
        rw [Nat.add_sub_cancel_left]
        rfl
      longest := fun matched => by
        rw [stop, ← List.drop_drop]
        exact matcher.longest _ someByte matched
      unrecognized := fun unmatched => matcher.unrecognized _ someByte unmatched }

def ending : Segment :=
  ⟨.token .endOfText, text.length, []⟩

theorem not_ending_of_stands {segment : Segment}
    (stands : segment.Stands LexicalRule.keyExpression text) :
    segment.kind ≠ .token .endOfText := by
  intro isEnd
  have kinds : ∀ rule ∈ LexicalRule.keyExpression, rule.kind ≠ .token .endOfText := by
    decide +kernel
  have longest := stands.longest (by rw [isEnd]; exact SegmentKind.noConfusion)
  rcases longest.recognized.exists_rule with ⟨rule, member, same, _⟩
  exact kinds rule member (same.trans isEnd)

end Matcher

/-! ## From request to request -/

namespace Request

/-- The request passes over segments without a gap, up to a token or up to the end of the text. -/
inductive Answers (text : List UInt8) (place : Nat) : Request → Prop where
  | token {passed : List Segment} {token : Segment} {kind : TokenKind} :
      Segment.Tiles LexicalRule.keyExpression text place passed token.start →
      token.Stands LexicalRule.keyExpression text → token.kind = .token kind →
      Answers text place ⟨passed, token⟩
  | ending {passed : List Segment} :
      Segment.Tiles LexicalRule.keyExpression text place passed text.length →
      Answers text place ⟨passed, Matcher.ending text⟩

theorem Answers.pass {text : List UInt8} {segment : Segment} {later : Request}
    (stands : segment.Stands LexicalRule.keyExpression text)
    (answers : later.Answers text segment.stop) :
    Answers text segment.start ⟨segment :: later.passed, later.token⟩ := by
  cases answers with
  | token tiles isToken kind => exact .token (.cons stands tiles) isToken kind
  | ending tiles => exact .ending (.cons stands tiles)

end Request

namespace Matcher

variable (matcher : Matcher LexicalRule.keyExpression) (text : List UInt8)

theorem answers_request {place : Nat} (inside : place ≤ text.length) :
    (matcher.request text place).Answers text place := by
  fun_induction matcher.request text place with
  | case1 place here kind isToken =>
      exact .token (.nil _) (matcher.stands_segment text here) isToken
  | case2 place here later noToken induction =>
      have stands := matcher.stands_segment text here
      exact .pass stands (induction stands.within)
  | case3 place outside =>
      obtain rfl := Nat.le_antisymm inside (Nat.not_lt.mp outside)
      exact .ending (.nil _)

theorem passed_request {rules : List LexicalRule} (matcher : Matcher rules) (place : Nat)
    {segment : Segment} (member : segment ∈ (matcher.request text place).passed) :
    segment.kind = .blank ∨ segment.kind = .unmatched := by
  fun_induction matcher.request text place with
  | case1 => cases member
  | case2 place here later noToken induction =>
      rcases List.mem_cons.mp member with rfl | member
      · cases kind : (matcher.segment text place).kind with
        | token own => exact absurd kind (noToken own)
        | blank => exact .inl rfl
        | unmatched => exact .inr rfl
      · exact induction member
  | case3 => cases member

theorem exists_request {rules : List LexicalRule} (matcher : Matcher rules) {place count : Nat}
    {request : Request} (member : request ∈ matcher.requests text place count) :
    ∃ place, matcher.request text place = request := by
  induction count generalizing place with
  | zero => cases member
  | succ count induction =>
      rcases List.mem_cons.mp member with rfl | member
      · exact ⟨place, rfl⟩
      · exact induction member

/-- Requests come to the end of the text, and they leave nothing out. -/
theorem exists_requests {place : Nat} (inside : place ≤ text.length) :
    ∃ earlier passed,
      matcher.requests text place (earlier.length + 1) = earlier ++ [⟨passed, ending text⟩] ∧
      (∀ request ∈ earlier, ∃ kind, kind ≠ .endOfText ∧ request.token.kind = .token kind) ∧
      Segment.Tiles LexicalRule.keyExpression text place
        (earlier.flatMap Request.segments ++ passed) text.length := by
  induction remaining : text.length - place using Nat.strongRecOn generalizing place with
  | ind left induction =>
      have answers := matcher.answers_request text inside
      generalize made : matcher.request text place = request at answers
      cases answers with
      | ending tiles =>
          refine ⟨[], _, ?_, by simp, by simpa using tiles⟩
          rw [requests, made]
          rfl
      | @token passed token kind tiles stands isToken =>
          have further := stands.someByte
          have within := stands.within
          have before := tiles.start_le
          rcases induction (text.length - token.stop) (by omega) within rfl with
            ⟨earlier, last, followed, tokens, behind⟩
          refine ⟨⟨passed, token⟩ :: earlier, last, ?_, ?_, ?_⟩
          · rw [requests, made]
            exact congrArg _ followed
          · refine List.forall_mem_cons.mpr ⟨⟨kind, ?_, isToken⟩, tokens⟩
            rintro rfl
            exact not_ending_of_stands text stands isToken
          · rw [List.flatMap_cons, Request.segments, List.append_assoc, List.append_assoc]
            exact tiles.append (.cons stands behind)

/-! ## What is read of a text -/

theorem cut_eq {offset length : Nat} {kind : SegmentKind} {bytes : List UInt8}
    (found : Matcher.keyExpression.find bytes = (length, kind)) (positive : 0 < length)
    (within : length ≤ bytes.length) :
    Segment.cut LexicalRule.keyExpression offset bytes = ⟨kind, offset, bytes.take length⟩ ::
      Segment.cut LexicalRule.keyExpression (offset + length) (bytes.drop length) := by
  cases bytes with
  | nil => exact absurd within (Nat.not_le.mpr positive)
  | cons first rest =>
      cases length with
      | zero => exact absurd positive (Nat.lt_irrefl 0)
      | succ more =>
          have count : (rest.take more).length = more :=
            List.length_take_of_le (Nat.le_of_succ_le_succ within)
          rw [Segment.cut_cons found, Nat.add_sub_cancel, List.length_cons, count]
          rfl

/-- Cutting a text finds the segments of the matcher one after the other. -/
theorem cut_drop {place : Nat} (inside : place < text.length) :
    Segment.cut LexicalRule.keyExpression place (text.drop place) =
      Matcher.keyExpression.segment text place ::
        Segment.cut LexicalRule.keyExpression (Matcher.keyExpression.segment text place).stop
          (text.drop (Matcher.keyExpression.segment text place).stop) := by
  rw [stop_segment, ← List.drop_drop]
  exact cut_eq rfl (Matcher.keyExpression.progress _ (by simpa using inside))
    (Matcher.keyExpression.within _)

theorem cut_request (place : Nat) :
    Segment.cut LexicalRule.keyExpression place (text.drop place) =
      (Matcher.keyExpression.request text place).passed ++
        if (Matcher.keyExpression.request text place).token.kind = .token .endOfText then []
        else (Matcher.keyExpression.request text place).token ::
          Segment.cut LexicalRule.keyExpression
            (Matcher.keyExpression.request text place).token.stop
            (text.drop (Matcher.keyExpression.request text place).token.stop) := by
  fun_induction Matcher.keyExpression.request text place with
  | case1 place here kind isToken =>
      have notEnd := not_ending_of_stands text (stands_segment text Matcher.keyExpression here)
      rw [cut_drop text here, if_neg notEnd]
      rfl
  | case2 place here later noToken induction =>
      rw [cut_drop text here, induction]
      rfl
  | case3 place outside =>
      rw [List.drop_eq_nil_of_le (Nat.not_lt.mp outside), Segment.cut, if_pos rfl]
      rfl

theorem cut_requests {earlier : List Request} {passed : List Segment} {place : Nat}
    (made : Matcher.keyExpression.requests text place (earlier.length + 1) =
      earlier ++ [⟨passed, ending text⟩])
    (tokens : ∀ request ∈ earlier, request.token.kind ≠ .token .endOfText) :
    Segment.cut LexicalRule.keyExpression place (text.drop place) =
      earlier.flatMap Request.segments ++ passed := by
  induction earlier generalizing place with
  | nil =>
      have last := (List.cons.inj made).1
      have isEnd : (Matcher.keyExpression.request text place).token.kind = .token .endOfText := by
        rw [last]
        rfl
      rw [cut_request, if_pos isEnd, last, List.append_nil]
      rfl
  | cons request earlier induction =>
      rw [List.forall_mem_cons] at tokens
      rcases List.cons.inj made with ⟨rfl, followed⟩
      rw [cut_request, if_neg tokens.1, induction followed tokens.2, List.flatMap_cons,
        Request.segments, List.append_assoc, List.append_assoc]
      rfl

end Matcher

/-! ## Lexemes -/

namespace LexicalRule

open Pattern

/-- Outside character tokens there is nothing but ASCII. -/
theorem token_or_ascii {lexeme : List UInt8} {kind : SegmentKind}
    (recognized : Recognizes keyExpression lexeme kind) :
    CharacterToken lexeme ∨ ∀ value ∈ lexeme, value.toNat < 128 := by
  have others : ∀ rule ∈ keyExpression.tail, ∀ code < 256,
      rule.pattern.mentions (UInt8.ofNat code) = true → code < 128 := by decide +kernel
  rcases recognized.exists_rule with ⟨rule, member, _, matched⟩
  rcases List.mem_cons.mp member with rfl | member
  · exact .inl (matches_quoted_iff.mp matched)
  · refine .inr fun value inside => others rule member _ value.toNat_lt ?_
    rw [UInt8.ofNat_toNat]
    exact mentions_of_matches matched inside

theorem exists_encoded_of_recognizes {characters : List Char} {front lexeme back : List UInt8}
    {kind : SegmentKind} (recognized : Recognizes keyExpression lexeme kind)
    (bytes : Text.encoded characters = front ++ lexeme ++ back) :
    ∃ inner, lexeme = Text.encoded inner := by
  have quote : (39 : UInt8).toNat < 128 := by decide
  rcases token_or_ascii recognized with token | ascii
  · rcases token.exists_between with ⟨inner, rfl⟩
    exact Text.exists_encoded_between quote quote bytes
  · exact Text.exists_encoded_of_ascii ascii

end LexicalRule

namespace Lexed

variable {text : List UInt8} {segment : Segment} {token : Token}

theorem ofSegment_eq_token_iff :
    ofSegment text segment = some (.token token) ↔ segment.kind = .token token.kind ∧
      token.lexeme = Text.Utf8.decodeLossy segment.bytes ∧ token.start = segment.start ∧
      token.stop = segment.stop := by
  unfold ofSegment
  cases segment.kind <;> cases token <;> simp [eq_comm]

theorem ofSegment_ending (text : List UInt8) : ofSegment text (Matcher.ending text) =
    some (.token ⟨.endOfText, "", text.length, text.length⟩) :=
  ofSegment_eq_token_iff.mpr ⟨rfl, (Text.decodeLossy_encoded []).symm, rfl, rfl⟩

theorem toUTF8_lexeme {written : String}
    (stands : segment.Stands keyExpression written.toUTF8.toList)
    (read : ofSegment text segment = some (.token token)) :
    token.lexeme.toUTF8.toList = segment.bytes := by
  rcases ofSegment_eq_token_iff.mp read with ⟨kind, lexeme, _, _⟩
  have longest := stands.longest (by rw [kind]; exact SegmentKind.noConfusion)
  have parts := stands.text_eq
  rw [Text.toList_toUTF8] at parts
  rcases exists_encoded_of_recognizes longest.recognized parts with ⟨inner, bytes⟩
  rw [lexeme, bytes, Text.decodeLossy_encoded, Text.toList_toUTF8, String.toList_ofList]

end Lexed

/-! ## All of a text -/

namespace Matcher

variable (matcher : Matcher LexicalRule.keyExpression)

/-- Requests come to the end of the text: what they pass over and the tokens before the end are all
of it. -/
structure Reads (text : List UInt8) (earlier : List Request) (passed : List Segment) : Prop where
  requests : matcher.requests text 0 (earlier.length + 1) = earlier ++ [⟨passed, ending text⟩]
  tokens : ∀ request ∈ earlier, ∃ kind, kind ≠ .endOfText ∧ request.token.kind = .token kind
  skipped : ∀ request ∈ earlier ++ [⟨passed, ending text⟩], ∀ segment ∈ request.passed,
    segment.kind = .blank ∨ segment.kind = .unmatched
  cover : Segment.Cover LexicalRule.keyExpression text (earlier.flatMap Request.segments ++ passed)

theorem exists_reads (text : List UInt8) : ∃ earlier passed, matcher.Reads text earlier passed := by
  rcases matcher.exists_requests text (Nat.zero_le _) with ⟨earlier, passed, made, tokens, tiles⟩
  refine ⟨earlier, passed, made, tokens, fun request member segment inside => ?_, tiles.cover⟩
  rw [← made] at member
  rcases matcher.exists_request text member with ⟨place, rfl⟩
  exact matcher.passed_request text place inside

/-- Whatever the matcher and the text, requests come to the end of the text, and what they pass over
and answer with is all of it. What is read of a text is what they find, without the blanks, and the
lexemes are the bytes at their places. -/
theorem requests_cover_text :
    (∀ (matcher : Matcher LexicalRule.keyExpression) (text : List UInt8),
      ∃ earlier passed, matcher.Reads text earlier passed) ∧
    ∀ written : String, ∃ earlier passed,
      Matcher.keyExpression.Reads written.toUTF8.toList earlier passed ∧
      Lexed.ofText written = (earlier.flatMap Request.segments ++ passed ++
        [ending written.toUTF8.toList]).filterMap (Lexed.ofSegment written.toUTF8.toList) ∧
      ∀ token, .token token ∈ Lexed.ofText written → token.lexeme.toUTF8.toList =
        (written.toUTF8.toList.drop token.start).take (token.stop - token.start) := by
  refine ⟨exists_reads, fun written => ?_⟩
  rcases Matcher.keyExpression.exists_reads written.toUTF8.toList with ⟨earlier, passed, reads⟩
  have cut := cut_requests written.toUTF8.toList reads.requests fun request member isEnd => by
    rcases reads.tokens request member with ⟨kind, other, same⟩
    exact other (SegmentKind.token.inj (same.symm.trans isEnd))
  have read : Lexed.ofText written = (earlier.flatMap Request.segments ++ passed ++
      [ending written.toUTF8.toList]).filterMap (Lexed.ofSegment written.toUTF8.toList) := by
    rw [← cut, List.drop_zero, List.filterMap_append,
      List.filterMap_cons_some (Lexed.ofSegment_ending _)]
    rfl
  refine ⟨earlier, passed, reads, read, fun token member => ?_⟩
  rw [read] at member
  rcases List.mem_filterMap.mp member with ⟨segment, inside, same⟩
  rcases List.mem_append.mp inside with inside | isEnd
  · have stands := reads.cover.stands segment inside
    rcases Lexed.ofSegment_eq_token_iff.mp same with ⟨_, _, start, stop⟩
    rw [Lexed.toUTF8_lexeme stands same, stands.bytes, start, stop]
  · rw [List.mem_singleton.mp isEnd, Lexed.ofSegment_ending] at same
    cases same
    rw [Nat.sub_self, List.take_zero, Text.toList_toUTF8]
    rfl

end Matcher

end StateTables

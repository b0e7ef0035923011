import DubEcosystem.ChatRenderBody

/-!
# Who is notified is who is shown as mentioned

The server replaces the code in a body and looks for mentions in what is left; the client
renders tokens.  Both find the same mentions, since no token holds the space that replaces
code and no mention holds a backtick.
-/

namespace DubEcosystem.Chat

open List
open IdentityRoster (isSpace)
open TextScanning
open Chat.Fe6 (BodyBlock BodySegment BodyToken TOKEN_RE inlineSegments
  inlineStyles nestedChildren segmentsFrom textRun)

inductive MentionKind where
  | user
  | team
  deriving DecidableEq

namespace MentionKind

/-- What follows `<` in a mention. -/
def name : MentionKind → List Char
  | .user => ['@']
  | .team => ['!', 't', 'e', 'a', 'm', ':']

def inside : MentionKind → Char → Bool
  | .user => isWordChar
  | .team => isTeamChar

def re : MentionKind → TextScanning.Matcher (List Char)
  | .user => MENTION_RE
  | .team => TEAM_MENTION_RE

def token : MentionKind → List Char → BodyToken
  | .user => .mention
  | .team => .teamMention

def written (kind : MentionKind) (id : List Char) : List Char :=
  '<' :: kind.name ++ id ++ ['>']

theorem re_eq (kind : MentionKind) : kind.re = delimited ('<' :: kind.name) kind.inside ['>'] := by
  cases kind <;> rfl

/-- A character that occurs in a mention behind its first one. -/
def Within (kind : MentionKind) (c : Char) : Prop :=
  c ∈ kind.name ∨ kind.inside c = true ∨ c = '>'

variable {c : Char}

theorem isTeamChar_of_isWordChar (isWord : isWordChar c = true) : isTeamChar c = true := by
  unfold isTeamChar
  rw [isWord, Bool.true_or]

theorem ne_of_isTeamChar {other : Char} (isTeam : isTeamChar c = true)
    (isNot : isTeamChar other = false) : c ≠ other := by
  rintro rfl
  rw [isTeam] at isNot
  cases isNot

variable {kind : MentionKind}

theorem Within.ne {other : Char} (within : kind.Within c) (isNot : isTeamChar other = false)
    (notName : other ∉ ['@', '!', 't', 'e', 'a', 'm', ':', '>']) : c ≠ other := by
  rintro rfl
  cases kind with
  | user =>
    rcases within with inName | isInside | rfl
    · exact notName (by simp_all [name])
    · exact ne_of_isTeamChar (isTeamChar_of_isWordChar isInside) isNot rfl
    · exact notName (by decide)
  | team =>
    rcases within with inName | isInside | rfl
    · exact notName (by simp_all [name])
    · exact ne_of_isTeamChar isInside isNot rfl
    · exact notName (by decide)

variable {id : List Char}

theorem within_of_mem_written (isInside : ∀ c ∈ id, kind.inside c)
    (member : c ∈ kind.name ++ id ++ ['>']) : kind.Within c := by
  rcases mem_append.mp member with member | isLast
  · rcases mem_append.mp member with inName | inId
    · exact .inl inName
    · exact .inr (.inl (isInside c inId))
  · exact .inr (.inr (mem_singleton.mp isLast))

theorem re_sound {text : List Char} {length : Nat} (found : kind.re text = some (id, length)) :
    id ≠ [] ∧ (∀ c ∈ id, kind.inside c) ∧ length = (kind.written id).length ∧
      ∃ after, text = kind.written id ++ after := by
  rw [re_eq] at found
  obtain ⟨notEmpty, isInside, isLength, after, isText⟩ := delimited_sound found
  refine ⟨notEmpty, isInside, ?_, after, isText⟩
  rw [isLength]
  simp [written]
  omega

theorem re_complete (after : List Char) (notEmpty : id ≠ []) (isInside : ∀ c ∈ id, kind.inside c) :
    kind.re (kind.written id ++ after) = some (id, (kind.written id).length) := by
  have closes : kind.inside '>' = false := by cases kind <;> decide
  have found := @delimited_complete ('<' :: kind.name) ['>'] id kind.inside after notEmpty
    isInside (by simpa using closes) (by simp)
  rw [re_eq]
  unfold written
  rw [found]
  simp only [length_append, length_cons, length_nil]

theorem re_eq_none {rest : List Char} (differs : c ≠ '<') : kind.re (c :: rest) = none := by
  rw [re_eq]
  exact delimited_eq_none differs

end MentionKind

variable {rest : List Char}

/-- Text without spaces is left alone by the replacement of code. -/
theorem exists_of_replaceAll_eq {kept text : List Char} (noSpace : ∀ c ∈ kept, c ≠ ' ')
    (replaced : replaceAll codeSpan [' '] text = kept ++ rest) :
    ∃ after, text = kept ++ after := by
  induction kept generalizing text with
  | nil => exact ⟨text, rfl⟩
  | cons c kept ih =>
    cases text with
    | nil => cases replaced
    | cons d others =>
      cases code : codeSpan (d :: others) with
      | some found =>
        obtain ⟨content, length⟩ := found
        obtain ⟨-, -, isLength, after, isText⟩ := delimited_sound code
        have isMatch : codeSpan (([backtick] ++ content ++ [backtick]) ++ after) =
            some (content, ([backtick] ++ content ++ [backtick]).length) := by
          rw [← isText, code, isLength]
          simp only [length_append]
        rw [isText, replaceAll_of_match isMatch (by simp)] at replaced
        exact absurd (List.cons.inj replaced).1.symm (noSpace c (.head _))
      | none =>
        rw [replaceAll_cons_of_none code] at replaced
        obtain ⟨rfl, behind⟩ := List.cons.inj replaced
        obtain ⟨after, rfl⟩ :=
          ih (fun other member => noSpace other (mem_cons_of_mem d member)) behind
        exact ⟨after, rfl⟩

variable {c : Char}

theorem codeSpan_eq_none (differs : c ≠ backtick) : codeSpan (c :: rest) = none :=
  delimited_eq_none differs

theorem replaceAll_append_of_noBacktick {passed : List Char}
    (noBacktick : ∀ c ∈ passed, c ≠ backtick) :
    replaceAll codeSpan [' '] (passed ++ rest) = passed ++ replaceAll codeSpan [' '] rest :=
  replaceAll_append_of_none fun c member _ => codeSpan_eq_none (noBacktick c member)

def idOf : MentionKind → BodyToken → Option (List Char)
  | .user, .mention userId => some userId
  | .team, .teamMention teamId => some teamId
  | _, _ => none

variable {length : Nat}

theorem token_of_code {text content : List Char} (code : codeSpan text = some (content, length)) :
    TOKEN_RE text = some (.code content, length) := by
  simp [TOKEN_RE, Matcher.or, Matcher.map, code]

variable {kind : MentionKind}

theorem token_of_mention {text id : List Char}
    (noCode : codeSpan text = none) (found : kind.re text = some (id, length)) :
    TOKEN_RE text = some (kind.token id, length) := by
  cases kind with
  | user =>
    have same : Fe6.MENTION_RE text = some (id, length) := found
    simp [TOKEN_RE, Matcher.or, Matcher.map, noCode, same, MentionKind.token]
  | team =>
    have same : Fe6.TEAM_MENTION_RE text = some (id, length) := found
    have noMention : Fe6.MENTION_RE text = none := by
      obtain ⟨-, -, -, after, rfl⟩ := MentionKind.re_sound found
      rfl
    simp [TOKEN_RE, Matcher.or, Matcher.map, noCode, same, noMention, MentionKind.token]

theorem token_sound {text : List Char} {token : BodyToken}
    (found : TOKEN_RE text = some (token, length)) :
    (∃ content, codeSpan text = some (content, length)) ∨ codeSpan text = none ∧
        ∃ kind id, MentionKind.re kind text = some (id, length) ∧ kind.token id = token := by
  unfold TOKEN_RE Matcher.or at found
  rcases Option.or_eq_some_iff.mp found with found | ⟨missing, found⟩
  · rcases Option.or_eq_some_iff.mp found with found | ⟨noCode, found⟩
    · obtain ⟨content, code, -⟩ := Matcher.map_eq_some.mp found
      exact .inl ⟨content, code⟩
    · obtain ⟨id, mention, isToken⟩ := Matcher.map_eq_some.mp found
      exact .inr ⟨Matcher.map_eq_none.mp noCode, .user, id, mention, isToken⟩
  · obtain ⟨id, mention, isToken⟩ := Matcher.map_eq_some.mp found
    have noCode := (Option.or_eq_none_iff.mp missing).1
    exact .inr ⟨Matcher.map_eq_none.mp noCode, .team, id, mention, isToken⟩

theorem matchAll_written_same {id after : List Char}
    (notEmpty : id ≠ []) (isInside : ∀ c ∈ id, kind.inside c) :
    matchAll kind.re (kind.written id ++ after) = id :: matchAll kind.re after :=
  matchAll_of_match (MentionKind.re_complete after notEmpty isInside) (by simp [MentionKind.written])

theorem matchAll_written_other {other : MentionKind} {id after : List Char}
    (differs : kind ≠ other) (isInside : ∀ c ∈ id, kind.inside c) :
    matchAll other.re (kind.written id ++ after) = matchAll other.re after := by
  have notHere : other.re (kind.written id ++ after) = none := by
    cases kind with
    | user =>
      cases other with
      | user => exact absurd rfl differs
      | team => rfl
    | team =>
      cases other with
      | user => rfl
      | team => exact absurd rfl differs
  have isText : kind.written id ++ after = '<' :: ((kind.name ++ id ++ ['>']) ++ after) := by
    simp [MentionKind.written]
  rw [isText] at notHere ⊢
  rw [matchAll_cons_of_none notHere]
  apply matchAll_append_of_none
  intro c member _
  apply MentionKind.re_eq_none
  exact (MentionKind.within_of_mem_written isInside member).ne (by decide) (by decide)

theorem re_replaced_eq_none
    (missing : TOKEN_RE (c :: rest) = none) (noCode : codeSpan (c :: rest) = none) :
    kind.re (c :: replaceAll codeSpan [' '] rest) = none := by
  cases found : kind.re (c :: replaceAll codeSpan [' '] rest) with
  | none => rfl
  | some result =>
    obtain ⟨id, length⟩ := result
    obtain ⟨notEmpty, isInside, -, behind, isText⟩ := MentionKind.re_sound found
    have split : kind.written id ++ behind = '<' :: ((kind.name ++ id ++ ['>']) ++ behind) := by
      simp [MentionKind.written]
    rw [split] at isText
    obtain ⟨rfl, replaced⟩ := List.cons.inj isText
    have noSpace : ∀ other ∈ kind.name ++ id ++ ['>'], other ≠ ' ' := fun other member =>
      (MentionKind.within_of_mem_written isInside member).ne (by decide) (by decide)
    obtain ⟨after, rfl⟩ := exists_of_replaceAll_eq noSpace replaced
    have isMention := MentionKind.re_complete after notEmpty isInside
    have isWritten : kind.written id ++ after = '<' :: ((kind.name ++ id ++ ['>']) ++ after) := by
      simp [MentionKind.written]
    rw [isWritten] at isMention
    rw [token_of_mention noCode isMention] at missing
    cases missing

theorem matchAll_replaceAll (kind : MentionKind) (text : List Char) :
    matchAll kind.re (replaceAll codeSpan [' '] text) =
      (matchAll TOKEN_RE text).filterMap (idOf kind) := by
  induction isLength : text.length using Nat.strong_induction_on generalizing text with
  | _ length ih =>
    cases text with
    | nil => rfl
    | cons c rest =>
      cases token : TOKEN_RE (c :: rest) with
      | none =>
        have noCode : codeSpan (c :: rest) = none := by
          cases code : codeSpan (c :: rest) with
          | none => rfl
          | some found => rw [token_of_code code] at token; cases token
        rw [replaceAll_cons_of_none noCode, matchAll_cons_of_none token,
          matchAll_cons_of_none (re_replaced_eq_none token noCode)]
        exact ih rest.length (by simp [← isLength]) rest rfl
      | some found =>
        obtain ⟨found, size⟩ := found
        rcases token_sound token with ⟨content, code⟩ | ⟨-, other, id, mention, rfl⟩
        · obtain ⟨-, -, isSize, after, isText⟩ := delimited_sound code
          have isCode := token_of_code code
          have sameSize : size = ([backtick] ++ content ++ [backtick]).length := by
            rw [isSize]
            simp only [length_append]
          rw [isText, sameSize] at code isCode
          have shorter : after.length < length := by
            rw [← isLength, isText]
            simp only [length_append, length_cons]
            omega
          have noId : idOf kind (.code content) = none := by cases kind <;> rfl
          rw [isText, replaceAll_of_match code (by simp),
            matchAll_of_match isCode (by simp), filterMap_cons_none noId,
            matchAll_append_of_none]
          · exact ih after.length shorter after rfl
          · intro space isSpace others
            rw [mem_singleton.mp isSpace]
            exact MentionKind.re_eq_none (by decide)
        · obtain ⟨notEmpty, isInside, rfl, after, isText⟩ := MentionKind.re_sound mention
          rw [isText] at token
          have noBacktick : ∀ c ∈ other.written id, c ≠ backtick := by
            intro c member
            rcases mem_cons.mp member with rfl | within
            · decide
            · exact (MentionKind.within_of_mem_written isInside within).ne (by decide) (by decide)
          have shorter : after.length < length := by
            rw [← isLength, isText]
            simp only [MentionKind.written, length_append, length_cons]
            omega
          have later := ih after.length shorter after rfl
          rw [isText, replaceAll_append_of_noBacktick noBacktick,
            matchAll_of_match token (by simp [MentionKind.written]),
            filterMap_cons]
          by_cases same : other = kind
          · subst same
            rw [matchAll_written_same notEmpty isInside, later]
            cases other <;> rfl
          · rw [matchAll_written_other same isInside, later]
            cases other <;> cases kind <;> first | rfl | exact absurd rfl same

mutual

def segmentIds (kind : MentionKind) : BodySegment → List String
  | .mention userId => if kind = .user then [userId] else []
  | .teamMention teamId => if kind = .team then [teamId] else []
  | .styled _ _ children => segmentsIds kind children
  | _ => []

def segmentsIds (kind : MentionKind) : List BodySegment → List String
  | [] => []
  | segment :: rest => segmentIds kind segment ++ segmentsIds kind rest

end

def blockIds (kind : MentionKind) : BodyBlock → List String
  | .paragraph lines => lines.flatMap (segmentsIds kind)
  | .blockquote lines => lines.flatMap (segmentsIds kind)
  | .bullet items => items.flatMap (segmentsIds kind)
  | .ordered items => items.flatMap (segmentsIds kind)
  | .codeblock _ _ => []

variable {kind : MentionKind}

@[simp]
theorem segmentsIds_append (first second : List BodySegment) :
    segmentsIds kind (first ++ second) = segmentsIds kind first ++ segmentsIds kind second := by
  induction first with
  | nil => rfl
  | cons segment first ih => simp [segmentsIds, ih]

@[simp]
theorem segmentsIds_textRun (pending : List Char) : segmentsIds kind (textRun pending) = [] := by
  unfold textRun
  split
  · rfl
  · rfl

theorem segmentsIds_nestedChildren {inner : List BodySegment}
    (noIds : segmentsIds kind inner = []) : segmentsIds kind (nestedChildren inner) = [] := by
  unfold nestedChildren
  split
  · rfl
  · exact noIds

@[simp]
theorem segmentsIds_inlineStyles (nested : Bool) (pending text : List Char) :
    segmentsIds kind (inlineStyles nested pending text) = [] := by
  fun_induction inlineStyles nested pending text with
  | case1 nested pending => exact segmentsIds_textRun pending
  | case2 nested pending c rest missing ih => exact ih
  | case3 nested pending c rest label href length found ih =>
    simp [segmentsIds, segmentIds, ih]
  | case4 nested pending c rest matched length found url ih =>
    simp [segmentsIds, segmentIds, ih]
  | case5 nested pending c rest style value length found ihInner ihRest =>
    simp [segmentsIds, segmentIds, ihRest, segmentsIds_nestedChildren ihInner]

theorem segmentIds_token (token : BodyToken) :
    segmentIds kind token.segment = ((idOf kind token).map String.ofList).toList := by
  cases token <;> cases kind <;> rfl

theorem segmentsIds_segmentsFrom (pending : List Char) (pieces : List (Piece BodyToken)) :
    segmentsIds kind (segmentsFrom pending pieces) =
      ((pieces.filterMap Piece.token?).filterMap (idOf kind)).map String.ofList := by
  induction pieces generalizing pending with
  | nil => simp [segmentsFrom]
  | cons piece pieces ih =>
    cases piece with
    | char c => exact ih _
    | token found =>
      simp only [segmentsFrom, segmentsIds_append, segmentsIds_inlineStyles, segmentsIds,
        segmentIds_token, ih, Piece.token?, filterMap_cons, nil_append]
      cases idOf kind found with
      | none | some id => rfl

/-- A line shows the mentions that are found in it without its code. -/
theorem segmentsIds_inlineSegments (line : List Char) : segmentsIds kind (inlineSegments line) =
      (matchAll kind.re (replaceAll codeSpan [' '] line)).map String.ofList := by
  rw [matchAll_replaceAll]
  exact segmentsIds_segmentsFrom [] _

theorem segmentIds_of_start {marks line rest : List Char} (isLine : line = marks ++ rest)
    (harmless : ∀ c ∈ marks, c ≠ backtick ∧ c ≠ '<') :
    segmentsIds kind (inlineSegments rest) =
      (matchAll kind.re (replaceAll codeSpan [' '] line)).map String.ofList := by
  rw [isLine, replaceAll_append_of_noBacktick fun c member => (harmless c member).1,
    matchAll_append_of_none fun c member _ => MentionKind.re_eq_none (harmless c member).2]
  exact segmentsIds_inlineSegments rest

theorem harmless_of_isSpace (space : isSpace c = true) : c ≠ backtick ∧ c ≠ '<' := by
  constructor
  · rintro rfl
    revert space
    decide
  · rintro rfl
    revert space
    decide

theorem harmless_of_isDigit (digit : c.isDigit = true) : c ≠ backtick ∧ c ≠ '<' := by
  constructor
  · rintro rfl
    revert digit
    decide
  · rintro rfl
    revert digit
    decide

theorem exists_dropWhile_isSpace (line : List Char) :
    ∃ marks, line = marks ++ line.dropWhile isSpace ∧ ∀ c ∈ marks, c ≠ backtick ∧ c ≠ '<' := by
  refine ⟨line.takeWhile isSpace, takeWhile_append_dropWhile.symm, ?_⟩
  intro c member
  exact harmless_of_isSpace (mem_takeWhile_imp member)

variable {line : List Char}

theorem segmentsIds_dropQuote (quote : Fe6.isQuote line = true) :
    segmentsIds kind (inlineSegments (Fe6.dropQuote line)) =
      (matchAll kind.re (replaceAll codeSpan [' '] line)).map String.ofList := by
  have isMark : line.head? = some '>' := by simpa [Fe6.isQuote] using quote
  obtain ⟨rest, rfl⟩ := head?_eq_some_iff.mp isMark
  have markHarmless : ∀ c ∈ ['>'], c ≠ backtick ∧ c ≠ '<' := by
    simp [backtick]
  cases rest with
  | nil => exact segmentIds_of_start rfl markHarmless
  | cons c rest =>
    have isDropped : Fe6.dropQuote ('>' :: c :: rest) = if isSpace c then rest else c :: rest := rfl
    rw [isDropped]
    split
    · rename_i space
      apply @segmentIds_of_start kind ['>', c] _ rest rfl
      intro other member
      rcases mem_cons.mp member with rfl | member
      · exact markHarmless _ (.head _)
      · rw [mem_singleton.mp member]
        exact harmless_of_isSpace space
    · exact @segmentIds_of_start kind ['>'] _ (c :: rest) rfl markHarmless

theorem segmentsIds_dropBullet (bullet : Fe6.isBullet line = true) :
    segmentsIds kind (inlineSegments (Fe6.dropBullet line)) =
      (matchAll kind.re (replaceAll codeSpan [' '] line)).map String.ofList := by
  cases line with
  | nil => cases bullet
  | cons mark rest =>
    cases rest with
    | nil => cases bullet
    | cons c rest =>
      have isMark : (mark = '-' ∨ mark = '*') ∧ isSpace c = true := by
        simpa [Fe6.isBullet] using bullet
      obtain ⟨spaces, isRest, spacesHarmless⟩ := exists_dropWhile_isSpace (c :: rest)
      have isLine : mark :: c :: rest = (mark :: spaces) ++ (c :: rest).dropWhile isSpace := by
        rw [cons_append, ← isRest]
      apply segmentIds_of_start isLine
      intro other member
      rcases mem_cons.mp member with rfl | member
      · rcases isMark.1 with rfl | rfl
        · decide
        · decide
      · exact spacesHarmless other member

theorem segmentsIds_dropOrdered (ordered : Fe6.isOrdered line = true) :
    segmentsIds kind (inlineSegments (Fe6.dropOrdered line)) =
      (matchAll kind.re (replaceAll codeSpan [' '] line)).map String.ofList := by
  have digits : line = line.takeWhile Char.isDigit ++ line.dropWhile Char.isDigit :=
    takeWhile_append_dropWhile.symm
  unfold Fe6.isOrdered at ordered
  split at ordered
  · rename_i c rest isDot
    obtain ⟨spaces, isRest, spacesHarmless⟩ := exists_dropWhile_isSpace (c :: rest)
    have isDropped : Fe6.dropOrdered line = (c :: rest).dropWhile isSpace := by
      rw [Fe6.dropOrdered, isDot, drop_one, tail_cons]
    have isLine : line =
        (line.takeWhile Char.isDigit ++ '.' :: spaces) ++ (c :: rest).dropWhile isSpace := by
      rw [append_assoc, cons_append, ← isRest, ← isDot]
      exact digits
    rw [isDropped]
    apply segmentIds_of_start isLine
    intro other member
    rcases mem_append.mp member with inDigits | inMarks
    · exact harmless_of_isDigit (mem_takeWhile_imp inDigits)
    · rcases mem_cons.mp inMarks with rfl | inSpaces
      · decide
      · exact spacesHarmless other inSpaces
  · cases ordered

section Blocks

/-- Lines outside of fences lose their code, one by one. -/
theorem withoutCodeLines_append {lines : List (List Char)} (more : List (List Char))
    (noFence : ∀ line ∈ lines, isFence line = false) :
    withoutCodeLines false (lines ++ more) =
      lines.map (replaceAll codeSpan [' ']) ++ withoutCodeLines false more := by
  induction lines with
  | nil => rfl
  | cons line lines ih =>
    have later := ih fun other member => noFence other (mem_cons_of_mem line member)
    simp [withoutCodeLines, noFence line mem_cons_self, later]

variable (lines : List (List Char))

/-- A fence hides what follows up to the next one. -/
theorem withoutCodeLines_inFence : withoutCodeLines true lines =
      withoutCodeLines false ((lines.dropWhile fun line => !isFence line).drop 1) := by
  induction lines with
  | nil => rfl
  | cons line lines ih =>
    by_cases fence : isFence line = true
    · simp [withoutCodeLines, fence]
    · simp [withoutCodeLines, fence, ih]

def foundIn (kind : MentionKind) (lines : List (List Char)) : List String :=
  lines.flatMap fun line => (matchAll kind.re line).map String.ofList

theorem shown_group {isMember : List Char → Bool} {content : List Char → List Char}
    (shows : ∀ line, isMember line = true → segmentsIds kind (inlineSegments (content line)) =
      (matchAll kind.re (replaceAll codeSpan [' '] line)).map String.ofList)
    (noFence : ∀ line, isMember line = true → isFence line = false) (isFirst : isMember line = true)
    (rest : List (List Char)) :
    foundIn kind (withoutCodeLines false (line :: rest)) =
      ((line :: rest.takeWhile isMember).map fun line =>
        inlineSegments (content line)).flatMap (segmentsIds kind) ++
        foundIn kind (withoutCodeLines false (rest.dropWhile isMember)) := by
  have isGroup : ∀ other ∈ line :: rest.takeWhile isMember, isMember other = true := by
    intro other member
    rcases mem_cons.mp member with rfl | member
    · exact isFirst
    · exact mem_takeWhile_imp member
  have splits : line :: rest = (line :: rest.takeWhile isMember) ++ rest.dropWhile isMember := by
    rw [cons_append, takeWhile_append_dropWhile]
  have isShown : ((line :: rest.takeWhile isMember).map fun line =>
        inlineSegments (content line)).flatMap (segmentsIds kind) =
      foundIn kind ((line :: rest.takeWhile isMember).map (replaceAll codeSpan [' '])) := by
    rw [foundIn, flatMap_map, flatMap_map]
    apply flatMap_congr
    exact fun other member => shows other (isGroup other member)
  rw [isShown, splits, withoutCodeLines_append _ fun other member =>
    noFence other (isGroup other member)]
  exact flatMap_append

theorem notFence_of_isQuote (quote : Fe6.isQuote line = true) : isFence line = false := by
  have isMark : line.head? = some '>' := by simpa [Fe6.isQuote] using quote
  obtain ⟨rest, rfl⟩ := head?_eq_some_iff.mp isMark
  rfl

theorem blockIds_blocksOf : (Fe6.blocksOf lines).flatMap (blockIds kind) =
      foundIn kind (withoutCodeLines false lines) := by
  fun_induction Fe6.blocksOf lines with
  | case1 => rfl
  | case2 line rest fence ih =>
    rw [flatMap_cons, ih]
    simp [withoutCodeLines, fence, withoutCodeLines_inFence, blockIds]
  | case3 line rest noFence quote ih =>
    rw [flatMap_cons, ih, shown_group (fun line => segmentsIds_dropQuote)
      (fun line => notFence_of_isQuote) quote]
    rfl
  | case4 line rest noFence noQuote bullet ih =>
    have notFence : ∀ line, Fe6.isBullet line = true → isFence line = false := by
      intro line isBullet
      cases fence : isFence line with
      | false => rfl
      | true =>
        obtain ⟨behind, rfl⟩ := isPrefixOf_iff_prefix.mp fence
        cases isBullet
    rw [flatMap_cons, ih, shown_group (fun line => segmentsIds_dropBullet) notFence bullet]
    rfl
  | case5 line rest noFence noQuote noBullet ordered ih =>
    have notFence : ∀ line, Fe6.isOrdered line = true → isFence line = false := by
      intro line isOrdered
      cases fence : isFence line with
      | false => rfl
      | true =>
        obtain ⟨behind, rfl⟩ := isPrefixOf_iff_prefix.mp fence
        cases isOrdered
    rw [flatMap_cons, ih, shown_group (fun line => segmentsIds_dropOrdered) notFence ordered]
    rfl
  | case6 line rest noFence noQuote noBullet noOrdered ih =>
    have notFence : ∀ line, Fe6.isPlain line = true → isFence line = false := by
      intro line isPlain
      simp only [Fe6.isPlain, Bool.and_eq_true, Bool.not_eq_true'] at isPlain
      exact isPlain.1.1.1
    have plain : Fe6.isPlain line = true := by
      simp [Fe6.isPlain, noFence, noQuote, noBullet, noOrdered]
    rw [flatMap_cons, ih,
      shown_group (fun line _ => segmentsIds_inlineSegments line) notFence plain]
    rfl

theorem matchAll_append_newline (first second : List Char) :
    matchAll kind.re (first ++ '\n' :: second) =
      matchAll kind.re first ++ matchAll kind.re second := by
  induction isLength : first.length using Nat.strong_induction_on generalizing first with
  | _ length ih =>
    cases first with
    | nil =>
      have missing : kind.re ('\n' :: second) = none := MentionKind.re_eq_none (by decide)
      exact matchAll_cons_of_none missing
    | cons c rest =>
      cases found : kind.re (c :: rest) with
      | some result =>
        obtain ⟨id, size⟩ := result
        obtain ⟨notEmpty, isInside, -, after, isText⟩ := MentionKind.re_sound found
        have shorter : after.length < length := by
          rw [← isLength, isText]
          simp only [MentionKind.written, length_append, length_cons]
          omega
        rw [isText, append_assoc, matchAll_written_same notEmpty isInside,
          matchAll_written_same notEmpty isInside, ih after.length shorter after rfl,
          cons_append]
      | none =>
        have missing : kind.re (c :: (rest ++ '\n' :: second)) = none := by
          cases longer : kind.re (c :: (rest ++ '\n' :: second)) with
          | none => rfl
          | some result =>
            obtain ⟨id, size⟩ := result
            obtain ⟨notEmpty, isInside, -, after, isText⟩ :=
              MentionKind.re_sound longer
            have noNewline : '\n' ∉ kind.written id := by
              intro member
              rcases mem_cons.mp member with isFirst | within
              · revert isFirst
                decide
              · exact (MentionKind.within_of_mem_written isInside within).ne
                  (by decide) (by decide) rfl
            rcases append_eq_append_iff.mp
                (show (c :: rest) ++ '\n' :: second = kind.written id ++ after from isText)
              with ⟨others, isWritten, isRest⟩ | ⟨others, isFirst, isAfter⟩
            · cases others with
              | nil =>
                rw [append_nil] at isWritten
                have isMention := MentionKind.re_complete [] notEmpty isInside
                rw [append_nil, isWritten, found] at isMention
                cases isMention
              | cons other others =>
                obtain ⟨rfl, -⟩ := List.cons.inj isRest
                rw [isWritten] at noNewline
                exact absurd (mem_append_right _ (.head _)) noNewline
            · have isMention := MentionKind.re_complete others notEmpty isInside
              rw [← isFirst, found] at isMention
              cases isMention
        rw [cons_append, matchAll_cons_of_none found, matchAll_cons_of_none missing]
        exact ih rest.length (by simp [← isLength]) rest rfl

theorem matchAll_intercalate :
    (matchAll kind.re (List.intercalate ['\n'] lines)).map String.ofList =
      foundIn kind lines := by
  induction lines with
  | nil => rfl
  | cons line lines ih =>
    cases lines with
    | nil => simp [foundIn, List.intercalate]
    | cons next lines =>
      have isJoined : List.intercalate ['\n'] (line :: next :: lines) =
          line ++ '\n' :: List.intercalate ['\n'] (next :: lines) := by
        simp [List.intercalate]
      rw [isJoined, matchAll_append_newline, map_append, ih]
      rfl

end Blocks

/-- What the server finds. -/
def notifiedIds : MentionKind → String → List String
  | .user => extractMentions
  | .team => extractTeamMentions

/-- What the client finds. -/
def highlightedIds : MentionKind → String → List String
  | .user => Fe6.extractMentions
  | .team => Fe6.extractTeamMentions

def renderedIds (kind : MentionKind) (body : String) : List String :=
  (Fe6.parseBlocks body).flatMap (blockIds kind)

theorem stripCodeLines_eq (inFence : Bool) (lines : List (List Char)) :
    Fe6.stripCodeLines inFence lines = withoutCodeLines inFence lines := by
  induction lines generalizing inFence with
  | nil => rfl
  | cons line lines ih => simp [Fe6.stripCodeLines, withoutCodeLines, ih]

theorem highlightedIds_eq (kind : MentionKind) (body : String) :
    highlightedIds kind body = notifiedIds kind body := by
  have sameText : Fe6.stripCodeSpans body = withoutCodeSpans body := by
    rw [Fe6.stripCodeSpans, stripCodeLines_eq, withoutCodeSpans]
  cases kind with
  | user =>
    have unfolded : highlightedIds .user body =
        unique ((matchAll MENTION_RE (Fe6.stripCodeSpans body)).map String.ofList) := rfl
    rw [unfolded, sameText]
    rfl
  | team =>
    have unfolded : highlightedIds .team body =
        unique ((matchAll TEAM_MENTION_RE (Fe6.stripCodeSpans body)).map String.ofList) := rfl
    rw [unfolded, sameText]
    rfl

theorem mem_notifiedIds {body id : String} :
    id ∈ notifiedIds kind body ↔ id ∈ renderedIds kind body := by
  have isFound : notifiedIds kind body =
      unique ((matchAll kind.re (withoutCodeSpans body)).map String.ofList) := by
    cases kind <;> rfl
  rw [isFound, mem_unique, withoutCodeSpans, matchAll_intercalate, renderedIds, Fe6.parseBlocks,
    blockIds_blocksOf]

/-- The server and the client find the mentions that are shown, and a user that is not
`excepted` is notified when shown as mentioned, and only then. -/
def NotifiedAsShown (excepted : String → String → Prop) : Prop :=
  ∀ body : String, (∀ kind, highlightedIds kind body = notifiedIds kind body ∧
      ∀ id, id ∈ notifiedIds kind body ↔ id ∈ renderedIds kind body) ∧
    ∀ author userId, ¬excepted author userId →
      (userId ∈ mentionTargets author body [] ↔ userId ∈ renderedIds .user body)

/-- Everyone but the author of a message is notified when shown as mentioned. -/
theorem notifiedAsShown_exceptAuthor : NotifiedAsShown fun author userId => userId = author := by
  intro body
  constructor
  · exact fun kind => ⟨highlightedIds_eq kind body, fun id => mem_notifiedIds⟩
  · intro author userId notAuthor
    have isUser : extractMentions body = notifiedIds .user body := rfl
    simp [mentionTargets, mem_unique, notAuthor, isUser, mem_notifiedIds]

/-- An author who mentions himself is shown as mentioned, and not notified. -/
theorem not_notifiedAsShown : ¬NotifiedAsShown fun _ _ => False := by
  intro asShown
  obtain ⟨agrees, targets⟩ := asShown "<@usr_a>"
  have mentioned : "usr_a" ∈ notifiedIds .user "<@usr_a>" := by decide +kernel
  have isShown := ((agrees .user).2 "usr_a").mp mentioned
  have isTarget := (targets "usr_a" "usr_a" id).mpr isShown
  revert isTarget
  decide +kernel

end DubEcosystem.Chat

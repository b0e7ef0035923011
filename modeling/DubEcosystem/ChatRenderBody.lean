import DubEcosystem.ChatMentions

/-!
# fe6-chat: how a message is shown

The parser of message bodies of `render-body.ts`, and the mentions that the client finds
with `mentions.ts`.
-/

namespace DubEcosystem.Chat.Fe6

open TextScanning Option
open IdentityRoster (isSpace)

inductive Style where
  | bold
  | italic
  | underline
  | strike
  deriving DecidableEq

inductive BodySegment where
  | text (value : String)
  /-- Without `children` when nothing is nested. -/
  | styled (style : Style) (value : String) (children : List BodySegment)
  | link (href label : String)
  | mention (userId : String)
  | teamMention (teamId : String)
  | code (value : String)

inductive BodyBlock where
  | paragraph (lines : List (List BodySegment))
  | blockquote (lines : List (List BodySegment))
  | bullet (items : List (List BodySegment))
  | ordered (items : List (List BodySegment))
  | codeblock (value : String) (lang : Option String)

inductive StyleToken where
  | link (label href : List Char)
  | url (matched : List Char)
  | styled (style : Style) (value : List Char)

def styleRun (style : Style) (delimiter : List Char) (c : Char) : Matcher StyleToken :=
  (delimited delimiter (fun other => other ≠ c ∧ other ≠ '\n') delimiter).map (.styled style)

def STYLE_RE : Matcher StyleToken :=
  ((styleRun .bold ['*'] '*').or (styleRun .italic ['_'] '_')).or
    ((styleRun .underline ['+', '+'] '+').or (styleRun .strike ['~'] '~'))

/-- `(?:https?:\/\/|\/)`. -/
def linkScheme (target : List Char) : Option (List Char) :=
  ["https://".toList, "http://".toList, "/".toList].find? fun scheme => scheme.isPrefixOf target

/-- `\[[^\]\n]+\]\((?:https?:\/\/|\/)[^)\s]+\)`. -/
def markdownLink : Matcher StyleToken := fun text =>
  if ['['].isPrefixOf text then
    let label := (text.drop 1).takeWhile fun c => c ≠ ']' ∧ c ≠ '\n'
    let behind := text.drop (1 + label.length)
    if label ≠ [] ∧ [']', '('].isPrefixOf behind then
      match linkScheme (behind.drop 2) with
      | none => none
      | some scheme =>
        let path := (behind.drop (2 + scheme.length)).takeWhile fun c => c ≠ ')' ∧ !isSpace c
        if path ≠ [] ∧ [')'].isPrefixOf (behind.drop (2 + scheme.length + path.length)) then
          some (.link label (scheme ++ path), label.length + scheme.length + path.length + 4)
        else none
    else none
  else none

/-- The punctuation that ends a bare URL. -/
def urlStops : List Nat :=
  [60, 62, 34, 39, 96, 0xff08, 0xff09, 0x300c, 0x300d, 0x300e, 0x300f, 0x3010, 0x3011, 0x3014,
    0x3015, 0xff5b, 0xff5d, 0x3008, 0x3009, 0x300a, 0x300b, 0x3001, 0x3002, 0xff0c, 0xff01,
    0xff1f, 0xff1a, 0xff1b, 0x2026]

/-- `https?:\/\/` and what follows up to white space or one of the stops. -/
def bareUrl : Matcher StyleToken := fun text =>
  match ["https://".toList, "http://".toList].find? fun scheme => scheme.isPrefixOf text with
  | none => none
  | some scheme =>
    let path := (text.drop scheme.length).takeWhile fun c => !isSpace c ∧ c.toNat ∉ urlStops
    if path ≠ [] then some (.url (scheme ++ path), scheme.length + path.length) else none

def INLINE_RE : Matcher StyleToken :=
  (markdownLink.or bareUrl).or STYLE_RE

/-- `[.,;:!?)\]}]`. -/
def isUrlTrail (c : Char) : Bool :=
  c.toNat ∈ [46, 44, 59, 58, 33, 63, 41, 93, 125]

/-- A closing parenthesis stays while one that is open needs it. -/
def rebalance (url : List Char) : List Char → List Char
  | ')' :: rest =>
    if url.count ')' < url.count '(' then rebalance (url ++ [')']) rest else url
  | _ => url

def trimBareUrl (matched : List Char) : List Char :=
  let url := (matched.reverse.dropWhile isUrlTrail).reverse
  rebalance url (matched.drop url.length)

/-- What a run without a token holds. -/
def textRun (pending : List Char) : List BodySegment :=
  if pending = [] then [] else [.text (String.ofList pending)]

/-- The matcher of a run, and the one inside a styled run. -/
def styleMatcher (nested : Bool) : Matcher StyleToken :=
  if nested then STYLE_RE else INLINE_RE

theorem styleRun_value_length {style found : Style} {delimiter text value : List Char}
    {c : Char} {length : Nat} (notEmpty : delimiter ≠ [])
    (matched : styleRun style delimiter c text = some (.styled found value, length)) :
    value.length < text.length := by
  obtain ⟨content, delimits, equal⟩ := Matcher.map_eq_some.mp matched
  cases equal
  obtain ⟨-, -, -, after, rfl⟩ := delimited_sound delimits
  have positive : 0 < delimiter.length := List.length_pos_of_ne_nil notEmpty
  simp only [List.length_append]
  omega

theorem styled_value_length {nested : Bool} {text value : List Char} {style : Style} {length : Nat}
    (matched : styleMatcher nested text = some (.styled style value, length)) :
    value.length < text.length := by
  have ofStyle : STYLE_RE text = some (.styled style value, length) →
      value.length < text.length := by
    intro found
    unfold STYLE_RE Matcher.or at found
    rcases or_eq_some_iff.mp found with found | ⟨-, found⟩
    · rcases or_eq_some_iff.mp found with found | ⟨-, found⟩
      · exact styleRun_value_length (by decide) found
      · exact styleRun_value_length (by decide) found
    · rcases or_eq_some_iff.mp found with found | ⟨-, found⟩
      · exact styleRun_value_length (by decide) found
      · exact styleRun_value_length (by decide) found
  cases nested with
  | true => exact ofStyle matched
  | false =>
    rcases or_eq_some_iff.mp matched with found | ⟨-, found⟩
    · rcases or_eq_some_iff.mp found with found | ⟨-, found⟩
      · unfold markdownLink at found
        grind
      · unfold bareUrl at found
        grind
    · exact ofStyle found

def nestedChildren : List BodySegment → List BodySegment
  | [.text _] => []
  | inner => inner

/-- The styles and links of a run, after text that is still to be put out. -/
def inlineStyles (nested : Bool) (pending : List Char) : List Char → List BodySegment
  | [] => textRun pending
  | c :: rest =>
    match _found : styleMatcher nested (c :: rest) with
    | none => inlineStyles nested (pending ++ [c]) rest
    | some (.link label href, length) =>
      textRun pending ++ .link (String.ofList href) (String.ofList label) ::
        inlineStyles nested [] (rest.drop (length - 1))
    | some (.url matched, length) =>
      let url := trimBareUrl matched
      textRun pending ++ .link (String.ofList url) (String.ofList url) ::
        inlineStyles nested (matched.drop url.length) (rest.drop (length - 1))
    | some (.styled style value, length) =>
      textRun pending ++
        .styled style (String.ofList value) (nestedChildren (inlineStyles true [] value)) ::
          inlineStyles nested [] (rest.drop (length - 1))
termination_by text => text.length
decreasing_by
  · simp
  · simp only [List.length_drop, List.length_cons]
    omega
  · simp only [List.length_drop, List.length_cons]
    omega
  · exact styled_value_length (by assumption)
  · simp only [List.length_drop, List.length_cons]
    omega

/-- What is tokenized first, so that its contents stay literal. -/
inductive BodyToken where
  | code (value : List Char)
  | mention (userId : List Char)
  | teamMention (teamId : List Char)

def MENTION_RE : Matcher (List Char) :=
  delimited ['<', '@'] isWordChar ['>']

def TEAM_MENTION_RE : Matcher (List Char) :=
  delimited ['<', '!', 't', 'e', 'a', 'm', ':'] isTeamChar ['>']

def TOKEN_RE : Matcher BodyToken :=
  ((codeSpan.map .code).or (MENTION_RE.map .mention)).or (TEAM_MENTION_RE.map .teamMention)

def BodyToken.segment : BodyToken → BodySegment
  | .code value => .code (String.ofList value)
  | .mention userId => .mention (String.ofList userId)
  | .teamMention teamId => .teamMention (String.ofList teamId)

def segmentsFrom (pending : List Char) : List (Piece BodyToken) → List BodySegment
  | [] => inlineStyles false [] pending
  | .char c :: rest => segmentsFrom (pending ++ [c]) rest
  | .token found :: rest =>
    inlineStyles false [] pending ++ found.segment :: segmentsFrom [] rest

def inlineSegments (text : List Char) : List BodySegment :=
  segmentsFrom [] (scan TOKEN_RE text)

variable (line : List Char)

/-- `/^>\s?/`. -/
def isQuote : Bool :=
  line.head? = some '>'

def dropQuote : List Char :=
  match line.drop 1 with
  | c :: rest => if isSpace c then rest else c :: rest
  | [] => []

/-- `/^[-*]\s+/`. -/
def isBullet : List Char → Bool
  | mark :: c :: _ => (mark = '-' || mark = '*') && isSpace c
  | _ => false

def dropBullet : List Char :=
  (line.drop 1).dropWhile isSpace

/-- `/^\d+\.\s+/`. -/
def isOrdered : Bool :=
  match line.dropWhile Char.isDigit with
  | '.' :: c :: _ => line.takeWhile Char.isDigit ≠ [] && isSpace c
  | _ => false

def dropOrdered : List Char :=
  ((line.dropWhile Char.isDigit).drop 1).dropWhile isSpace

def isPlain : Bool :=
  !isFence line && !isQuote line && !isBullet line && !isOrdered line

/-- The language that an opening fence names. -/
def fenceLang : Option String :=
  let hint := (((line.drop 3).dropWhile isSpace).reverse.dropWhile isSpace).reverse
  if hint ≠ [] ∧ hint.all isTeamChar then some (String.ofList hint) else none

theorem length_dropWhile_le (isMember : List Char → Bool) (lines : List (List Char)) :
    (lines.dropWhile isMember).length ≤ lines.length :=
  (List.dropWhile_suffix isMember).length_le

def blocksOf : List (List Char) → List BodyBlock
  | [] => []
  | line :: rest =>
    if isFence line then
      .codeblock
          (String.ofList (List.intercalate ['\n'] (rest.takeWhile fun line => !isFence line)))
          (fenceLang line) ::
        blocksOf ((rest.dropWhile fun line => !isFence line).drop 1)
    else if isQuote line then
      .blockquote ((line :: rest.takeWhile isQuote).map fun line =>
          inlineSegments (dropQuote line)) ::
        blocksOf (rest.dropWhile isQuote)
    else if isBullet line then
      .bullet ((line :: rest.takeWhile isBullet).map fun line =>
          inlineSegments (dropBullet line)) ::
        blocksOf (rest.dropWhile isBullet)
    else if isOrdered line then
      .ordered ((line :: rest.takeWhile isOrdered).map fun line =>
          inlineSegments (dropOrdered line)) ::
        blocksOf (rest.dropWhile isOrdered)
    else
      .paragraph ((line :: rest.takeWhile isPlain).map inlineSegments) ::
        blocksOf (rest.dropWhile isPlain)
termination_by lines => lines.length
decreasing_by
  · have shorter := length_dropWhile_le (fun line => !isFence line) rest
    simp only [List.length_drop, List.length_cons]
    omega
  · have shorter := length_dropWhile_le isQuote rest
    simp only [List.length_cons]
    omega
  · have shorter := length_dropWhile_le isBullet rest
    simp only [List.length_cons]
    omega
  · have shorter := length_dropWhile_le isOrdered rest
    simp only [List.length_cons]
    omega
  · have shorter := length_dropWhile_le isPlain rest
    simp only [List.length_cons]
    omega

variable (body : String)

def parseBlocks : List BodyBlock :=
  blocksOf (body.toList.splitOn '\n')

def stripCodeLines : Bool → List (List Char) → List (List Char)
  | _, [] => []
  | inFence, line :: rest =>
    if isFence line then stripCodeLines (!inFence) rest
    else if inFence then stripCodeLines inFence rest
    else replaceAll codeSpan [' '] line :: stripCodeLines inFence rest

def stripCodeSpans : List Char :=
  List.intercalate ['\n'] (stripCodeLines false (body.toList.splitOn '\n'))

def uniqueCaptures (re : Matcher (List Char)) : List String :=
  unique ((matchAll re (stripCodeSpans body)).map String.ofList)

def extractMentions : List String :=
  uniqueCaptures body MENTION_RE

def extractTeamMentions : List String :=
  uniqueCaptures body TEAM_MENTION_RE

end DubEcosystem.Chat.Fe6

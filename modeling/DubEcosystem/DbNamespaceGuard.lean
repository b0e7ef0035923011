import DubEcosystem.ChatMentions
import DubEcosystem.DbNamespaces

/-!
# packages/db: the namespace guard

`tablesOf` of `namespaces.ts` and the guard of `client.ts`.  Which tables a statement touches
is for SQLite to say: the engine lists the references, each with the text around it.
-/

namespace DubEcosystem.Db

open List Option
open Chat (DubError isWordChar backtick unique mem_unique)
open IdentityRoster (isSpace jsLength)

/-- The double quote, the single quote and the backtick. -/
def quotes : List Char :=
  [Char.ofNat 34, Char.ofNat 39, backtick]

def word (text : List Char) : String :=
  String.ofList ((text.takeWhile isWordChar).map Char.toLower)

def behindWord (text : List Char) : List Char :=
  text.dropWhile isWordChar

/-- `\s+`. -/
def spaced : List Char → Option (List Char)
  | c :: rest => if isSpace c then some (rest.dropWhile isSpace) else none
  | [] => none

def dropQuote : List Char → List Char
  | c :: rest => if c ∈ quotes then rest else c :: rest
  | [] => []

def nameAt (text : List Char) : Option (List Char × List Char) :=
  let text := dropQuote text
  if text.head?.any fun c => isWordChar c && !c.isDigit then
    some (text.takeWhile isWordChar, dropQuote (behindWord text))
  else none

def spacedName (text : List Char) : Option (List Char × List Char) :=
  (spaced text).bind nameAt

def spacedWord (expected : String) (text : List Char) : Option (List Char) :=
  (spaced text).bind fun rest => if word rest = expected then some (behindWord rest) else none

/-- What `TABLE_REGEX` captures at the start of a text, and the text behind the match.  Each
of its keywords is followed by white space, and is a whole word. -/
def TABLE_REGEX (text : List Char) : Option (List Char × List Char) :=
  let behind := behindWord text
  if word text ∈ ["from", "join", "into", "update"] then spacedName behind
  else if word text = "table" then
    ((((spacedWord "if" behind).bind (spacedWord "not")).bind (spacedWord "exists")).bind
      spacedName).or (spacedName behind)
  else if word text = "delete" then (spacedWord "from" behind).bind spacedName
  else none

/-- The captures of the matches of `TABLE_REGEX`, behind the next `skip` characters; a match
does not start behind a character of a word. -/
def captures : Bool → Nat → List Char → List (List Char)
  | _, _, [] => []
  | _, skip + 1, c :: rest => captures (isWordChar c) skip rest
  | inWord, 0, c :: rest =>
    match if inWord then none else TABLE_REGEX (c :: rest) with
    | some (name, behind) =>
      name :: captures (isWordChar c) (rest.length - behind.length) rest
    | none => captures (isWordChar c) 0 rest

/-- `DDL_REGEX`. -/
def isDdl (sql : String) : Bool :=
  word (sql.toList.dropWhile isSpace) ∈ ["create", "alter", "drop", "truncate", "attach",
    "detach", "pragma", "reindex", "vacuum"]

section Guard

variable (toLowerCase : String → String)

/-- The namespace with the longest name wins. -/
def namespaceOf (table : String) : Option Namespace :=
  let lower := toLowerCase table
  namespaces.foldl (fun best ns =>
    if (lower = ns.text ∨ (ns.text.toList ++ ['_']).isPrefixOf lower.toList) ∧
        best.all fun other => jsLength other.text < jsLength ns.text
    then some ns else best) none

def NON_TABLE_TOKENS : List String :=
  ["set", "select", "values", "where", "json_each"]

def tablesOf (sql : String) : List String :=
  unique (((captures false 0 sql.toList).map String.ofList).filter fun table =>
    toLowerCase table ∉ NON_TABLE_TOKENS)

inductive Enforcement where
  | strict | warn | off
  deriving DecidableEq

structure DbClientOptions where
  ns : Namespace
  enforcement : Enforcement := .strict

def assertNotDdl (sql : String) : Except DubError Unit :=
  if isDdl sql then
    throw ⟨"DB_FORBIDDEN_STATEMENT", 500,
      "Runtime DDL is forbidden via DbClient (use raw() with a log mark)", []⟩
  else pure ()

/-- The check of the tables that were found, with the messages it logs. -/
def assertTables (opts : DbClientOptions) : List String → Except DubError (List String)
  | [] => pure []
  | table :: rest =>
    let owner := namespaceOf toLowerCase table
    let msg := "statement touches \"" ++ table ++ "\" (namespace " ++
      (owner.map Namespace.text).getD "unknown" ++ ") outside declared namespace \"" ++
      opts.ns.text ++ "\""
    if owner = some opts.ns then assertTables opts rest
    else if opts.enforcement = .warn then do
      let logged ← assertTables opts rest
      pure (("[warn] " ++ msg) :: logged)
    else throw ⟨"DB_NAMESPACE_VIOLATION", 500, msg, []⟩

variable (opts : DbClientOptions)

def assertNamespace (sql : String) : Except DubError (List String) :=
  if opts.enforcement = .off then pure []
  else assertTables toLowerCase opts (tablesOf toLowerCase sql)

def guard (sql : String) : Except DubError (List String) := do
  assertNotDdl sql
  assertNamespace toLowerCase opts sql

/-- A call of the client, apart from the binds. -/
inductive Request where
  | first (sql : String)
  | all (sql : String)
  | run (sql : String)
  | batch (stmts : List String)

def guardAll (opts : DbClientOptions) : List String → Except DubError Unit
  | [] => pure ()
  | sql :: rest => do
    let _ ← guard toLowerCase opts sql
    guardAll opts rest

/-- The statements of a call that D1 is given. -/
def DbClient.perform : Request → Except DubError (List String)
  | .first sql | .all sql | .run sql => do
    let _ ← guard toLowerCase opts sql
    pure [sql]
  | .batch stmts => do
    guardAll toLowerCase opts stmts
    pure stmts

end Guard

section Claim

/-- A reference to a table: its name as it is spelled, and the text around it. -/
structure TableRef where
  before : List Char
  spelled : List Char
  after : List Char
  table : String
  /-- Between quotes or not, a plain name is the name of the table. -/
  isPlain : (∀ c ∈ spelled, isWordChar c) → table = String.ofList spelled

/-- What SQLite makes of a statement. -/
structure SqlEngine where
  tables : String → List TableRef
  changesSchema : String → Bool
  inText : ∀ sql, ∀ ref ∈ tables sql, ref.before ++ ref.spelled ++ ref.after = sql.toList

variable (toLowerCase : String → String)

def BelongsTo (ns : Namespace) (table : String) : Prop :=
  namespaceOf toLowerCase table = some ns ∨ toLowerCase table = "json_each"

/-- A strict client of a namespace gives the statement to D1. -/
def Executes (ns : Namespace) (sql : String) : Prop :=
  ∃ request stmts, DbClient.perform toLowerCase { ns } request = .ok stmts ∧ sql ∈ stmts

def GuardSound (engine : SqlEngine) (ns : Namespace) (sql : String) : Prop :=
  Executes toLowerCase ns sql → (∀ ref ∈ engine.tables sql, BelongsTo toLowerCase ns ref.table) ∧
      engine.changesSchema sql = false

def endsInWord (inWord : Bool) (text : List Char) : Bool :=
  (text.getLast?.map isWordChar).getD inWord

/-- A keyword of the statement, at the start of a word, has a name that is none of the
namespace directly behind it. -/
def NamesOther (ns : Namespace) (sql : String) : Prop :=
  ∃ before after name behind, sql.toList = before ++ after ∧ endsInWord false before = false ∧
    TABLE_REGEX after = some (name, behind) ∧ toLowerCase (String.ofList name) ∉ NON_TABLE_TOKENS ∧
        namespaceOf toLowerCase (String.ofList name) ≠ some ns

structure TableRef.Plain (ref : TableRef) : Prop where
  behindKeyword : ∃ front keyword spaces opening, ref.before = front ++ keyword ++ spaces ++ opening ∧
    endsInWord false front = false ∧ (∀ c ∈ keyword, isWordChar c) ∧
      word keyword ∈ ["from", "join", "into", "update"] ∧ spaces ≠ [] ∧ (∀ c ∈ spaces, isSpace c) ∧
          (opening = [] ∨ ∃ quote ∈ quotes, opening = [quote])
  isName : (∀ c ∈ ref.spelled, isWordChar c) ∧
    ref.spelled.head?.any fun c => isWordChar c && !c.isDigit
  whole : ∀ c ∈ ref.after.head?, isWordChar c = false
  isTable : toLowerCase ref.table ∉ ["set", "select", "values", "where"]

end Claim

def Within (inWord : Bool) (text after : List Char) : Prop :=
  ∃ before, text = before ++ after ∧ endsInWord inWord before = false

variable {inWord : Bool} {text after rest : List Char} {found : List Char × List Char}

variable {c : Char}

theorem isWordChar_of_isSpace (space : isSpace c = true) : isWordChar c = false := by
  by_contra isWord
  have isUnit : c.toNat < 128 ∧ c.toNat ∉ [9, 10, 11, 12, 13, 32] := by
    change ¬(decide (c.val ≥ 'A'.val ∧ c.val ≤ 'Z'.val) ||
      (c.val ≥ 'a'.val && c.val ≤ 'z'.val) || (c.val ≥ '0'.val && c.val ≤ '9'.val) ||
      c = '_') = false at isWord
    simp only [Bool.or_eq_true, Bool.and_eq_true, decide_eq_true_eq, Bool.not_eq_false,
      UInt32.le_iff_toNat_le, Char.toNat] at isWord ⊢
    rcases isWord with ((isUpper | isLower) | isDigit) | rfl
    · simp at isUpper ⊢; omega
    · simp at isLower ⊢; omega
    · simp at isDigit ⊢; omega
    · decide
  simp only [isSpace, decide_eq_true_eq, mem_cons, not_mem_nil, or_false] at space isUnit
  omega

theorem isWordChar_of_quote (isQuote : c ∈ quotes) : isWordChar c = false := by
  simp only [quotes, mem_cons, not_mem_nil, or_false] at isQuote
  rcases isQuote with rfl | rfl | rfl <;> decide

theorem word_of_match (matched : TABLE_REGEX text = some found) :
    word text ∈ ["from", "join", "into", "update", "table", "delete"] := by
  by_contra isOther
  simp only [mem_cons, not_mem_nil, or_false, not_or] at isOther
  obtain ⟨notFrom, notJoin, notInto, notUpdate, notTable, notDelete⟩ := isOther
  simp [TABLE_REGEX, notFrom, notJoin, notInto, notUpdate, notTable, notDelete] at matched

theorem isWordChar_of_match (matched : TABLE_REGEX (c :: rest) = some found) :
    isWordChar c = true := by
  by_contra notWord
  have isKeyword := word_of_match matched
  simp [word, notWord] at isKeyword

theorem Within.cons {c : Char} (isWithin : Within (isWordChar c) rest after) :
    Within inWord (c :: rest) after := by
  obtain ⟨before, rfl, ends⟩ := isWithin
  refine ⟨c :: before, rfl, ?_⟩
  simpa [endsInWord, getLast?_cons] using ends

theorem Within.of_cons (isWithin : Within inWord (c :: rest) after) :
    (after = c :: rest ∧ inWord = false) ∨ Within (isWordChar c) rest after := by
  obtain ⟨before, isText, ends⟩ := isWithin
  cases before with
  | nil => exact .inl ⟨isText.symm, ends⟩
  | cons head before =>
    cases isText
    right
    refine ⟨before, rfl, ?_⟩
    simpa [endsInWord, getLast?_cons] using ends

theorem Within.length_le (isWithin : Within inWord text after) : after.length ≤ text.length := by
  obtain ⟨before, rfl, -⟩ := isWithin
  simp

theorem Within.behindWord (isWithin : Within true text after) :
    Within true (behindWord text) after := by
  induction text with
  | nil => exact isWithin
  | cons c rest ih =>
    by_cases isWord : isWordChar c = true
    · rw [Db.behindWord, dropWhile_cons_of_pos isWord]
      rcases isWithin.of_cons with ⟨-, isFalse⟩ | behind
      · cases isFalse
      · rw [isWord] at behind
        exact ih behind
    · rw [Db.behindWord, dropWhile_cons_of_neg isWord]
      exact isWithin

theorem Within.start_or_behindWord (isWithin : Within inWord text after) :
    after = text ∨ Within true (Db.behindWord text) after := by
  obtain ⟨before, rfl, ends⟩ := isWithin
  cases before with
  | nil => exact .inl rfl
  | cons c before =>
    right
    apply Within.behindWord
    refine ⟨c :: before, rfl, ?_⟩
    simpa [endsInWord, getLast?_cons] using ends

/-- A match does not start with a character that is in no word. -/
theorem Within.tail {c : Char} (isWithin : Within inWord (c :: rest) after)
    (matched : TABLE_REGEX after = some found) (notWord : isWordChar c = false) :
    Within false rest after := by
  rcases isWithin.of_cons with ⟨rfl, -⟩ | behind
  · rw [isWordChar_of_match matched] at notWord
    cases notWord
  · rw [notWord] at behind
    exact behind

theorem Within.dropSpaces (isWithin : Within false text after)
    (matched : TABLE_REGEX after = some found) : Within false (text.dropWhile isSpace) after := by
  induction text with
  | nil => exact isWithin
  | cons c rest ih =>
    by_cases space : isSpace c = true
    · rw [dropWhile_cons_of_pos space]
      exact ih (isWithin.tail matched (isWordChar_of_isSpace space))
    · rw [dropWhile_cons_of_neg space]
      exact isWithin

section

variable (isWithin : Within inWord text after) (matched : TABLE_REGEX after = some found)
include isWithin matched

theorem Within.spaced (isSpaced : spaced text = some rest) : Within false rest after := by
  cases text with
  | nil => cases isSpaced
  | cons c tail =>
    simp only [Db.spaced] at isSpaced
    split at isSpaced
    · rename_i space
      cases isSpaced
      exact (isWithin.tail matched (isWordChar_of_isSpace space)).dropSpaces matched
    · cases isSpaced

theorem Within.dropQuote : ∃ flag, Within flag (dropQuote text) after := by
  cases text with
  | nil => exact ⟨_, isWithin⟩
  | cons c rest =>
    by_cases isQuote : c ∈ quotes
    · rw [Db.dropQuote, if_pos isQuote]
      exact ⟨_, isWithin.tail matched (isWordChar_of_quote isQuote)⟩
    · rw [Db.dropQuote, if_neg isQuote]
      exact ⟨_, isWithin⟩

theorem Within.spacedName {name behind : List Char}
    (isNamed : spacedName text = some (name, behind)) (isInside : behind.length < after.length) :
    String.ofList (name.map Char.toLower) = word after := by
  obtain ⟨rest, isSpaced, isName⟩ := bind_eq_some_iff.mp isNamed
  obtain ⟨_, unquoted⟩ := (isWithin.spaced matched isSpaced).dropQuote matched
  simp only [nameAt] at isName
  split at isName
  · obtain ⟨rfl, rfl⟩ := Prod.mk.inj (some.inj isName)
    rcases unquoted.start_or_behindWord with rfl | behindName
    · rfl
    · obtain ⟨_, further⟩ := behindName.dropQuote matched
      exact absurd further.length_le (by omega)
  · cases isName

theorem Within.spacedWord {expected : String} (isSpaced : spacedWord expected text = some rest) :
    (word after = expected ∧ rest = Db.behindWord after) ∨ Within true rest after := by
  obtain ⟨start, spaced, isWord⟩ := bind_eq_some_iff.mp isSpaced
  split at isWord
  · rename_i isExpected
    cases isWord
    rcases (isWithin.spaced matched spaced).start_or_behindWord with rfl | behind
    · exact .inl ⟨isExpected, rfl⟩
    · exact .inr behind
  · cases isWord

end

theorem captured_within {name behind : List Char} (isMatch : TABLE_REGEX text = some (name, behind))
    (isWithin : Within inWord text after) (matched : TABLE_REGEX after = some found)
    (isInside : behind.length < after.length) :
    found.1 = name ∨ String.ofList (name.map Char.toLower) = word after := by
  have isKeyword := word_of_match matched
  rcases isWithin.start_or_behindWord with rfl | behindKeyword
  · rw [isMatch] at matched
    exact .inl (congrArg Prod.fst (some.inj matched)).symm
  simp only [TABLE_REGEX] at isMatch
  split at isMatch
  · exact .inr (behindKeyword.spacedName matched isMatch isInside)
  split at isMatch
  · rcases or_eq_some_iff.mp isMatch with ifNotExists | ⟨-, isNamed⟩
    · -- The words between are no keywords.
      simp only [Option.bind_assoc, bind_eq_some_iff] at ifNotExists
      obtain ⟨first, isIf, second, isNot, third, isExists, isNamed⟩ := ifNotExists
      rcases behindKeyword.spacedWord matched isIf with ⟨isWord, -⟩ | behindIf
      · simp [isWord] at isKeyword
      rcases behindIf.spacedWord matched isNot with ⟨isWord, -⟩ | behindNot
      · simp [isWord] at isKeyword
      rcases behindNot.spacedWord matched isExists with ⟨isWord, -⟩ | behindExists
      · simp [isWord] at isKeyword
      exact .inr (behindExists.spacedName matched isNamed isInside)
    · exact .inr (behindKeyword.spacedName matched isNamed isInside)
  split at isMatch
  · obtain ⟨rest, isFrom, isNamed⟩ := bind_eq_some_iff.mp isMatch
    rcases behindKeyword.spacedWord matched isFrom with ⟨isWord, rfl⟩ | behindFrom
    · rw [TABLE_REGEX, if_pos (by simp [isWord]), isNamed] at matched
      exact .inl (congrArg Prod.fst (some.inj matched)).symm
    · exact .inr (behindFrom.spacedName matched isNamed isInside)
  · cases isMatch

/-- What holds of every capture, and of no keyword, holds of every name behind a keyword. -/
theorem forall_captures {allowed : List Char → Prop} {skip : Nat}
    (noKeyword : ∀ name, String.ofList (name.map Char.toLower) ∈
      ["from", "join", "into", "update", "table", "delete"] → ¬allowed name)
    (inside : ∀ after found, Within inWord text after → TABLE_REGEX after = some found →
      text.length - skip < after.length → allowed found.1)
    (isAllowed : ∀ name ∈ captures inWord skip text, allowed name) :
    ∀ after found, Within inWord text after → TABLE_REGEX after = some found → allowed found.1 := by
  induction text generalizing inWord skip with
  | nil =>
    rintro after found ⟨before, isText, -⟩ matched
    rw [(append_eq_nil_iff.mp isText.symm).2] at matched
    cases matched
  | cons c rest ih =>
    intro after found isWithin matched
    cases skip with
    | succ skip =>
      rcases isWithin.of_cons with ⟨rfl, -⟩ | behind
      · exact inside _ found isWithin matched (by rw [length_cons]; omega)
      · refine @ih _ skip ?_ isAllowed after found behind matched
        intro other otherFound isInside otherMatched isLong
        apply inside other otherFound isInside.cons otherMatched
        simpa using isLong
    | zero =>
      simp only [captures] at isAllowed
      split at isAllowed
      · rename_i name behindMatch isMatch
        obtain ⟨nameAllowed, others⟩ := forall_mem_cons.mp isAllowed
        split at isMatch
        · cases isMatch
        have ofInside : ∀ other otherFound, Within inWord (c :: rest) other →
            TABLE_REGEX other = some otherFound → behindMatch.length < other.length →
              allowed otherFound.1 := by
          intro other otherFound isInside otherMatched isLong
          rcases captured_within isMatch isInside otherMatched isLong with same | isKeyword
          · exact same ▸ nameAllowed
          · exact absurd nameAllowed (noKeyword name (isKeyword ▸ word_of_match otherMatched))
        rcases isWithin.of_cons with ⟨rfl, -⟩ | behind
        · rw [isMatch] at matched
          cases matched
          exact nameAllowed
        · refine ih ?_ others after found behind matched
          intro other otherFound isInside otherMatched isLong
          apply ofInside other otherFound isInside.cons otherMatched
          have := isInside.length_le
          omega
      · rename_i notMatch
        rcases isWithin.of_cons with ⟨rfl, rfl⟩ | behind
        · simp [matched] at notMatch
        · refine @ih _ 0 ?_ isAllowed after found behind matched
          intro other otherFound isInside _ isLong
          have := isInside.length_le
          omega

theorem exists_of_mem_captures {skip : Nat} {name : List Char}
    (captured : name ∈ captures inWord skip text) :
    ∃ after behind, Within inWord text after ∧ TABLE_REGEX after = some (name, behind) := by
  induction text generalizing inWord skip with
  | nil => cases skip <;> cases captured
  | cons c rest ih =>
    have further : ∀ {skip}, name ∈ captures (isWordChar c) skip rest →
        ∃ after behind, Within inWord (c :: rest) after ∧
          TABLE_REGEX after = some (name, behind) := by
      intro skip inRest
      obtain ⟨after, behind, isWithin, matched⟩ := ih inRest
      exact ⟨after, behind, isWithin.cons, matched⟩
    cases skip with
    | succ skip => exact further captured
    | zero =>
      simp only [captures] at captured
      split at captured
      · rename_i isMatch
        rcases mem_cons.mp captured with rfl | inRest
        · split at isMatch
          · cases isMatch
          · rename_i notInWord
            exact ⟨c :: rest, _, ⟨[], rfl, by simpa [endsInWord] using notInWord⟩, isMatch⟩
        · exact further inRest
      · exact further captured

variable {toLowerCase : String → String} {ns : Namespace} {sql : String}

/-- A word of ASCII letters, digits and underscores has the lower case that is expected. -/
def LowersWords (toLowerCase : String → String) : Prop :=
  ∀ name : List Char, (∀ c ∈ name, isWordChar c) →
    toLowerCase (String.ofList name) = String.ofList (name.map Char.toLower)

theorem isWordChar_of_captured {name behind : List Char}
    (matched : TABLE_REGEX text = some (name, behind)) : ∀ c ∈ name, isWordChar c := by
  have ofNamed : ∀ {text}, spacedName text = some (name, behind) → ∀ c ∈ name, isWordChar c := by
    intro text isNamed
    obtain ⟨rest, -, isName⟩ := bind_eq_some_iff.mp isNamed
    simp only [nameAt] at isName
    split at isName
    · obtain ⟨rfl, -⟩ := Prod.mk.inj (some.inj isName)
      exact fun c member => mem_takeWhile_imp member
    · cases isName
  simp only [TABLE_REGEX] at matched
  split at matched
  · exact ofNamed matched
  split at matched
  · rcases or_eq_some_iff.mp matched with ifNotExists | ⟨-, isNamed⟩
    · obtain ⟨_, -, isNamed⟩ := bind_eq_some_iff.mp ifNotExists
      exact ofNamed isNamed
    · exact ofNamed isNamed
  split at matched
  · obtain ⟨_, -, isNamed⟩ := bind_eq_some_iff.mp matched
    exact ofNamed isNamed
  · cases matched

/-- A keyword is neither passed over nor a table of a namespace. -/
theorem not_allowed_of_keyword {table : String} (isKeyword : toLowerCase table ∈
      ["from", "join", "into", "update", "table", "delete"]) :
    toLowerCase table ∉ NON_TABLE_TOKENS ∧ namespaceOf toLowerCase table = none := by
  unfold namespaceOf
  generalize toLowerCase table = lower at isKeyword ⊢
  simp only [mem_cons, not_mem_nil, or_false] at isKeyword
  rcases isKeyword with rfl | rfl | rfl | rfl | rfl | rfl <;> decide +kernel

theorem mem_tablesOf {table : String} : table ∈ tablesOf toLowerCase sql ↔
    (∃ name ∈ captures false 0 sql.toList, String.ofList name = table) ∧
      toLowerCase table ∉ NON_TABLE_TOKENS := by
  simp [tablesOf, Chat.mem_unique, mem_filter, List.mem_map]

def Owned (toLowerCase : String → String) (ns : Namespace) (name : List Char) : Prop :=
  (∀ c ∈ name, isWordChar c) ∧ (toLowerCase (String.ofList name) ∈ NON_TABLE_TOKENS ∨
    namespaceOf toLowerCase (String.ofList name) = some ns)

theorem not_owned_of_keyword (lowers : LowersWords toLowerCase) (name : List Char)
    (isKeyword : String.ofList (name.map Char.toLower) ∈
      ["from", "join", "into", "update", "table", "delete"]) : ¬Owned toLowerCase ns name := by
  rintro ⟨isWord, isOwned⟩
  rw [← lowers name isWord] at isKeyword
  obtain ⟨notToken, noNamespace⟩ := not_allowed_of_keyword isKeyword
  simp [notToken, noNamespace] at isOwned

/-- The scan finds a table of another namespace where a keyword has one behind it. -/
theorem namesOther_iff (lowers : LowersWords toLowerCase) :
    NamesOther toLowerCase ns sql ↔ ∃ table ∈ tablesOf toLowerCase sql,
      namespaceOf toLowerCase table ≠ some ns := by
  constructor
  · rintro ⟨before, after, name, behind, isText, ends, matched, isTable, isOther⟩
    by_contra noOther
    have captured : ∀ name ∈ captures false 0 sql.toList, Owned toLowerCase ns name := by
      intro name isCaptured
      obtain ⟨_, _, -, isMatch⟩ := exists_of_mem_captures isCaptured
      refine ⟨isWordChar_of_captured isMatch, ?_⟩
      by_contra notOwned
      rw [not_or] at notOwned
      exact noOther ⟨_, mem_tablesOf.mpr ⟨⟨name, isCaptured, rfl⟩, notOwned.1⟩, notOwned.2⟩
    obtain ⟨-, isToken | isOwn⟩ := forall_captures (not_owned_of_keyword lowers)
      (fun _ _ isWithin _ isLong => absurd isWithin.length_le (by omega)) captured after _
      ⟨before, isText, ends⟩ matched
    · exact isTable isToken
    · exact isOther isOwn
  · rintro ⟨table, isTable, isOther⟩
    obtain ⟨⟨name, isCaptured, rfl⟩, notToken⟩ := mem_tablesOf.mp isTable
    obtain ⟨after, behind, ⟨before, isText, ends⟩, matched⟩ := exists_of_mem_captures isCaptured
    exact ⟨before, after, name, behind, isText, ends, matched, notToken, isOther⟩

/-- A strict client refuses the first table of another namespace. -/
theorem assertTables_isOk {tables : List String} :
    (assertTables toLowerCase { ns } tables).isOk = true ↔
      ∀ table ∈ tables, namespaceOf toLowerCase table = some ns := by
  induction tables with
  | nil => simp [assertTables, Except.isOk, Except.toBool, pure, Except.pure]
  | cons table rest ih =>
    by_cases isOwn : namespaceOf toLowerCase table = some ns
    · simp [assertTables, isOwn, ih]
    · simp [assertTables, isOwn, Except.isOk, Except.toBool, throw, throwThe, MonadExceptOf.throw]

theorem guard_isOk (lowers : LowersWords toLowerCase) : (guard toLowerCase { ns } sql).isOk = true ↔
      isDdl sql = false ∧ ¬NamesOther toLowerCase ns sql := by
  rw [namesOther_iff lowers]
  by_cases ddl : isDdl sql = true
  · simp [guard, assertNotDdl, ddl, bind, Except.bind, throw, throwThe, MonadExceptOf.throw,
      Except.isOk, Except.toBool]
  · have isNamespace : guard toLowerCase { ns } sql =
        assertTables toLowerCase { ns } (tablesOf toLowerCase sql) := by
      simp [guard, assertNotDdl, ddl, assertNamespace, bind, Except.bind, pure, Except.pure]
    rw [isNamespace, assertTables_isOk]
    simp [ddl]

theorem guardAll_isOk {stmts : List String} : (guardAll toLowerCase { ns } stmts).isOk = true ↔
      ∀ sql ∈ stmts, (guard toLowerCase { ns } sql).isOk = true := by
  induction stmts with
  | nil => simp [guardAll, Except.isOk, Except.toBool, pure, Except.pure]
  | cons sql rest ih =>
    cases guarded : guard toLowerCase { ns } sql with
    | error error => simp [guardAll, guarded, bind, Except.bind, Except.isOk, Except.toBool]
    | ok logged =>
      rw [forall_mem_cons, ← ih]
      simp [guardAll, guarded, bind, Except.bind, Except.isOk, Except.toBool]

/-- What is executed has passed the guard, by whichever call. -/
theorem executes_iff :
    Executes toLowerCase ns sql ↔ (guard toLowerCase { ns } sql).isOk = true := by
  constructor
  · rintro ⟨request, stmts, performed, isStmt⟩
    have ofOne : ∀ one : String, (do
        let _ ← guard toLowerCase { ns } one
        pure [one]) = Except.ok stmts → (guard toLowerCase { ns } sql).isOk = true := by
      intro one isOk
      cases guarded : guard toLowerCase { ns } one with
      | error error => simp [guarded, bind, Except.bind] at isOk
      | ok logged =>
        simp only [guarded, bind, Except.bind, pure, Except.pure, Except.ok.injEq] at isOk
        obtain rfl := mem_singleton.mp (isOk ▸ isStmt)
        rw [guarded]
        rfl
    cases request with
    | first one | all one | run one => exact ofOne one performed
    | batch all =>
      cases guarded : guardAll toLowerCase { ns } all with
      | error error => simp [DbClient.perform, guarded, bind, Except.bind] at performed
      | ok _ =>
        simp only [DbClient.perform, guarded, bind, Except.bind, pure, Except.pure,
          Except.ok.injEq] at performed
        exact guardAll_isOk.mp (by rw [guarded]; rfl) sql (performed ▸ isStmt)
  · intro isOk
    cases guarded : guard toLowerCase { ns } sql with
    | error error => simp [guarded, Except.isOk, Except.toBool] at isOk
    | ok logged =>
      refine ⟨.run sql, [sql], ?_, mem_singleton.mpr rfl⟩
      simp [DbClient.perform, guarded, bind, Except.bind, pure, Except.pure]

/-- The part of a text that a predicate holds of, where it fails at the rest. -/
theorem span_append {inside : Char → Bool} {first : List Char}
    (isInside : ∀ c ∈ first, inside c = true) (stops : ∀ c ∈ rest.head?, inside c = false) :
    (first ++ rest).takeWhile inside = first ∧ (first ++ rest).dropWhile inside = rest := by
  induction first with
  | nil =>
    cases rest with
    | nil => exact ⟨rfl, rfl⟩
    | cons c rest => simp [stops c rfl]
  | cons c first ih =>
    obtain ⟨headInside, othersInside⟩ := forall_mem_cons.mp isInside
    simpa [headInside] using ih othersInside

variable {spelled opening : List Char}

theorem dropQuote_opening (isName : spelled.head?.any fun c => isWordChar c && !c.isDigit)
    (opens : opening = [] ∨ ∃ quote ∈ quotes, opening = [quote]) (after : List Char) :
    dropQuote (opening ++ spelled ++ after) = spelled ++ after ∧
      ∀ c ∈ (opening ++ spelled ++ after).head?, isSpace c = false := by
  obtain ⟨c, others, rfl⟩ : ∃ c others, spelled = c :: others := by
    cases spelled with
    | nil => cases isName
    | cons c others => exact ⟨c, others, rfl⟩
  have isWord : isWordChar c = true := by
    simp only [head?_cons, any_some, Bool.and_eq_true] at isName
    exact isName.1
  rcases opens with rfl | ⟨quote, isQuote, rfl⟩
  · have notQuote : c ∉ quotes := by
      intro isQuote
      rw [isWordChar_of_quote isQuote] at isWord
      cases isWord
    refine ⟨if_neg notQuote, ?_⟩
    rintro _ ⟨⟩
    by_contra space
    rw [isWordChar_of_isSpace (by simpa using space)] at isWord
    cases isWord
  · refine ⟨if_pos isQuote, ?_⟩
    rintro _ ⟨⟩
    simp only [quotes, mem_cons, not_mem_nil, or_false] at isQuote
    rcases isQuote with rfl | rfl | rfl <;> decide

theorem belongsTo_of_plain {ref : TableRef}
    (inText : ref.before ++ ref.spelled ++ ref.after = sql.toList)
    (isPlain : ref.Plain toLowerCase) (noOther : ¬NamesOther toLowerCase ns sql) :
    BelongsTo toLowerCase ns ref.table := by
  obtain ⟨front, keyword, spaces, opening, isBefore, ends, isWord, isKeyword, notEmpty, isSpaces,
    opens⟩ := isPlain.behindKeyword
  obtain ⟨isPlainWord, startsName⟩ := isPlain.isName
  obtain ⟨unquoted, stops⟩ := dropQuote_opening startsName opens ref.after
  obtain ⟨space, others, rfl⟩ := exists_cons_of_ne_nil notEmpty
  obtain ⟨headSpace, othersSpace⟩ := forall_mem_cons.mp isSpaces
  obtain ⟨name, behindName⟩ := span_append isPlainWord isPlain.whole
  have keywordEnds : ∀ c ∈ (space :: others ++ (opening ++ ref.spelled ++ ref.after)).head?,
      isWordChar c = false := by
    rintro _ ⟨⟩
    exact isWordChar_of_isSpace headSpace
  obtain ⟨isFirst, behindFirst⟩ := span_append isWord keywordEnds
  have named : spacedName (space :: others ++ (opening ++ ref.spelled ++ ref.after)) =
      some (ref.spelled, dropQuote ref.after) := by
    have startsHere : (ref.spelled ++ ref.after).head?.any
        (fun c => isWordChar c && !c.isDigit) = true := by
      cases isName : ref.spelled with
      | nil => simp [isName] at startsName
      | cons c rest => simpa [isName] using startsName
    rw [spacedName, cons_append, spaced, if_pos headSpace,
      (span_append othersSpace stops).2, bind_some, nameAt, unquoted, if_pos startsHere,
      name, behindWord, behindName]
  have matched : TABLE_REGEX (keyword ++ (space :: others ++ (opening ++ ref.spelled ++
      ref.after))) = some (ref.spelled, dropQuote ref.after) := by
    have sameWord : word (keyword ++ (space :: others ++ (opening ++ ref.spelled ++ ref.after))) =
        word keyword := by
      rw [word, isFirst, word, takeWhile_eq_self_iff.mpr isWord]
    rw [TABLE_REGEX, sameWord, if_pos isKeyword, behindWord, behindFirst, named]
  have isTable := isPlain.isTable
  rw [ref.isPlain isPlainWord] at isTable
  rw [BelongsTo, ref.isPlain isPlainWord]
  by_contra notOwned
  rw [not_or] at notOwned
  refine noOther ⟨front, _, ref.spelled, _, ?_, ends, matched, ?_, notOwned.1⟩
  · rw [← inText, isBefore]
    simp [append_assoc]
  · simp only [NON_TABLE_TOKENS, mem_cons, not_mem_nil, or_false, not_or] at isTable ⊢
    exact ⟨isTable.1, isTable.2.1, isTable.2.2.1, isTable.2.2.2, notOwned.2⟩

/-- The guard is sound for the statements that it refuses, and for those that touch no tables
of other namespaces but behind a keyword, and no schema. -/
theorem guardSound_iff (lowers : LowersWords toLowerCase) (engine : SqlEngine) (ns : Namespace)
    (sql : String) :
    GuardSound toLowerCase engine ns sql ↔ isDdl sql = true ∨ NamesOther toLowerCase ns sql ∨
        (∀ ref ∈ engine.tables sql, ¬ref.Plain toLowerCase →
          BelongsTo toLowerCase ns ref.table) ∧ engine.changesSchema sql = false := by
  rw [GuardSound, executes_iff, guard_isOk lowers]
  constructor
  · intro sound
    by_cases ddl : isDdl sql = true
    · exact .inl ddl
    by_cases other : NamesOther toLowerCase ns sql
    · exact .inr (.inl other)
    obtain ⟨owned, noSchema⟩ := sound ⟨by simpa using ddl, other⟩
    exact .inr (.inr ⟨fun ref member _ => owned ref member, noSchema⟩)
  · rintro (ddl | other | ⟨hidden, noSchema⟩) ⟨notDdl, noOther⟩
    · rw [ddl] at notDdl
      cases notDdl
    · exact absurd other noOther
    · refine ⟨fun ref member => ?_, noSchema⟩
      by_cases isPlain : ref.Plain toLowerCase
      · exact belongsTo_of_plain (engine.inText sql ref member) isPlain noOther
      · exact hidden ref member isPlain

def asciiLower (text : String) : String :=
  String.ofList (text.toList.map Char.toLower)

def commaJoin : String :=
  "SELECT * FROM task_tasks, chat_messages"

def taskRef : TableRef :=
  ⟨"SELECT * FROM ".toList, "task_tasks".toList, ", chat_messages".toList, "task_tasks",
    fun _ => rfl⟩

def chatRef : TableRef :=
  ⟨"SELECT * FROM task_tasks, ".toList, "chat_messages".toList, [], "chat_messages", fun _ => rfl⟩

def commaEngine : SqlEngine where
  tables sql := if sql = commaJoin then [taskRef, chatRef] else []
  changesSchema _ := false
  inText := by
    intro sql ref member
    split at member
    · rename_i isComma
      rw [isComma]
      simp only [mem_cons, not_mem_nil, or_false] at member
      rcases member with rfl | rfl <;> decide +kernel
    · cases member

theorem guardSound_iff_commaJoin : GuardSound asciiLower commaEngine .task commaJoin ↔
      isDdl commaJoin = true ∨ NamesOther asciiLower .task commaJoin ∨
        (∀ ref ∈ commaEngine.tables commaJoin, ¬ref.Plain asciiLower →
          BelongsTo asciiLower .task ref.table) ∧ commaEngine.changesSchema commaJoin = false :=
  guardSound_iff (fun _ _ => by rw [asciiLower, String.toList_ofList]) commaEngine .task commaJoin

/-- The second table of a comma join is not seen. -/
theorem not_guardSound : ¬GuardSound asciiLower commaEngine .task commaJoin := by
  intro sound
  have executes : Executes asciiLower .task commaJoin :=
    executes_iff.mpr (by decide +kernel)
  have isRef : chatRef ∈ commaEngine.tables commaJoin := by
    change chatRef ∈ if commaJoin = commaJoin then [taskRef, chatRef] else []
    rw [if_pos rfl]
    exact .tail _ (.head _)
  have owned := (sound executes).1 chatRef isRef
  revert owned
  unfold BelongsTo
  decide +kernel

end DubEcosystem.Db

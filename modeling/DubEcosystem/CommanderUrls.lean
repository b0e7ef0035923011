import Mathlib.Data.List.Dedup
import Mathlib.Data.List.Perm.Subperm
import Mathlib.Data.Rat.Defs
import DubEcosystem.IdentityRosterTypes
import DubEcosystem.TextScanning

/-!
# commander-service: the URLs in the output of a run

The payload of a run event, the text in it that the agent itself wrote, and the URLs of pull
requests and deployments that are found in it.
-/

namespace DubEcosystem.Commander

open IdentityRoster (isSpace)
open TextScanning

inductive Json where
  | null
  | bool (value : Bool)
  | num (value : ℚ)
  | str (text : String)
  | arr (items : List Json)
  | obj (fields : List (String × Json))

/-- `value?.name`. -/
def Json.field (value : Json) (name : String) : Option Json :=
  match value with
  | .obj fields => (fields.find? fun entry => entry.1 = name).map Prod.snd
  | _ => none

def Json.text? : Json → Option String
  | .str text => some text
  | _ => none

/-- `JSON.parse` and `JSON.stringify`. -/
structure JsonText where
  parse : String → Option Json
  stringify : Json → String

/-- `[^\s)"'<>\]]`: the characters that do not end a URL. -/
def isUrlChar (c : Char) : Bool :=
  !(isSpace c || [')', Char.ofNat 34, Char.ofNat 39, '<', '>', ']'].contains c)

def startsWith (start : String) (text : List Char) : Bool :=
  start.toList.map Char.toLower = (text.take start.length).map Char.toLower

/-- `https?:\/\/`, by its length. -/
def scheme (text : List Char) : Option Nat :=
  if startsWith "https://" text then some 8
  else if startsWith "http://" text then some 7
  else none

/-- The end of the last `\/pull\/\d+` in a run of URL characters, behind at least one. -/
def pullEnd (run : List Char) : Option Nat :=
  ((List.range run.length).reverse.filter fun start => 0 < start).findSome? fun start =>
    let digits := ((run.drop (start + 6)).takeWhile Char.isDigit).length
    if startsWith "/pull/" (run.drop start) ∧ digits ≠ 0 then some (start + 6 + digits) else none

/-- `PR_RE`. -/
def pullRequest : Matcher (List Char) := fun text =>
  (scheme text).bind fun length =>
    if startsWith "github.com/" (text.drop length) then
      (pullEnd ((text.drop (length + 11)).takeWhile isUrlChar)).map fun ends =>
        (text.take (length + 11 + ends), length + 11 + ends)
    else none

/-- The end of the last `\.(?:workers|pages)\.dev` in a run of URL characters. -/
def deployHostEnd (run : List Char) : Option Nat :=
  (List.range run.length).reverse.findSome? fun start =>
    if startsWith ".workers.dev" (run.drop start) then some (start + 12)
    else if startsWith ".pages.dev" (run.drop start) then some (start + 10)
    else none

/-- `DEPLOY_RE`: a path goes on to the end of the run. -/
def deployment : Matcher (List Char) := fun text =>
  (scheme text).bind fun length =>
    let run := (text.drop length).takeWhile isUrlChar
    (deployHostEnd run).map fun ends =>
      let ends := if run[ends]? = some '/' then run.length else ends
      (text.take (length + ends), length + ends)

/-- `[*_\x60\s]`. -/
def isEmphasis (c : Char) : Bool :=
  c = '*' || c = '_' || c = Char.ofNat 96 || isSpace c

/-- `LABEL_TARGET_RE`, with the URL that is declared. -/
def labelTarget : Matcher (List Char) := fun text =>
  let marker := "これに付けて".toList
  if marker.isPrefixOf text then
    let before := (text.drop marker.length).takeWhile isEmphasis
    match (text.drop (marker.length + before.length)) with
    | c :: rest =>
      if c = ':' ∨ c = '：' then
        let after := rest.takeWhile isEmphasis
        let opened := if (rest.drop after.length).head? = some '<' then 1 else 0
        let skipped := marker.length + before.length + 1 + after.length + opened
        let url := text.drop skipped
        (if "https://github.com/".toList.isPrefixOf url then some 19
          else if "http://github.com/".toList.isPrefixOf url then some 18
          else none).bind fun length =>
          (pullEnd ((url.drop length).takeWhile isUrlChar)).map fun ends =>
            (url.take (length + ends), skipped + length + ends)
      else none
    | [] => none
  else none

/-- `clean`: without the punctuation that follows a URL. -/
def clean (url : List Char) : String :=
  String.ofList (url.reverse.dropWhile fun c =>
    ['.', ',', ';', ':', '!', '?', ')', ']'].contains c).reverse

structure ExtractedUrls where
  demoUrl : Option String := none
  stagingUrl : Option String := none
  prUrl : Option String := none

def isLowerLetter (c : Char) : Bool :=
  'a' ≤ c && c ≤ 'z'

/-- `/stag(e|ing)|(^|[^a-z])stg([^a-z]|$)/i`. -/
def isStaging (url : String) : Bool :=
  let text := url.toList.map Char.toLower
  (text.tails.any fun rest => startsWith "stage" rest || startsWith "staging" rest) ||
    (List.range text.length).any fun start =>
      startsWith "stg" (text.drop start) &&
        ((text.take start).getLast?.all fun c => !isLowerLetter c) &&
          (text[start + 3]?).all fun c => !isLowerLetter c

variable (text : String)

/-- `extractLabelTarget`: the last declaration wins. -/
def extractLabelTarget : Option String :=
  ((matchAll labelTarget text.toList).map clean).getLast?

def extractArtifactUrls : ExtractedUrls :=
  let deployments := (matchAll deployment text.toList).map clean
  { demoUrl := (deployments.filter fun url => !isStaging url).getLast?
    stagingUrl := (deployments.filter isStaging).getLast?
    prUrl := ((extractLabelTarget text).filter fun url => url ≠ "").or
      ((matchAll pullRequest text.toList).map clean).getLast? }

def mergeUrls (prior next : ExtractedUrls) : ExtractedUrls :=
  ⟨next.demoUrl.or prior.demoUrl, next.stagingUrl.or prior.stagingUrl, next.prUrl.or prior.prUrl⟩

/-- `[...new Set(items)]`. -/
def unique (items : List String) : List String :=
  items.reverse.dedup.reverse

def extractPrUrls : List String :=
  unique ((matchAll pullRequest text.toList).map clean)

/-- The unseen ones are appended to the prior ones. -/
def mergePrUrls (prior next : List String) : List String :=
  unique (prior ++ next)

theorem mem_unique {items : List String} {item : String} : item ∈ unique items ↔ item ∈ items := by
  rw [unique, List.mem_reverse, List.mem_dedup, List.mem_reverse]

theorem mem_mergePrUrls {prior next : List String} {url : String} :
    url ∈ mergePrUrls prior next ↔ url ∈ prior ∨ url ∈ next := by
  rw [mergePrUrls, mem_unique, List.mem_append]

theorem nodup_mergePrUrls (prior next : List String) : (mergePrUrls prior next).Nodup :=
  List.nodup_reverse.mpr (List.nodup_dedup _)

theorem mem_prior_of_length {prior next : List String} (distinct : prior.Nodup)
    (notLonger : ¬prior.length < (mergePrUrls prior next).length) {url : String}
    (member : url ∈ next) : url ∈ prior := by
  by_contra missing
  have extended : (url :: prior).Nodup := List.nodup_cons.mpr ⟨missing, distinct⟩
  have within : url :: prior ⊆ mergePrUrls prior next := by
    intro other otherMem
    rw [mem_mergePrUrls]
    rcases List.mem_cons.mp otherMem with rfl | isPrior
    · exact .inr member
    · exact .inl isPrior
  have longer := (List.subperm_of_subset extended within).length_le
  rw [List.length_cons] at longer
  omega

def textBlock (block : Json) : Option String :=
  if (block.field "type").bind Json.text? = some "text" then
    (block.field "text").bind Json.text?
  else none

/-- What the agent itself said. -/
def authoredText (payload : Json) : String :=
  match payload.field "data" with
  | none => ""
  | some data =>
    let type := (data.field "type").bind Json.text?
    match if type = some "result" then (data.field "result").bind Json.text? else none with
    | some result => result
    | none =>
      match if type = some "assistant" then
          (data.field "message").bind fun message => message.field "content"
        else none with
      | some (.arr content) => String.intercalate "\n" (content.filterMap textBlock)
      | _ => ""

def eventText (json : JsonText) (payload : Json) : String :=
  match payload with
  | .null => ""
  | .str text => text
  | payload =>
    String.intercalate "\n" (((payload.field "line").bind Json.text?).toList ++
        ((payload.field "message").bind Json.text?).toList ++
        ((payload.field "data").bind fun data => (data.field "result").bind Json.text?).toList ++
        [json.stringify payload])

/-- Deployments are taken from the whole event, the pull request from what the agent said. -/
def extractEventUrls (json : JsonText) (payload : Json) : ExtractedUrls :=
  { extractArtifactUrls (eventText json payload) with
    prUrl := (extractArtifactUrls (authoredText payload)).prUrl }

def eventPrUrls (payload : Json) : List String :=
  extractPrUrls (authoredText payload)

example : extractPrUrls "see https://github.com/a/b/pull/12, HTTP://github.com/a/b/pull/7." =
    ["https://github.com/a/b/pull/12", "HTTP://github.com/a/b/pull/7"] := by
  decide +kernel

end DubEcosystem.Commander

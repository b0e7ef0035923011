import DubEcosystem.ChatTypes
import DubEcosystem.TextScanning

/-!
# chat-service: who a message mentions

`extractMentions` and `extractTeamMentions` of `domain.ts`, and whom a post notifies.
-/

namespace DubEcosystem.Chat

open TextScanning

/-- `[A-Za-z0-9_]`. -/
def isWordChar (c : Char) : Bool :=
  c.isAlphanum || c = '_'

/-- `[A-Za-z0-9_-]`. -/
def isTeamChar (c : Char) : Bool :=
  isWordChar c || c = '-'

def backtick : Char := Char.ofNat 96

/-- One character or more between two backticks, in one line. -/
def codeSpan : Matcher (List Char) :=
  delimited [backtick] (fun c => c ≠ backtick ∧ c ≠ '\n') [backtick]

def MENTION_RE : Matcher (List Char) :=
  delimited ['<', '@'] isWordChar ['>']

def TEAM_MENTION_RE : Matcher (List Char) :=
  delimited ['<', '!', 't', 'e', 'a', 'm', ':'] isTeamChar ['>']

def isFence (line : List Char) : Bool :=
  [backtick, backtick, backtick].isPrefixOf line

/-- The lines outside of fences, with their inline code replaced. -/
def withoutCodeLines : Bool → List (List Char) → List (List Char)
  | _, [] => []
  | inFence, line :: rest =>
    if isFence line then withoutCodeLines (!inFence) rest
    else if inFence then withoutCodeLines inFence rest
    else replaceAll codeSpan [' '] line :: withoutCodeLines inFence rest

variable (body : String)

def withoutCodeSpans : List Char :=
  List.intercalate ['\n'] (withoutCodeLines false (body.toList.splitOn '\n'))

def uniqueCaptures (re : Matcher (List Char)) : List String :=
  unique ((matchAll re (withoutCodeSpans body)).map String.ofList)

def extractMentions : List String :=
  uniqueCaptures body MENTION_RE

def extractTeamMentions : List String :=
  uniqueCaptures body TEAM_MENTION_RE

/-- Whom a body notifies, with the members of the teams that it mentions; never the
author. -/
def mentionTargets (author text : String) (fromTeams : List String) : List String :=
  (unique (extractMentions text ++ fromTeams)).filter fun userId => userId ≠ author

end DubEcosystem.Chat

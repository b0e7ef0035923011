import DubEcosystem.GithubSyncWorld

/-!
# github-sync: the consumers

`parse.ts`, the webhook half of `queue.ts`, and the consumers that run beside each other
over one store: deliveries of webhooks and reconciliations of repositories.
-/

namespace DubEcosystem.GithubSync

open Interleaving PortPrograms

/-- `(names ?? []).map(...).filter(...)`. -/
def namesOf (names : List (Option String)) : List String :=
  (names.map fun name => name.getD "").filter fun name => 0 < name.length

/-- `now` is the time of the parse, for an issue without one. -/
def parseIssueEvent (now : String) : Option RawPayload → Option ParsedIssueEvent
  | some (.object payload) => do
    let issue ← payload.issue
    let number ← issue.number
    let owner ← truthy (payload.repositoryOwner.bind RawUser.login)
    let repo ← truthy payload.repositoryName
    some
      { action := payload.action.getD "unknown"
        senderLogin := payload.sender.bind RawUser.login
        issue :=
          { owner, repo, number, nodeId := issue.node_id.getD ""
            title := issue.title.getD "", body := issue.body
            state := if issue.state = some "closed" then .closed else .open
            labels := namesOf issue.labels, assignees := namesOf issue.assignees
            updatedAt := issue.updated_at.getD now } }
  | _ => none

def isIssueEventKind (eventKind : String) : Bool :=
  eventKind = "issues" ∨ eventKind = "issue_comment"

/-- `id` if it is a string. -/
structure WebhookEventEnvelopeV1 where
  id : Option String
  source : String
  eventKind : String
  requestId : String
  payload : Option RawPayload
  r2Key : Option String

def resolvePayload (env : WebhookEventEnvelopeV1) : Sync (Option RawPayload) :=
  match env.payload with
  | some payload => pure (some payload)
  | none =>
    match truthy env.r2Key with
    | none => pure none
    | some r2Key => ask (.getRaw r2Key)

variable (config : EngineConfig)

def dispatchWebhook (env : WebhookEventEnvelopeV1) :
    Sync Unit := do
  match env.id with
  | none => pure ()
  | some id =>
    if env.source ≠ "github" then pure ()
    else do
      let processed : Bool ← ask (.wasProcessed id)
      if processed then pure ()
      else if ¬isIssueEventKind env.eventKind then ask (.markProcessed id)
      else do
        let payload : Option RawPayload ← resolvePayload env
        let now : String ← ask .now
        match parseIssueEvent now payload with
        | none => ask (.markProcessed id)
        | some parsed => do
          let _ : ApplyResult ← applyWebhook config env.requestId parsed
          ask (.markProcessed id)

inductive Consumer where
  | webhook (env : WebhookEventEnvelopeV1)
  | reconcile (requestId : String) (repo : GithubRepoConfig)

/-- A delivery or a reconciliation, whatever comes of it. -/
def Consumer.action : Consumer → Sync Unit
  | .webhook env => dispatchWebhook config env
  | .reconcile requestId repo => do
    let _ : SyncRunStats ← reconcileRepo config requestId repo
    pure ()

/-- What is thrown ends the consumer; a delivery may be tried again. -/
def Consumer.program (consumer : Consumer) : Prog (enginePorts.signature Thrown) Unit :=
  (consumer.action config).run >>= fun _ => pure ()

/-- Any number of deliveries, any of them again, and reconciliations at once; the
surroundings move as they like. -/
def consumers : System (enginePorts.signature Thrown) World Consumer where
  toMachine := syncMachine
  program := Consumer.program config
  startable _ _ := True
  environment before after := after = { before with around := after.around }

end DubEcosystem.GithubSync

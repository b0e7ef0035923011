import DubEcosystem.IdentityRosterTypes

/-!
# packages/db: the schema namespaces

The registry of `namespaces.ts`, and which namespace owns a table by its name.
-/

namespace DubEcosystem.Db

open IdentityRoster (jsLength)

inductive Namespace where
  | dub | identity | event | task | gantt | notif | chat | mail | mailauto | fileMeta
  | github | webhook | deploy | audit | mobile | seed | usage | member | driveshare
  | commander | lp
  deriving DecidableEq

def Namespace.text : Namespace → String
  | dub => "dub"
  | identity => "identity"
  | event => "event"
  | task => "task"
  | gantt => "gantt"
  | notif => "notif"
  | chat => "chat"
  | mail => "mail"
  | mailauto => "mailauto"
  | fileMeta => "file_meta"
  | github => "github"
  | webhook => "webhook"
  | deploy => "deploy"
  | audit => "audit"
  | mobile => "mobile"
  | seed => "seed"
  | usage => "usage"
  | member => "member"
  | driveshare => "driveshare"
  | commander => "commander"
  | lp => "lp"

/-- `NAMESPACES`, in the order of its declaration. -/
def namespaces : List Namespace :=
  [.dub, .identity, .event, .task, .gantt, .notif, .chat, .mail, .mailauto, .fileMeta,
    .github, .webhook, .deploy, .audit, .mobile, .seed, .usage, .member, .driveshare,
    .commander, .lp]

end DubEcosystem.Db

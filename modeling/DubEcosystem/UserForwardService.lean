import DubEcosystem.PortPrograms
import DubEcosystem.UserForwardTypes

/-!
# mail-gateway: registering and using a personal forward target

The operations of `user-forward.ts` as programs of atomic statements and Cloudflare calls.
Each of these may fail, before it takes effect or after.
-/

namespace DubEcosystem.UserForward

open Interleaving PortPrograms

inductive Call where
  | fault
  | nowIso
  | liveRow (owner : String)
  /-- The row of an account, live or not. -/
  | rowOf (owner : String)
  | takenBy (target owner : String)
  | pendingRows (since : Int) (limit : Nat)
  | saveRegistration (registration : Registration)
  | stampVerified (now : Int) (owner : String) (cfAddressId : Nat)
  | switchForward (enabled : Bool) (now : Int) (owner : String)
  | softDelete (now : Int) (owner : String)
  | recordResult (result : ForwardResult) (error : Option String) (now : Int) (owner : String)
  | listAddresses (page : Nat)
  | getAddress (id : Nat)
  /-- The account that registers is not sent along. -/
  | createAddress (email registrant : String)
  | deleteAddress (id : Nat)
  | listRules
  | lookupUser (email : String)
  /-- `message.forward`. -/
  | forward (target : String)
  | publishAudit (owner : String) (result : ForwardResult)

abbrev Result : Call → Type
  | .nowIso => Int
  | .liveRow _ => Option ForwardRow
  | .rowOf _ => Option ForwardRow
  | .takenBy _ _ => Option String
  | .pendingRows _ _ => List ForwardRow
  | .switchForward _ _ _ => Nat
  | .softDelete _ _ => Nat
  | .listAddresses _ => AddressPage
  | .getAddress _ => CfDestinationAddress
  | .createAddress _ _ => Option CfDestinationAddress
  | .listRules => List CfRoutingRule
  | .lookupUser _ => Option String
  | _ => Unit

abbrev forwardPorts : Ports where
  Call := Call
  Result := Result

abbrev forwardSignature : Signature := forwardPorts.signature Thrown

abbrev Forwarding (α : Type) := Action forwardPorts Thrown α

abbrev ask (request : Call) : Forwarding (Result request) :=
  port (P := forwardPorts) request

/-- A statement of the database, or a call to Cloudflare. -/
def fallible (request : Call) : Forwarding (Result request) := do
  ask .fault
  let result ← ask request
  ask .fault
  pure result

def dubError {α : Type} (code message : String) : Forwarding α :=
  throw ⟨some code, message⟩

def unconfigured {α : Type} : Forwarding α :=
  dubError "MAIL_EMAIL_ROUTING_UNCONFIGURED" "Cloudflare Email Routing is not configured"

variable (env : Env)

def requireEmailRoutingConfig : Forwarding EmailRoutingConfig :=
  match emailRoutingConfigFromEnv env with
  | some cfg => pure cfg
  | none => unconfigured

/-- The pages from this one on, of which `left` may still be read. -/
def listAllAddresses (page : Nat) : Nat → List CfDestinationAddress →
    Forwarding (List CfDestinationAddress)
  | 0, out => pure out
  | left + 1, out => do
    let answer : AddressPage ← fallible (.listAddresses page)
    let out := out ++ answer.result
    if answer.result.length < 50 ∨ answer.totalCount ≤ out.length then pure out
    else listAllAddresses (page + 1) left out

/-- The client of a configuration: account calls need its account id, the rules need its
zone id. -/
structure Client where
  listAllAddresses : Forwarding (List CfDestinationAddress)
  getAddress (id : Nat) : Forwarding CfDestinationAddress
  createAddress (email registrant : String) : Forwarding (Option CfDestinationAddress)
  deleteAddress (id : Nat) : Forwarding Unit
  listRules : Forwarding (List CfRoutingRule)

variable (cfg : EmailRoutingConfig)

def cfEmailRoutingClient : Client where
  listAllAddresses :=
    if cfg.accountId.isSome then UserForward.listAllAddresses 1 20 [] else unconfigured
  getAddress id :=
    if cfg.accountId.isSome then fallible (.getAddress id) else unconfigured
  createAddress email registrant :=
    if cfg.accountId.isSome then fallible (.createAddress email registrant) else unconfigured
  deleteAddress id :=
    if cfg.accountId.isSome then fallible (.deleteAddress id) else unconfigured
  listRules := if cfg.zoneId.isSome then fallible .listRules else unconfigured

/-- What `try` does in `refreshVerification`. -/
def checkAddress (row : ForwardRow) (cfAddressId : Nat) :
    Forwarding ForwardRow := do
  let addr ← (cfEmailRoutingClient cfg).getAddress cfAddressId
  if addr.verified = none ∨ lower addr.email ≠ row.target then pure row
  else do
    let now : Int ← ask .nowIso
    fallible (.stampVerified now row.ownerUserId cfAddressId)
    pure { row with verifiedAt := some now, updatedAt := now }

/-- A pending row is checked again; what goes wrong leaves it pending. -/
def refreshVerification (row : ForwardRow) : Forwarding ForwardRow :=
  match row.verifiedAt, row.cfAddressId, emailRoutingConfigFromEnv env with
  | none, some cfAddressId, some cfg =>
    if cfg.accountId.isSome then do
      match ← attempt (checkAddress cfg row cfAddressId) with
      | .ok checked => pure checked
      | .error _ => pure row
    else pure row
  | _, _, _ => pure row

def getForwardSetting (owner : String) : Forwarding MailForwardSetting := do
  let row : Option ForwardRow ← fallible (.liveRow owner)
  match row with
  | some row => do
    let refreshed ← refreshVerification env row
    pure (toSetting (some refreshed) (userForwardAvailable env))
  | none => pure (toSetting none (userForwardAvailable env))

def sweepRows (env : Env) : List ForwardRow → Nat → Forwarding Nat
  | [], verified => pure verified
  | row :: rest, verified => do
    let refreshed ← refreshVerification env row
    sweepRows env rest (if refreshed.verifiedAt.isSome then verified + 1 else verified)

/-- The cron's sweep over a few pending rows.  It never throws. -/
def sweepPendingForwards (now : Int) : Forwarding Nat :=
  if userForwardAvailable env = false then pure 0
  else do
    let swept ← attempt do
      let rows : List ForwardRow ← fallible (.pendingRows (now - SWEEP_MAX_AGE_MS) SWEEP_LIMIT)
      sweepRows env rows 0
    match swept with
    | .ok verified => pure verified
    | .error _ => pure 0

def inUseBy (rules : List CfRoutingRule) (target : String) : Bool :=
  rules.any fun rule => (rule.actions.getD []).any fun action =>
    action.type = "forward" && (action.value.getD []).any fun value => lower value = target

/-- Any destination that is there already is removed, unless a rule uses it. -/
def replaceExisting (client : Client) (target : String) : Forwarding Unit := do
  let addresses ← client.listAllAddresses
  match addresses.find? fun address => lower address.email = target with
  | none => pure ()
  | some existing => do
    if existing.verified.isSome then do
      let rules ← client.listRules
      if inUseBy rules target then
        dubError "MAIL_FORWARD_TARGET_IN_USE" "this address is used by an Email Routing rule"
      else client.deleteAddress existing.id
    else client.deleteAddress existing.id

def mentionsUnique (message : String) : Bool :=
  (message.toUpper.splitOn "UNIQUE").length ≠ 1

def registerForwardTarget (owner target : String) (now : Int) :
    Forwarding MailForwardSetting := do
  if userForwardDisabled env then
    dubError "MAIL_FORWARD_DISABLED" "auto-forward is switched off on this server"
  let cfg ← requireEmailRoutingConfig env
  let client := cfEmailRoutingClient cfg
  let prev : Option ForwardRow ← fallible (.rowOf owner)
  if (prev.filter fun row => row.deletedAt = none).any fun row =>
      now - row.requestedAt < REGISTER_COOLDOWN_MS then
    dubError "MAIL_FORWARD_RATE_LIMITED"
      "please wait a minute before sending another verification mail"
  let count := ((prev.filter fun row => row.registerDay = some (dayOf now)).map
    ForwardRow.registerCount).getD 0
  if MAIL_FORWARD_DAILY_REGISTER_LIMIT ≤ count then
    dubError "MAIL_FORWARD_RATE_LIMITED" "too many verification mails per day"
  let taken : Option String ← fallible (.takenBy target owner)
  if taken.isSome then
    dubError "MAIL_FORWARD_TARGET_IN_USE" "this address is already registered by another account"
  replaceExisting client target
  let created ← client.createAddress target owner
  match ← attempt (fallible (.saveRegistration
      ⟨owner, target, created.map CfDestinationAddress.id, now, dayOf now, count + 1⟩)) with
  | .ok _ => do
    let row : Option ForwardRow ← fallible (.liveRow owner)
    pure (toSetting row (userForwardAvailable env))
  | .error err =>
    if mentionsUnique err.message then
      dubError "MAIL_FORWARD_TARGET_IN_USE" "this address is already registered by another account"
    else throw err

def notFound {α : Type} : Forwarding α :=
  dubError "MAIL_FORWARD_NOT_FOUND" "no forward address registered"

def setForwardEnabled (owner : String) (enabled : Bool) :
    Forwarding MailForwardSetting := do
  let now : Int ← ask .nowIso
  let changes : Nat ← fallible (.switchForward enabled now owner)
  if changes = 0 then notFound else getForwardSetting env owner

def removeForwardSetting (owner : String) : Forwarding MailForwardSetting := do
  let now : Int ← ask .nowIso
  let changes : Nat ← fallible (.softDelete now owner)
  if changes = 0 then notFound else pure (toSetting none (userForwardAvailable env))

structure RawInbound where
  sender : String
  recipient : String
  headers : List (String × String)

structure UserForwardDeps where
  hasIdentity : Bool
  archiveAddress : Option String
  internalDomain : String
  disabled : Bool

inductive ForwardOutcome where
  | forwarded (userId : String)
  | skipped (reason : String)
  | failed (userId reason : String)

def FORWARDED_HEADER : String := "x-dub-forwarded"

/-- Nobody when the lookup fails. -/
def lookupRosterUserId (hasIdentity : Bool) (email : String) : Forwarding (Option String) :=
  if hasIdentity = false ∨ email = "" then pure none
  else do
    match ← attempt (ask (.lookupUser email)) with
    | .ok userId => pure userId
    | .error _ => pure none

/-- The account of the envelope recipient is looked up under this address. -/
def recipientOf (raw : RawInbound) : String := lower (addressEmail raw.recipient)

def senders (raw : RawInbound) : List String :=
  [lower (addressEmail raw.sender), lower (addressEmail ((raw.headers.lookup "from").getD ""))]

def decide (deps : UserForwardDeps) (raw : RawInbound) :
    Forwarding (Except String ForwardRow) := do
  if deps.disabled then pure (.error "disabled")
  else if (raw.headers.lookup FORWARDED_HEADER).isSome then pure (.error "already_forwarded")
  else if recipientOf raw = "" then pure (.error "no_recipient")
  else if recipientOf raw = lower (deps.archiveAddress.getD "") then pure (.error "archive")
  else do
    match ← lookupRosterUserId deps.hasIdentity (recipientOf raw) with
    | none => pure (.error "no_roster_user")
    | some userId => do
      let row : Option ForwardRow ← fallible (.liveRow userId)
      match row with
      | none => pure (.error "no_setting")
      | some row =>
        if row.enabled = false then pure (.error "switched_off")
        else if row.verifiedAt = none then pure (.error "unverified")
        else if row.target.endsWith ("@" ++ lower deps.internalDomain) ∨
            row.target.endsWith ("." ++ lower deps.internalDomain) then
          pure (.error "internal_target")
        else if row.target ∈ senders raw then pure (.error "from_target")
        else pure (.ok row)

def doForward (row : ForwardRow) : Forwarding ForwardOutcome := do
  match ← attempt (ask (.forward row.target)) with
  | .ok _ => pure (.forwarded row.ownerUserId)
  | .error err => pure (.failed row.ownerUserId (scrubError err.message))

def recordOutcome (row : ForwardRow) (result : ForwardResult) (error : Option String) :
    Forwarding Unit := do
  let now : Int ← ask .nowIso
  let _ ← attempt (fallible (.recordResult result error now row.ownerUserId))
  let _ ← attempt (ask (.publishAudit row.ownerUserId result))
  pure ()

/-- The message goes to the verified address of its envelope recipient.  It never throws. -/
def forwardToUserTarget (deps : UserForwardDeps) (raw : RawInbound) :
    Forwarding ForwardOutcome := do
  match ← attempt (decide deps raw) with
  | .error err => pure (.skipped ("lookup_error: " ++ err.message))
  | .ok (.error reason) => pure (.skipped reason)
  | .ok (.ok row) => do
    let outcome ← doForward row
    match outcome with
    | .forwarded _ => recordOutcome row .forwarded none
    | .failed _ reason => recordOutcome row .failed (some reason)
    | .skipped _ => pure ()
    pure outcome

inductive Operation where
  | register (env : Env) (owner target : String) (now : Int)
  | get (env : Env) (owner : String)
  | sweep (env : Env) (now : Int)
  | setEnabled (env : Env) (owner : String) (enabled : Bool)
  | remove (env : Env) (owner : String)
  | inbound (deps : UserForwardDeps) (raw : RawInbound)

def Operation.action : Operation → Forwarding Unit
  | .register env owner target now => do
    let _ ← registerForwardTarget env owner target now
    pure ()
  | .get env owner => do
    let _ ← getForwardSetting env owner
    pure ()
  | .sweep env now => do
    let _ ← sweepPendingForwards env now
    pure ()
  | .setEnabled env owner enabled => do
    let _ ← setForwardEnabled env owner enabled
    pure ()
  | .remove env owner => do
    let _ ← removeForwardSetting env owner
    pure ()
  | .inbound deps raw => do
    let _ ← forwardToUserTarget deps raw
    pure ()

def executed {α : Type} (outcome : α × World) : Option (Except Thrown α × World) :=
  some (.ok outcome.1, outcome.2)

/-- The table and Cloudflare; who an address belongs to is for the roster to say. -/
def forwardMachine : Machine forwardSignature World where
  exec
    | .fault, _ => none
    | .nowIso, world => executed (world.clock, world)
    | .liveRow owner, world => executed (world.liveRow owner, world)
    | .rowOf owner, world => executed (world.forwards.find? owner, world)
    | .takenBy target owner, world => executed (world.takenBy target owner, world)
    | .pendingRows since limit, world => executed (world.pendingRows since limit, world)
    | .saveRegistration registration, world => some (world.saveRegistration registration)
    | .stampVerified now owner cfAddressId, world =>
      executed ((), world.stampVerified now owner cfAddressId)
    | .switchForward enabled now owner, world => executed (world.switchForward enabled now owner)
    | .softDelete now owner, world => executed (world.softDelete now owner)
    | .recordResult result error now owner, world =>
      executed ((), world.recordResult result error now owner)
    | .listAddresses page, world => executed (world.listAddresses page, world)
    | .getAddress id, world => some (world.getAddress id, world)
    | .createAddress email registrant, world =>
      executed ((world.createAddress email (some registrant)).map some id)
    | .deleteAddress id, world => some (world.deleteAddress id)
    | .listRules, world => executed (world.rules, world)
    | .lookupUser _, _ => none
    | .forward _, _ => none
    | .publishAudit _ _, _ => none
  observe _ _ world := world

/-- Time passes, links are clicked, and administrators keep their own destinations and
rules. -/
inductive Outside : World → World → Prop
  | clock {world} (time : Int) : Outside world { world with clock := time }
  | rules {world} (rules : List CfRoutingRule) : Outside world { world with rules }
  | creates {world} (email : String) : Outside world (world.createAddress email none).2
  | removes {world} (id : Nat) : Outside world (world.removeAddress id)
  | confirms {world} (address : CfDestinationAddress)
      (isThere : address ∈ world.destinations) : Outside world (world.confirm address)

/-- Any number of users, sweeps and incoming messages. -/
def userForwards : System forwardSignature World Operation where
  toMachine := forwardMachine
  program op := op.action.run >>= fun _ => pure ()
  startable _ _ := True
  environment := Outside

end DubEcosystem.UserForward

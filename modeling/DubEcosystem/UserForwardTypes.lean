import DubEcosystem.KeyedTable
import DubEcosystem.MailGatewayTypes

/-!
# mail-gateway: personal forward targets

The rows of `mail_user_forward` with the statements of `user-forward.ts` on them, and the
destination addresses of Cloudflare Email Routing with what its API does to them.
-/

namespace DubEcosystem.UserForward

section Text

open MailGateway (trim)

/-- `lower`: without surrounding blanks, in lower case. -/
def lower (v : String) : String :=
  String.ofList ((trim v).map Char.toLower)

/-- What stands before the first `<` is a display name, quoted or not. -/
def matchesName (name : List Char) : Bool :=
  let inner := trim (String.ofList name)
  let opened := if inner.head? = some MailGateway.quote then inner.tail else inner
  let closed := if opened.getLast? = some MailGateway.quote then opened.dropLast else opened
  !closed.contains MailGateway.quote

/-- The email of `parseAddress`: `Name <email>`, or the whole text without brackets. -/
def addressEmail (raw : String) : String :=
  let s := trim raw
  let bracketed := (s.dropWhile fun c => c ≠ '<').drop 1
  if bracketed.getLast? = some '>' ∧ bracketed.dropLast ≠ [] ∧ '>' ∉ bracketed.dropLast ∧
      matchesName (s.takeWhile fun c => c ≠ '<') then
    String.ofList (trim (String.ofList bracketed.dropLast))
  else
    String.ofList (trim (String.ofList (s.filter fun c => c ≠ '<' ∧ c ≠ '>')))

def isAddressPart (c : Char) : Bool :=
  !MailGateway.isSpace c && c ≠ '@' && c ≠ '<' && c ≠ '>' && c ≠ MailGateway.quote &&
    c ≠ Char.ofNat 39

/-- Whatever looks like an address is replaced; the fuel is the length of the text. -/
def scrubAddresses : Nat → List Char → List Char
  | 0, _ => []
  | _, [] => []
  | fuel + 1, c :: text =>
    let part := (c :: text).takeWhile isAddressPart
    match (c :: text).dropWhile isAddressPart with
    | '@' :: rest =>
      if part = [] then c :: scrubAddresses fuel text
      else if rest.takeWhile isAddressPart = [] then
        part ++ '@' :: scrubAddresses fuel rest
      else "(address)".toList ++ scrubAddresses fuel (rest.dropWhile isAddressPart)
    | rest => if part = [] then c :: scrubAddresses fuel text
        else part ++ scrubAddresses fuel rest

def scrubError (msg : String) : String :=
  String.ofList ((scrubAddresses msg.length msg.toList).take 200)

end Text

structure Env where
  MAIL_USER_FORWARD : Option String
  CF_EMAIL_ROUTING_TOKEN : Option String
  CF_EMAIL_ROUTING_ACCOUNT_ID : Option String
  CF_EMAIL_ROUTING_ZONE_ID : Option String

structure EmailRoutingConfig where
  token : String
  accountId : Option String
  zoneId : Option String

def emailRoutingConfigFromEnv (env : Env) : Option EmailRoutingConfig :=
  (env.CF_EMAIL_ROUTING_TOKEN.filter fun token => token ≠ "").map fun token =>
    { token
      accountId := env.CF_EMAIL_ROUTING_ACCOUNT_ID.filter fun id => id ≠ ""
      zoneId := env.CF_EMAIL_ROUTING_ZONE_ID.filter fun id => id ≠ "" }

def userForwardDisabled (env : Env) : Bool :=
  lower (env.MAIL_USER_FORWARD.getD "") = "off"

def userForwardAvailable (env : Env) : Bool :=
  !userForwardDisabled env &&
    ((emailRoutingConfigFromEnv env).bind EmailRoutingConfig.accountId).isSome

/-- Times are in milliseconds. -/
def REGISTER_COOLDOWN_MS : Int := 60000

def MAIL_FORWARD_DAILY_REGISTER_LIMIT : Nat := 5

def SWEEP_LIMIT : Nat := 10

def SWEEP_MAX_AGE_MS : Int := 7 * 24 * 60 * 60 * 1000

def dayOf (time : Int) : Int := time / (24 * 60 * 60 * 1000)

inductive ForwardResult where
  | forwarded
  | failed
  deriving DecidableEq

/-- A row of `mail_user_forward`: one for each account. -/
structure ForwardRow where
  ownerUserId : String
  target : String
  cfAddressId : Option Nat
  enabled : Bool
  requestedAt : Int
  verifiedAt : Option Int
  lastResult : Option ForwardResult
  lastError : Option String
  lastAt : Option Int
  registerDay : Option Int
  registerCount : Nat
  createdAt : Int
  updatedAt : Int
  deletedAt : Option Int

/-- What the settings screen is shown. -/
structure MailForwardSetting where
  target : Option String
  verified : Option Bool
  enabled : Bool
  active : Bool
  available : Bool
  requestedAt : Option Int
  verifiedAt : Option Int
  lastResult : Option ForwardResult
  lastError : Option String
  lastAt : Option Int

def toSetting (row : Option ForwardRow) (available : Bool) : MailForwardSetting :=
  match row with
  | none => ⟨none, none, false, false, available, none, none, none, none, none⟩
  | some row =>
    { target := some row.target
      verified := some row.verifiedAt.isSome
      enabled := row.enabled
      active := row.enabled && row.verifiedAt.isSome && available
      available
      requestedAt := some row.requestedAt
      verifiedAt := row.verifiedAt
      lastResult := row.lastResult
      lastError := row.lastError
      lastAt := row.lastAt }

/-- The columns of a registration that its caller supplies. -/
structure Registration where
  ownerUserId : String
  target : String
  cfAddressId : Option Nat
  requestedAt : Int
  registerDay : Int
  registerCount : Nat

structure CfDestinationAddress where
  id : Nat
  email : String
  verified : Option Int
  created : Int

structure CfRuleAction where
  type : String
  value : Option (List String)

structure CfRoutingRule where
  id : String
  actions : Option (List CfRuleAction)

structure AddressPage where
  result : List CfDestinationAddress
  totalCount : Nat

/-- A destination that was created, for the account that asked for it. -/
structure CreatedAddress where
  id : Nat
  email : String
  registrant : Option String

structure World where
  clock : Int
  forwards : KeyedTable ForwardRow.ownerUserId
  destinations : List CfDestinationAddress
  rules : List CfRoutingRule
  /-- Ids are drawn in order; none is drawn twice. -/
  nextId : Nat
  /-- Every destination that was ever created. -/
  created : List CreatedAddress
  /-- The destinations whose link was clicked in the mail to their address. -/
  confirmed : List (Nat × String)
  /-- The registrations that were written, the latest first. -/
  registrations : List Registration

structure Thrown where
  code : Option String
  message : String

namespace World

variable (world : World)

def liveRow (owner : String) : Option ForwardRow :=
  (world.forwards.find? owner).filter fun row => row.deletedAt = none

def takenBy (target owner : String) : Option String :=
  (world.forwards.rows.find? fun row =>
    row.target = target ∧ row.deletedAt = none ∧ row.ownerUserId ≠ owner).map ForwardRow.ownerUserId

def pendingRows (since : Int) (limit : Nat) : List ForwardRow :=
  ((world.forwards.rows.filter fun row =>
    row.verifiedAt = none ∧ row.deletedAt = none ∧ row.enabled ∧ row.cfAddressId.isSome ∧
      since ≤ row.requestedAt).mergeSort fun first second =>
        second.requestedAt ≤ first.requestedAt).take limit

variable (registration : Registration)

/-- What `ON CONFLICT(owner_user_id) DO UPDATE` leaves of the row that was there. -/
def registeredRow (createdAt : Int) : ForwardRow where
  ownerUserId := registration.ownerUserId
  target := registration.target
  cfAddressId := registration.cfAddressId
  enabled := true
  requestedAt := registration.requestedAt
  verifiedAt := none
  lastResult := none
  lastError := none
  lastAt := none
  registerDay := some registration.registerDay
  registerCount := registration.registerCount
  createdAt := createdAt
  updatedAt := registration.requestedAt
  deletedAt := none

/-- The row of the account is written, unless another live row has the target. -/
def saveRegistration : Except Thrown Unit × World :=
  if world.forwards.rows.any fun row => row.ownerUserId ≠ registration.ownerUserId ∧
      row.target = registration.target ∧ row.deletedAt = none then
    (.error ⟨none, "UNIQUE constraint failed: mail_user_forward.target"⟩, world)
  else
    (.ok (),
      { world with
        registrations := registration :: world.registrations
        forwards :=
          match world.forwards.insert?
              (registeredRow registration registration.requestedAt) with
          | some forwards => forwards
          | none =>
            world.forwards.update (fun row => row.ownerUserId = registration.ownerUserId)
              (fun row => { registeredRow registration row.createdAt with
                ownerUserId := row.ownerUserId })
              fun _ => rfl })

/-- `UPDATE mail_user_forward SET change WHERE owner_user_id = ? AND deleted_at IS NULL`
and what else is asked of the row, with the number of rows changed. -/
def changeLive (owner : String) (asked : ForwardRow → Bool) (change : ForwardRow → ForwardRow)
    (keepsOwner : ∀ row, (change row).ownerUserId = row.ownerUserId) : Nat × World :=
  let selected := fun row : ForwardRow =>
    decide (row.ownerUserId = owner ∧ row.deletedAt = none) && asked row
  (if world.forwards.selects selected then 1 else 0,
    { world with forwards := world.forwards.update selected change keepsOwner })

def stampVerified (now : Int) (owner : String) (cfAddressId : Nat) : World :=
  (world.changeLive owner (fun row => row.cfAddressId = some cfAddressId)
    (fun row => { row with verifiedAt := some now, updatedAt := now }) fun _ => rfl).2

def switchForward (enabled : Bool) (now : Int) (owner : String) : Nat × World :=
  world.changeLive owner (fun _ => true)
    (fun row => { row with enabled, updatedAt := now }) fun _ => rfl

def softDelete (now : Int) (owner : String) : Nat × World :=
  world.changeLive owner (fun _ => true)
    (fun row => { row with deletedAt := some now, enabled := false, updatedAt := now })
    fun _ => rfl

def recordResult (result : ForwardResult) (error : Option String) (now : Int)
    (owner : String) : World :=
  (world.changeLive owner (fun _ => true)
    (fun row => { row with lastResult := some result, lastError := error, lastAt := some now })
    fun _ => rfl).2

def listAddresses (page : Nat) : AddressPage where
  result := (world.destinations.drop ((page - 1) * 50)).take 50
  totalCount := world.destinations.length

def getAddress (id : Nat) : Except Thrown CfDestinationAddress :=
  match world.destinations.find? fun address => address.id = id with
  | some address => .ok address
  | none => .error ⟨some "MAIL_EMAIL_ROUTING_UPSTREAM", "Cloudflare Email Routing API error"⟩

/-- A new destination gets a new id, and the verification mail goes out. -/
def createAddress (email : String) (registrant : Option String) : CfDestinationAddress × World :=
  let address : CfDestinationAddress := ⟨world.nextId, email, none, world.clock⟩
  (address,
    { world with
      nextId := world.nextId + 1
      destinations := world.destinations ++ [address]
      created := ⟨world.nextId, email, registrant⟩ :: world.created })

def removeAddress (id : Nat) : World :=
  { world with destinations := world.destinations.filter fun address => address.id ≠ id }

def deleteAddress (id : Nat) : Except Thrown Unit × World :=
  match world.getAddress id with
  | .ok _ => (.ok (), world.removeAddress id)
  | .error thrown => (.error thrown, world)

/-- The link in the mail for this destination is clicked. -/
def confirm (address : CfDestinationAddress) : World :=
  { world with
    confirmed := (address.id, address.email) :: world.confirmed
    destinations := world.destinations.map fun other =>
      if other.id = address.id then { other with verified := some world.clock } else other }

end World

end DubEcosystem.UserForward

import Mathlib.Data.List.Basic

/-!
# policy-gate: the gate and the role matrix

`policyGate` interprets a rule of the table for a request, and `allows` for a set of keys.
-/

namespace DubEcosystem.PolicyGate

/-- It is not empty. -/
structure RequiredKeys where
  first : String
  rest : List String

def RequiredKeys.keys (required : RequiredKeys) : List String :=
  required.first :: required.rest

inductive RouteRule where
  | PUBLIC
  | AUTHENTICATED
  | INTERNAL
  | required (keys : RequiredKeys)
  | internalWithKeys (keys : RequiredKeys)

def isInternalWithKeys : RouteRule → Bool
  | .internalWithKeys _ => true
  | _ => false

def requiredKeysOf : RouteRule → Option RequiredKeys
  | .PUBLIC | .AUTHENTICATED | .INTERNAL => none
  | .required keys | .internalWithKeys keys => some keys

def missingKeys (rule : RouteRule) (granted : List String) : List String :=
  match requiredKeysOf rule with
  | none => []
  | some required => required.keys.filter fun key => key ∉ granted

/-- `rule === INTERNAL || isInternalWithKeys(rule)`. -/
def isInternal : RouteRule → Bool
  | .INTERNAL => true
  | rule => isInternalWithKeys rule

def allows (rule : RouteRule) (granted : List String) : Bool :=
  if isInternal rule then false
  else (missingKeys rule granted).length = 0

structure RegisteredRoute where
  method : String
  path : String

def routeKey (method path : String) : String :=
  method.toUpper ++ " " ++ path

def isMiddlewareMount (route : RegisteredRoute) : Bool :=
  route.method.toUpper = "ALL" && (route.path = "*" || route.path.endsWith "/*")

/-- The routes that were matched, and the headers of the request. -/
structure Context where
  matchedRoutes : List RegisteredRoute
  header : String → Option String

def matchedRouteKey (c : Context) : Option String :=
  (c.matchedRoutes.reverse.find? fun route => !isMiddlewareMount route).map fun route =>
    routeKey route.method route.path

section Gate

def HDR_USER_ID : String := "x-dub-user-id"

def HDR_INTERNAL : String := "x-dub-internal"

def DUB_DEFAULT_ORG_ID : String := "org_devhub"

structure DenialDetails where
  reason : String
  route : String
  required : Option (List String) := none
  missing : Option (List String) := none

inductive Thrown where
  | unauthenticated (message : String)
  | forbidden (message : String) (details : DenialDetails)
  /-- What the granter, the resolver or a handler throws. -/
  | other (message : String)

structure PolicyGateOptions where
  service : String
  table : String → Option RouteRule
  granted : String → String → List String → Except Thrown (List String)
  orgId : Option String
  actor : Option (Context → Except Thrown (Option String))

inductive GateEvent where
  | resolved (answer : Except Thrown (Option String))
  | granted (userId orgId : String) (keys : List String) (answer : Except Thrown (List String))
  | set (userId : String)
  | next

/-- A run of the middleware: what it called, and what it came to. -/
structure Gate (α : Type) where
  events : List GateEvent
  outcome : Except Thrown α

instance : Monad Gate where
  pure value := ⟨[], .ok value⟩
  bind action continuation :=
    match action.outcome with
    | .error thrown => ⟨action.events, .error thrown⟩
    | .ok value =>
      ⟨action.events ++ (continuation value).events, (continuation value).outcome⟩

variable (opts : PolicyGateOptions) (next : Except Thrown Unit) (key : String) (c : Context)

def Gate.throw {α : Type} (thrown : Thrown) : Gate α :=
  ⟨[], .error thrown⟩

def PolicyGateOptions.org : String :=
  opts.orgId.getD DUB_DEFAULT_ORG_ID

def resolveActor : Except Thrown (Option String) :=
  match opts.actor with
  | some actor => actor c
  | none => .ok (c.header HDR_USER_ID)

def noActor : String :=
  if opts.actor.isSome then "no authenticated actor" else HDR_USER_ID ++ " absent"

def setUserId (userId : String) : Gate Unit :=
  ⟨[.set userId], .ok ()⟩

/-- The actor, who must be there. -/
def requireActor : Gate String := do
  let actor : Option String ← ⟨[.resolved (resolveActor opts c)], resolveActor opts c⟩
  match actor.filter (· ≠ "") with
  | none => Gate.throw (.unauthenticated (noActor opts))
  | some userId => do
    setUserId userId
    pure userId

def requireMarker : Gate Unit :=
  if c.header HDR_INTERNAL = none then
    Gate.throw (.forbidden (opts.service ++ ": " ++ key ++ " is internal-only")
      { reason := "internal_only", route := key })
  else pure ()

def callNext : Gate Unit :=
  ⟨[.next], next⟩

def requireKeys (required : RequiredKeys) : Gate Unit := do
  let userId ← requireActor opts c
  let answer := opts.granted userId opts.org required.keys
  let held : List String ← ⟨[.granted userId opts.org required.keys answer], answer⟩
  let missing := missingKeys (.required required) held
  if 0 < missing.length then
    Gate.throw (.forbidden ("permission denied: " ++ ", ".intercalate missing)
      { reason := "missing_permission", route := key, required := some required.keys
        missing := some missing })
  else callNext next

def policyGate : Gate Unit :=
  match matchedRouteKey c with
  | none => callNext next
  | some key =>
    match opts.table key with
    | none =>
      Gate.throw (.forbidden (opts.service ++ ": no policy rule for " ++ key)
        { reason := "no_policy_rule", route := key })
    | some .PUBLIC => callNext next
    | some .AUTHENTICATED => do
      let _ ← requireActor opts c
      callNext next
    | some .INTERNAL => do
      requireMarker opts key c
      match (c.header HDR_USER_ID).filter (· ≠ "") with
      | some actor => setUserId actor
      | none => pure ()
      callNext next
    | some (.internalWithKeys required) => do
      requireMarker opts key c
      requireKeys opts next key c required
    | some (.required required) => requireKeys opts next key c required

end Gate

section Agreement

variable (opts : PolicyGateOptions) (next : Except Thrown Unit) (c : Context)

def CallsNext : Prop :=
  .next ∈ (policyGate opts next c).events

/-- The granter answers for the actor by these keys. -/
def HoldsKeys (userId : String) (held : List String) : Prop :=
  ∀ keys, ∃ answer, opts.granted userId opts.org keys = .ok answer ∧
    ∀ key ∈ keys, key ∈ answer ↔ key ∈ held

/-- The gate agrees with `allows`, and fails closed. -/
structure GateAgrees : Prop where
  hasRule : CallsNext opts next c → ∀ key, matchedRouteKey c = some key →
    ∃ rule, opts.table key = some rule
  agrees : ∀ key userId held, matchedRouteKey c = some key → c.header HDR_INTERNAL = none →
    resolveActor opts c = .ok (some userId) → userId ≠ "" → HoldsKeys opts userId held →
      (CallsNext opts next c ↔ ∃ rule, opts.table key = some rule ∧ allows rule held = true)
  marked : ∀ key rule, matchedRouteKey c = some key → opts.table key = some rule →
    isInternal rule = true → CallsNext opts next c → (c.header HDR_INTERNAL).isSome
  keyed : ∀ key rule required, matchedRouteKey c = some key → opts.table key = some rule →
    requiredKeysOf rule = some required → CallsNext opts next c →
      ∃ userId held before after, resolveActor opts c = .ok (some userId) ∧
        (policyGate opts next c).events =
          before ++ .granted userId opts.org required.keys (.ok held) :: after ∧
        .next ∉ before ∧ ∀ key ∈ required.keys, key ∈ held
  granterThrows : ∀ userId keys thrown,
    .granted userId opts.org keys (.error thrown) ∈ (policyGate opts next c).events →
      ¬CallsNext opts next c

variable {opts next c} {key : String} {required : RequiredKeys}

theorem bind_eq {α β : Type} (action : Gate α) (continuation : α → Gate β) :
    action >>= continuation = match action.outcome with
      | .error thrown => ⟨action.events, .error thrown⟩
      | .ok value =>
        ⟨action.events ++ (continuation value).events, (continuation value).outcome⟩ :=
  rfl

theorem requireActor_eq {userId : String} (resolved : resolveActor opts c = .ok (some userId))
    (present : userId ≠ "") :
    requireActor opts c = ⟨[.resolved (.ok (some userId)), .set userId], .ok userId⟩ := by
  unfold requireActor
  rw [resolved, bind_eq]
  simp [Option.filter, present, bind_eq, setUserId, pure]

/-- Without an actor nothing but his resolution happens. -/
theorem requireActor_throws (absent : ∀ userId, resolveActor opts c = .ok (some userId) →
    userId = "") :
    ∃ thrown, requireActor opts c = ⟨[.resolved (resolveActor opts c)], .error thrown⟩ := by
  unfold requireActor
  rw [bind_eq]
  cases resolved : resolveActor opts c with
  | error thrown => exact ⟨thrown, rfl⟩
  | ok actor =>
    have isNone : actor.filter (· ≠ "") = none := by
      cases actor with
      | none => rfl
      | some userId => simp [Option.filter, absent userId resolved]
    simp only [isNone]
    exact ⟨_, rfl⟩

theorem missing_eq_nil {held : List String} : missingKeys (.required required) held = [] ↔
    ∀ key ∈ required.keys, key ∈ held := by
  simp [missingKeys, requiredKeysOf]

/-- The keys are asked for only of an actor, and `next` is called only if he holds them. -/
theorem requireKeys_cases : .next ∉ (requireKeys opts next key c required).events ∨
      ∃ userId held, resolveActor opts c = .ok (some userId) ∧ (∀ key ∈ required.keys, key ∈ held) ∧
        (requireKeys opts next key c required).events =
          [.resolved (.ok (some userId)), .set userId] ++
            .granted userId opts.org required.keys (.ok held) :: [.next] := by
  by_cases absent : ∀ userId, resolveActor opts c = .ok (some userId) → userId = ""
  · obtain ⟨thrown, throws⟩ := requireActor_throws absent
    left
    simp [requireKeys, bind_eq, throws]
  · push Not at absent
    obtain ⟨userId, resolved, present⟩ := absent
    unfold requireKeys
    rw [requireActor_eq resolved present, bind_eq]
    simp only []
    cases granted : opts.granted userId opts.org required.keys with
    | error thrown => simp [bind_eq]
    | ok held =>
      rw [bind_eq]
      simp only []
      split
      · simp [Gate.throw]
      · rename_i noneMissing
        right
        refine ⟨userId, held, resolved, missing_eq_nil.mp ?_, rfl⟩
        exact List.length_eq_zero_iff.mp (by omega)

theorem next_mem_requireKeys {userId : String} {held answer : List String}
    (resolved : resolveActor opts c = .ok (some userId)) (present : userId ≠ "")
    (granted : opts.granted userId opts.org required.keys = .ok answer)
    (same : ∀ key ∈ required.keys, key ∈ answer ↔ key ∈ held) :
    .next ∈ (requireKeys opts next key c required).events ↔
      allows (.required required) held = true := by
  have missing : missingKeys (.required required) answer = missingKeys (.required required) held := by
    unfold missingKeys requiredKeysOf
    exact List.filter_congr fun key member => by simp [same key member]
  unfold requireKeys
  rw [requireActor_eq resolved present, bind_eq]
  simp only [granted]
  rw [bind_eq]
  simp only [missing]
  split
  · rename_i isMissing
    simp [Gate.throw, allows, isInternal, isInternalWithKeys, Nat.ne_of_gt isMissing]
  · rename_i noneMissing
    simp [callNext, allows, isInternal, isInternalWithKeys, Nat.eq_zero_of_not_pos noneMissing]

section

variable (matched : matchedRouteKey c = some key) {rule : RouteRule}
  (found : opts.table key = some rule)
include matched found

theorem not_next_of_unmarked (internal : isInternal rule = true)
    (unmarked : c.header HDR_INTERNAL = none) : ¬CallsNext opts next c := by
  unfold CallsNext policyGate
  cases rule with
  | PUBLIC | AUTHENTICATED | required keys => cases internal
  | INTERNAL | internalWithKeys keys =>
    simp [matched, found, bind_eq, requireMarker, unmarked, Gate.throw]

/-- A rule with keys comes down to `requireKeys`, unless the marker is missing. -/
theorem policyGate_eq_requireKeys (names : requiredKeysOf rule = some required)
    (isMarked : isInternalWithKeys rule = true → (c.header HDR_INTERNAL).isSome) :
    policyGate opts next c = requireKeys opts next key c required := by
  unfold policyGate
  cases rule with
  | PUBLIC | AUTHENTICATED | INTERNAL => cases names
  | required keys =>
    cases names
    simp [matched, found]
  | internalWithKeys keys =>
    cases names
    have marked : c.header HDR_INTERNAL ≠ none := Option.isSome_iff_ne_none.mp (isMarked rfl)
    simp [matched, found, bind_eq, requireMarker, marked, pure]

theorem marked_of_next (called : CallsNext opts next c)
    (internal : isInternalWithKeys rule = true) : (c.header HDR_INTERNAL).isSome := by
  by_contra unmarked
  apply not_next_of_unmarked matched found _ (by simpa using unmarked) called
  cases rule with
  | internalWithKeys keys => rfl
  | _ => cases internal

/-- A rule without keys does not ask the granter. -/
theorem not_granted_of_keyFree {userId : String} {keys : List String}
    {answer : Except Thrown (List String)} (names : requiredKeysOf rule = none) :
    .granted userId opts.org keys answer ∉ (policyGate opts next c).events := by
  unfold policyGate
  cases rule with
  | required keys | internalWithKeys keys => cases names
  | PUBLIC => simp [matched, found, callNext]
  | INTERNAL =>
    simp only [matched, found, bind_eq, requireMarker]
    split_ifs
    · simp [Gate.throw]
    · cases (c.header HDR_USER_ID).filter (· ≠ "") <;> simp [callNext, setUserId, pure]
  | AUTHENTICATED =>
    simp only [matched, found, bind_eq]
    by_cases absent : ∀ userId, resolveActor opts c = .ok (some userId) → userId = ""
    · obtain ⟨thrown, throws⟩ := requireActor_throws absent
      simp [throws]
    · push Not at absent
      obtain ⟨userId, resolved, present⟩ := absent
      simp [requireActor_eq resolved present, callNext]

end

theorem policyGate_agrees (opts : PolicyGateOptions) (next : Except Thrown Unit) (c : Context) :
    GateAgrees opts next c where
  hasRule called key matched := by
    cases found : opts.table key with
    | none => simp [CallsNext, policyGate, matched, found, Gate.throw] at called
    | some rule => exact ⟨rule, rfl⟩
  agrees key userId held matched unmarked resolved present holds := by
    cases found : opts.table key with
    | none => simp [CallsNext, policyGate, matched, found, Gate.throw]
    | some rule =>
      suffices opens : CallsNext opts next c ↔ allows rule held = true by simp [opens]
      cases rule with
      | PUBLIC =>
        simp [CallsNext, policyGate, matched, found, callNext, allows, isInternal, isInternalWithKeys,
          missingKeys, requiredKeysOf]
      | AUTHENTICATED =>
        simp [CallsNext, policyGate, matched, found, callNext, allows, isInternal, isInternalWithKeys,
          missingKeys, requiredKeysOf, bind_eq, requireActor_eq resolved present]
      | INTERNAL | internalWithKeys required =>
        simp [not_next_of_unmarked matched found rfl unmarked, allows, isInternal,
          isInternalWithKeys]
      | required required =>
        obtain ⟨answer, granted, same⟩ := holds required.keys
        unfold CallsNext
        rw [policyGate_eq_requireKeys matched found rfl nofun]
        exact next_mem_requireKeys resolved present granted same
  marked key rule matched found internal called := by
    by_contra unmarked
    exact not_next_of_unmarked matched found internal (by simpa using unmarked) called
  keyed key rule required matched found names called := by
    have isMarked := marked_of_next matched found called
    unfold CallsNext at called
    rw [policyGate_eq_requireKeys matched found names isMarked] at called ⊢
    rcases requireKeys_cases with isNot | ⟨userId, held, resolved, holds, events⟩
    · exact absurd called isNot
    · exact ⟨userId, held, _, _, resolved, events, by simp, holds⟩
  granterThrows userId keys thrown threw called := by
    cases matched : matchedRouteKey c with
    | none => simp [policyGate, matched, callNext] at threw
    | some key =>
      cases found : opts.table key with
      | none => simp [policyGate, matched, found, Gate.throw] at threw
      | some rule =>
        cases names : requiredKeysOf rule with
        | none => exact not_granted_of_keyFree matched found names threw
        | some required =>
          have isMarked := marked_of_next matched found called
          unfold CallsNext at called
          rw [policyGate_eq_requireKeys matched found names isMarked] at called threw
          rcases requireKeys_cases with isNot | ⟨userId, held, resolved, holds, events⟩
          · exact isNot called
          · simp [events] at threw

end Agreement

end DubEcosystem.PolicyGate

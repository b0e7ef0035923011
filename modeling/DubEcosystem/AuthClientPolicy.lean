import Mathlib.Data.List.Basic

/-!
# types: the policy layer of the apps

What an action demands of a role: a level on an app, and maybe one key more.
-/

namespace DubEcosystem.AuthClient

inductive AppAccessLevel where
  | none
  | view
  | edit
  deriving DecidableEq

def AppAccessLevel.text : AppAccessLevel → String
  | .none => "none"
  | .view => "view"
  | .edit => "edit"

def levelRank : AppAccessLevel → Nat
  | .none => 0
  | .view => 1
  | .edit => 2

def levelAtLeast (actual required : AppAccessLevel) : Bool :=
  levelRank required ≤ levelRank actual

/-- The graded keys of an app, and its name. -/
structure AppManifestEntry where
  id : String
  label : String
  view : String
  edit : String
  deriving DecidableEq

def APP_MANIFEST : List AppManifestEntry :=
  [⟨"events", "イベント", "app:events:view", "app:events:edit"⟩,
    ⟨"tasks", "マイタスク", "app:tasks:view", "app:tasks:edit"⟩,
    ⟨"gantt", "ガントチャート", "app:gantt:view", "app:gantt:edit"⟩,
    ⟨"calendar", "カレンダー", "app:calendar:view", "app:calendar:edit"⟩,
    ⟨"notifications", "通知", "app:notifications:view", "app:notifications:edit"⟩,
    ⟨"chat", "チャット", "app:chat:view", "app:chat:edit"⟩,
    ⟨"mail", "メール", "app:mail:view", "app:mail:edit"⟩,
    ⟨"usage", "無料枠 / 課金ガード", "app:usage:view", "app:usage:edit"⟩,
    ⟨"members", "運営メンバー", "app:members:view", "app:members:edit"⟩,
    ⟨"participation", "参加届", "app:participation:view", "app:participation:edit"⟩,
    ⟨"driveshare", "Drive共有", "app:driveshare:view", "app:driveshare:edit"⟩,
    ⟨"lp", "LP管理", "app:lp:view", "app:lp:edit"⟩,
    ⟨"admin", "ロール管理", "app:admin:view", "app:admin:edit"⟩,
    ⟨"commander", "Commander", "app:commander:view", "app:commander:edit"⟩,
    ⟨"hr", "人事", "app:hr:view", "app:hr:edit"⟩,
    ⟨"sponsor", "スポンサー", "app:sponsor:view", "app:sponsor:edit"⟩,
    ⟨"goals", "目標管理", "app:goals:view", "app:goals:edit"⟩]

def getApp (id : String) : Option AppManifestEntry :=
  APP_MANIFEST.find? fun app => app.id = id

theorem view_ne_edit {id : String} {app : AppManifestEntry} (isApp : getApp id = some app) :
    app.view ≠ app.edit := by
  have each : ∀ app ∈ APP_MANIFEST, app.view ≠ app.edit := by decide
  exact each app (List.mem_of_find?_eq_some isApp)

def keysForAppLevel (appId : String) (level : AppAccessLevel) : List String :=
  match getApp appId with
  | none => []
  | some app =>
    match level with
    | .edit => [app.view, app.edit]
    | .view => [app.view]
    | .none => []

/-- The keys that are granted are given as a set. -/
def appAccessLevelOf (granted : String → Bool) (appId : String) : AppAccessLevel :=
  match getApp appId with
  | none => .none
  | some app => if granted app.edit then .edit else if granted app.view then .view else .none

inductive PolicyDenyReason where
  | unknownApp
  | appDisabled
  | readOnly
  | missingPermission
  deriving DecidableEq

def PolicyDenyReason.text : PolicyDenyReason → String
  | .unknownApp => "unknown_app"
  | .appDisabled => "app_disabled"
  | .readOnly => "read_only"
  | .missingPermission => "missing_permission"

structure PolicyRequirement where
  app : String
  level : AppAccessLevel
  permission : Option String

structure PolicyDecision where
  allowed : Bool
  requiredKeys : List String
  missing : List String
  reason : Option PolicyDenyReason
  level : AppAccessLevel

def requiredKeysFor (req : PolicyRequirement) : List String :=
  let keys := keysForAppLevel req.app req.level
  match req.permission.filter fun permission => permission ≠ "" with
  | none => keys
  | some permission => if permission ∈ keys then keys else keys ++ [permission]

def decide (granted : String → Bool) (req : PolicyRequirement) : PolicyDecision :=
  let level := appAccessLevelOf granted req.app
  let requiredKeys := requiredKeysFor req
  let missing := requiredKeys.filter fun key => !granted key
  if (getApp req.app).isNone then
    ⟨false, requiredKeys, missing, some .unknownApp, level⟩
  else if !levelAtLeast level req.level then
    ⟨false, requiredKeys, missing, some (if level = .none then .appDisabled else .readOnly), level⟩
  else
    match req.permission.filter fun permission => !granted permission with
    | some permission =>
      ⟨false, requiredKeys, [permission], some .missingPermission, level⟩
    | none => ⟨true, requiredKeys, [], none, level⟩

def denyMessage (decision : PolicyDecision) (appLabel : Option String) : String :=
  let name := appLabel.getD "このアプリ"
  match decision.reason with
  | some .appDisabled => name ++ "を使う権限がありません（無効）。"
  | some .readOnly => name ++ "は閲覧のみの権限です。編集するには編集権限が必要です。"
  | some .missingPermission => "権限が足りません: " ++ ", ".intercalate decision.missing
  | some .unknownApp => "未登録のアプリです。"
  | none => "許可されています。"

theorem decide_allowed {granted : String → Bool} {req : PolicyRequirement} :
    (decide granted req).allowed = true ↔ (getApp req.app).isSome = true ∧
      levelAtLeast (appAccessLevelOf granted req.app) req.level = true ∧
        ∀ permission, req.permission = some permission → granted permission = true := by
  unfold decide
  cases known : getApp req.app with
  | none => simp
  | some app =>
    by_cases reaches : levelAtLeast (appAccessLevelOf granted req.app) req.level = true
    · cases permission : req.permission with
      | none => simp [reaches]
      | some key => by_cases held : granted key = true <;> simp [reaches, held, Option.filter]
    · simp [reaches]

end DubEcosystem.AuthClient

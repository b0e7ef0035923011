import Mathlib.Data.List.Basic

/-!
# commander-phases: the phases of a feature

The edges of the development flow, which of them need the approval of the user, and how a
feature is moved along one of them.
-/

namespace DubEcosystem.Commander

inductive FeaturePhase where
  | demoBuilding
  | demoReview
  | demoRejected
  | stagingDeployed
  | stagingReview
  | stagingRejected
  | prodShipped
  deriving DecidableEq

def FeaturePhase.text : FeaturePhase → String
  | .demoBuilding => "demo_building"
  | .demoReview => "demo_review"
  | .demoRejected => "demo_rejected"
  | .stagingDeployed => "staging_deployed"
  | .stagingReview => "staging_review"
  | .stagingRejected => "staging_rejected"
  | .prodShipped => "prod_shipped"

def PHASES : List FeaturePhase :=
  [.demoBuilding, .demoReview, .demoRejected, .stagingDeployed, .stagingReview,
    .stagingRejected, .prodShipped]

/-- `isFeaturePhase`, with the phase that the text is. -/
def isFeaturePhase (text : String) : Option FeaturePhase :=
  PHASES.find? fun phase => phase.text = text

structure TransitionSpec where
  to' : FeaturePhase
  requiresApproval : Bool

def REWIND_TO_DEMO_REVIEW : TransitionSpec := ⟨.demoReview, false⟩

def REWIND_TO_STAGING_REVIEW : TransitionSpec := ⟨.stagingReview, false⟩

/-- `TRANSITIONS`: what is not an edge is refused. -/
def transitions : FeaturePhase → List TransitionSpec
  | .demoBuilding => [⟨.demoReview, false⟩]
  | .demoReview => [⟨.stagingDeployed, true⟩, ⟨.demoRejected, false⟩]
  | .demoRejected => [⟨.demoBuilding, false⟩]
  | .stagingDeployed => [⟨.stagingReview, false⟩, REWIND_TO_DEMO_REVIEW]
  | .stagingReview => [⟨.prodShipped, true⟩, ⟨.stagingRejected, false⟩, REWIND_TO_DEMO_REVIEW]
  | .stagingRejected => [⟨.demoBuilding, false⟩, REWIND_TO_DEMO_REVIEW]
  | .prodShipped => [REWIND_TO_STAGING_REVIEW, REWIND_TO_DEMO_REVIEW]

def INITIAL_PHASE : FeaturePhase := .demoBuilding

def findTransition (source target : FeaturePhase) : Option TransitionSpec :=
  (transitions source).find? fun spec => spec.to' = target

inductive PhaseTransitionCode where
  | illegalTransition
  | approvalRequired
  deriving DecidableEq

structure PhaseTransitionError where
  message : String
  code : PhaseTransitionCode

def PhaseTransitionError.httpStatus (error : PhaseTransitionError) : Nat :=
  match error.code with
  | .illegalTransition => 409
  | .approvalRequired => 403

def illegalTransition (source target : FeaturePhase) : PhaseTransitionError :=
  ⟨"Illegal phase transition: " ++ source.text ++ " -> " ++ target.text ++ " (段飛ばし禁止)",
    .illegalTransition⟩

def approvalRequired (source target : FeaturePhase) : PhaseTransitionError :=
  ⟨"Transition " ++ source.text ++ " -> " ++ target.text ++
    " requires explicit user approval (自己承認禁止)", .approvalRequired⟩

def transition (source target : FeaturePhase) (approvedByUser : Bool) :
    Except PhaseTransitionError FeaturePhase :=
  match findTransition source target with
  | none => .error (illegalTransition source target)
  | some spec =>
    if spec.requiresApproval ∧ approvedByUser = false then
      .error (approvalRequired source target)
    else .ok target

/-- An edge of the flow, with the approval that it needs. -/
def IsMove (source target : FeaturePhase) (approvedByUser : Bool) : Prop :=
  ∃ spec, findTransition source target = some spec ∧
    (spec.requiresApproval = true → approvedByUser = true)

theorem isMove_iff_transition {source target : FeaturePhase} {approvedByUser : Bool} :
    IsMove source target approvedByUser ↔ transition source target approvedByUser = .ok target := by
  unfold IsMove transition
  cases findTransition source target with
  | none => simp
  | some spec => cases spec.requiresApproval <;> cases approvedByUser <;> simp

/-- The phases that are entered with an approval only. -/
def FeaturePhase.IsGated (phase : FeaturePhase) : Prop :=
  ∀ source spec, findTransition source phase = some spec → spec.requiresApproval = true

theorem IsMove.approved {source target : FeaturePhase} {approvedByUser : Bool}
    (isMove : IsMove source target approvedByUser) (isGated : target.IsGated) :
    approvedByUser = true := by
  obtain ⟨spec, found, approves⟩ := isMove
  exact approves (isGated source spec found)

end DubEcosystem.Commander

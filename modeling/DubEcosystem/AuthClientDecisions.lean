import DubEcosystem.AuthClientGate
import DubEcosystem.DerivedIds

/-!
# auth-client: where decisions come from

Each decision of a check goes back to a moment at which identity gave it: in the course of the
check, or before, while the answer may be kept and since the subject was last invalidated.
-/

namespace DubEcosystem.AuthClient

open DerivedIds Interleaving List Option
open PolicyGate (isDangerousPermission)
open PortPrograms Relation

/-- Identity gave the decision at a moment of the run that ends here, for a check that started
then. -/
structure JustifiedAt (start : World) (fresh : Bool) (req : AuthzCheckRequest) (q : AuthzQuery)
    (decision : AuthzDecision) (moment : Moment) : Prop where
  isAnswer : decision.allowed = moment.granted req.subjectUserId q.permission
  isValid : start.invalidations req.subjectUserId ≤ moment.invalidations req.subjectUserId
  isYoung : (start.serial ≤ moment.serial ∧ start.now ≤ moment.now) ∨
    start.now < moment.now + decision.ttlSeconds * 1000
  isStrong : (fresh || isDangerousPermission q.permission) = true →
    start.serial ≤ moment.serial ∧ start.now ≤ moment.now

def Justified (start : World) (fresh : Bool) (req : AuthzCheckRequest) (moments : List Moment)
    (q : AuthzQuery) (decision : AuthzDecision) : Prop :=
  ∃ moment ∈ moments, JustifiedAt start fresh req q decision moment

/-- Every check that returns, returns decisions that are justified. -/
def DecisionsHold (condition : RunCondition authSignature World Operation)
    (config : AuthClientConfig) : Prop :=
  ∀ (world : World) (reached : Config authSignature World Operation)
    (req : AuthzCheckRequest) (fresh : Bool)
    (watched : Watched authSignature World Operation (Except AuthError AuthzCheckResponse))
    (res : AuthzCheckResponse),
    world.cache = [] → (authSystem config).ReachableUnder condition world reached →
      ReflTransGen ((authSystem config).WatchStep condition (.checkPermissions req fresh))
        ⟨reached.world, reached.threads, (checkPermissions config req fresh).run⟩ watched →
        watched.own = .done (.ok res) →
          List.Forall₂ (Justified reached.world fresh req watched.world.moments) req.checks
            res.decisions

/-- The user, the organisation and the keys are without the separator. -/
def Plain (userId orgId : String) (q : AuthzQuery) : Prop :=
  '|' ∉ userId.toList ∧ '|' ∉ orgId.toList ∧ '|' ∉ q.permission.toList

def Call.Refills (cleared : Option String) : Call → Prop
  | .put userId entries => entries ≠ [] ∧ Clears cleared userId
  | _ => False

/-- Checks are plain, and nothing is invalidated that an operation is next to cache. -/
def answersLast : RunCondition authSignature World Operation where
  mayCall
    | .look req, _, _ => ∀ q ∈ req.checks, Plain req.subjectUserId req.orgId q
    | .invalidate cleared, _, others =>
      ∀ thread ∈ others, ¬thread.2.MayReach (fun _ => True) (Call.Refills cleared)
    | _, _, _ => True
  mayStop _ := True

/-- Identity gave the entry at the moment, and may be asked for it under the key. -/
structure TakenAt (world : World) (item : String × CacheEntry) (orgId : String) (q : AuthzQuery)
    (moment : Moment) : Prop where
  isPlain : Plain item.2.userId orgId q
  isKey : item.1 = cacheKey item.2.userId orgId q
  isAnswer : item.2.decision.allowed = moment.granted item.2.userId q.permission
  isValid : world.invalidations item.2.userId ≤ moment.invalidations item.2.userId
  isYoung : item.2.expiresAt ≤ moment.now + item.2.decision.ttlSeconds * 1000

def World.Took (world : World) (item : String × CacheEntry) : Prop :=
  ∃ orgId q, ∃ moment ∈ world.moments, TakenAt world item orgId q moment

/-- Whatever is cached was taken. -/
def World.CacheTaken (world : World) : Prop :=
  ∀ item ∈ world.cache, world.Took item

variable {world moved : World} {item : String × CacheEntry} {config : AuthClientConfig}

theorem World.Took.stays (took : world.Took item) (later : world.moments ⊆ moved.moments)
    (same : moved.invalidations item.2.userId = world.invalidations item.2.userId) :
    moved.Took item := by
  obtain ⟨orgId, q, moment, member, taken⟩ := took
  refine ⟨orgId, q, moment, later member, ?_⟩
  exact { taken with isValid := same.le.trans taken.isValid }

variable {cache : Cache} {entry : CacheEntry}

theorem Cache.mem_of_get {key : String}
    (isHit : cache.get key = some entry) : (key, entry) ∈ cache := by
  obtain ⟨item, isFound, rfl⟩ := map_eq_some_iff.mp isHit
  have isKey : item.1 = key := by simpa using find?_some isFound
  subst isKey
  exact mem_of_find?_eq_some isFound

theorem Cache.mem_set {key : String}
    (member : item ∈ cache.set key entry) : item = (key, entry) ∨ item ∈ cache := by
  unfold Cache.set at member
  split at member
  · obtain ⟨old, oldMem, rfl⟩ := List.mem_map.mp member
    by_cases isKey : old.1 = key
    · exact .inl (if_pos isKey)
    · rw [if_neg isKey]
      exact .inr oldMem
  · rcases mem_append.mp member with isOld | isNew
    · exact .inr isOld
    · exact .inl (mem_singleton.mp isNew)

theorem mem_putCache {entry : String × CacheEntry}
    (member : item ∈ putCache config cache entry) : item = entry ∨ item ∈ cache := by
  unfold putCache at member
  split at member
  · exact .inr member
  · rcases Cache.mem_set member with isNew | isOld
    · exact .inl isNew
    · right
      split at isOld
      · exact mem_of_mem_drop isOld
      · exact isOld

variable {entries : List (String × CacheEntry)}

theorem mem_foldl_putCache
    (member : item ∈ entries.foldl (putCache config) cache) : item ∈ entries ∨ item ∈ cache := by
  induction entries generalizing cache with
  | nil => exact .inr member
  | cons entry rest ih =>
    rcases ih member with isLater | isEarlier
    · exact .inl (.tail _ isLater)
    · rcases mem_putCache isEarlier with rfl | isOld
      · exact .inl (.head _)
      · exact .inr isOld

variable {userId : String}

theorem cacheKey_inj {orgId otherUser otherOrg : String} {q other : AuthzQuery}
    (isPlain : Plain userId orgId q) (otherPlain : Plain otherUser otherOrg other)
    (same : cacheKey userId orgId q = cacheKey otherUser otherOrg other) :
    userId = otherUser ∧ q.permission = other.permission := by
  obtain ⟨sameUser, sameRest⟩ := separator_append_inj isPlain.1 otherPlain.1 same
  obtain ⟨-, sameRest⟩ := separator_append_inj isPlain.2.1 otherPlain.2.1 sameRest
  exact ⟨sameUser, (separator_append_inj isPlain.2.2 otherPlain.2.2 sameRest).1⟩

theorem World.CacheTaken.invalidate (taken : world.CacheTaken) (cleared : Option String) :
    (world.invalidate cleared).CacheTaken := by
  intro item member
  cases cleared with
  | none => cases member
  | some userId =>
    obtain ⟨isOld, isOther⟩ := mem_filter.mp member
    apply (taken item isOld).stays (subset_cons_self _ _)
    have notCleared : ¬Clears (some userId) item.2.userId := by
      rintro (isAll | same)
      · cases isAll
      · exact of_decide_eq_true isOther (some.inj same).symm
    exact if_neg notCleared

inductive Phase where
  | first (op : Operation)
  | looked (req : AuthzCheckRequest) (fresh : Bool) (now : ℚ)
    (decisions : List (Option AuthzDecision))
  | answered (req : AuthzCheckRequest) (fresh : Bool) (decisions : List (Option AuthzDecision))
    (entries : List (String × CacheEntry))
  | stored (req : AuthzCheckRequest) (fresh : Bool) (decisions : List (Option AuthzDecision))
  | ended

inductive Leads (config : AuthClientConfig) :
    Phase → (request : Call) → authSignature.Answer request → Phase → Prop
  | looks {req fresh looked} :
      Leads config (.first (.checkPermissions req fresh)) (.look req) (.ok looked)
        (.looked req fresh looked.now (cachedDecisions config fresh req.checks looked))
  | posts {req fresh now decisions answers} : Leads config (.looked req fresh now decisions)
        (.post { req with checks := missed req.checks decisions }) (.ok answers)
        (.answered req fresh (fillMisses decisions answers)
          (storedEntries config req fresh now (missed req.checks decisions) answers))
  | puts {req fresh decisions entries} :
      Leads config (.answered req fresh decisions entries) (.put req.subjectUserId entries)
        (.ok ()) (.stored req fresh decisions)
  | putFails {req fresh decisions entries thrown} :
      Leads config (.answered req fresh decisions entries) (.put req.subjectUserId entries)
        (.error thrown) .ended
  | invalidates {userId answer} :
      Leads config (.first (.invalidateAuthzCache userId)) (.invalidate userId) answer .ended
  | looksFails {req fresh thrown} :
      Leads config (.first (.checkPermissions req fresh)) (.look req) (.error thrown) .ended
  | postFails {req fresh now decisions asked thrown} :
      Leads config (.looked req fresh now decisions) (.post asked) (.error thrown) .ended

def Phase.Final : Phase → Prop
  | .answered .. => False
  | _ => True

def authProtocol (config : AuthClientConfig) : Protocol authSignature Phase where
  possible _ _ := True
  leads := Leads config
  final := Phase.Final

def Phase.Owned (op : Operation) : Phase → Prop
  | .first other => op = other
  | .looked req fresh _ _ => op = .checkPermissions req fresh
  | .answered req fresh _ _ => op = .checkPermissions req fresh
  | .stored req fresh _ => op = .checkPermissions req fresh
  | .ended => True

/-- A check returns what it has found cached, or what the answers have completed. -/
def Returns (config : AuthClientConfig) (req : AuthzCheckRequest) (fresh : Bool) :
    Except AuthError AuthzCheckResponse → Phase → Prop
  | .ok res, phase => ∃ now decisions, res = finalDecisions config now decisions ∧
      ((missed req.checks decisions = [] ∧ phase = .looked req fresh now decisions) ∨
        phase = .stored req fresh decisions)
  | .error _, phase => phase.Final

variable {req : AuthzCheckRequest}

variable {fresh : Bool}

theorem Returns.final (outcome : Except AuthError AuthzCheckResponse) (phase : Phase)
    (returns : Returns config req fresh outcome phase) : phase.Final := by
  cases outcome with
  | error thrown => exact returns
  | ok res =>
    obtain ⟨now, decisions, -, ⟨-, rfl⟩ | rfl⟩ := returns
    · exact trivial
    · exact trivial

theorem checkPermissions_follows (config : AuthClientConfig) (req : AuthzCheckRequest)
    (fresh : Bool) :
    Follows (authProtocol config) (.first (.checkPermissions req fresh))
      (checkPermissions config req fresh) (Returns config req fresh) := by
  unfold checkPermissions
  split
  · exact follows_throw trivial
  · apply follows_port_bind
    · intro looked _
      refine ⟨_, .looks, ?_⟩
      simp only []
      by_cases noMiss : missed req.checks (cachedDecisions config fresh req.checks looked) = []
      · rw [if_pos noMiss]
        exact follows_pure ⟨_, _, rfl, .inl ⟨noMiss, rfl⟩⟩
      · rw [if_neg noMiss]
        apply follows_port_bind
        · intro answers _
          refine ⟨_, .posts, ?_⟩
          apply follows_port_bind
          · intro _ _
            refine ⟨_, .puts, ?_⟩
            split
            · exact follows_throw trivial
            · exact follows_pure ⟨_, _, rfl, .inr rfl⟩
          · exact fun thrown _ => ⟨_, .putFails, trivial⟩
        · exact fun thrown _ => ⟨_, .postFails, trivial⟩
    · exact fun thrown _ => ⟨_, .looksFails, trivial⟩

theorem actionOf_follows (config : AuthClientConfig) (op : Operation) :
    Follows (authProtocol config) (.first op) (actionOf config op) fun _ after =>
      after.Final := by
  cases op with
  | checkPermissions req fresh =>
    apply follows_bind
    apply (checkPermissions_follows config req fresh).mono
    rintro (thrown | res) after returns
    · exact returns
    · exact follows_pure (Returns.final (.ok res) after returns)
  | invalidateAuthzCache userId =>
    apply follows_port
    exact fun answer _ => ⟨.ended, .invalidates, trivial⟩

variable {cleared : Option String}

theorem mayReach_of_answered {decisions : List (Option AuthzDecision)}
    {program : Prog authSignature Unit}
    (follows : (authProtocol config).Follows (.answered req fresh decisions entries) program)
    (stored : entries ≠ []) (clears : Clears cleared req.subjectUserId) :
    program.MayReach (fun _ => True) (Call.Refills cleared) := by
  cases program with
  | done value => exact follows.elim
  | call request next =>
    obtain ⟨after, leads, -⟩ := follows (.error .typeError) trivial
    cases leads
    exact .inl ⟨stored, clears⟩

/-- What only grows in a run. -/
structure World.Onward (world moved : World) : Prop where
  serial : world.serial ≤ moved.serial
  now : world.now ≤ moved.now
  invalidations : ∀ userId, world.invalidations userId ≤ moved.invalidations userId
  moments : world.moments ⊆ moved.moments

variable {start : World}

theorem World.Onward.refl (world : World) : world.Onward world :=
  ⟨le_rfl, le_rfl, fun _ => le_rfl, fun _ => id⟩

theorem World.Onward.trans (earlier : start.Onward world) (later : world.Onward moved) :
    start.Onward moved where
  serial := earlier.serial.trans later.serial
  now := earlier.now.trans later.now
  invalidations userId := (earlier.invalidations userId).trans (later.invalidations userId)
  moments := List.Subset.trans earlier.moments later.moments

theorem onward_of_passes (passes : Passes world moved) : world.Onward moved := by
  cases passes with
  | passes now identity isLater =>
    exact ⟨Nat.le_succ _, isLater, fun _ => le_rfl, subset_cons_self _ _⟩

theorem answers_look {answer : authSignature.Answer (.look req)}
    (answers : (authMachine config).Answers (.look req) world answer moved) :
    answer = .ok ⟨world.now, req.checks.map fun q =>
      world.cache.get (cacheKey req.subjectUserId req.orgId q)⟩ ∧ moved = world := by
  cases answers
  exact ⟨rfl, rfl⟩

theorem answers_post {answer : authSignature.Answer (.post req)}
    (answers : (authMachine config).Answers (.post req) world answer moved) :
    (∀ returned, answer = .ok returned → returned = req.checks.map (world.identity.answer req)) ∧
      moved = world := by
  simp only [Machine.Answers, authMachine] at answers
  by_cases isDown : world.identity.isDown = true
  · rw [if_pos isDown] at answers
    cases answers
    exact ⟨fun returned isOk => (by cases isOk), rfl⟩
  · rw [if_neg isDown] at answers
    cases answers
    exact ⟨fun returned isOk => (Except.ok.inj isOk).symm, rfl⟩

theorem answers_put {answer : authSignature.Answer (.put userId entries)}
    (answers : (authMachine config).Answers (.put userId entries) world answer moved) :
    moved = { world with cache := entries.foldl (putCache config) world.cache } := by
  cases answers
  rfl

theorem answers_invalidate {answer : authSignature.Answer (.invalidate cleared)}
    (answers : (authMachine config).Answers (.invalidate cleared) world answer moved) :
    moved = world.invalidate cleared := by
  cases answers
  rfl

variable {request : Call} {answer : authSignature.Answer request}

theorem onward_of_answers
    (answers : (authMachine config).Answers request world answer moved) :
    world.Onward moved := by
  cases request with
  | look req =>
    obtain ⟨-, rfl⟩ := answers_look answers
    exact .refl _
  | post req =>
    obtain ⟨-, rfl⟩ := answers_post answers
    exact .refl _
  | put userId entries =>
    obtain rfl := answers_put answers
    exact ⟨le_rfl, le_rfl, fun _ => le_rfl, fun _ => id⟩
  | invalidate cleared =>
    obtain rfl := answers_invalidate answers
    refine ⟨Nat.le_succ _, le_rfl, fun userId => ?_, subset_cons_self _ _⟩
    simp only [World.invalidate]
    split
    · exact Nat.le_succ _
    · exact le_rfl

theorem invalidations_of_answers
    (answers : (authMachine config).Answers request world answer moved)
    (notCleared : ∀ cleared, request = .invalidate cleared → ¬Clears cleared userId) :
    moved.invalidations userId = world.invalidations userId := by
  cases request with
  | look req => rw [(answers_look answers).2]
  | post req => rw [(answers_post answers).2]
  | put _ entries => rw [answers_put answers]
  | invalidate cleared =>
    rw [answers_invalidate answers]
    exact if_neg (notCleared cleared rfl)

section Guards

def Phase.Holds (world : World) : Phase → Prop
  | .looked req _ now _ =>
    (∀ q ∈ req.checks, Plain req.subjectUserId req.orgId q) ∧ now ≤ world.now
  | .answered req _ _ entries =>
    ∀ item ∈ entries, item.2.userId = req.subjectUserId ∧ world.Took item
  | _ => True

variable {decisions : List (Option AuthzDecision)}

theorem mem_missed {q : AuthzQuery} {checks : List AuthzQuery}
    (member : q ∈ missed checks decisions) :
    q ∈ checks := by
  induction checks generalizing decisions with
  | nil => cases decisions <;> cases member
  | cons first rest ih =>
    rcases decisions with _ | ⟨_ | decision, decisions⟩
    · cases member
    · rcases mem_cons.mp member with rfl | isLater
      · exact .head _
      · exact .tail _ (ih isLater)
    · exact .tail _ (ih member)

theorem mem_zip_map {first : AuthzQuery} {second : AuthzDecision} {asked : List AuthzQuery}
    {answer : AuthzQuery → AuthzDecision} (member : (first, second) ∈ asked.zip (asked.map answer)) :
    first ∈ asked ∧ second = answer first := by
  induction asked with
  | nil => cases member
  | cons q rest ih =>
    rcases mem_cons.mp member with same | isLater
    · cases same
      exact ⟨.head _, rfl⟩
    · exact ⟨.tail _ (ih isLater).1, (ih isLater).2⟩

theorem took_storedEntries {now : ℚ}
    (isPlain : ∀ q ∈ req.checks, Plain req.subjectUserId req.orgId q) (isPast : now ≤ world.now)
    (member : item ∈ storedEntries config req fresh now (missed req.checks decisions)
      ((missed req.checks decisions).map (world.identity.answer
        { req with checks := missed req.checks decisions }))) :
    item.2.userId = req.subjectUserId ∧ world.Took item := by
  obtain ⟨⟨q, decision⟩, isEntry, rfl⟩ := List.mem_map.mp member
  obtain ⟨asked, rfl⟩ := mem_zip_map (mem_filter.mp isEntry).1
  refine ⟨rfl, req.orgId, q, world.moment, .head _, ?_⟩
  exact ⟨isPlain q (mem_missed asked), rfl, rfl, le_rfl, add_le_add_left isPast _⟩

theorem Phase.Holds.stays {phase : Phase}
    (holds : phase.Holds world) (answers : (authMachine config).Answers request world answer moved)
    (notCleared : ∀ req fresh decisions entries cleared,
      phase = .answered req fresh decisions entries → entries ≠ [] →
        request = .invalidate cleared → ¬Clears cleared req.subjectUserId) :
    phase.Holds moved := by
  have onward := onward_of_answers answers
  cases phase with
  | looked req fresh now decisions => exact ⟨holds.1, holds.2.trans onward.now⟩
  | answered req fresh decisions entries =>
    intro item member
    obtain ⟨isUser, took⟩ := holds item member
    refine ⟨isUser, took.stays onward.moments (invalidations_of_answers answers ?_)⟩
    intro cleared isInvalidate
    rw [isUser]
    exact notCleared req fresh decisions entries cleared rfl (ne_nil_of_mem member) isInvalidate
  | _ => exact trivial

/-- What is cached or is to be cached was taken. -/
theorem checks_guard (config : AuthClientConfig) :
    (authProtocol config).Guards (authSystem config) answersLast .first Phase.Owned
      World.CacheTaken fun world phase => phase.Holds world where
  program op _ _ := by
    have follows := actionOf_follows config op
    unfold Follows at follows
    apply Protocol.followsTo_bind
    exact follows
  possible _ := trivial
  ownsFirst _ := rfl
  ownsLed leads owned := by
    cases leads <;> first | exact owned | exact trivial
  starts _ _ _ := trivial
  own := by
    intro others op request answer world moved phase after acts taken
    obtain ⟨mayCall, answers, leads, owned, isHeld, -⟩ := acts
    cases leads with
    | looks =>
      obtain ⟨isLooked, rfl⟩ := answers_look answers
      cases isLooked
      exact ⟨taken, mayCall, le_rfl⟩
    | posts =>
      obtain ⟨isMap, rfl⟩ := answers_post answers
      obtain rfl := isMap _ rfl
      exact ⟨taken, fun item member => took_storedEntries isHeld.1 isHeld.2 member⟩
    | puts =>
      obtain rfl := answers_put answers
      refine ⟨fun item member => ?_, trivial⟩
      rcases mem_foldl_putCache member with isNew | isOld
      · exact (isHeld item isNew).2.stays (fun _ => id) rfl
      · exact (taken item isOld).stays (fun _ => id) rfl
    | invalidates =>
      obtain rfl := answers_invalidate answers
      exact ⟨taken.invalidate _, trivial⟩
    | putFails | looksFails => cases answers
    | postFails =>
      obtain ⟨-, rfl⟩ := answers_post answers
      exact ⟨taken, trivial⟩
  other := by
    intro others op request answer world moved phase after thread bystander acts taken member owned
      follows isHeld
    apply Phase.Holds.stays isHeld acts.answers
    rintro req fresh decisions entries cleared rfl stored rfl clears
    exact acts.mayCall thread member (mayReach_of_answered follows stored clears)
  environment := by
    intro world moved passes taken
    have onward := onward_of_passes passes
    cases passes with
    | passes now identity isLater =>
      refine ⟨fun item member => (taken item member).stays onward.moments rfl, ?_⟩
      intro phase isHeld
      cases phase with
      | looked req fresh looked decisions => exact ⟨isHeld.1, isHeld.2.trans onward.now⟩
      | answered req fresh decisions entries =>
        exact fun item member =>
          ⟨(isHeld item member).1, (isHeld item member).2.stays onward.moments rfl⟩
      | _ => exact trivial

end Guards

variable {fresh : Bool}

def Phase.Since (start world : World) : Phase → Prop
  | .looked req fresh _ decisions =>
    DecidedBy (Justified start fresh req world.moments) req.checks decisions
  | .answered req fresh decisions _ =>
    AllDecidedBy (Justified start fresh req world.moments) req.checks decisions
  | .stored req fresh decisions =>
    AllDecidedBy (Justified start fresh req world.moments) req.checks decisions
  | _ => True

variable {decision : AuthzDecision}

theorem Justified.later {moments later : List Moment} {q : AuthzQuery}
    (justified : Justified start fresh req moments q decision) (isLater : moments ⊆ later) :
    Justified start fresh req later q decision := by
  obtain ⟨moment, member, isAt⟩ := justified
  exact ⟨moment, isLater member, isAt⟩

theorem Phase.Since.stays {phase : Phase} (since : phase.Since start world)
    (onward : world.Onward moved) : phase.Since start moved := by
  cases phase with
  | looked req fresh now decisions =>
    exact since.imp fun q hit justified decision isHit =>
      (justified decision isHit).later onward.moments
  | answered req fresh decisions entries | stored req fresh decisions =>
    exact since.imp fun q decided ⟨decision, isDecided, justified⟩ =>
      ⟨decision, isDecided, justified.later onward.moments⟩
  | _ => exact trivial

theorem justified_now (onward : start.Onward world) (asked : AuthzCheckRequest) (q : AuthzQuery)
    (sameUser : asked.subjectUserId = req.subjectUserId) :
    Justified start fresh req world.moments q (world.identity.answer asked q) := by
  refine ⟨world.moment, .head _, ?_, onward.invalidations _,
    .inl ⟨onward.serial, onward.now⟩, fun _ => ⟨onward.serial, onward.now⟩⟩
  rw [← sameUser]
  rfl

theorem justified_cached (onward : start.Onward world) (taken : world.CacheTaken)
    {q : AuthzQuery} (isPlain : Plain req.subjectUserId req.orgId q)
    (isCached : cachedDecision config fresh world.now q
      (world.cache.get (cacheKey req.subjectUserId req.orgId q)) = some decision) :
    Justified start fresh req world.moments q decision := by
  simp only [cachedDecision] at isCached
  split at isCached
  · cases isCached
  · rename_i usesCache
    obtain ⟨entry, isEntry, rfl⟩ := map_eq_some_iff.mp isCached
    obtain ⟨isHit, unexpired⟩ := filter_eq_some_iff.mp isEntry
    obtain ⟨orgId, other, moment, member, isTaken⟩ := taken _ (Cache.mem_of_get isHit)
    obtain ⟨sameUser, sameKey⟩ := cacheKey_inj isPlain isTaken.isPlain isTaken.isKey
    refine ⟨moment, member, ?_, ?_, ?_, ?_⟩
    · rw [sameUser, sameKey]
      exact isTaken.isAnswer
    · rw [sameUser]
      exact (onward.invalidations _).trans isTaken.isValid
    · right
      calc start.now ≤ world.now := onward.now
        _ < entry.expiresAt := by simpa using unexpired
        _ ≤ moment.now + entry.decision.ttlSeconds * 1000 := isTaken.isYoung
    · intro isStrong
      simp only [bypasses, isStrong, Bool.true_or] at usesCache
      exact absurd trivial usesCache

theorem checks_privy (config : AuthClientConfig) (start : World) (op : Operation) :
    (authProtocol config).Privy (authSystem config) answersLast Phase.Owned World.CacheTaken
      (fun world phase => phase.Holds world) op
      fun world phase => start.Onward world ∧ phase.Since start world where
  own := by
    intro others request answer world moved phase after acts taken isMine
    obtain ⟨mayCall, answers, leads, -, -, -⟩ := acts
    obtain ⟨onward, since⟩ := isMine
    have later := onward.trans (onward_of_answers answers)
    cases leads with
    | looks =>
      obtain ⟨isLooked, rfl⟩ := answers_look answers
      cases isLooked
      refine ⟨later, cachedDecisions_decidedBy fun q member decision isCached => ?_⟩
      exact justified_cached onward taken (mayCall q member) isCached
    | posts =>
      obtain ⟨isMap, rfl⟩ := answers_post answers
      obtain rfl := isMap _ rfl
      exact ⟨later, since.fill (forall₂_map_answer fun q => justified_now onward _ q rfl)⟩
    | puts => exact ⟨later, since.imp fun q decided ⟨decision, isDecided, justified⟩ =>
      ⟨decision, isDecided, justified.later (onward_of_answers answers).moments⟩⟩
    | _ => exact ⟨later, trivial⟩
  other acts _ _ _ _ isMine :=
    ⟨isMine.1.trans (onward_of_answers acts.answers), isMine.2.stays (onward_of_answers acts.answers)⟩
  environment passes _ isMine :=
    ⟨isMine.1.trans (onward_of_passes passes), isMine.2.stays (onward_of_passes passes)⟩

/-- Where answers are cached before they are invalidated, every decision is justified. -/
theorem decisionsHold_answersLast (config : AuthClientConfig) :
    DecisionsHold answersLast config := by
  intro world reached req fresh watched res isEmpty reachable run isDone
  have guards := checks_guard config
  have initial : world.CacheTaken := by
    intro item member
    rw [isEmpty] at member
    cases member
  have follows := checkPermissions_follows config req fresh
  unfold Follows at follows
  obtain ⟨-, -, phase, -, isAt, -, -, since⟩ := guards.watchedWith Returns.final
    (checks_privy config reached.world (.checkPermissions req fresh))
    (guards.reached initial reachable) follows ⟨.refl _, trivial⟩ run
  rw [isDone] at isAt
  obtain ⟨now, decisions, rfl, ⟨noMiss, rfl⟩ | rfl⟩ := isAt
  · exact (since.all noMiss).final config now
  · exact AllDecidedBy.final since config now

def GateAgrees (exception : (String → Bool) → PolicyRequirement → Prop)
    (config : AuthClientConfig) : Prop :=
  ∀ (outside : (request : Call) → authSignature.Answer request)
    (world : World) (userId app : String) (level : AppAccessLevel) (permission : Option String)
    (scope : AuthzScope) (fresh : Bool),
    world.identity.isDown = false → world.CacheAgrees userId →
      let granted := world.identity.granted userId
      let requirement := requirementOf app level permission
      (Admits config outside
          (requireAppAccess config (some userId) app level permission scope fresh) world ↔
        (decide granted requirement).allowed = true) ↔ ¬exception granted requirement

/-- But for a lone edit key the gate agrees with the policy, and where answers are cached before
they are invalidated every decision is justified. -/
theorem gateAgrees_decisionsHold (config : AuthClientConfig) :
    GateAgrees LoneEdit config ∧ DecisionsHold answersLast config := by
  constructor
  · intro outside world userId app level permission scope fresh isUp agrees
    exact admits_iff isUp agrees
  · exact decisionsHold_answersLast config

/-- An isolate that has cached nothing. -/
def freshIsolate (granted : String → String → Bool) : World where
  cache := []
  now := 0
  identity := ⟨granted, fun _ _ => 60, "now", false⟩
  serial := 0
  invalidations _ := 0
  past := []

def plainConfig : AuthClientConfig :=
  ⟨true, .finite 1000, fun _ => "now"⟩

def viewsTasks : AuthzCheckRequest :=
  ⟨"viewer", "org_devhub", [⟨"app:tasks:view", none, none⟩]⟩

/-- Identity answers a check, the key is taken away, and the answer is cached only after the
decisions have been invalidated. -/
def cachedLate : List (Move authSignature World Operation) :=
  let oracle : (request : Call) → authSignature.Answer request := fun _ => .error .upstream
  [.start (.checkPermissions viewsTasks false), .call 0 oracle, .call 0 oracle,
    .environment fun world => { world with
      identity := { world.identity with granted := fun _ _ => false }
      serial := world.serial + 1
      past := world.moments },
    .start (.invalidateAuthzCache (some "viewer")), .call 0 oracle, .call 1 oracle]

def returnsAllowed (watched : Watched authSignature World Operation
    (Except AuthError AuthzCheckResponse)) : Bool :=
  match watched.own with
  | .done (.ok res) =>
    res.decisions.any AuthzDecision.allowed && watched.world.moments.all fun moment =>
        moment.invalidations "viewer" = 0 || !moment.granted "viewer" "app:tasks:view"
  | _ => false

theorem not_decisionsHold : ¬DecisionsHold anyStep plainConfig := by
  intro claimed
  let referee := openReferee (authSystem plainConfig) fun _ _ => trivial
  let world := freshIsolate fun _ _ => true
  have played : ((referee.play cachedLate ⟨world, []⟩).bind fun reached =>
      if reached.world.invalidations "viewer" = 1 then
        (Watched.play (authSystem plainConfig) [.own fun _ => .error .upstream]
          ⟨reached.world, reached.threads, (checkPermissions plainConfig viewsTasks false).run⟩).map
            returnsAllowed
      else none) = some true := by
    decide +kernel
  obtain ⟨reached, played, further⟩ := bind_eq_some_iff.mp played
  obtain ⟨isInvalidated, further⟩ := ite_none_right_eq_some.mp further
  obtain ⟨watched, run, returned⟩ := map_eq_some_iff.mp further
  have reachable := reachableUnder_anyStep (referee.run_of_play (by
    intro moved member world
    simp only [cachedLate, mem_cons, not_mem_nil, reduceCtorEq, or_false, false_or,
      Move.environment.injEq] at member
    subst member
    exact .passes world.now _ le_rfl) played)
  unfold returnsAllowed at returned
  split at returned
  · rename_i res isDone
    simp only [Bool.and_eq_true, List.any_eq_true, List.all_eq_true] at returned
    obtain ⟨⟨decision, member, isAllowed⟩, revoked⟩ := returned
    have justified := claimed world reached viewsTasks false watched res rfl reachable
      (watchRun_of_play run) isDone
    generalize res.decisions = decisions at justified member
    rcases justified with _ | ⟨⟨moment, momentMem, isAt⟩, ⟨⟩⟩
    obtain rfl := mem_singleton.mp member
    have isValid : 1 ≤ moment.invalidations "viewer" := isInvalidated.symm.le.trans isAt.isValid
    have isAnswer : true = moment.granted "viewer" "app:tasks:view" :=
      isAllowed.symm.trans isAt.isAnswer
    rcases Bool.or_eq_true_iff.mp (revoked moment momentMem) with isEarlier | isRevoked
    · have isZero := of_decide_eq_true isEarlier
      omega
    · rw [← isAnswer] at isRevoked
      cases isRevoked
  · cases returned

/-- A role with the edit key alone is refused a view that the policy allows. -/
theorem not_gateAgrees_decisionsHold :
    ¬(GateAgrees (fun _ _ => False) plainConfig ∧ DecisionsHold anyStep plainConfig) := by
  rintro ⟨claimed, -⟩
  let world := freshIsolate fun _ key => key = "app:tasks:edit"
  have agrees : world.CacheAgrees "editor" := by
    intro orgId q entry isHit
    cases isHit
  have isLone : LoneEdit (world.identity.granted "editor") (requirementOf "tasks" .view none) := by
    refine ⟨⟨"tasks", "マイタスク", "app:tasks:view", "app:tasks:edit"⟩, by decide, rfl, by decide,
      by decide, ?_⟩
    intro permission isExtra
    cases isExtra
  let outside : (request : Call) → authSignature.Answer request := fun _ => .error .upstream
  have agreed := claimed outside world "editor" "tasks" .view none ⟨none, none, none⟩
    false rfl agrees
  exact (admits_iff rfl agrees).mp (agreed.mpr id) isLone

end DubEcosystem.AuthClient

import Mathlib.Data.List.TakeWhile
import DubEcosystem.ChatTypes
import DubEcosystem.LikePatterns

/-!
# mail-gateway: the sender block list

A viewer's block list is read twice: in SQL, where it decides the folder of a thread, and by
the matcher that marks the messages of a page.
-/

namespace DubEcosystem.MailBlocks

open LikePatterns List
open Chat (DubError)
open IdentityRoster (trim isEmail)

variable (toLowerCase : String → String)

inductive MailSenderBlockKind where
  | address
  | domain
  deriving DecidableEq

/-- The body of `POST /mail/blocks`: a `value` that is no string and a `kind` that is neither
of the two are `none`. -/
structure BlockBody where
  value : Option String
  kind : Option (Option MailSenderBlockKind) := none

structure BlockRequest where
  value : String
  kind : MailSenderBlockKind
  deriving DecidableEq

def invalidRequest (message : String) : DubError :=
  { code := "MAIL_INVALID_REQUEST", status := 400, message := message }

def isAlphanumeric (c : Char) : Bool :=
  ('a' ≤ c && c ≤ 'z') || ('0' ≤ c && c ≤ '9')

/-- `DOMAIN_RE`. -/
def isDomain (text : String) : Bool :=
  text.length ≤ 253 ∧ '.' ∈ text.toList ∧
    text.toList.all (fun c => isAlphanumeric c || c = '-' || c = '.') ∧
    (text.toList.splitOn '.').all fun label => label.length ≤ 63 ∧
      label.head?.any isAlphanumeric ∧ label.getLast?.any isAlphanumeric

def parseBlockRequest (body : Option BlockBody) : Except DubError BlockRequest :=
  match body with
  | none => .error (invalidRequest "block request must be an object")
  | some src =>
    match src.value.filter fun value => trim value ≠ "" with
    | none => .error (invalidRequest "value (address or domain) required")
    | some value =>
      let raw := toLowerCase (trim value)
      let inferred := if '@' ∈ raw.toList ∧ raw.toList.head? ≠ some '@' then
        MailSenderBlockKind.address else .domain
      match src.kind.getD (some inferred) with
      | none => .error (invalidRequest "kind must be \"address\" or \"domain\"")
      | some .address =>
        if isEmail raw then .ok ⟨raw, .address⟩
        else .error (invalidRequest ("invalid email address: " ++ raw))
      | some .domain =>
        let domain := (afterLast '@' raw.toList).elim raw String.ofList
        if isDomain domain then .ok ⟨domain, .domain⟩
        else .error (invalidRequest ("invalid domain: " ++ domain))

def COMPANY_MAIL_DOMAIN : String := "developershub.jp"

def Within (domain host : List Char) : Prop :=
  host = domain ∨ '.' :: domain <:+ host

instance (domain host : List Char) : Decidable (Within domain host) :=
  inferInstanceAs (Decidable (_ ∨ _))

def assertBlockAllowed (req : BlockRequest) (ownAddress : Option String) : Except DubError Unit :=
  if req.kind = .domain ∧ Within COMPANY_MAIL_DOMAIN.toList req.value.toList then
    .error (invalidRequest ("cannot block the organization domain " ++ COMPANY_MAIL_DOMAIN))
  else if req.kind = .address ∧
      ownAddress.any (fun own => own ≠ "" ∧ req.value = toLowerCase (trim own)) then
    .error (invalidRequest "cannot block your own address")
  else .ok ()

/-- `lower` of SQLite. -/
def asciiLower (text : String) : String :=
  String.ofList (text.toList.map Char.toLower)

structure BlockRow extends BlockRequest where
  ownerUserId : String
  createdAt : String
  deletedAt : Option String := none

def listBlocks (rows : List BlockRow) (ownerUserId : String) : List BlockRow :=
  (rows.filter fun row => row.ownerUserId = ownerUserId ∧ row.deletedAt = none).insertionSort
    fun first second => second.createdAt < first.createdAt ∨
      (first.createdAt = second.createdAt ∧ first.value ≤ second.value)

def activeBlocks (rows : List BlockRow) (viewer : String) : List BlockRequest :=
  (listBlocks rows viewer).map BlockRow.toBlockRequest

/-- `lower(trim(…))` of SQLite, whose `trim` knows blanks only. -/
def sqlForm (email : String) : String :=
  asciiLower (String.ofList
    ((email.toList.dropWhile (· = ' ')).reverse.dropWhile (· = ' ')).reverse)

def blockedSenderSql (rows : List BlockRow) (viewer email : String) : Bool :=
  let addr := sqlForm email
  (rows.any fun sba => sba.ownerUserId = viewer ∧ sba.value = addr ∧ sba.deletedAt = none) ||
    rows.any fun sbd => sbd.ownerUserId = viewer ∧ sbd.kind = .domain ∧ sbd.deletedAt = none ∧
      (like ('%' :: '@' :: sbd.value.toList) addr.toList ∨
        like ('%' :: '.' :: sbd.value.toList) addr.toList)

structure BlockMatcher where
  addresses : List String
  domains : List String

def blockMatcher (blocks : List BlockRequest) : BlockMatcher where
  addresses := (blocks.filter fun block => block.kind ≠ .domain).map BlockRequest.value
  domains := (blocks.filter fun block => block.kind = .domain).map BlockRequest.value

/-- The loop over the parents of a domain, at most `count` rounds. -/
def anyParent (domains : List String) : (count : Nat) → List Char → Bool
  | 0, _ => false
  | count + 1, d =>
    decide ('.' ∈ d) && (domains.contains (String.ofList d) ||
      anyParent domains count ((d.dropWhile (· ≠ '.')).drop 1))

def BlockMatcher.blocks (matcher : BlockMatcher) (email : String) : Bool :=
  let e := toLowerCase (trim email)
  email ≠ "" && (matcher.addresses.contains e ||
    (afterLast '@' e.toList).any fun d => anyParent matcher.domains d.length d)

/-- What the entries are for: an address entry names that text, a domain entry every address
of the domain or of a domain below it. -/
def BlockRequest.Names (block : BlockRequest) (text : String) : Prop :=
  match block.kind with
  | .address => block.value = text
  | .domain => ∃ host, afterLast '@' text.toList = some host ∧ Within block.value.toList host

def Accepted (block : BlockRequest) : Prop :=
  ∃ body, parseBlockRequest toLowerCase body = .ok block

def matcherForm (email : String) : String := toLowerCase (trim email)

structure BlocksAlike (rows : List BlockRow) (viewer email : String) : Prop where
  alike : blockedSenderSql rows viewer email =
    (blockMatcher (activeBlocks rows viewer)).blocks toLowerCase email
  byDomain : ∀ block, Accepted toLowerCase block → block.kind = .domain →
    ((blockMatcher [block]).blocks toLowerCase email = true ↔
      ∃ host, afterLast '@' (matcherForm toLowerCase email).toList = some host ∧
        Within block.value.toList host)
  spares : ∀ block own, Accepted toLowerCase block →
    assertBlockAllowed toLowerCase block own = .ok () →
    (∃ host, afterLast '@' (matcherForm toLowerCase email).toList = some host ∧
      Within COMPANY_MAIL_DOMAIN.toList host) →
    (blockMatcher [block]).blocks toLowerCase email = true →
    block.kind = .address ∧ block.value = matcherForm toLowerCase email

/-- No domain entry is a text without an at sign, or follows a dot at its end. -/
def SparesBare (blocks : List BlockRequest) (text : String) : Prop :=
  '@' ∉ text.toList → ∀ block ∈ blocks, block.kind = .domain →
    ¬Within block.value.toList text.toList

variable {toLowerCase} {block : BlockRequest} {blocks : List BlockRequest} {text email : String}

theorem Accepted.valid (accepted : Accepted toLowerCase block) :
    (block.kind = .address → isEmail block.value = true) ∧
      (block.kind = .domain → isDomain block.value = true) := by
  obtain ⟨body, isOk⟩ := accepted
  unfold parseBlockRequest at isOk
  split at isOk
  · cases isOk
  split at isOk
  · cases isOk
  dsimp only at isOk
  split at isOk
  · cases isOk
  · split at isOk
    · rename_i valid
      cases isOk
      exact ⟨fun _ => valid, nofun⟩
    · cases isOk
  · split at isOk
    · rename_i valid
      cases isOk
      exact ⟨nofun, fun _ => valid⟩
    · cases isOk

theorem mem_of_isEmail (valid : isEmail text = true) : '@' ∈ text.toList := by
  obtain ⟨-, -, -, hasDot⟩ := of_decide_eq_true valid
  by_contra free
  have passed : text.toList.dropWhile (fun c => c ≠ '@') = [] := by
    rw [dropWhile_eq_nil_iff]
    exact fun c member => decide_eq_true fun isAt => free (isAt ▸ member)
  rw [passed] at hasDot
  cases hasDot

structure HostLike (domain : List Char) : Prop where
  dotted : '.' ∈ domain
  noAt : '@' ∉ domain
  plain : Plain domain

theorem hostLike_of_isDomain (valid : isDomain text = true) : HostLike text.toList := by
  obtain ⟨-, dotted, isHost, -⟩ := of_decide_eq_true valid
  have plain : ∀ c ∈ text.toList, c ≠ '@' ∧ c ≠ '%' ∧ c ≠ '_' ∧ c.toLower = c := by
    intro c member
    have inHost := all_eq_true.mp isHost c member
    refine ⟨?_, ?_, ?_, ?_⟩
    · rintro rfl
      exact absurd inHost (by decide)
    · rintro rfl
      exact absurd inHost (by decide)
    · rintro rfl
      exact absurd inHost (by decide)
    · simp only [isAlphanumeric, Char.le_def, Bool.or_eq_true, decide_eq_true_eq] at inHost
      rcases inHost with (alphanumeric | rfl) | rfl
      · unfold Char.toLower
        grind
      · decide
      · decide
  exact ⟨dotted, fun member => (plain _ member).1 rfl, fun c member => (plain c member).2⟩

theorem anyParent_iff {domains : List String} {count : Nat} {d : List Char}
    (dotted : ∀ domain ∈ domains, '.' ∈ domain.toList) (enough : d.length ≤ count) :
    anyParent domains count d = true ↔ ∃ domain ∈ domains, Within domain.toList d := by
  induction count generalizing d with
  | zero =>
    obtain rfl := length_eq_zero_iff.mp (Nat.le_zero.mp enough)
    simp only [anyParent, Bool.false_eq_true, false_iff]
    rintro ⟨domain, member, same | isSuffix⟩
    · exact absurd (same ▸ dotted domain member) not_mem_nil
    · exact absurd (suffix_nil.mp isSuffix) nofun
  | succ count ih =>
    by_cases hasDot : '.' ∈ d
    · obtain ⟨before, after, rfl, first⟩ := eq_append_cons_of_mem hasDot
      have dropped : ((before ++ '.' :: after).dropWhile (· ≠ '.')).drop 1 = after := by
        rw [dropWhile_append_of_pos]
        · simp
        · exact fun c member => decide_eq_true fun isDot => first (isDot ▸ member)
      have fits : after.length ≤ count := by
        simp only [length_append, length_cons] at enough
        omega
      rw [anyParent, dropped, decide_eq_true hasDot, Bool.true_and, Bool.or_eq_true, ih fits]
      simp only [Within, cons_suffix_first first, contains_iff_mem]
      constructor
      · rintro (member | ⟨domain, member, same | further⟩)
        · exact ⟨_, member, .inl String.toList_ofList.symm⟩
        · exact ⟨domain, member, .inr (.inl same.symm)⟩
        · exact ⟨domain, member, .inr (.inr further)⟩
      · rintro ⟨domain, member, same | same | further⟩
        · rw [same, String.ofList_toList]
          exact .inl member
        · exact .inr ⟨domain, member, .inl same.symm⟩
        · exact .inr ⟨domain, member, .inr further⟩
    · simp only [anyParent, decide_eq_false hasDot, Bool.false_and, Bool.false_eq_true, false_iff]
      rintro ⟨domain, member, same | isSuffix⟩
      · exact hasDot (same ▸ dotted domain member)
      · exact hasDot (isSuffix.subset (.head _))

theorem BlockRequest.at_of_names (accepted : Accepted toLowerCase block)
    (named : block.Names text) : '@' ∈ text.toList := by
  obtain ⟨value, kind⟩ := block
  cases kind with
  | address =>
    obtain rfl : value = text := named
    exact mem_of_isEmail (accepted.valid.1 rfl)
  | domain =>
    obtain ⟨host, isLast, -⟩ := named
    obtain ⟨-, before, same⟩ := exists_of_afterLast isLast
    simp [same]

/-- `toLowerCase` makes an at sign of nothing else. -/
def KeepsAt (toLowerCase : String → String) : Prop :=
  ∀ text, '@' ∈ (toLowerCase text).toList → '@' ∈ text.toList

theorem at_of_matcherForm (keeps : KeepsAt toLowerCase)
    (isAt : '@' ∈ (matcherForm toLowerCase email).toList) : '@' ∈ email.toList := by
  have trimmed := keeps _ isAt
  rw [trim, String.toList_ofList, mem_reverse] at trimmed
  exact (dropWhile_sublist _).subset (mem_reverse.mp ((dropWhile_sublist _).subset trimmed))

theorem at_of_mem {chars : List Char} (isAt : '@' ∈ chars) : '@' ∈ chars.dropWhile (· = ' ') := by
  rw [← takeWhile_append_dropWhile (p := (· = ' ')) (l := chars)] at isAt
  refine (mem_append.mp isAt).resolve_left fun isBlank => ?_
  exact absurd (mem_takeWhile_imp isBlank) (by decide)

theorem at_sqlForm (isAt : '@' ∈ email.toList) : '@' ∈ (sqlForm email).toList := by
  rw [sqlForm, asciiLower, String.toList_ofList, String.toList_ofList, List.mem_map]
  refine ⟨'@', mem_reverse.mpr ?_, rfl⟩
  exact at_of_mem (mem_reverse.mpr (at_of_mem isAt))

/-- The matcher blocks the senders that an entry names. -/
theorem blocks_iff (keeps : KeepsAt toLowerCase)
    (accepted : ∀ block ∈ blocks, Accepted toLowerCase block) :
    (blockMatcher blocks).blocks toLowerCase email = true ↔
      ∃ block ∈ blocks, block.Names (matcherForm toLowerCase email) := by
  have dotted : ∀ domain ∈ (blockMatcher blocks).domains, '.' ∈ domain.toList := by
    intro domain member
    obtain ⟨block, isIn, rfl⟩ := List.mem_map.mp member
    obtain ⟨isBlock, isDomain⟩ := mem_filter.mp isIn
    exact (hostLike_of_isDomain ((accepted block isBlock).valid.2 (of_decide_eq_true isDomain))).dotted
  simp only [BlockMatcher.blocks, Bool.and_eq_true, Bool.or_eq_true, decide_eq_true_eq,
    Option.any_eq_true, anyParent_iff dotted (Nat.le_refl _), contains_iff_mem]
  constructor
  · rintro ⟨-, isIn | ⟨host, isLast, domain, isIn, further⟩⟩
    · obtain ⟨block, member, isValue⟩ := List.mem_map.mp isIn
      obtain ⟨isBlock, notDomain⟩ := mem_filter.mp member
      refine ⟨block, isBlock, ?_⟩
      obtain ⟨value, kind⟩ := block
      cases kind with
      | address => exact isValue
      | domain => cases notDomain
    · obtain ⟨block, member, rfl⟩ := List.mem_map.mp isIn
      obtain ⟨isBlock, isDomain⟩ := mem_filter.mp member
      refine ⟨block, isBlock, ?_⟩
      rw [BlockRequest.Names, of_decide_eq_true isDomain]
      exact ⟨host, isLast, further⟩
  · rintro ⟨block, isBlock, named⟩
    refine ⟨?_, ?_⟩
    · rintro rfl
      exact not_mem_nil (at_of_matcherForm keeps (block.at_of_names (accepted block isBlock) named))
    · obtain ⟨value, kind⟩ := block
      cases kind with
      | address =>
        exact .inl (List.mem_map.mpr ⟨_, mem_filter.mpr ⟨isBlock, rfl⟩, named⟩)
      | domain =>
        obtain ⟨host, isLast, further⟩ := named
        exact .inr ⟨host, isLast, value,
          List.mem_map.mpr ⟨_, mem_filter.mpr ⟨isBlock, rfl⟩, rfl⟩, further⟩

variable {rows : List BlockRow} {viewer : String}

/-- What the row of an entry asks of the sender's text. -/
def BlockRequest.Selects (block : BlockRequest) (text : String) : Prop :=
  block.value = text ∨ (block.kind = .domain ∧ ('@' :: block.value.toList <:+ text.toList ∨
    '.' :: block.value.toList <:+ text.toList))

theorem selects_iff (accepted : Accepted toLowerCase block) :
    block.Selects text ↔ block.Names text ∨
      ('@' ∉ text.toList ∧ block.kind = .domain ∧ Within block.value.toList text.toList) := by
  have valid := accepted.valid.2
  obtain ⟨value, kind⟩ := block
  cases kind with
  | address => simp [BlockRequest.Selects, BlockRequest.Names]
  | domain =>
    obtain ⟨-, noAt, -⟩ := hostLike_of_isDomain (valid rfl)
    rw [BlockRequest.Selects, ← String.toList_inj]
    cases isLast : afterLast '@' text.toList with
    | none =>
      have free := afterLast_eq_none.mp isLast
      have noHost : ¬ '@' :: value.toList <:+ text.toList := fun isSuffix =>
        free (isSuffix.subset (.head _))
      simp [BlockRequest.Names, Within, isLast, free, noHost, eq_comm]
    | some host =>
      obtain ⟨last, before, same⟩ := exists_of_afterLast isLast
      have differs : value.toList ≠ text.toList := by
        intro isText
        simp [isText, same] at noAt
      have free : '@' ∉ '.' :: value.toList := by simp [noAt]
      rw [BlockRequest.Names, isLast, same, cons_suffix_last noAt last, suffix_behind free]
      simp [Within, same ▸ differs, eq_comm]

theorem mem_activeBlocks : block ∈ activeBlocks rows viewer ↔
    ∃ row ∈ rows, (row.ownerUserId = viewer ∧ row.deletedAt = none) ∧
      row.toBlockRequest = block := by
  simp [activeBlocks, listBlocks, and_assoc]

section Accepted

variable (accepted : ∀ block ∈ activeBlocks rows viewer, Accepted toLowerCase block)

include accepted

theorem blockedSenderSql_iff : blockedSenderSql rows viewer email = true ↔
    ∃ block ∈ activeBlocks rows viewer, block.Selects (sqlForm email) := by
  have isLike : ∀ row ∈ rows, (row.ownerUserId = viewer ∧ row.deletedAt = none) →
      row.kind = .domain → ∀ mark ∈ ['@', '.'],
        (like ('%' :: mark :: row.value.toList) (sqlForm email).toList = true ↔
          mark :: row.value.toList <:+ (sqlForm email).toList) := by
    intro row member active isDomain mark isMark
    have valid := (accepted _ (mem_activeBlocks.mpr ⟨row, member, active, rfl⟩)).valid.2 isDomain
    have plain : Plain (mark :: row.value.toList) := by
      rintro c (_ | ⟨_, isIn⟩)
      · rcases mem_pair.mp isMark with rfl | rfl <;> decide
      · exact (hostLike_of_isDomain valid).plain c isIn
    rw [sqlForm, asciiLower, String.toList_ofList]
    exact like_suffix plain
  simp only [blockedSenderSql, Bool.or_eq_true, any_eq_true, decide_eq_true_eq, mem_activeBlocks]
  constructor
  · rintro (⟨row, member, isViewer, same, active⟩ | ⟨row, member, isViewer, isDomain, active, further⟩)
    · exact ⟨_, ⟨row, member, ⟨isViewer, active⟩, rfl⟩, .inl same⟩
    · have reads := isLike row member ⟨isViewer, active⟩ isDomain
      rw [reads '@' (by simp), reads '.' (by simp)] at further
      exact ⟨_, ⟨row, member, ⟨isViewer, active⟩, rfl⟩, .inr ⟨isDomain, further⟩⟩
  · rintro ⟨_, ⟨row, member, active, rfl⟩, same | ⟨isDomain, further⟩⟩
    · exact .inl ⟨row, member, active.1, same, active.2⟩
    · have reads := isLike row member active isDomain
      rw [← reads '@' (by simp), ← reads '.' (by simp)] at further
      exact .inr ⟨row, member, active.1, isDomain, active.2, further⟩

variable (keeps : KeepsAt toLowerCase)

include keeps

theorem alike_iff : blockedSenderSql rows viewer email =
        (blockMatcher (activeBlocks rows viewer)).blocks toLowerCase email ↔
      SparesBare (activeBlocks rows viewer) (sqlForm email) ∧
      ((∃ block ∈ activeBlocks rows viewer, block.Names (sqlForm email)) ↔
        ∃ block ∈ activeBlocks rows viewer, block.Names (matcherForm toLowerCase email)) := by
  rw [Bool.eq_iff_iff, blockedSenderSql_iff accepted, blocks_iff keeps accepted]
  constructor
  · intro alike
    have spares : SparesBare (activeBlocks rows viewer) (sqlForm email) := by
      intro free block member isDomain isWithin
      obtain ⟨other, isOther, named⟩ := alike.mp ⟨block, member,
        (selects_iff (accepted block member)).mpr (.inr ⟨free, isDomain, isWithin⟩)⟩
      exact free (at_sqlForm (at_of_matcherForm keeps
        (other.at_of_names (accepted other isOther) named)))
    refine ⟨spares, ?_, ?_⟩
    · rintro ⟨block, member, named⟩
      exact alike.mp ⟨block, member, (selects_iff (accepted block member)).mpr (.inl named)⟩
    · intro named
      obtain ⟨block, member, selects⟩ := alike.mpr named
      refine ⟨block, member, ?_⟩
      refine ((selects_iff (accepted block member)).mp selects).resolve_right ?_
      exact fun ⟨free, isDomain, isWithin⟩ => spares free block member isDomain isWithin
  · rintro ⟨spares, forms⟩
    rw [← forms]
    refine exists_congr fun block => and_congr_right fun member => ?_
    rw [selects_iff (accepted block member), or_iff_left]
    exact fun ⟨free, isDomain, isWithin⟩ => spares free block member isDomain isWithin

end Accepted

theorem not_suffix_company {domain : List Char} (dotted : '.' ∈ domain) :
    ¬ '.' :: domain <:+ COMPANY_MAIL_DOMAIN.toList := by
  intro isSuffix
  have parts : COMPANY_MAIL_DOMAIN.toList = "developershub".toList ++ '.' :: "jp".toList := rfl
  rw [parts, cons_suffix_first (by decide)] at isSuffix
  have inLast : '.' ∈ "jp".toList := by
    rcases isSuffix with rfl | isSuffix
    · exact dotted
    · exact isSuffix.subset (.head _)
  exact absurd inLast (by decide)

/-- Of the domains above a domain of the organization, only its own can be entered. -/
theorem within_company {domain host : List Char} (dotted : '.' ∈ domain)
    (ours : Within COMPANY_MAIL_DOMAIN.toList host) (isWithin : Within domain host) :
    Within COMPANY_MAIL_DOMAIN.toList domain := by
  rcases isWithin with rfl | isSuffix
  · exact ours
  rcases ours with rfl | below
  · exact absurd isSuffix (not_suffix_company dotted)
  rcases suffix_or_suffix_of_suffix isSuffix below with short | long
  · rcases suffix_cons_iff.mp short with same | further
    · exact .inl (List.cons.inj same).2
    · exact absurd further (not_suffix_company dotted)
  · rcases suffix_cons_iff.mp long with same | further
    · exact .inl (List.cons.inj same).2.symm
    · exact .inr further

/-- The two readings of a block list agree on a sender exactly if no domain entry stands for a
bare text, and the entries name its two normal forms alike. -/
theorem blocksAlike_iff (keeps : KeepsAt toLowerCase)
    (accepted : ∀ block ∈ activeBlocks rows viewer, Accepted toLowerCase block) :
    BlocksAlike toLowerCase rows viewer email ↔
      SparesBare (activeBlocks rows viewer) (sqlForm email) ∧
      ((∃ block ∈ activeBlocks rows viewer, block.Names (sqlForm email)) ↔
        ∃ block ∈ activeBlocks rows viewer, block.Names (matcherForm toLowerCase email)) := by
  rw [← alike_iff accepted keeps]
  refine ⟨BlocksAlike.alike, fun alike => ⟨alike, ?_, ?_⟩⟩
  · intro block isAccepted isDomain
    rw [blocks_iff keeps (by simpa using isAccepted)]
    simp [BlockRequest.Names, isDomain]
  · rintro block own isAccepted allowed ⟨host, isLast, ours⟩ isBlocked
    rw [blocks_iff keeps (by simpa using isAccepted)] at isBlocked
    obtain ⟨only, isOnly, named⟩ := isBlocked
    rw [mem_singleton.mp isOnly] at named
    have valid := isAccepted.valid.2
    cases isKind : block.kind with
    | address =>
      rw [BlockRequest.Names, isKind] at named
      exact ⟨rfl, named⟩
    | domain =>
      rw [BlockRequest.Names, isKind] at named
      obtain ⟨other, isOther, isWithin⟩ := named
      obtain rfl := Option.some.inj (isLast.symm.trans isOther)
      have isOurs := within_company (hostLike_of_isDomain (valid isKind)).dotted ours isWithin
      rw [assertBlockAllowed, if_pos ⟨isKind, isOurs⟩] at allowed
      cases allowed

theorem keepsAt_asciiLower : KeepsAt asciiLower := by
  intro text isAt
  rw [asciiLower, String.toList_ofList] at isAt
  obtain ⟨c, member, isLower⟩ := List.mem_map.mp isAt
  have same : c = '@' := by
    have isAt := congrArg Char.val isLower
    unfold Char.toLower at isLower isAt
    split at isLower <;> grind
  exact same ▸ member

def spamDomain : BlockRow where
  value := "spam.example"
  kind := .domain
  ownerUserId := "usr_alice"
  createdAt := "2026-08-09T05:00:00.000Z"

theorem accepted_spamDomain :
    ∀ block ∈ activeBlocks [spamDomain] "usr_alice", Accepted asciiLower block := by
  intro block member
  obtain ⟨row, isRow, -, rfl⟩ := mem_activeBlocks.mp member
  obtain rfl := mem_singleton.mp isRow
  exact ⟨some ⟨some "Spam.example", none⟩, by decide⟩

theorem blocksAlike_subdomain :
    BlocksAlike asciiLower [spamDomain] "usr_alice" " A@mail.spam.example" :=
  (blocksAlike_iff keepsAt_asciiLower accepted_spamDomain).mpr
    ⟨fun free => absurd (by decide) free, Iff.rfl⟩

/-- The text `spam.example` as a sender. -/
theorem not_blocksAlike : ¬∀ (toLowerCase : String → String) (rows : List BlockRow)
    (viewer email : String), KeepsAt toLowerCase →
      (∀ block ∈ activeBlocks rows viewer, Accepted toLowerCase block) →
      BlocksAlike toLowerCase rows viewer email := by
  intro claimed
  have alike := (claimed asciiLower [spamDomain] "usr_alice" "spam.example" keepsAt_asciiLower
    accepted_spamDomain).alike
  exact absurd alike (by decide)

end DubEcosystem.MailBlocks

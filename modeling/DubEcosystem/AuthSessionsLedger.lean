import DubEcosystem.AuthSessionsProtocol

/-!
# auth-service: what is written of the chains

Every token that was ever minted is in the ledger, with the first token of its chain.  As long as
no token is given two successors, a chain has one token without a successor.
-/

namespace DubEcosystem.AuthSessions

open Interleaving

variable {config : AppConfig} {world : World}

/-- The record apart from the pointer that a rotation adds. -/
def StoredSession.base (stored : StoredSession) : StoredSession :=
  { stored with rotatedTo := none }

/-- What a rotation copies. -/
structure StoredSession.SameLogin (first second : StoredSession) : Prop where
  userId : first.userId = second.userId
  client : first.client = second.client
  issuedAt : first.issuedAt = second.issuedAt
  impersonation : first.impersonation = second.impersonation

namespace World

variable (world : World)

def Known (token : String) : Prop :=
  ∃ w ∈ world.written, w.token = token

/-- A successor of the token was minted. -/
def Superseded (token : String) : Prop :=
  ∃ w ∈ world.written, w.origin = .rotated token

def IsRecord (token : String) (stored : StoredSession) : Prop :=
  ∃ w ∈ world.written, w.token = token ∧ w.record = stored

def Live (token : String) : Prop :=
  ∃ entry, world.sessions token = some entry ∧ entry.record.successor? = none

def Parks (impersonation : StoredImpersonation) : Prop :=
  ∃ v ∈ world.written, v.token = impersonation.actorToken ∧
    v.record.userId = impersonation.actorId ∧ v.record.impersonation = none

/-- The chains, as they were written. -/
structure Ledger (config : AppConfig) : Prop where
  drawn : ∀ w ∈ world.written, ∃ k < world.drawn, world.token k = w.token
  root : ∀ w ∈ world.written, w.root = world.rootOf w.token
  rooted : ∀ w ∈ world.written, ∃ v ∈ world.written, v.token = w.root ∧ v.root = w.root ∧
    (v.origin = .created ∨ v.origin = .started)
  base : ∀ w ∈ world.written, ∀ v ∈ world.written, w.token = v.token →
    w.record.base = v.record.base
  login : ∀ w ∈ world.written, ∀ v ∈ world.written, w.root = v.root →
    w.record.SameLogin v.record
  first : ∀ w ∈ world.written, w.origin = .created ∨ w.origin = .started → w.root = w.token
  minted : ∀ w ∈ world.written, ∃ m ∈ world.written, m.token = w.token ∧ m.origin ≠ .grace
  unrotated : ∀ w ∈ world.written, w.origin ≠ .grace → w.record.successor? = none
  rotated : ∀ w ∈ world.written, ∀ old, w.origin = .rotated old →
    world.Known old ∧ world.rootOf old = w.root ∧ w.record.impersonation = none
  one : ∀ w ∈ world.written, ∀ v ∈ world.written, ∀ old, w.origin = .rotated old →
    v.origin = .rotated old → w.token = v.token
  graced : ∀ w ∈ world.written, ∀ next, w.record.successor? = some next →
    ∃ s ∈ world.written, s.origin = .rotated w.token ∧ s.token = next
  last : ∀ w ∈ world.written, ∀ v ∈ world.written, w.root = v.root →
    ¬world.Superseded w.token → ¬world.Superseded v.token → w.token = v.token
  parked : ∀ w ∈ world.written, ∀ impersonation, w.record.impersonation = some impersonation →
    world.Parks impersonation
  bounded : ∀ w ∈ world.written, ∀ impersonation, w.record.impersonation = some impersonation →
    w.record.absoluteExpiresAt = impersonation.startedAt + config.impersonationTtlSec * 1000 ∧
      w.record.accessExpiresAt = w.record.absoluteExpiresAt ∧ w.record.client = .web
  started : ∀ w ∈ world.written, w.origin = .started → w.record.impersonation ≠ none
  mobile : ∀ w ∈ world.written, w.record.client = .mobile →
    w.record.absoluteExpiresAt = w.record.issuedAt + config.absMobileTtlSec * 1000
  seen : ∀ w ∈ world.written,
    w.record.issuedAt ≤ lastSeenOf w.record ∧ lastSeenOf w.record ≤ world.time
  newest : ∀ w ∈ world.written, ∀ v ∈ world.written, w.root = v.root →
    ¬world.Superseded v.token → lastSeenOf w.record ≤ lastSeenOf v.record

end World

variable {origin : Origin} {token : String} {record : StoredSession} {ttl : Nat}

theorem rootOf_putSession (t : String) : (world.putSession origin token record ttl).rootOf t =
      if token = t then world.rootFrom origin token else world.rootOf t := by
  unfold World.rootOf World.putSession
  by_cases same : token = t
  · simp [same]
  · simp [same]

theorem mem_putSession {w : Written} : w ∈ (world.putSession origin token record ttl).written ↔
      w = ⟨origin, token, world.rootFrom origin token, record⟩ ∨ w ∈ world.written := by
  unfold World.putSession
  exact List.mem_cons

theorem forall_putSession {holds : Written → Prop} :
    (∀ w ∈ (world.putSession origin token record ttl).written, holds w) ↔
      holds ⟨origin, token, world.rootFrom origin token, record⟩ ∧ ∀ w ∈ world.written, holds w :=
  List.forall_mem_cons

theorem forall_pair_putSession {holds : Written → Written → Prop} {new : Written}
    (isNew : new = ⟨origin, token, world.rootFrom origin token, record⟩) (self : holds new new)
    (first : ∀ v ∈ world.written, holds new v) (second : ∀ w ∈ world.written, holds w new)
    (old : ∀ w ∈ world.written, ∀ v ∈ world.written, holds w v) :
    ∀ w ∈ (world.putSession origin token record ttl).written,
      ∀ v ∈ (world.putSession origin token record ttl).written, holds w v := by
  subst isNew
  exact forall_putSession.mpr ⟨forall_putSession.mpr ⟨self, first⟩, fun w member =>
    forall_putSession.mpr ⟨second w member, old w member⟩⟩

theorem exists_putSession {holds : Written → Prop} (before : ∃ w ∈ world.written, holds w) :
    ∃ w ∈ (world.putSession origin token record ttl).written, holds w := by
  obtain ⟨w, member, isHeld⟩ := before
  exact ⟨w, mem_putSession.mpr (.inr member), isHeld⟩

variable {t : String}

theorem known_putSession :
    (world.putSession origin token record ttl).Known t ↔ token = t ∨ world.Known t := by
  simp [World.Known, mem_putSession]

theorem superseded_putSession : (world.putSession origin token record ttl).Superseded t ↔
      origin = .rotated t ∨ world.Superseded t := by
  simp [World.Superseded, mem_putSession]

theorem rootOf_putSession_of_known (isNew : ¬world.Known token) (known : world.Known t) :
    (world.putSession origin token record ttl).rootOf t = world.rootOf t := by
  rw [rootOf_putSession, if_neg]
  rintro rfl
  exact isNew known

theorem StoredSession.SameLogin.symm {first second : StoredSession} (same : first.SameLogin second) :
    second.SameLogin first :=
  ⟨same.userId.symm, same.client.symm, same.issuedAt.symm, same.impersonation.symm⟩

theorem StoredSession.SameLogin.trans {first second third : StoredSession}
    (same : first.SameLogin second) (further : second.SameLogin third) : first.SameLogin third where
  userId := same.userId.trans further.userId
  client := same.client.trans further.client
  issuedAt := same.issuedAt.trans further.issuedAt
  impersonation := same.impersonation.trans further.impersonation

namespace World.Ledger

theorem congr {moved : World} (ledger : world.Ledger config)
    (written : moved.written = world.written) (random : moved.random = world.random)
    (drawn : world.drawn ≤ moved.drawn) (time : world.time ≤ moved.time) :
    moved.Ledger config := by
  have rootOf : ∀ t, moved.rootOf t = world.rootOf t := fun t => by
    simp only [World.rootOf, written]
  have known : ∀ t, moved.Known t = world.Known t := fun t => by
    simp only [World.Known, written]
  have superseded : ∀ t, moved.Superseded t = world.Superseded t := fun t => by
    simp only [World.Superseded, written]
  have parks : ∀ impersonation, moved.Parks impersonation = world.Parks impersonation := fun i => by
    simp only [World.Parks, written]
  have token : ∀ k, moved.token k = world.token k := fun k => by
    simp only [World.token, random]
  constructor
  · intro w member
    obtain ⟨k, isDrawn, isToken⟩ := ledger.drawn w (written ▸ member)
    exact ⟨k, by omega, by rw [token, isToken]⟩
  · simpa only [written, rootOf] using ledger.root
  · simpa only [written] using ledger.rooted
  · simpa only [written] using ledger.base
  · simpa only [written] using ledger.login
  · simpa only [written] using ledger.first
  · simpa only [written] using ledger.minted
  · simpa only [written] using ledger.unrotated
  · simpa only [written, known, rootOf] using ledger.rotated
  · simpa only [written] using ledger.one
  · simpa only [written] using ledger.graced
  · simpa only [written, superseded] using ledger.last
  · simpa only [written, parks] using ledger.parked
  · simpa only [written] using ledger.bounded
  · simpa only [written] using ledger.started
  · simpa only [written] using ledger.mobile
  · intro w member
    obtain ⟨isSeen, notLater⟩ := ledger.seen w (written ▸ member)
    exact ⟨isSeen, Int.le_trans notLater time⟩
  · simpa only [written, superseded] using ledger.newest

/-- What a new token may be put for. -/
structure Admits (world : World) (config : AppConfig) (origin : Origin) (record : StoredSession) :
    Prop where
  unrotated : record.successor? = none
  notGrace : origin ≠ .grace
  rotated : ∀ old, origin = .rotated old → ¬world.Superseded old ∧
    ∃ stored, world.IsRecord old stored ∧ record.SameLogin stored ∧ stored.impersonation = none ∧
      lastSeenOf stored ≤ lastSeenOf record
  parked : ∀ impersonation, record.impersonation = some impersonation → world.Parks impersonation
  bounded : ∀ impersonation, record.impersonation = some impersonation →
    record.absoluteExpiresAt = impersonation.startedAt + config.impersonationTtlSec * 1000 ∧
      record.accessExpiresAt = record.absoluteExpiresAt ∧ record.client = .web
  started : origin = .started → record.impersonation ≠ none
  mobile : record.client = .mobile →
    record.absoluteExpiresAt = record.issuedAt + config.absMobileTtlSec * 1000
  seen : record.issuedAt ≤ lastSeenOf record ∧ lastSeenOf record ≤ world.time

variable {stored : StoredSession}

theorem exists_root (ledger : world.Ledger config) {old : String}
    (isRecord : world.IsRecord old stored) :
    ∃ w ∈ world.written, w.token = old ∧ w.record = stored ∧ w.root = world.rootOf old := by
  obtain ⟨w, member, rfl, rfl⟩ := isRecord
  exact ⟨w, member, rfl, rfl, ledger.root w member⟩

theorem putNew (ledger : world.Ledger config) (admits : Admits world config origin record)
    (isDrawn : ∃ k < world.drawn, world.token k = token) (isNew : ¬world.Known token) :
    (world.putSession origin token record ttl).Ledger config := by
  have notNew : ∀ w ∈ world.written, w.token ≠ token := fun w member same =>
    isNew ⟨w, member, same⟩
  have rootNotNew : ∀ w ∈ world.written, w.root ≠ token := by
    intro w member same
    obtain ⟨v, vMember, isRoot, -⟩ := ledger.rooted w member
    exact notNew v vMember (isRoot.trans same)
  have isRoot : world.rootFrom origin token = token ∨
      ∃ old, origin = .rotated old ∧ world.rootFrom origin token = world.rootOf old := by
    cases origin with
    | created | started => exact .inl rfl
    | rotated old => exact .inr ⟨old, rfl, rfl⟩
    | grace => exact absurd rfl admits.notGrace
  -- The chain of the new record is that of the record it was rotated from, or a new one.
  have login : ∀ w ∈ world.written, w.root = world.rootFrom origin token →
      record.SameLogin w.record := by
    intro w member same
    rcases isRoot with own | ⟨old, rfl, isOld⟩
    · exact absurd (same.trans own) (rootNotNew w member)
    · obtain ⟨-, stored, isRecord, sameLogin, -⟩ := admits.rotated old rfl
      obtain ⟨v, vMember, rfl, rfl, vRoot⟩ := ledger.exists_root isRecord
      exact sameLogin.trans (ledger.login v vMember w member (by rw [vRoot, same, isOld]))
  have unsuperseded : ∀ t, ¬(world.putSession origin token record ttl).Superseded t →
      ¬world.Superseded t := fun t free isOld => free (superseded_putSession.mpr (.inr isOld))
  have knownRoot : ∀ w ∈ world.written,
      (world.putSession origin token record ttl).rootOf w.token = world.rootOf w.token :=
    fun w member => rootOf_putSession_of_known isNew ⟨w, member, rfl⟩
  -- Every older token of the chain has a successor by now.
  have older : ∀ u ∈ world.written, u.root = world.rootFrom origin token →
      (world.putSession origin token record ttl).Superseded u.token := by
    intro u uMember sameRoot
    rcases isRoot with own | ⟨old, rfl, isOld⟩
    · exact absurd (sameRoot.trans own) (rootNotNew u uMember)
    · obtain ⟨free, stored, isRecord, -, -⟩ := admits.rotated old rfl
      obtain ⟨o, oMember, rfl, -, oRoot⟩ := ledger.exists_root isRecord
      by_contra uFree
      have isLast := ledger.last u uMember o oMember (by rw [sameRoot, isOld, oRoot])
        (unsuperseded _ uFree) free
      exact uFree (superseded_putSession.mpr (.inl (by rw [isLast])))
  constructor
  · exact forall_putSession.mpr ⟨isDrawn, ledger.drawn⟩
  · refine forall_putSession.mpr ⟨?_, fun w old => ?_⟩
    · rw [rootOf_putSession, if_pos rfl]
    · rw [knownRoot w old, ledger.root w old]
  · refine forall_putSession.mpr ⟨?_, fun w old => exists_putSession (ledger.rooted w old)⟩
    cases origin with
    | created => exact ⟨_, mem_putSession.mpr (.inl rfl), rfl, rfl, .inl rfl⟩
    | started => exact ⟨_, mem_putSession.mpr (.inl rfl), rfl, rfl, .inr rfl⟩
    | rotated old =>
      obtain ⟨-, stored, isRecord, -⟩ := admits.rotated old rfl
      obtain ⟨v, vMember, rfl, -, vRoot⟩ := ledger.exists_root isRecord
      obtain ⟨r, rMember, isToken, rRoot, isFirst⟩ := ledger.rooted v vMember
      exact ⟨r, mem_putSession.mpr (.inr rMember), isToken.trans vRoot, rRoot.trans vRoot, isFirst⟩
    | grace => exact absurd rfl admits.notGrace
  · refine forall_pair_putSession rfl ?_ ?_ ?_ ?_
    · exact fun _ => rfl
    · exact fun v old same => absurd same.symm (notNew v old)
    · exact fun w old same => absurd same (notNew w old)
    · exact ledger.base
  · refine forall_pair_putSession rfl ?_ ?_ ?_ ?_
    · exact fun _ => ⟨rfl, rfl, rfl, rfl⟩
    · exact fun v old same => login v old same.symm
    · exact fun w old same => (login w old same).symm
    · exact ledger.login
  · refine forall_putSession.mpr ⟨?_, ledger.first⟩
    rintro (rfl | rfl) <;> rfl
  · refine forall_putSession.mpr ⟨?_, fun w old => exists_putSession (ledger.minted w old)⟩
    exact ⟨_, mem_putSession.mpr (.inl rfl), rfl, admits.notGrace⟩
  · exact forall_putSession.mpr ⟨fun _ => admits.unrotated, ledger.unrotated⟩
  · refine forall_putSession.mpr ⟨fun from_ isRotated => ?_, fun w old from_ isRotated => ?_⟩
    · obtain rfl : origin = .rotated from_ := isRotated
      obtain ⟨-, stored, isRecord, sameLogin, isOwn, -⟩ := admits.rotated from_ rfl
      obtain ⟨v, vMember, rfl, -, -⟩ := ledger.exists_root isRecord
      exact ⟨known_putSession.mpr (.inr ⟨v, vMember, rfl⟩), knownRoot v vMember,
        sameLogin.impersonation.trans isOwn⟩
    · obtain ⟨⟨v, vMember, rfl⟩, sameRoot, isOwn⟩ := ledger.rotated w old from_ isRotated
      exact ⟨known_putSession.mpr (.inr ⟨v, vMember, rfl⟩), (knownRoot v vMember).trans sameRoot,
        isOwn⟩
  · refine forall_pair_putSession rfl ?_ ?_ ?_ ?_
    · exact fun _ _ _ => rfl
    · exact fun v old from_ isRotated alsoRotated =>
        absurd ⟨v, old, alsoRotated⟩ (admits.rotated from_ isRotated).1
    · exact fun w old from_ isRotated alsoRotated =>
        absurd ⟨w, old, isRotated⟩ (admits.rotated from_ alsoRotated).1
    · exact ledger.one
  · refine forall_putSession.mpr ⟨fun next isNext => ?_, fun w old next isNext =>
      exists_putSession (ledger.graced w old next isNext)⟩
    exact nomatch admits.unrotated.symm.trans isNext
  · refine forall_pair_putSession rfl ?_ ?_ ?_ ?_
    · exact fun _ _ _ => rfl
    · exact fun v old same _ vFree => absurd (older v old same.symm) vFree
    · exact fun w old same wFree _ => absurd (older w old same) wFree
    · exact fun w wOld v vOld same wFree vFree =>
        ledger.last w wOld v vOld same (unsuperseded _ wFree) (unsuperseded _ vFree)
  · refine forall_putSession.mpr ⟨fun impersonation isFor => ?_, fun w old impersonation isFor => ?_⟩
    · exact exists_putSession (admits.parked impersonation isFor)
    · exact exists_putSession (ledger.parked w old impersonation isFor)
  · exact forall_putSession.mpr ⟨admits.bounded, ledger.bounded⟩
  · exact forall_putSession.mpr ⟨admits.started, ledger.started⟩
  · exact forall_putSession.mpr ⟨admits.mobile, ledger.mobile⟩
  · exact forall_putSession.mpr ⟨admits.seen, ledger.seen⟩
  · refine forall_pair_putSession rfl ?_ ?_ ?_ ?_
    · exact fun _ _ => Int.le_refl _
    · exact fun v old same vFree => absurd (older v old same.symm) vFree
    · intro w wOld same _
      rcases isRoot with own | ⟨old, rfl, isOld⟩
      · exact absurd (same.trans own) (rootNotNew w wOld)
      · obtain ⟨free, stored, isRecord, -, -, isLater⟩ := admits.rotated old rfl
        obtain ⟨o, oMember, rfl, rfl, oRoot⟩ := ledger.exists_root isRecord
        exact Int.le_trans (ledger.newest w wOld o oMember (by rw [same, isOld, oRoot]) free) isLater
    · exact fun w wOld v vOld same vFree => ledger.newest w wOld v vOld same (unsuperseded _ vFree)

theorem putGrace (ledger : world.Ledger config) {next : String}
    (isRecord : world.IsRecord token stored)
    (successor : ∃ s ∈ world.written, s.origin = .rotated token ∧ s.token = next) :
    (world.putSession .grace token { stored with rotatedTo := some next } ttl).Ledger config := by
  obtain ⟨⟨from_, token, root, record⟩, member, rfl, rfl, isRoot⟩ := ledger.exists_root isRecord
  dsimp only at *
  subst isRoot
  let o : Written := ⟨from_, token, world.rootOf token, record⟩
  have member : o ∈ world.written := member
  have rootOf : ∀ t, (world.putSession .grace token { record with rotatedTo := some next }
      ttl).rootOf t = world.rootOf t := by
    intro t
    rw [rootOf_putSession]
    split
    · rename_i same
      rw [← same]
      rfl
    · rfl
  have superseded : ∀ t, (world.putSession .grace token { record with rotatedTo := some next }
      ttl).Superseded t ↔ world.Superseded t :=
    fun t => superseded_putSession.trans (or_iff_right nofun)
  -- The new entry is like the entry of the record, but for its origin and the pointer.
  constructor
  · exact forall_putSession.mpr ⟨ledger.drawn o member, ledger.drawn⟩
  · simp only [rootOf]
    exact forall_putSession.mpr ⟨rfl, ledger.root⟩
  · exact forall_putSession.mpr ⟨exists_putSession (ledger.rooted o member), fun w old =>
      exists_putSession (ledger.rooted w old)⟩
  · exact forall_pair_putSession rfl (fun _ => rfl) (ledger.base o member)
      (fun w old => ledger.base w old o member) ledger.base
  · have same : StoredSession.SameLogin { record with rotatedTo := some next } record :=
      ⟨rfl, rfl, rfl, rfl⟩
    exact forall_pair_putSession rfl (fun _ => ⟨rfl, rfl, rfl, rfl⟩)
      (fun v old sameRoot => same.trans (ledger.login o member v old sameRoot))
      (fun w old sameRoot => (ledger.login w old o member sameRoot).trans same.symm) ledger.login
  · exact forall_putSession.mpr ⟨fun isFirst => by simp at isFirst, ledger.first⟩
  · exact forall_putSession.mpr ⟨exists_putSession (ledger.minted o member), fun w old =>
      exists_putSession (ledger.minted w old)⟩
  · exact forall_putSession.mpr ⟨fun notGrace => absurd rfl notGrace, ledger.unrotated⟩
  · refine forall_putSession.mpr ⟨fun _ => nofun, fun w old from_ isRotated => ?_⟩
    obtain ⟨isKnown, sameRoot, isOwn⟩ := ledger.rotated w old from_ isRotated
    exact ⟨exists_putSession isKnown, (rootOf from_).trans sameRoot, isOwn⟩
  · exact forall_pair_putSession rfl (fun _ => nofun) (fun _ _ _ => nofun) (fun _ _ _ _ => nofun)
      ledger.one
  · refine forall_putSession.mpr ⟨fun after isNext => ?_, fun w old after isNext =>
      exists_putSession (ledger.graced w old after isNext)⟩
    have same : next = after := by
      simp only [StoredSession.successor?, Option.filter_eq_some_iff, Option.some.injEq] at isNext
      exact isNext.1
    exact same ▸ exists_putSession successor
  · simp only [superseded]
    exact forall_pair_putSession rfl (fun _ _ _ => rfl) (ledger.last o member)
      (fun w old => ledger.last w old o member) ledger.last
  · exact forall_putSession.mpr ⟨fun impersonation isFor =>
      exists_putSession (ledger.parked o member impersonation isFor), fun w old impersonation isFor =>
        exists_putSession (ledger.parked w old impersonation isFor)⟩
  · exact forall_putSession.mpr ⟨ledger.bounded o member, ledger.bounded⟩
  · exact forall_putSession.mpr ⟨nofun, ledger.started⟩
  · exact forall_putSession.mpr ⟨ledger.mobile o member, ledger.mobile⟩
  · exact forall_putSession.mpr ⟨ledger.seen o member, ledger.seen⟩
  · simp only [superseded]
    exact forall_pair_putSession rfl (fun _ _ => Int.le_refl _) (ledger.newest o member)
      (fun w old => ledger.newest w old o member) ledger.newest

end World.Ledger

namespace World.Ledger

variable {stored : StoredSession}

section

variable (ledger : world.Ledger config)
include ledger

section

variable (isRecord : world.IsRecord token stored)
include isRecord

theorem sameLogin {next : String} {other : StoredSession} (isOther : world.IsRecord next other)
    (same : world.rootOf token = world.rootOf next) : stored.SameLogin other := by
  obtain ⟨w, wMember, -, rfl, wRoot⟩ := ledger.exists_root isRecord
  obtain ⟨v, vMember, -, rfl, vRoot⟩ := ledger.exists_root isOther
  exact ledger.login w wMember v vMember (by rw [wRoot, vRoot, same])

theorem not_superseded (isFor : stored.impersonation ≠ none) : ¬world.Superseded token := by
  rintro ⟨w, member, isRotated⟩
  obtain ⟨-, sameRoot, isOwn⟩ := ledger.rotated w member token isRotated
  obtain ⟨o, oMember, -, rfl, oRoot⟩ := ledger.exists_root isRecord
  have same := (ledger.login o oMember w member (oRoot.trans sameRoot)).impersonation
  exact isFor (same.trans isOwn)

theorem successor?_eq_none (isFor : stored.impersonation ≠ none) : stored.successor? = none := by
  cases isNext : stored.successor? with
  | none => rfl
  | some next =>
    obtain ⟨w, member, rfl, rfl⟩ := isRecord
    obtain ⟨s, sMember, isRotated, -⟩ := ledger.graced w member next isNext
    exact absurd ⟨s, sMember, isRotated⟩ (ledger.not_superseded ⟨w, member, rfl, rfl⟩ isFor)

theorem known_actorToken {impersonation : StoredImpersonation}
    (isFor : stored.impersonation = some impersonation) : world.Known impersonation.actorToken := by
  obtain ⟨w, member, -, rfl⟩ := isRecord
  obtain ⟨v, vMember, isToken, -⟩ := ledger.parked w member impersonation isFor
  exact ⟨v, vMember, isToken⟩

end

theorem root_eq (known : world.Known token) :
    ∃ w ∈ world.written, w.token = token ∧ w.root = world.rootOf token := by
  obtain ⟨w, member, rfl⟩ := known
  exact ⟨w, member, rfl, ledger.root w member⟩

theorem known_rootOf (known : world.Known token) : world.Known (world.rootOf token) := by
  obtain ⟨w, member, -, isRoot⟩ := ledger.root_eq known
  obtain ⟨v, vMember, isToken, -⟩ := ledger.rooted w member
  exact ⟨v, vMember, isToken.trans isRoot⟩

/-- Of a chain, one known token is without a successor. -/
theorem eq_of_not_superseded {other : String} (known : world.Known token)
    (knownOther : world.Known other) (same : world.rootOf token = world.rootOf other)
    (free : ¬world.Superseded token) (freeOther : ¬world.Superseded other) : token = other := by
  obtain ⟨w, member, rfl, isRoot⟩ := ledger.root_eq known
  obtain ⟨v, vMember, rfl, vRoot⟩ := ledger.root_eq knownOther
  exact ledger.last w member v vMember (by rw [isRoot, vRoot, same]) free freeOther

end

end World.Ledger

end DubEcosystem.AuthSessions

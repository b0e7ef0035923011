import DubEcosystem.Texts
import DubEcosystem.IdentityRosterTypes
import Mathlib.Data.Int.Log
import Mathlib.Data.Rat.Floor
import Mathlib.Tactic.Positivity

/-!
# packages/slack-import: the ids of imported messages

`encodeTime`, `slackId`, `slackTsToMs` and `messageIdFor` of `mapping.ts`.  A timestamp is
read as a double, whose exponent is not bounded here; SHA-256 is a parameter.  An id starts
with the millisecond of its message, so that messages are in Slack's order unless they share
one, and then they are in the order of their digests.
-/

namespace DubEcosystem.SlackImport

open List Texts
open IdentityRoster (codeUnits)

/-- The nearest integer, the even one of two. -/
def roundHalfEven (x : ℚ) : Int :=
  if x - ⌊x⌋ < 1 / 2 then ⌊x⌋
  else if 1 / 2 < x - ⌊x⌋ then ⌊x⌋ + 1
  else ⌊x⌋ + ⌊x⌋ % 2

def toDouble (x : ℚ) : ℚ :=
  roundHalfEven (x / 2 ^ (Int.log 2 x - 52)) * 2 ^ (Int.log 2 x - 52)

/-- `Math.round`. -/
def mathRound (x : ℚ) : Int :=
  ⌊x + 1 / 2⌋

/-- Decimal seconds with six fraction digits. -/
structure SlackTs where
  seconds : List (Fin 10)
  micros : List (Fin 10)
  isSeconds : seconds ≠ []
  isMicros : micros.length = 6

variable (digit : Fin 10)

def digitChar : Char :=
  Char.ofNat (48 + digit)

def SlackTs.text (ts : SlackTs) : List Char :=
  ts.seconds.map digitChar ++ '.' :: ts.micros.map digitChar

/-- The microseconds that a timestamp stands for. -/
def SlackTs.total (ts : SlackTs) : Nat :=
  (ts.seconds ++ ts.micros).foldl (fun total digit => 10 * total + digit) 0

structure SlackChannel where
  id : String
  created : Option Nat

/-- The bytes of a digest. -/
abbrev Sha256 := String → List Nat

def crockford (index : Nat) : Char :=
  "0123456789ABCDEFGHJKMNPQRSTVWXYZ".toList.getD index '0'

/-- So many digits of a number in base 32, the lowest one last. -/
def digitsOf : Nat → Nat → List Nat
  | 0, _ => []
  | count + 1, t => digitsOf count (t / 32) ++ [t % 32]

def encodeTime (ms : Nat) : String :=
  String.ofList ((digitsOf 10 ms).map crockford)

def seedFor (idPrefix : String) (seed : List Char) : String :=
  "slack-import:" ++ idPrefix ++ ":" ++ String.ofList seed

def randOf (sha256 : Sha256) (idPrefix : String) (seed : List Char) : List Nat :=
  let digest := sha256 (seedFor idPrefix seed)
  (List.range 16).map fun i => digest.getD i 0 % 32

def slackId (sha256 : Sha256) (idPrefix : String) (atMs : Nat) (seed : List Char) : String :=
  idPrefix ++ "_" ++ encodeTime atMs ++ String.ofList ((randOf sha256 idPrefix seed).map crockford)

def slackTsToMs (ts : SlackTs) : Nat :=
  (mathRound (toDouble (toDouble (ts.total / 1000000) * 1000))).toNat

def messageSeed (slackChannelId : String) (ts : SlackTs) : List Char :=
  slackChannelId.toList ++ ':' :: ts.text

def messageIdFor (sha256 : Sha256) (slackChannelId : String) (ts : SlackTs) : String :=
  slackId sha256 "msg" (slackTsToMs ts) (messageSeed slackChannelId ts)

def createdMs (channel : SlackChannel) : Nat :=
  channel.created.getD 0 * 1000

def bookmarkSeed (channel : SlackChannel) : List Char :=
  channel.id.toList ++ ":bookmarks".toList

def bookmarkMessageIdFor (sha256 : Sha256) (channel : SlackChannel) : String :=
  slackId sha256 "msg" (createdMs channel) (bookmarkSeed channel)

/-- `<` on strings. -/
def Precedes (first second : String) : Prop :=
  codeUnits first < codeUnits second

/-- The imported history of a channel has Slack's order and starts with the bookmarks, and
different messages have different ids where their digests differ. -/
structure KeepsSlackOrder (sha256 : Sha256) (channel : SlackChannel) (history : List SlackTs) :
    Prop where
  ordered : ∀ first ∈ history, ∀ second ∈ history, first.total < second.total →
    Precedes (messageIdFor sha256 channel.id first) (messageIdFor sha256 channel.id second)
  bookmarked : ∀ ts ∈ history,
    Precedes (bookmarkMessageIdFor sha256 channel) (messageIdFor sha256 channel.id ts)
  distinct : ∀ first second : String × SlackTs,
    (randOf sha256 "msg" (messageSeed first.1 first.2) =
      randOf sha256 "msg" (messageSeed second.1 second.2) →
        messageSeed first.1 first.2 = messageSeed second.1 second.2) →
    messageIdFor sha256 first.1 first.2 = messageIdFor sha256 second.1 second.2 →
      first.1 = second.1 ∧ first.2.text = second.2.text

/-- An earlier millisecond, of those that ten digits hold, or the same one and a lesser
digest. -/
def Earlier (first second : Nat × List Nat) : Prop :=
  first.1 % 32 ^ 10 < second.1 % 32 ^ 10 ∨
    first.1 % 32 ^ 10 = second.1 % 32 ^ 10 ∧ first.2 < second.2

def stamp (sha256 : Sha256) (channel : SlackChannel) (ts : SlackTs) : Nat × List Nat :=
  (slackTsToMs ts, randOf sha256 "msg" (messageSeed channel.id ts))

/-- Messages in the order of their milliseconds, and in that of their digests where they share
one; and all of them after the second in which the channel was created. -/
def InOrder (sha256 : Sha256) (channel : SlackChannel) (history : List SlackTs) : Prop :=
  (∀ first ∈ history, ∀ second ∈ history, first.total < second.total →
    Earlier (stamp sha256 channel first) (stamp sha256 channel second)) ∧
  ∀ ts ∈ history, Earlier (createdMs channel, randOf sha256 "msg" (bookmarkSeed channel))
    (stamp sha256 channel ts)

theorem digitsOf_length (count t : Nat) : (digitsOf count t).length = count := by
  induction count generalizing t with
  | zero => rfl
  | succ count ih => simp [digitsOf, ih]

theorem digitsOf_lt {count t digit : Nat} (member : digit ∈ digitsOf count t) : digit < 32 := by
  induction count generalizing t with
  | zero => cases member
  | succ count ih =>
    rcases mem_append.mp member with member | member
    · exact ih member
    · rw [mem_singleton.mp member]
      exact Nat.mod_lt _ (by decide)

theorem digitsOf_eq_iff {count first second : Nat} :
    digitsOf count first = digitsOf count second ↔ first % 32 ^ count = second % 32 ^ count := by
  induction count generalizing first second with
  | zero => simp [digitsOf, Nat.mod_one]
  | succ count ih =>
    have sameLength : (digitsOf count (first / 32)).length =
        (digitsOf count (second / 32)).length := by
      rw [digitsOf_length, digitsOf_length]
    have split : digitsOf (count + 1) first = digitsOf (count + 1) second ↔
        digitsOf count (first / 32) = digitsOf count (second / 32) ∧ first % 32 = second % 32 := by
      constructor
      · intro same
        obtain ⟨high, low⟩ := append_inj same sameLength
        exact ⟨high, singleton_inj.mp low⟩
      · rintro ⟨high, low⟩
        rw [digitsOf, digitsOf, high, low]
    rw [split, ih, Nat.pow_succ', Nat.mod_mul, Nat.mod_mul]
    omega

theorem digitsOf_lt_iff {count first second : Nat} :
    digitsOf count first < digitsOf count second ↔ first % 32 ^ count < second % 32 ^ count := by
  induction count generalizing first second with
  | zero => simp [digitsOf, Nat.mod_one]
  | succ count ih =>
    have sameLength : (digitsOf count (first / 32)).length =
        (digitsOf count (second / 32)).length := by
      rw [digitsOf_length, digitsOf_length]
    rw [digitsOf, digitsOf, append_lt_append_iff sameLength, ih, digitsOf_eq_iff,
      Nat.pow_succ', Nat.mod_mul, Nat.mod_mul]
    simp only [cons_lt_cons_iff, not_lt_nil, and_false, or_false]
    omega

theorem crockford_lt_iff : ∀ first < 32, ∀ second < 32,
    (crockford first).toNat < (crockford second).toNat ↔ first < second := by
  decide +kernel

theorem codeUnits_append (first second : String) :
    codeUnits (first ++ second) = codeUnits first ++ codeUnits second := by
  simp [codeUnits]

theorem codeUnits_crockford {digits : List Nat} (small : ∀ digit ∈ digits, digit < 32) :
    codeUnits (String.ofList (digits.map crockford)) =
      digits.map fun digit => (crockford digit).toNat := by
  have narrow : ∀ digit < 32, (crockford digit).toNat < 0x10000 := by
    decide +kernel
  induction digits with
  | nil => simp [codeUnits]
  | cons digit rest ih =>
    have isNarrow := narrow digit (small digit (.head _))
    have others := ih fun other member => small other (.tail _ member)
    simp only [codeUnits, String.toList_ofList] at others ⊢
    simp [isNarrow, others]

theorem crockford_map_lt_iff {first second : List Nat} (small : ∀ digit ∈ first, digit < 32)
    (smallToo : ∀ digit ∈ second, digit < 32) :
    (first.map fun digit => (crockford digit).toNat) <
      (second.map fun digit => (crockford digit).toNat) ↔ first < second := by
  induction first generalizing second with
  | nil => cases second <;> simp
  | cons digit rest ih =>
    cases second with
    | nil => simp
    | cons other others =>
      have less := crockford_lt_iff digit (small _ (.head _)) other (smallToo _ (.head _))
      have more := crockford_lt_iff other (smallToo _ (.head _)) digit (small _ (.head _))
      have later := ih (fun _ member => small _ (.tail _ member))
        fun _ member => smallToo _ (.tail _ member)
      simp only [map_cons, cons_lt_cons_iff, later, less]
      have same : (crockford digit).toNat = (crockford other).toNat ↔ digit = other := by
        omega
      rw [same]

variable {sha256 : Sha256}

variable {idPrefix : String}

theorem randOf_lt {seed : List Char} {digit : Nat}
    (member : digit ∈ randOf sha256 idPrefix seed) : digit < 32 := by
  obtain ⟨i, -, rfl⟩ := List.mem_map.mp member
  exact Nat.mod_lt _ (by decide)

theorem codeUnits_slackId (idPrefix : String) (ms : Nat) (seed : List Char) :
    codeUnits (slackId sha256 idPrefix ms seed) = codeUnits (idPrefix ++ "_") ++
      (digitsOf 10 ms ++ randOf sha256 idPrefix seed).map fun digit =>
        (crockford digit).toNat := by
  rw [slackId, encodeTime, codeUnits_append, codeUnits_append,
    codeUnits_crockford fun _ => digitsOf_lt, codeUnits_crockford fun _ => randOf_lt,
    map_append, append_assoc]

theorem slackId_precedes_iff {first second : Nat} {seed other : List Char} :
    Precedes (slackId sha256 idPrefix first seed) (slackId sha256 idPrefix second other) ↔
      Earlier (first, randOf sha256 idPrefix seed) (second, randOf sha256 idPrefix other) := by
  have small : ∀ {ms seed}, ∀ digit ∈ digitsOf 10 ms ++ randOf sha256 idPrefix seed,
      digit < 32 := by
    intro ms seed digit member
    rcases mem_append.mp member with member | member
    · exact digitsOf_lt member
    · exact randOf_lt member
  have sameLength : (digitsOf 10 first).length = (digitsOf 10 second).length := by
    rw [digitsOf_length, digitsOf_length]
  rw [Precedes, codeUnits_slackId, codeUnits_slackId, append_lt_append_iff rfl,
    crockford_map_lt_iff small small, append_lt_append_iff sameLength, digitsOf_lt_iff,
    digitsOf_eq_iff]
  simp [Earlier]

theorem crockford_map_inj {first second : List Nat} (small : ∀ digit ∈ first, digit < 32)
    (smallToo : ∀ digit ∈ second, digit < 32)
    (same : (first.map fun digit => (crockford digit).toNat) =
      second.map fun digit => (crockford digit).toNat) : first = second := by
  rcases lt_trichotomy first second with less | same | more
  · exact absurd ((crockford_map_lt_iff small smallToo).mpr less) (same ▸ lt_irrefl _)
  · exact same
  · exact absurd ((crockford_map_lt_iff smallToo small).mpr more) (same ▸ lt_irrefl _)

theorem digitChar_ne_colon : digitChar digit ≠ ':' := by
  revert digit
  decide

/-- A seed ends with its timestamp, which holds no colon. -/
theorem eq_of_messageSeed {first second : String × SlackTs}
    (same : messageSeed first.1 first.2 = messageSeed second.1 second.2) :
    first.1 = second.1 ∧ first.2.text = second.2.text := by
  have noColon : ∀ ts : SlackTs, ':' ∉ ts.text := by
    intro ts member
    simp only [SlackTs.text, mem_append, mem_cons, List.mem_map] at member
    rcases member with ⟨digit, -, isColon⟩ | isColon | ⟨digit, -, isColon⟩
    · exact digitChar_ne_colon digit isColon
    · cases isColon
    · exact digitChar_ne_colon digit isColon
  have reversed := congrArg List.reverse same
  simp only [messageSeed, reverse_append, reverse_cons, append_assoc, singleton_append] at reversed
  obtain ⟨sameText, sameChannel⟩ := split_at_separator
    (by simpa using noColon first.2) (by simpa using noColon second.2) reversed
  exact ⟨String.toList_inj.mp (reverse_injective sameChannel), reverse_injective sameText⟩

variable {channel : SlackChannel} {history : List SlackTs}

/-- Imported history keeps Slack's order just when messages of one millisecond are in the order
of their digests, and none is of the time before the channel. -/
theorem keepsSlackOrder_iff :
    KeepsSlackOrder sha256 channel history ↔ InOrder sha256 channel history := by
  constructor
  · rintro ⟨ordered, bookmarked, -⟩
    exact ⟨fun first firstMem second secondMem before =>
      slackId_precedes_iff.mp (ordered first firstMem second secondMem before),
      fun ts member => slackId_precedes_iff.mp (bookmarked ts member)⟩
  · rintro ⟨ordered, bookmarked⟩
    constructor
    · intro first firstMem second secondMem before
      exact slackId_precedes_iff.mpr (ordered first firstMem second secondMem before)
    · intro ts member
      exact slackId_precedes_iff.mpr (bookmarked ts member)
    · intro first second apart same
      have sameUnits := congrArg codeUnits same
      simp only [messageIdFor, codeUnits_slackId] at sameUnits
      have sameDigits := crockford_map_inj
        (fun digit member => (mem_append.mp member).elim digitsOf_lt randOf_lt)
        (fun digit member => (mem_append.mp member).elim digitsOf_lt randOf_lt)
        (append_cancel_left sameUnits)
      have sameRand := (append_inj sameDigits (by rw [digitsOf_length, digitsOf_length])).2
      exact eq_of_messageSeed (apart sameRand)

/-- Two messages of one millisecond, the first of them with the greater digest. -/
def hundredMicros : SlackTs where
  seconds := [1, 7, 1, 7, 0, 0, 0, 0, 0, 0]
  micros := [0, 0, 0, digit, 0, 0]
  isSeconds := cons_ne_nil _ _
  isMicros := rfl

def digests : Sha256 := fun text =>
  if text = "slack-import:msg:C1:1717000000.000100" then
    [249, 119, 215, 171, 236, 6, 198, 150, 28, 129, 223, 225, 42, 239, 222, 44]
  else
    [144, 32, 25, 68, 249, 43, 198, 52, 119, 107, 195, 5, 237, 237, 133, 157]

theorem not_keepsSlackOrder :
    ¬KeepsSlackOrder digests ⟨"C1", some 1716990000⟩ [hundredMicros 1, hundredMicros 2] := by
  rintro ⟨ordered, -, -⟩
  have precedes := ordered (hundredMicros 1) (by simp) (hundredMicros 2) (by simp) (by decide)
  revert precedes
  unfold Precedes
  decide +kernel

theorem roundHalfEven_intCast (k : Int) : roundHalfEven k = k := by
  simp [roundHalfEven]

theorem roundHalfEven_mono {x y : ℚ} (le : x ≤ y) : roundHalfEven x ≤ roundHalfEven y := by
  have floors := Int.floor_le_floor le
  have bounds : ∀ z : ℚ, ⌊z⌋ ≤ roundHalfEven z ∧ roundHalfEven z ≤ ⌊z⌋ + 1 := by
    intro z
    unfold roundHalfEven
    split_ifs <;> omega
  rcases floors.lt_or_eq with less | same
  · have below := (bounds x).2
    have above := (bounds y).1
    omega
  · unfold roundHalfEven
    rw [same]
    split_ifs <;> first | omega | linarith

/-- A double is in the binade of what it stands for, or at its upper end. -/
theorem toDouble_bounds {x : ℚ} (positive : 0 < x) :
    2 ^ Int.log 2 x ≤ toDouble x ∧ toDouble x ≤ 2 ^ (Int.log 2 x + 1) := by
  have ulpPos : (0 : ℚ) < 2 ^ (Int.log 2 x - 52) := zpow_pos (by norm_num) _
  have lower : ((2 ^ 52 : Int) : ℚ) * 2 ^ (Int.log 2 x - 52) = 2 ^ Int.log 2 x := by
    rw [Int.cast_pow, Int.cast_ofNat, ← zpow_natCast, ← zpow_add₀ (by norm_num)]
    congr 1
    omega
  have upper : ((2 ^ 53 : Int) : ℚ) * 2 ^ (Int.log 2 x - 52) = 2 ^ (Int.log 2 x + 1) := by
    rw [Int.cast_pow, Int.cast_ofNat, ← zpow_natCast, ← zpow_add₀ (by norm_num)]
    congr 1
    omega
  have atLeast : ((2 ^ 52 : Int) : ℚ) ≤ x / 2 ^ (Int.log 2 x - 52) := by
    rw [le_div_iff₀ ulpPos, lower]
    exact Int.zpow_log_le_self (by decide) positive
  have atMost : x / 2 ^ (Int.log 2 x - 52) ≤ ((2 ^ 53 : Int) : ℚ) := by
    rw [div_le_iff₀ ulpPos, upper]
    exact (Int.lt_zpow_succ_log_self (by decide) x).le
  have rounded := roundHalfEven_mono atLeast
  have roundedToo := roundHalfEven_mono atMost
  rw [roundHalfEven_intCast] at rounded roundedToo
  constructor
  · rw [← lower, toDouble]
    exact mul_le_mul_of_nonneg_right (by exact_mod_cast rounded) ulpPos.le
  · rw [← upper, toDouble]
    exact mul_le_mul_of_nonneg_right (by exact_mod_cast roundedToo) ulpPos.le

theorem toDouble_mono {x y : ℚ} (nonneg : 0 ≤ x) (le : x ≤ y) : toDouble x ≤ toDouble y := by
  rcases nonneg.lt_or_eq with positive | rfl
  · rcases (Int.log_mono_right (b := 2) positive le).lt_or_eq with less | same
    · calc toDouble x ≤ 2 ^ (Int.log 2 x + 1) := (toDouble_bounds positive).2
        _ ≤ 2 ^ Int.log 2 y := zpow_le_zpow_right₀ (by norm_num) less
        _ ≤ toDouble y := (toDouble_bounds (positive.trans_le le)).1
    · unfold toDouble
      rw [same]
      have ulpPos : (0 : ℚ) < 2 ^ (Int.log 2 y - 52) := zpow_pos (by norm_num) _
      apply mul_le_mul_of_nonneg_right _ ulpPos.le
      exact_mod_cast roundHalfEven_mono (div_le_div_of_nonneg_right le ulpPos.le)
  · have zero : toDouble 0 = 0 := by simp [toDouble, roundHalfEven]
    rw [zero]
    rcases le.lt_or_eq with positive | rfl
    · exact (zpow_pos (by norm_num : (0 : ℚ) < 2) _).le.trans (toDouble_bounds positive).1
    · exact zero.ge

/-- A later message is never of an earlier millisecond. -/
theorem slackTsToMs_mono {first second : SlackTs} (before : first.total ≤ second.total) :
    slackTsToMs first ≤ slackTsToMs second := by
  have nonneg : ∀ ts : SlackTs, (0 : ℚ) ≤ toDouble (ts.total / 1000000) := by
    intro ts
    have zero : toDouble 0 = 0 := by simp [toDouble, roundHalfEven]
    rw [← zero]
    exact toDouble_mono le_rfl (by positivity)
  have read : toDouble (first.total / 1000000 : ℚ) ≤ toDouble (second.total / 1000000) := by
    apply toDouble_mono (by positivity)
    exact div_le_div_of_nonneg_right (by exact_mod_cast before) (by norm_num)
  apply Int.toNat_le_toNat
  apply Int.floor_le_floor
  apply add_le_add_left
  apply toDouble_mono (mul_nonneg (nonneg first) (by norm_num))
  exact mul_le_mul_of_nonneg_right read (by norm_num)

/-- Ids of different milliseconds, in whatever channels, are in the order of the timestamps. -/
theorem messageIdFor_precedes_iff (channelId otherId : String) {first second : SlackTs}
    (apart : slackTsToMs first ≠ slackTsToMs second) (fits : slackTsToMs first < 32 ^ 10)
    (fitsToo : slackTsToMs second < 32 ^ 10) :
    Precedes (messageIdFor sha256 channelId first) (messageIdFor sha256 otherId second) ↔
      first.total < second.total := by
  have mono := @slackTsToMs_mono first second
  have monoToo := @slackTsToMs_mono second first
  simp only [messageIdFor, slackId_precedes_iff, Earlier, Nat.mod_eq_of_lt fits,
    Nat.mod_eq_of_lt fitsToo, apart, false_and, or_false]
  omega

theorem messageIdFor_precedes_iff_hundredMicros :
    Precedes (messageIdFor digests "C1" (hundredMicros 1))
        (messageIdFor digests "C2" (hundredMicros 6)) ↔
      (hundredMicros 1).total < (hundredMicros 6).total :=
  messageIdFor_precedes_iff "C1" "C2" (by decide +kernel) (by decide +kernel) (by decide +kernel)

end DubEcosystem.SlackImport

import DubEcosystem.GithubSyncTypes

/-!
# github-sync: the labels that carry a status

A status is an issue state and at most one `status:` marker.  The writing and
the reading of it are inverse to each other on every list of issue labels.
-/

namespace DubEcosystem.GithubSync

open GanttCalc (distinct mem_distinct nodup_distinct)
open TaskService (TaskStatus)
open List

section Distinct

variable {Id : Type} [LinearOrder Id] {ids : List Id}

theorem distinct_eq_self (nodup : ids.Nodup) : distinct ids = ids := by
  rw [distinct, (nodup_reverse.mpr nodup).dedup, reverse_reverse]

theorem distinct_concat (id : Id) :
    distinct (ids ++ [id]) = if id ∈ ids then distinct ids else distinct ids ++ [id] := by
  by_cases member : id ∈ ids <;> simp [distinct, member]

/-- The chosen ids stand in the order of their first occurrences. -/
theorem pairwise_distinct_filter (chosen : Id → Bool) (ids : List Id) :
    (distinct (ids.filter chosen)).Pairwise fun first second =>
      ids.idxOf first < ids.idxOf second := by
  induction ids using reverseRecOn with
  | nil => exact .nil
  | append_singleton ids id ih =>
    have isOld {first : Id} (isFirst : first ∈ distinct (ids.filter chosen)) : first ∈ ids :=
      (mem_filter.mp (mem_distinct.mp isFirst)).1
    have kept := ih.imp_of_mem (S := fun first second =>
        (ids ++ [id]).idxOf first < (ids ++ [id]).idxOf second) fun isFirst isSecond before => by
      rwa [idxOf_append_of_mem (isOld isFirst), idxOf_append_of_mem (isOld isSecond)]
    rw [filter_append, filter_singleton]
    cases isChosen : chosen id with
    | false => rwa [Bool.cond_false, append_nil]
    | true =>
      rw [Bool.cond_true, distinct_concat]
      split_ifs with member
      · exact kept
      · refine pairwise_append.mpr
          ⟨kept, pairwise_singleton _ _, fun first isFirst last isLast => ?_⟩
        have isNew : id ∉ ids := fun old => member (mem_filter.mpr ⟨old, isChosen⟩)
        rw [mem_singleton.mp isLast, idxOf_append_of_mem (isOld isFirst),
          idxOf_append_of_notMem isNew]
        exact (idxOf_lt_length_of_mem (isOld isFirst)).trans_le (Nat.le_add_right _ _)

end Distinct

/-- Text of lower-case ASCII is its own lower case. -/
def KeepsLowerAscii (lower : String → String) : Prop :=
  ∀ text : String, text.toList.all (fun c => c.val < 128 && !c.isUpper) → lower text = text

/-- The labels of `labels` that are no marker in any letter case, first occurrences in order. -/
structure AreUserLabels (lower : String → String) (labels kept : List String) : Prop where
  mem_iff : ∀ label, label ∈ kept ↔ label ∈ labels ∧ hasStatusPrefix (lower label) = false
  nodup : kept.Nodup
  inOrder : kept.Pairwise fun first second => labels.idxOf first < labels.idxOf second

variable {lower : String → String} {labels : List String} {status : TaskStatus}

theorem lower_statusLabel (keeps : KeepsLowerAscii lower) {marker : String}
    (isMarker : statusLabel status = some marker) : lower marker = marker := by
  refine keeps marker ?_
  cases status <;> revert isMarker <;> simp only [statusLabel, isPlainStateStatus] <;>
    rintro ⟨⟩ <;> decide

theorem hasStatusPrefix_statusLabel {marker : String}
    (isMarker : statusLabel status = some marker) : hasStatusPrefix marker = true := by
  cases status <;> revert isMarker <;> simp only [statusLabel, isPlainStateStatus] <;>
    rintro ⟨⟩ <;> decide

theorem mem_userLabels {label : String} : label ∈ userLabels lower labels ↔
    label ∈ labels ∧ hasStatusPrefix (lower label) = false := by
  simp [userLabels]

theorem userLabels_append {added : List String}
    (markers : ∀ marker ∈ added, hasStatusPrefix (lower marker) = true) :
    userLabels lower (userLabels lower labels ++ added) = userLabels lower labels := by
  have base : (userLabels lower labels).filter (fun label => !hasStatusPrefix (lower label)) =
      userLabels lower labels :=
    filter_eq_self.mpr fun label member => by simp [(mem_userLabels.mp member).2]
  have none : added.filter (fun label => !hasStatusPrefix (lower label)) = [] :=
    filter_eq_nil_iff.mpr fun marker member => by simp [markers marker member]
  conv_lhs => rw [userLabels, filter_append, base, none, append_nil]
  exact distinct_eq_self (nodup_distinct _)

theorem areUserLabels (labels : List String) :
    AreUserLabels lower labels (userLabels lower labels) where
  mem_iff _ := mem_userLabels
  nodup := nodup_distinct _
  inOrder := pairwise_distinct_filter _ labels

theorem issueLabelsForStatus_eq (keeps : KeepsLowerAscii lower) :
    issueLabelsForStatus lower status labels =
      userLabels lower labels ++ (statusLabel status).toList := by
  have base : distinct (userLabels lower labels) = userLabels lower labels :=
    distinct_eq_self (nodup_distinct _)
  rw [issueLabelsForStatus]
  cases isMarker : statusLabel status with
  | none => simp only [base, Option.toList_none, append_nil]
  | some marker =>
    have notUser : marker ∉ userLabels lower labels := fun member => by
      simpa [lower_statusLabel keeps isMarker, hasStatusPrefix_statusLabel isMarker] using
        (mem_userLabels.mp member).2
    simp only [distinct_concat, if_neg notUser, base, Option.toList_some]

/-- The reading finds the marker that the writing put behind the user labels. -/
theorem find_marker (keeps : KeepsLowerAscii lower) :
    ((issueLabelsForStatus lower status labels).map lower).find? hasStatusPrefix =
      statusLabel status := by
  have none : ((userLabels lower labels).map lower).find? hasStatusPrefix = none :=
    find?_eq_none.mpr <| forall_mem_map.mpr fun label member => by
      simp [(mem_userLabels.mp member).2]
  rw [issueLabelsForStatus_eq keeps, map_append, find?_append, none, Option.none_or]
  cases isMarker : statusLabel status with
  | none => rfl
  | some marker =>
    simp [lower_statusLabel keeps isMarker, hasStatusPrefix_statusLabel isMarker]

theorem stateToStatus_issueLabelsForStatus (keeps : KeepsLowerAscii lower) :
    stateToStatus lower (statusToState status) (issueLabelsForStatus lower status labels) =
      status := by
  rw [stateToStatus, find_marker keeps]
  cases status <;> decide

theorem statusToState_stateToStatus (state : IssueState) :
    statusToState (stateToStatus lower state labels) = state := by
  have plain : statusToState (if state = .open then .todo else .done) = state := by
    cases state <;> rfl
  rw [stateToStatus]
  cases (labels.map lower).find? hasStatusPrefix with
  | none => exact plain
  | some marker =>
    dsimp only
    cases taskStatusOf (String.ofList (marker.toList.drop STATUS_LABEL_PREFIX.length)) with
    | none => exact plain
    | some status =>
      dsimp only
      split_ifs with isState
      · exact isState
      all_goals cases state <;> trivial

theorem issueLabelsForStatus_idempotent (keeps : KeepsLowerAscii lower) :
    issueLabelsForStatus lower status (issueLabelsForStatus lower status labels) =
      issueLabelsForStatus lower status labels := by
  rw [issueLabelsForStatus_eq keeps, issueLabelsForStatus_eq keeps, userLabels_append]
  intro marker member
  have isMarker := Option.mem_toList.mp member
  rw [lower_statusLabel keeps isMarker, hasStatusPrefix_statusLabel isMarker]

/-- Writing a status to the labels of an issue and reading it are inverse to each other. -/
theorem statusLabels_roundTrip (keeps : KeepsLowerAscii lower) : (∀ status labels,
      stateToStatus lower (statusToState status) (issueLabelsForStatus lower status labels) =
        status ∧
      issueLabelsForStatus lower status (issueLabelsForStatus lower status labels) =
        issueLabelsForStatus lower status labels ∧
      ∃ kept added, issueLabelsForStatus lower status labels = kept ++ added ∧
        AreUserLabels lower labels kept ∧ added.length ≤ 1 ∧
        ∀ marker ∈ added, hasStatusPrefix (lower marker) = true) ∧
    ∀ state labels, statusToState (stateToStatus lower state labels) = state := by
  refine ⟨fun status labels => ⟨stateToStatus_issueLabelsForStatus keeps,
    issueLabelsForStatus_idempotent keeps, _, _, issueLabelsForStatus_eq keeps,
    areUserLabels labels, ?_, fun marker member => ?_⟩,
    fun state labels => statusToState_stateToStatus state⟩
  · cases statusLabel status <;> simp
  · have isMarker := Option.mem_toList.mp member
    rw [lower_statusLabel keeps isMarker, hasStatusPrefix_statusLabel isMarker]

theorem keepsLowerAscii_toLower : KeepsLowerAscii String.toLower := by
  intro text isLower
  have kept : text.toList.map Char.toLower = text.toList := by
    refine (map_congr_left fun c member => dif_neg ?_).trans (map_id _)
    have notUpper := (Bool.and_eq_true_iff.mp (all_eq_true.mp isLower c member)).2
    exact fun isUpper => by simp [show c.isUpper = true from decide_eq_true isUpper] at notUpper
  exact String.toList_inj.mp (String.toList_map.trans kept)

theorem statusLabels_roundTrip_toLower : stateToStatus String.toLower .open
      (issueLabelsForStatus String.toLower .blocked ["bug", "Status:Done", "bug"]) = .blocked :=
  ((statusLabels_roundTrip keepsLowerAscii_toLower).1 .blocked _).1

end DubEcosystem.GithubSync

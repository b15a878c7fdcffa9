import MarketSystem.Runtime.RevisionReview
import Mathlib.Data.List.Dedup
import Mathlib.Data.List.Induction

/-!
# Soundness of the review gate

The writer and the gate follow the chain of literal decisions separately. Both end with the
latest review of an anomaly, judged against the review before it.
-/
namespace MarketSystem.RevisionReview

open Library

section Chain

variable {F : Type} {codec : Codec F}

/-- The latest of these reviews of an anomaly, and those before it. -/
def IsLatest (reviews : List (String × Option (PyJson.Dict F))) (key : Option Text)
    (before : List (String × Option (PyJson.Dict F)))
    (review : String × Option (PyJson.Dict F)) : Prop :=
  ∃ after, reviews = before ++ review :: after ∧ keyOf review.2 = key ∧
    ∀ later ∈ after, keyOf later.2 ≠ key

theorem isLatest_nil {key : Option Text} {before : List (String × Option (PyJson.Dict F))}
    {review : String × Option (PyJson.Dict F)} : ¬ IsLatest [] key before review := by
  rintro ⟨after, h, -⟩
  exact absurd h (by simp)

/-- One more review is the latest of its key and changes nothing for the others. -/
theorem isLatest_concat {reviews before : List (String × Option (PyJson.Dict F))}
    {last review : String × Option (PyJson.Dict F)} {key : Option Text} :
    IsLatest (reviews ++ [last]) key before review ↔
      (keyOf last.2 = key ∧ before = reviews ∧ review = last) ∨
        (keyOf last.2 ≠ key ∧ IsLatest reviews key before review) := by
  constructor
  · rintro ⟨after, h, hkey, hafter⟩
    rcases List.eq_nil_or_concat after with rfl | ⟨after, later, rfl⟩
    · have hsplit := List.append_inj' h rfl
      obtain rfl : last = review := by simpa using hsplit.2
      exact .inl ⟨hkey, hsplit.1.symm, rfl⟩
    · rw [List.concat_eq_append] at h hafter
      rw [← List.cons_append, ← List.append_assoc] at h
      have hsplit := List.append_inj' h rfl
      obtain rfl : last = later := by simpa using hsplit.2
      refine .inr ⟨hafter last (by simp), after, hsplit.1, hkey, fun later hlater => ?_⟩
      exact hafter later (by simp [hlater])
  · rintro (⟨hkey, rfl, rfl⟩ | ⟨hkey, after, rfl, hreview, hafter⟩)
    · exact ⟨[], rfl, hkey, fun _ hlater => (nomatch hlater)⟩
    · refine ⟨after ++ [last], by simp, hreview, fun later hlater => ?_⟩
      rcases List.mem_append.mp hlater with hmem | hmem
      · exact hafter later hmem
      · rw [List.mem_singleton.mp hmem]
        exact hkey

theorem latestLiteralDecisions_concat (reviews : List (String × Option (PyJson.Dict F)))
    (last : String × Option (PyJson.Dict F)) :
    latestLiteralDecisions (reviews ++ [last]) =
      Function.update (latestLiteralDecisions reviews) (keyOf last.2) (literal last.2) := by
  unfold latestLiteralDecisions
  rw [List.foldl_append]
  rfl

/-- The latest literal decision is that of the latest review. -/
theorem latestLiteralDecisions_eq {reviews before : List (String × Option (PyJson.Dict F))}
    {review : String × Option (PyJson.Dict F)} {key : Option Text}
    (h : IsLatest reviews key before review) :
    latestLiteralDecisions reviews key = literal review.2 := by
  induction reviews using List.reverseRecOn with
  | nil => exact absurd h isLatest_nil
  | append_singleton reviews last ih =>
    rw [latestLiteralDecisions_concat]
    rcases isLatest_concat.mp h with ⟨rfl, rfl, rfl⟩ | ⟨hkey, hlatest⟩
    · rw [Function.update_self]
    · rw [Function.update_of_ne hkey.symm, ih hlatest]

/-- Without a review there is no decision. -/
theorem latestLiteralDecisions_null {reviews : List (String × Option (PyJson.Dict F))}
    {key : Option Text} (h : ∀ before review, ¬ IsLatest reviews key before review) :
    latestLiteralDecisions reviews key = .null := by
  induction reviews using List.reverseRecOn with
  | nil => rfl
  | append_singleton reviews last ih =>
    have hkey : keyOf last.2 ≠ key :=
      fun hkey => h reviews last (isLatest_concat.mpr (.inl ⟨hkey, rfl, rfl⟩))
    rw [latestLiteralDecisions_concat, Function.update_of_ne hkey.symm]
    exact ih fun before review hlatest =>
      h before review (isLatest_concat.mpr (.inr ⟨hkey, hlatest⟩))

variable (codec) in
/-- The loop of `_review_states`. -/
def chainOf (recorded : List Text) (reviews : List (String × Option (PyJson.Dict F))) : Chain F :=
  reviews.foldl (Chain.next codec recorded) {}

theorem chainOf_concat (recorded : List Text)
    (reviews : List (String × Option (PyJson.Dict F)))
    (last : String × Option (PyJson.Dict F)) :
    chainOf codec recorded (reviews ++ [last]) =
      (chainOf codec recorded reviews).next codec recorded last := by
  unfold chainOf
  rw [List.foldl_append]
  rfl

/-- The gate carries the decisions that the writer looks up. -/
theorem chainOf_previous (recorded : List Text)
    (reviews : List (String × Option (PyJson.Dict F))) :
    (chainOf codec recorded reviews).previous = latestLiteralDecisions reviews := by
  induction reviews using List.reverseRecOn with
  | nil => rfl
  | append_singleton reviews last ih =>
    rw [chainOf_concat, latestLiteralDecisions_concat, ← ih]
    rfl

/-- The state of an anomaly is what its latest review makes of it. -/
theorem chainOf_states {recorded : List Text} {reviews : List (String × Option (PyJson.Dict F))}
    {key : Option Text} {state : ReviewState F} :
    (chainOf codec recorded reviews).states key = some state ↔
      ∃ before review, IsLatest reviews key before review ∧
        state = ⟨key, literal review.2, reviewReasons codec recorded
          (latestLiteralDecisions before key) review.1 review.2⟩ := by
  induction reviews using List.reverseRecOn with
  | nil =>
    constructor
    · intro h
      cases h
    · rintro ⟨before, review, hlatest, -⟩
      exact absurd hlatest isLatest_nil
  | append_singleton reviews last ih =>
    rw [chainOf_concat]
    by_cases hkey : keyOf last.2 = key
    · subst hkey
      have hstate : ((chainOf codec recorded reviews).next codec recorded last).states
          (keyOf last.2) = some ⟨keyOf last.2, literal last.2, reviewReasons codec recorded
            (latestLiteralDecisions reviews (keyOf last.2)) last.1 last.2⟩ := by
        unfold Chain.next
        dsimp only
        rw [Function.update_self, chainOf_previous]
      rw [hstate, Option.some.injEq]
      constructor
      · rintro rfl
        exact ⟨reviews, last, isLatest_concat.mpr (.inl ⟨rfl, rfl, rfl⟩), rfl⟩
      · rintro ⟨before, review, hlatest, rfl⟩
        rcases isLatest_concat.mp hlatest with ⟨-, rfl, rfl⟩ | ⟨hne, -⟩
        · rfl
        · exact absurd rfl hne
    · have hstate : ((chainOf codec recorded reviews).next codec recorded last).states key =
          (chainOf codec recorded reviews).states key := by
        unfold Chain.next
        dsimp only
        rw [Function.update_of_ne (Ne.symm hkey)]
      rw [hstate, ih]
      constructor
      · rintro ⟨before, review, hlatest, rfl⟩
        exact ⟨before, review, isLatest_concat.mpr (.inr ⟨hkey, hlatest⟩), rfl⟩
      · rintro ⟨before, review, hlatest, rfl⟩
        rcases isLatest_concat.mp hlatest with ⟨heq, -⟩ | ⟨-, hlatest⟩
        · exact absurd heq hkey
        · exact ⟨before, review, hlatest, rfl⟩

end Chain

/-! ## What a clear gate says -/

section Soundness

variable {F : Type} (codec : Codec F)

/-- A valid classification of an anomaly. -/
structure Classifies (row : Row) (key : Text) : Prop where
  eventType : row.eventType = event
  errors : classificationErrors codec row.source (parseObject codec row.payload) = []
  anomaly : anomalyId (parseObject codec row.payload) = some key

/-- The classification rows that carry an anomaly id, valid or not. -/
def rowsAbout (rows : List Row) (key : Text) : List Row :=
  rows.filter (fun r => decide (r.eventType = event ∧
    anomalyId (parseObject codec r.payload) = some key))

/-- The latest review of an anomaly decides so, and this is wrong with it. -/
def LatestReview (rows : List Row) (key : Text) (decision : PyJson F) (reasons : List String) :
    Prop :=
  ∃ before review, IsLatest (reviewRows codec rows) (some key) before review ∧
    decision = literal review.2 ∧
    reasons = reviewReasons codec (recorded codec rows)
      (latestLiteralDecisions before (some key)) review.1 review.2

variable {codec} {rows : List Row} {key : Text}

theorem states_eq_some_iff {state : ReviewState F} :
    (reviewStates codec rows).states (some key) = some state ↔
      state.anomalyId = some key ∧ LatestReview codec rows key state.decision state.reasons := by
  have hchain : reviewStates codec rows = chainOf codec (recorded codec rows)
      (reviewRows codec rows) := rfl
  rw [hchain, chainOf_states]
  constructor
  · rintro ⟨before, review, hlatest, rfl⟩
    exact ⟨rfl, before, review, hlatest, rfl, rfl⟩
  · rintro ⟨hid, before, review, hlatest, hdecision, hreasons⟩
    refine ⟨before, review, hlatest, ?_⟩
    obtain ⟨id, decision, reasons⟩ := state
    subst hid hdecision hreasons
    rfl

theorem blockerIf_eq_nil {α : Type} {found : List α} {name : String} :
    blockerIf found name = [] ↔ found = [] := by
  unfold blockerIf
  split_ifs with h
  · simpa using h
  · simpa using h

theorem errorIf_eq_nil {c : Bool} {name : String} : errorIf c name = [] ↔ c = false := by
  cases c <;> simp [errorIf]

theorem mem_classificationRows {item : Option (PyJson.Dict F) × List String} :
    item ∈ classificationRows codec rows ↔ ∃ row ∈ rows, row.eventType = event ∧
      item = (parseObject codec row.payload,
        classificationErrors codec row.source (parseObject codec row.payload)) := by
  unfold classificationRows
  simp only [List.mem_map, List.mem_filter, decide_eq_true_eq, and_assoc]
  constructor
  · rintro ⟨row, hrow, hevent, rfl⟩
    exact ⟨row, hrow, hevent, rfl⟩
  · rintro ⟨row, hrow, hevent, rfl⟩
    exact ⟨row, hrow, hevent, rfl⟩

theorem mem_validClassifications {data : PyJson.Dict F} :
    data ∈ validClassifications codec rows ↔ ∃ row ∈ rows, row.eventType = event ∧
      parseObject codec row.payload = some data ∧
      classificationErrors codec row.source (parseObject codec row.payload) = [] := by
  unfold validClassifications
  rw [List.mem_filterMap]
  constructor
  · rintro ⟨item, hitem, hdata⟩
    obtain ⟨row, hrow, hevent, rfl⟩ := mem_classificationRows.mp hitem
    dsimp only at hdata
    split_ifs at hdata with herrors
    exact ⟨row, hrow, hevent, hdata, herrors⟩
  · rintro ⟨row, hrow, hevent, hdata, herrors⟩
    refine ⟨_, mem_classificationRows.mpr ⟨row, hrow, hevent, rfl⟩, ?_⟩
    dsimp only
    rw [if_pos herrors, hdata]

theorem mem_recorded : key ∈ recorded codec rows ↔ ∃ row ∈ rows, Classifies codec row key := by
  unfold recorded
  rw [List.mem_filterMap]
  constructor
  · rintro ⟨data, hdata, hkey⟩
    obtain ⟨row, hrow, hevent, hparse, herrors⟩ := mem_validClassifications.mp hdata
    exact ⟨row, hrow, hevent, herrors, by rw [hparse, hkey]⟩
  · rintro ⟨row, hrow, hevent, herrors, hkey⟩
    cases hparse : parseObject codec row.payload with
    | none =>
      rw [hparse] at hkey
      cases hkey
    | some data =>
      refine ⟨data, mem_validClassifications.mpr ⟨row, hrow, hevent, hparse, herrors⟩, ?_⟩
      rw [← hparse, hkey]

/-- A usable id counts the rows that carry it. -/
theorem length_rowsAbout : (rowsAbout codec rows key).length = (usableIds codec rows).count key := by
  unfold rowsAbout usableIds classificationRows
  induction rows with
  | nil => rfl
  | cons row rows ih =>
    by_cases hevent : row.eventType = event
    · rw [List.filter_cons_of_pos (p := fun r : Row => decide (r.eventType = event)) (by simpa),
        List.map_cons, List.filterMap_cons]
      cases hid : anomalyId (parseObject codec row.payload) with
      | none =>
        rw [List.filter_cons_of_neg (by simp [hid])]
        exact ih
      | some id =>
        dsimp only
        rw [List.count_cons, ← ih]
        by_cases hkey : id = key
        · subst hkey
          rw [List.filter_cons_of_pos (by simp [hevent, hid]), List.length_cons]
          simp
        · rw [List.filter_cons_of_neg (by simp [hid, hkey])]
          simp [hkey]
    · rw [List.filter_cons_of_neg (by simp [hevent]), List.filter_cons_of_neg (by simpa)]
      exact ih

theorem mem_firstKeys {keys : List Text} : key ∈ firstKeys keys ↔ key ∈ keys := by
  unfold firstKeys
  rw [List.mem_reverse, List.mem_dedup, List.mem_reverse]

theorem mem_classified {data : PyJson.Dict F} (h : (key, data) ∈ classified codec rows) :
    data ∈ validClassifications codec rows ∧ anomalyId (some data) = some key := by
  unfold classified at h
  rw [List.mem_filterMap] at h
  obtain ⟨k, -, hfind⟩ := h
  rw [Option.map_eq_some_iff] at hfind
  obtain ⟨d, hd, heq⟩ := hfind
  obtain ⟨rfl, rfl⟩ := Prod.mk.injEq .. ▸ heq
  exact ⟨List.mem_of_find?_eq_some hd, by simpa [isOf] using List.find?_some hd⟩

/-- Nothing that would block is there. -/
structure Clear (evidence : EvidenceDb) (rows : List Row) (g : Gate F) : Prop where
  readable : evidence.blockers = []
  unclassified : g.unclassified = []
  materialUnreviewed : g.materialUnreviewed = []
  escalated : g.escalatedUnresolved = []
  invalid : g.invalidReviews = []
  mismatches : g.classificationMismatches = []
  conflicts : g.classificationConflicts = []
  malformed : g.classificationMalformed = []

theorem clear_of_status {evidence : EvidenceDb} {enabled : Option (List String)}
    (h : (demoGate codec evidence rows enabled).status = "CLEAR") :
    Clear evidence rows (demoGate codec evidence rows enabled) := by
  have hblockers : (demoGate codec evidence rows enabled).blockers = [] := by
    unfold Gate.status at h
    split_ifs at h with hnil
    · exact hnil
    · exact absurd h (by decide)
  unfold demoGate at hblockers
  simp only [List.append_eq_nil_iff, blockerIf_eq_nil] at hblockers
  obtain ⟨⟨⟨⟨⟨⟨⟨⟨⟨⟨hreadable, hunclassified⟩, -⟩, hmaterial⟩, hescalated⟩, -⟩, hinvalid⟩, -⟩,
    hmismatches⟩, hconflicts⟩, hmalformed⟩ := hblockers
  exact ⟨hreadable, hunclassified, hmaterial, hescalated, hinvalid, hmismatches, hconflicts,
    hmalformed⟩

variable {evidence : EvidenceDb} {enabled : Option (List String)} {a : Anomaly}

/-- Every row of the event is valid. -/
theorem Clear.errors (h : Clear evidence rows (demoGate codec evidence rows enabled)) {row : Row}
    (hrow : row ∈ rows) (hevent : row.eventType = event) :
    classificationErrors codec row.source (parseObject codec row.payload) = [] := by
  have hitems := List.map_eq_nil_iff.mp h.malformed
  rw [List.filter_eq_nil_iff] at hitems
  have hitem := hitems _ (mem_classificationRows.mpr ⟨row, hrow, hevent, rfl⟩)
  simpa using hitem

/-- Every anomaly is classified. -/
theorem Clear.classified (h : Clear evidence rows (demoGate codec evidence rows enabled))
    (ha : a ∈ evidence.anomalies.rows) :
    ∃ data, (text a.anomalyId, data) ∈ classified codec rows := by
  have hall := List.filter_eq_nil_iff.mp h.unclassified a ha
  simp only [Bool.not_eq_true', Bool.not_eq_false, List.any_eq_true, decide_eq_true_eq] at hall
  obtain ⟨⟨key, data⟩, hmem, hkey⟩ := hall
  exact ⟨data, hkey ▸ hmem⟩

/-- No anomaly id is on two rows. -/
theorem Clear.length_rowsAbout_le (h : Clear evidence rows (demoGate codec evidence rows enabled))
    (key : Text) : (rowsAbout codec rows key).length ≤ 1 := by
  rw [length_rowsAbout]
  by_contra hlt
  rw [not_le] at hlt
  have hnone := List.map_eq_nil_iff.mp h.conflicts
  rw [List.filter_eq_nil_iff] at hnone
  have hmem : key ∈ usableIds codec rows := List.count_pos_iff.mp (by omega)
  exact hnone key (mem_firstKeys.mpr hmem) (by simpa using hlt)

/-- Every valid classification names what its anomaly names. -/
theorem Clear.agrees (h : Clear evidence rows (demoGate codec evidence rows enabled))
    (ha : a ∈ evidence.anomalies.rows) {data : PyJson.Dict F}
    (hdata : data ∈ validClassifications codec rows)
    (hid : anomalyId (some data) = some (text a.anomalyId)) : agrees a data = true := by
  have hmismatches := h.mismatches
  unfold demoGate at hmismatches
  dsimp only at hmismatches
  rw [h.readable, List.isEmpty_nil, if_pos rfl, List.flatMap_eq_nil_iff] at hmismatches
  have hnone := List.map_eq_nil_iff.mp (hmismatches data hdata)
  rw [List.filter_eq_nil_iff] at hnone
  have := hnone a ha
  simpa [isOf, hid] using this

/-- The latest review of a classified anomaly is valid and does not escalate. -/
theorem Clear.latest (h : Clear evidence rows (demoGate codec evidence rows enabled))
    {data : PyJson.Dict F} (hdata : (key, data) ∈ RevisionReview.classified codec rows)
    {decision : PyJson F} {reasons : List String}
    (hlatest : LatestReview codec rows key decision reasons) :
    reasons = [] ∧ isOneOf openDecisions decision = false := by
  have hstate : (reviewStates codec rows).states (some key) = some ⟨some key, decision, reasons⟩ :=
    states_eq_some_iff.mpr ⟨rfl, hlatest⟩
  have hreasons : reasons = [] := by
    have hnone := List.filterMap_eq_nil_iff.mp h.invalid (key, data) hdata
    rw [hstate] at hnone
    simpa [ReviewState.valid, Option.filter] using hnone
  refine ⟨hreasons, ?_⟩
  have hescalated := List.map_eq_nil_iff.mp h.escalated
  rw [List.filter_eq_nil_iff] at hescalated
  have hopen := hescalated (key, data) hdata
  simpa [decidedAs, effective, hstate, ReviewState.valid, hreasons] using hopen

/-- A valid review accepts or escalates. -/
theorem isOneOf_decisions {decision : PyJson F}
    (h : LatestReview codec rows key decision []) : isOneOf decisions decision = true := by
  obtain ⟨before, review, -, rfl, hreasons⟩ := h
  have hnil := hreasons.symm
  unfold reviewReasons at hnil
  rw [List.append_eq_nil_iff] at hnil
  cases hdata : review.2 with
  | none => simp [hdata] at hnil
  | some data =>
    rw [hdata] at hnil
    simp only [payloadReasons, List.append_eq_nil_iff, errorIf_eq_nil, Bool.not_eq_false'] at hnil
    exact hnil.1.1.1.1.1.2

theorem accepted_of_not_open {decision : PyJson F} (h : isOneOf decisions decision = true)
    (hopen : isOneOf openDecisions decision = false) :
    decision = .str (text "ACCEPTED_FIRST_COMMITTED") := by
  cases decision with
  | str s =>
    simp only [isOneOf, decisions, finalDecisions, openDecisions, List.cons_append, List.nil_append,
      List.any_cons, List.any_nil, Bool.or_false, Bool.or_eq_true, decide_eq_true_eq,
      decide_eq_false_iff_not] at h hopen
    rw [h.resolve_right hopen]
  | _ => cases h

/-- An anomaly that the gate has nothing against. -/
structure Settled (codec : Codec F) (rows : List Row) (a : Anomaly) : Prop where
  /-- One row carries its id; it is valid and names what the anomaly names. -/
  classification : ∃ row data, rowsAbout codec rows (text a.anomalyId) = [row] ∧
    Classifies codec row (text a.anomalyId) ∧ parseObject codec row.payload = some data ∧
    agrees a data = true ∧
    (material data = true → LatestReview codec rows (text a.anomalyId)
      (.str (text "ACCEPTED_FIRST_COMMITTED")) [])
  /-- Its latest review, if there is one, is valid and does not escalate. -/
  reviews : ∀ decision reasons, LatestReview codec rows (text a.anomalyId) decision reasons →
    reasons = [] ∧ decision ≠ .str (text "ESCALATED")

theorem Clear.settled (h : Clear evidence rows (demoGate codec evidence rows enabled))
    (ha : a ∈ evidence.anomalies.rows) : Settled codec rows a := by
  obtain ⟨data, hdata⟩ := h.classified ha
  obtain ⟨hvalid, hid⟩ := mem_classified hdata
  refine ⟨?_, fun decision reasons hlatest => ?_⟩
  · obtain ⟨row, hrow, hevent, hparse, herrors⟩ := mem_validClassifications.mp hvalid
    have hmem : row ∈ rowsAbout codec rows (text a.anomalyId) := by
      unfold rowsAbout
      rw [List.mem_filter, decide_eq_true_eq, hparse]
      exact ⟨hrow, hevent, hid⟩
    have hone : rowsAbout codec rows (text a.anomalyId) = [row] := by
      have hlength := h.length_rowsAbout_le (text a.anomalyId)
      obtain ⟨r, hr⟩ := List.length_eq_one_iff.mp
        (le_antisymm hlength (List.length_pos_of_mem hmem))
      rw [hr] at hmem ⊢
      rw [List.mem_singleton.mp hmem]
    refine ⟨row, data, hone, ⟨hevent, herrors, by rw [hparse, hid]⟩, hparse,
      h.agrees ha hvalid hid, fun hmaterial => ?_⟩
    cases hstate : (reviewStates codec rows).states (some (text a.anomalyId)) with
    | none =>
      have hnone := List.filter_eq_nil_iff.mp h.materialUnreviewed data
        (List.mem_map.mpr ⟨_, List.mem_filter.mpr ⟨hdata, by simp [effective, hstate]⟩, rfl⟩)
      exact absurd hmaterial hnone
    | some state =>
      obtain ⟨-, hlatest⟩ := states_eq_some_iff.mp hstate
      obtain ⟨hreasons, hopen⟩ := h.latest hdata hlatest
      rw [hreasons] at hlatest
      rwa [accepted_of_not_open (isOneOf_decisions hlatest) hopen] at hlatest
  · obtain ⟨hreasons, hopen⟩ := h.latest hdata hlatest
    refine ⟨hreasons, ?_⟩
    rintro rfl
    have hescalated : isOneOf openDecisions (.str (text "ESCALATED") : PyJson F) = true := rfl
    rw [hescalated] at hopen
    cases hopen

end Soundness

/-! ## What a review needs -/

section Remedy

variable {F : Type} (codec : Codec F)

/-- SQLite reads every classification payload up to one from which it extracts the key. -/
def Found (rows : List Row) (key : String) : Prop :=
  ∃ before row after, rows = before ++ row :: after ∧ row.eventType = event ∧
    codec.extract row.payload = .ok (some key) ∧
    ∀ r ∈ before, r.eventType = event → ∃ found, codec.extract r.payload = .ok found

/-- The literal decision of the latest review, when there is one, can be stored as it is. -/
def Quotable (rows : List Row) (key : String) : Prop :=
  ∀ before review, IsLatest (reviewRows codec rows) (some (text key)) before review →
    (literal review.2).plain secretWords = true

/-- The review that a call appends is the latest one of its anomaly, and nothing is wrong
with it. -/
def Remedied (rows rows' : List Row) (key decision : String) : Prop :=
  ∃ row, rows' = rows ++ [row] ∧ row.eventType = reviewEvent ∧
    keyOf (parseObject codec row.payload) = some (text key) ∧
    LatestReview codec rows' (text key) (.str (text decision)) []

variable {codec} {rows : List Row} {key decision reviewer note timestamp : String}

theorem firstMatch_ok_iff :
    (∃ row, firstMatch codec key rows = .ok (some row)) ↔ Found codec rows key := by
  induction rows with
  | nil =>
    constructor
    · rintro ⟨row, h⟩
      cases h
    · rintro ⟨before, row, after, h, -⟩
      exact absurd h (by simp)
  | cons r rows ih =>
    have htail : (∀ found, codec.extract r.payload = .ok found → r.eventType = event →
        found ≠ some key) → (r.eventType = event → ∃ found, codec.extract r.payload = .ok found) →
        (Found codec (r :: rows) key ↔ Found codec rows key) := by
      intro hne hread
      constructor
      · rintro ⟨before, row, after, h, hevent, hextract, hbefore⟩
        cases before with
        | nil =>
          obtain ⟨rfl, rfl⟩ := List.cons.inj h
          exact absurd rfl (hne _ hextract hevent)
        | cons b before =>
          obtain ⟨rfl, rfl⟩ := List.cons.inj h
          exact ⟨before, row, after, rfl, hevent, hextract,
            fun q hq => hbefore q (List.mem_cons_of_mem _ hq)⟩
      · rintro ⟨before, row, after, rfl, hevent, hextract, hbefore⟩
        refine ⟨r :: before, row, after, rfl, hevent, hextract, ?_⟩
        rw [List.forall_mem_cons]
        exact ⟨hread, hbefore⟩
    unfold firstMatch
    split_ifs with hevent
    · rw [ih, htail (fun _ _ h => absurd h hevent) (fun h => absurd h hevent)]
    · rw [not_not] at hevent
      cases hextract : codec.extract r.payload with
      | error e =>
        dsimp only
        constructor
        · rintro ⟨row, h⟩
          cases h
        · rintro ⟨before, row, after, h, -, hrow, hbefore⟩
          cases before with
          | nil =>
            obtain ⟨rfl, rfl⟩ := List.cons.inj h
            rw [hextract] at hrow
            cases hrow
          | cons b before =>
            obtain ⟨rfl, rfl⟩ := List.cons.inj h
            obtain ⟨found, hfound⟩ := hbefore r List.mem_cons_self hevent
            rw [hextract] at hfound
            cases hfound
      | ok found =>
        dsimp only
        by_cases hfound : found = some key
        · rw [if_pos hfound]
          subst hfound
          exact ⟨fun _ => ⟨[], r, rows, rfl, hevent, hextract, fun _ hmem => (nomatch hmem)⟩,
            fun _ => ⟨r, rfl⟩⟩
        · rw [if_neg hfound, ih, htail ?_ fun _ => ⟨found, hextract⟩]
          rintro other hother - rfl
          rw [hextract] at hother
          exact hfound (Except.ok.inj hother)

/-- Characters are not surrogates. -/
theorem encodes_text (s : String) : PyJson.encodes (text s) = true := by
  unfold PyJson.encodes text
  rw [List.all_eq_true]
  intro n hn
  obtain ⟨c, -, rfl⟩ := List.mem_map.mp hn
  rw [decide_eq_true_eq]
  exact c.valid

/-- The payload of a review is stored with the previous decision as far as that is stored. -/
theorem sanitize_reviewPayload (previous : PyJson F) :
    (PyJson.obj (reviewPayload key decision reviewer note previous)).sanitize secretWords =
      (previous.sanitize secretWords).map fun stored =>
        PyJson.obj (reviewPayload key decision reviewer note stored) := by
  have hnames : ∀ name ∈ ["review_key", "anomaly_id", "decision", "final", "previous_decision",
      "reviewer", "note"], PyJson.names secretWords (text name) = false := by decide
  simp only [List.forall_mem_cons] at hnames
  obtain ⟨h₁, h₂, h₃, h₄, h₅, h₆, h₇, -⟩ := hnames
  cases hprevious : previous.sanitize secretWords with
  | none =>
    simp only [reviewPayload, PyJson.sanitize, PyJson.sanitizeFields, h₁, h₂, h₃, h₄, h₅,
      hprevious, Bool.false_eq_true, if_false]
    rfl
  | some stored =>
    simp only [reviewPayload, PyJson.sanitize, PyJson.sanitizeFields, h₁, h₂, h₃, h₄, h₅, h₆, h₇,
      hprevious, Bool.false_eq_true, if_false]
    rfl

theorem encodable_reviewPayload (stored : PyJson F) :
    (PyJson.obj (reviewPayload key decision reviewer note stored)).encodable =
      stored.encodable := by
  simp [reviewPayload, PyJson.encodable, PyJson.encodableFields, encodes_text]

theorem keyed_reviewPayload {previous : PyJson F} (h : previous.keyed = true) :
    (PyJson.obj (reviewPayload key decision reviewer note previous)).keyed = true := by
  have hkeys : ((reviewPayload key decision reviewer note previous).map Prod.fst) =
      ["review_key", "anomaly_id", "decision", "final", "previous_decision", "reviewer",
        "note"].map text := rfl
  rw [PyJson.keyed, Bool.and_eq_true, decide_eq_true_eq, hkeys]
  refine ⟨by decide, ?_⟩
  simp [reviewPayload, PyJson.keyedFields, PyJson.keyed, h]

/-- Nothing can be wrong with a review that is written, but for its quote. -/
theorem reviewReasons_reviewPayload {recorded : List Text} {previous stored : PyJson F}
    (hdecision : decision ∈ decisions) (hreviewer : blank (text reviewer) = false)
    (hrecorded : text key ∈ recorded) :
    reviewReasons codec recorded previous sourceName
        (some (reviewPayload key decision reviewer note stored)) =
      errorIf (!PyJson.eq codec.value stored previous) "previous_decision_mismatch" := by
  have hkey : keyOf (some (reviewPayload key decision reviewer note stored)) =
      some (text key) := rfl
  have hgetDecision : PyJson.get (reviewPayload key decision reviewer note stored) "decision" =
      .str (text decision) := rfl
  have hgetAnomaly : PyJson.get (reviewPayload key decision reviewer note stored) "anomaly_id" =
      .str (text key) := rfl
  have hgetReviewer : PyJson.get (reviewPayload key decision reviewer note stored) "reviewer" =
      .str (text reviewer) := rfl
  have hgetFinal : PyJson.get (reviewPayload key decision reviewer note stored) "final" =
      .bool (decide (decision ∈ finalDecisions)) := rfl
  have hgetPrevious : PyJson.get (reviewPayload key decision reviewer note stored)
      "previous_decision" = stored := rfl
  have hlookup : (reviewPayload key decision reviewer note stored).lookup
      (text "previous_decision") = some stored := rfl
  have hknown : isOneOf decisions (.str (text decision) : PyJson F) = true ∧
      isOneOf finalDecisions (.str (text decision) : PyJson F) =
        decide (decision ∈ finalDecisions) := by
    simp only [decisions, finalDecisions, openDecisions, List.cons_append, List.nil_append,
      List.mem_cons, List.not_mem_nil, or_false] at hdecision
    rcases hdecision with rfl | rfl
    · exact ⟨rfl, rfl⟩
    · exact ⟨rfl, rfl⟩
  have hsame : PyJson.eq codec.value (.str (text key) : PyJson F) (.str (text key)) = true :=
    beq_self_eq_true (text key)
  unfold reviewReasons payloadReasons
  simp only [hkey, hgetDecision, hgetAnomaly, hgetReviewer, hgetFinal, hgetPrevious, hlookup,
    hknown.1, hknown.2, hreviewer, hsame, isRecorded, hrecorded, errorIf, bne_self_eq_false,
    Bool.not_true, Bool.false_eq_true, if_false, Option.isNone_some, Bool.false_or, decide_true,
    List.nil_append, List.append_nil]

theorem parseObject_of_loads {payload : String} {data : PyJson.Dict F}
    (h : codec.loads payload = some (.obj data)) : parseObject codec payload = some data := by
  unfold parseObject
  rw [h]

theorem keyed_literal {payload : String} : (literal (parseObject codec payload)).keyed = true := by
  unfold parseObject
  split
  · next data hloads => exact PyJson.keyed_get (codec.loads_keyed _ _ hloads) "decision"
  · rfl

/-- The literal decision before a review is that of a review, or there is none. -/
theorem quotable_iff :
    Quotable codec rows key ↔ (latestLiteralDecisions (reviewRows codec rows)
      (some (text key))).plain secretWords = true := by
  by_cases h : ∃ before review, IsLatest (reviewRows codec rows) (some (text key)) before review
  · obtain ⟨before, review, hlatest⟩ := h
    constructor
    · intro hquotable
      rw [latestLiteralDecisions_eq hlatest]
      exact hquotable before review hlatest
    · intro hplain before' review' hlatest'
      rwa [latestLiteralDecisions_eq hlatest'] at hplain
  · have hnone : ∀ before review,
        ¬ IsLatest (reviewRows codec rows) (some (text key)) before review :=
      fun before review hlatest => h ⟨before, review, hlatest⟩
    rw [latestLiteralDecisions_null hnone]
    exact ⟨fun _ => rfl, fun _ before review hlatest => absurd hlatest (hnone before review)⟩

theorem keyed_latestLiteralDecisions (rows : List Row) (key : Option Text) :
    (latestLiteralDecisions (reviewRows codec rows) key).keyed = true := by
  by_cases h : ∃ before review, IsLatest (reviewRows codec rows) key before review
  · obtain ⟨before, review, hlatest⟩ := h
    rw [latestLiteralDecisions_eq hlatest]
    obtain ⟨after, heq, -⟩ := hlatest
    have hmem : review ∈ reviewRows codec rows := by
      rw [heq]
      simp
    obtain ⟨row, -, rfl⟩ := List.mem_map.mp hmem
    exact keyed_literal
  · rw [latestLiteralDecisions_null fun before review hlatest => h ⟨before, review, hlatest⟩]
    rfl

/-- A written review joins the reviews and leaves the classifications alone. -/
theorem reviewRows_concat {row : Row} (h : row.eventType = reviewEvent) :
    reviewRows codec (rows ++ [row]) =
      reviewRows codec rows ++ [(row.source, parseObject codec row.payload)] := by
  unfold reviewRows
  rw [List.filter_append, List.map_append, List.filter_cons_of_pos (by simpa using h)]
  rfl

theorem recorded_concat {row : Row} (h : row.eventType = reviewEvent) :
    recorded codec (rows ++ [row]) = recorded codec rows := by
  have hevent : ¬ row.eventType = event := by
    rw [h]
    decide
  have hrows : classificationRows codec (rows ++ [row]) = classificationRows codec rows := by
    unfold classificationRows
    rw [List.filter_append, List.filter_cons_of_neg (by simpa using hevent), List.filter_nil,
      List.append_nil]
  unfold recorded validClassifications
  rw [hrows]

/-- What a call that returns has appended. -/
theorem recordReview_ok_iff {store store' : Store} (hdecision : decision ∈ decisions)
    (hreviewer : blank (text reviewer) = false) :
    recordReview codec store key decision reviewer note timestamp = .ok store' ↔
      ∃ found stored row, firstMatch codec key store.rows = .ok (some found) ∧
        (latestLiteralDecisions (reviewRows codec store.rows) (some (text key))).sanitize
          secretWords = some stored ∧ stored.encodable = true ∧
        row = { timestamp := timestamp
                symbol := found.symbol
                source := sourceName
                eventType := reviewEvent
                severity := if decision ∈ finalDecisions then "INFO" else "WARNING"
                payload := codec.dumps
                  (.obj (reviewPayload key decision reviewer note stored)) } ∧
        store' = ⟨store.rows ++ [row], some (summary codec (store.rows ++ [row]))⟩ := by
  unfold recordReview safeJson
  rw [if_neg (not_not.mpr hdecision), if_neg (by rw [hreviewer]; exact Bool.false_ne_true)]
  cases hmatch : firstMatch codec key store.rows with
  | error e => simp
  | ok found =>
    cases found with
    | none => simp
    | some found =>
      dsimp only
      rw [sanitize_reviewPayload]
      cases hstored : (latestLiteralDecisions (reviewRows codec store.rows)
          (some (text key))).sanitize secretWords with
      | none => simp
      | some stored =>
        simp only [Option.map_some, encodable_reviewPayload]
        by_cases hencodable : stored.encodable = true
        · simp only [hencodable, if_true, Except.ok.injEq, Option.some.injEq]
          constructor
          · rintro rfl
            exact ⟨found, stored, _, rfl, rfl, hencodable, rfl, rfl⟩
          · rintro ⟨found', stored', row, rfl, rfl, -, rfl, rfl⟩
            rfl
        · simp only [hencodable, if_false, reduceCtorEq, Option.some.injEq, false_iff]
          rintro ⟨found', stored', row, -, rfl, hstored', -⟩
          exact hencodable hstored'

/-- The appended review, as it is read back. -/
theorem parseObject_review {previous stored : PyJson F} (hkeyed : previous.keyed = true)
    (hstored : previous.sanitize secretWords = some stored) (hencodable : stored.encodable = true) :
    parseObject codec (codec.dumps (.obj (reviewPayload key decision reviewer note stored))) =
      some (reviewPayload key decision reviewer note stored) := by
  have hpayload : (PyJson.obj (reviewPayload key decision reviewer note previous)).sanitize
      secretWords = some (.obj (reviewPayload key decision reviewer note stored)) := by
    rw [sanitize_reviewPayload, hstored]
    rfl
  have hplain : (PyJson.obj (reviewPayload key decision reviewer note stored)).plain
      secretWords = true :=
    PyJson.plain_sanitize hpayload (by rw [encodable_reviewPayload, hencodable])
  exact parseObject_of_loads
    (codec.loads_dumps _ (PyJson.keyed_sanitize (keyed_reviewPayload hkeyed) hpayload) hplain)

/-- A call remedies a classified anomaly exactly when SQLite gets as far as a row of it and
the decision before it can be quoted. -/
theorem remedied_iff {store : Store}
    (hclassified : ∃ row ∈ store.rows, Classifies codec row (text key)) (hdecision : decision ∈ decisions)
    (hreviewer : blank (text reviewer) = false) :
    (∃ store', recordReview codec store key decision reviewer note timestamp = .ok store' ∧
        Remedied codec store.rows store'.rows key decision) ↔
      Found codec store.rows key ∧ Quotable codec store.rows key := by
  have hrecorded : text key ∈ recorded codec store.rows := mem_recorded.mpr hclassified
  have hkeyed : (latestLiteralDecisions (reviewRows codec store.rows)
      (some (text key))).keyed = true := keyed_latestLiteralDecisions store.rows (some (text key))
  have hstored := @PyJson.stored_eq_iff F codec.value secretWords _ hkeyed
  rw [quotable_iff, ← hstored, ← firstMatch_ok_iff]
  constructor
  · rintro ⟨store', hok, row', hrows, -, -, hlatest⟩
    obtain ⟨found, stored, row, hmatch, hstored, hencodable, hrow, rfl⟩ :=
      (recordReview_ok_iff hdecision hreviewer).mp hok
    refine ⟨⟨found, hmatch⟩, stored, hstored, hencodable, ?_⟩
    have hevent : row.eventType = reviewEvent := by rw [hrow]
    have hparse : parseObject codec row.payload =
        some (reviewPayload key decision reviewer note stored) := by
      rw [hrow]
      exact parseObject_review hkeyed hstored hencodable
    obtain ⟨before, review, hlast, -, hreasons⟩ := hlatest
    dsimp only at hlast hreasons
    rw [reviewRows_concat hevent, isLatest_concat, hparse] at hlast
    rw [recorded_concat hevent] at hreasons
    rcases hlast with ⟨-, rfl, rfl⟩ | ⟨hne, -⟩
    · have hsource : row.source = sourceName := by rw [hrow]
      rw [hsource, reviewReasons_reviewPayload hdecision hreviewer hrecorded] at hreasons
      simpa using errorIf_eq_nil.mp hreasons.symm
    · exact absurd rfl hne
  · rintro ⟨⟨found, hmatch⟩, stored, hstored, hencodable, heq⟩
    obtain ⟨row, hrow⟩ : ∃ row : Row, row =
      { timestamp := timestamp
        symbol := found.symbol
        source := sourceName
        eventType := reviewEvent
        severity := if decision ∈ finalDecisions then "INFO" else "WARNING"
        payload := codec.dumps (.obj (reviewPayload key decision reviewer note stored)) } :=
      ⟨_, rfl⟩
    have hevent : row.eventType = reviewEvent := by rw [hrow]
    have hsource : row.source = sourceName := by rw [hrow]
    have hparse : parseObject codec row.payload =
        some (reviewPayload key decision reviewer note stored) := by
      rw [hrow]
      exact parseObject_review hkeyed hstored hencodable
    refine ⟨_, (recordReview_ok_iff hdecision hreviewer).mpr
      ⟨found, stored, row, hmatch, hstored, hencodable, hrow, rfl⟩, row, rfl, hevent, ?_, ?_⟩
    · rw [hparse]
      rfl
    · dsimp only
      refine ⟨reviewRows codec store.rows, (row.source, parseObject codec row.payload), ?_, ?_, ?_⟩
      · rw [reviewRows_concat hevent]
        exact isLatest_concat.mpr (.inl ⟨by rw [hparse]; rfl, rfl, rfl⟩)
      · rw [hparse]
        rfl
      · rw [recorded_concat hevent, hparse, hsource,
          reviewReasons_reviewPayload hdecision hreviewer hrecorded, heq]
        rfl

end Remedy

/-- What `journal` writes is a valid classification. -/
theorem classificationErrors_fields {F : Type} (codec : Codec F) (r : Record F)
    (hid : text r.anomalyId ≠ []) (hsymbol : text r.symbol ≠ [])
    (htimeframe : text r.timeframe ≠ []) (hbar : text r.barStart ≠ []) :
    classificationErrors codec sourceName (some r.fields) = [] := by
  have hgetId : PyJson.get r.fields "anomaly_id" = .str (text r.anomalyId) := rfl
  have hgetKey : PyJson.get r.fields "review_key" = .str (text r.anomalyId) := rfl
  have hgetSymbol : PyJson.get r.fields "symbol" = .str (text r.symbol) := rfl
  have hgetTimeframe : PyJson.get r.fields "timeframe" = .str (text r.timeframe) := rfl
  have hgetBar : PyJson.get r.fields "bar_start" = .str (text r.barStart) := rfl
  have hgetMaterial : PyJson.get r.fields "material" = .bool r.material := rfl
  have hgetAffected : PyJson.get r.fields "affected" = .arr (r.affected.map Affected.toJson) := rfl
  have hsame : PyJson.eq codec.value (.str (text r.anomalyId) : PyJson F)
      (.str (text r.anomalyId)) = true := beq_self_eq_true (text r.anomalyId)
  have hfields : ["symbol", "timeframe", "bar_start"].flatMap (fun field =>
      errorIf (!nonempty (PyJson.get r.fields field)) (field ++ "_invalid")) = [] := by
    simp [hgetSymbol, hgetTimeframe, hgetBar, nonempty, hsymbol, htimeframe, hbar, errorIf]
  unfold classificationErrors
  dsimp only
  rw [hfields, hgetId, hgetKey, hgetMaterial, hgetAffected, hsame]
  simp [nonempty, hid, errorIf, PyJson.isBool, PyJson.isArr]

/-! ## Texts without fractions -/

/-- SQLite's reading of such a text. -/
def extractAnomalyId (payload : String) : Except String (Option String) :=
  match JsonText.loads payload with
  | none => .error "malformed JSON"
  | some (.obj fields) =>
      .ok (match fields.lookup "anomaly_id" with
        | some (.str s) => some s
        | _ => none)
  | some _ => .ok none

def jsonCodec : Codec Empty where
  value := fun x => nomatch x
  loads := PyJson.readText
  dumps := PyJson.writeText
  extract := extractAnomalyId
  loads_keyed := fun _ _ h => PyJson.keyed_of_readText h
  loads_dumps := fun _ hkeyed hplain => PyJson.readText_writeText hkeyed hplain

/-- A revision that no position cares about. -/
def revision : Record Empty where
  anomalyId := "a"
  symbol := "XAUUSD"
  timeframe := "1h"
  barStart := "2026-01-05T10:00:00+00:00"
  committed := none
  presented := none
  affected := []
  managedBy := "CATCH_UP"

theorem run_foreign {F : Type} (codec : Codec F) (rows : List Row) :
    (run codec (rows.map Step.foreign)).rows = rows := by
  have hfrom : ∀ store : Store,
      ((rows.map Step.foreign).foldl (step codec) store).rows = store.rows ++ rows := by
    induction rows with
    | nil => exact fun store => (List.append_nil _).symm
    | cons row rows ih =>
      intro store
      rw [List.map_cons, List.foldl_cons, ih]
      exact (List.append_cons _ _ _).symm
  exact hfrom {}

/-- Its row, as `journal` writes it. -/
def revisionRow : Row where
  timestamp := "2026-01-05T11:00:00+00:00"
  runId := some "run"
  symbol := some "XAUUSD"
  source := sourceName
  eventType := event
  severity := "INFO"
  payload := jsonCodec.dumps (.obj revision.fields)

/-- A row of the event whose payload is no JSON. -/
def brokenRow : Row where
  timestamp := "2026-01-05T09:00:00+00:00"
  symbol := none
  source := "other"
  eventType := event
  severity := "INFO"
  payload := "x"

theorem loads_revisionRow : jsonCodec.loads revisionRow.payload = some (.obj revision.fields) :=
  jsonCodec.loads_dumps _ (by decide) (by decide)

theorem revisionRow_classifies : Classifies jsonCodec revisionRow (text "a") := by
  have hparse : parseObject jsonCodec revisionRow.payload = some revision.fields :=
    parseObject_of_loads loads_revisionRow
  refine ⟨rfl, ?_, ?_⟩
  · rw [hparse]
    exact classificationErrors_fields jsonCodec revision (by decide) (by decide) (by decide)
      (by decide)
  · rw [hparse]
    rfl

theorem extractAnomalyId_of_loads {payload key : String} {fields : List (String × JsonText.Value)}
    (h : JsonText.loads payload = some (.obj fields))
    (hid : fields.lookup "anomaly_id" = some (.str key)) :
    extractAnomalyId payload = .ok (some key) := by
  unfold extractAnomalyId
  rw [h]
  dsimp only
  rw [hid]

theorem extract_revisionRow : jsonCodec.extract revisionRow.payload = .ok (some "a") := by
  have hlookup : (PyJson.toFields revision.fields).lookup "anomaly_id" = some (.str "a") := by
    unfold Record.fields PyJson.toFields
    rw [PyJson.ofText_text, List.lookup_cons_self, PyJson.toValue, PyJson.ofText_text]
    rfl
  have hloads : JsonText.loads revisionRow.payload = some (PyJson.toValue (.obj revision.fields)) :=
    JsonText.loads_dumps _
  have hextract : jsonCodec.extract = extractAnomalyId := rfl
  rw [PyJson.toValue] at hloads
  rw [hextract]
  exact extractAnomalyId_of_loads hloads hlookup

end MarketSystem.RevisionReview

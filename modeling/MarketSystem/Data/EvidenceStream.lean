import Mathlib.Data.List.Chain
import Mathlib.Data.List.Dedup
import Mathlib.Data.List.Sort
import Mathlib.Data.List.TakeWhile
import Mathlib.Data.Nat.Digits.Lemmas
import Mathlib.Logic.Equiv.Nat
import Mathlib.Tactic.Linarith
import MarketSystem.Data.EvidenceIngest

/-!
# The committed evidence is an append-only stream

Whatever is presented, in whatever order, and wherever an operation fails: a
stream only ever grows at its end, its rows are numbered from one, and two
consecutive bars are adjacent, or apart with the gap on record, or the later one
started inside the earlier one.
-/
namespace MarketSystem.EvidenceIngest

open Library Fallible EvidenceStore

/-! ## Sound databases -/

/-- How two consecutive bars of a stream may lie. Only bars off their grid overlap. -/
def Adjacent (db : EvidenceDb) (a b : EvidenceRow) : Prop :=
  b.payload.start = a.payload.end_ ∨
    (a.payload.end_ < b.payload.start ∧
      ∃ r ∈ db.anomalies, r.anomaly = gapBetween a.payload.start b.payload) ∨
    b.payload.start < a.payload.end_

structure Sound (h : Rendering) (db : EvidenceDb) : Prop where
  rows : ∀ r ∈ db.evidence, r.key = r.payload.key ∧ r.digest = h.digest r.payload.content
  seqs : ∀ symbol timeframe, (db.stream symbol timeframe).map EvidenceRow.streamSeq =
    List.range' 1 (db.stream symbol timeframe).length
  starts : ∀ symbol timeframe, (db.stream symbol timeframe).Pairwise
    (fun a b => a.payload.start < b.payload.start)
  adjacent : ∀ symbol timeframe, (db.stream symbol timeframe).IsChain (Adjacent db)
  anomalies : ∀ a ∈ db.anomalies,
    (∃ digest, a.anomalyId = h.anomalyId a.anomaly.kind a.anomaly.key digest) ∧
    (a.anomaly.kind = .gap → ∃ r ∈ db.evidence, r.key = a.anomaly.key)

/-- Distinct kinds and keys have distinct anomaly ids. -/
def Rendering.Distinct (h : Rendering) : Prop :=
  ∀ kind key digest kind' key' digest',
    h.anomalyId kind key digest = h.anomalyId kind' key' digest' → kind = kind' ∧ key = key'

/-- Rows are added at the end, anomalies are added. -/
structure Grows (db db' : EvidenceDb) : Prop where
  evidence : db.evidence.rows <+: db'.evidence.rows
  anomalies : ∀ a ∈ db.anomalies, a ∈ db'.anomalies

variable {h : Rendering} {db db' : EvidenceDb} {symbol : String} {timeframe : Timeframe}

theorem Grows.refl (db : EvidenceDb) : Grows db db := ⟨List.prefix_refl _, fun _ ha => ha⟩

theorem Grows.trans {a b c : EvidenceDb} (hab : Grows a b) (hbc : Grows b c) : Grows a c :=
  ⟨hab.evidence.trans hbc.evidence, fun r hr => hbc.anomalies r (hab.anomalies r hr)⟩

theorem Grows.stream (hg : Grows db db') (symbol : String) (timeframe : Timeframe) :
    db.stream symbol timeframe <+: db'.stream symbol timeframe :=
  hg.evidence.filter _

theorem sound_empty (h : Rendering) : Sound h .empty where
  rows := by simp [EvidenceDb.empty]
  seqs := by simp [EvidenceDb.empty, EvidenceDb.stream]
  starts := by simp [EvidenceDb.empty, EvidenceDb.stream]
  adjacent := by simp [EvidenceDb.empty, EvidenceDb.stream]
  anomalies := by simp [EvidenceDb.empty]

theorem Adjacent.mono {a b : EvidenceRow} (hsub : ∀ r ∈ db.anomalies, r ∈ db'.anomalies)
    (had : Adjacent db a b) : Adjacent db' a b := by
  rcases had with had | ⟨hlt, r, hr, hgap⟩ | had
  · exact .inl had
  · exact .inr (.inl ⟨hlt, r, hsub r hr, hgap⟩)
  · exact .inr (.inr had)

theorem Sound.ordered (hs : Sound h db) (symbol : String) (timeframe : Timeframe) :
    db.ordered symbol timeframe = db.stream symbol timeframe := by
  apply List.Pairwise.insertionSort_eq
  have hrange : (List.range' 1 (db.stream symbol timeframe).length).Pairwise (· ≤ ·) :=
    List.pairwise_le_range'
  rw [← hs.seqs symbol timeframe, List.pairwise_map] at hrange
  exact hrange

theorem Sound.top (hs : Sound h db) (symbol : String) (timeframe : Timeframe) :
    db.top symbol timeframe = (db.stream symbol timeframe).getLast? := by
  unfold EvidenceDb.top
  rw [hs.ordered]

theorem Sound.barStart (hs : Sound h db) {r : EvidenceRow} (hr : r ∈ db.stream symbol timeframe) :
    r.key = ⟨symbol, timeframe, r.payload.start⟩ := by
  obtain ⟨hmem, rfl, rfl⟩ := EvidenceDb.mem_stream.mp hr
  have hkey := (hs.rows r hmem).1
  rw [hkey]
  rfl

/-- The last row is numbered by the length of the stream. -/
theorem Sound.lastSeq (hs : Sound h db) {last : EvidenceRow}
    (hlast : (db.stream symbol timeframe).getLast? = some last) :
    last.streamSeq = (db.stream symbol timeframe).length := by
  obtain ⟨init, hinit⟩ := List.getLast?_eq_some_iff.mp hlast
  have hseqs := hs.seqs symbol timeframe
  rw [hinit] at hseqs ⊢
  rw [List.map_append, List.length_append, List.length_singleton, List.range'_concat] at hseqs
  have hsingle := (List.append_inj' hseqs (by simp)).2
  simp only [List.map_cons, List.map_nil, List.cons.injEq, and_true] at hsingle
  rw [hsingle, List.length_append, List.length_singleton]
  omega

theorem Sound.seq_le (hs : Sound h db) {r : EvidenceRow} (hr : r ∈ db.stream symbol timeframe) :
    r.streamSeq ≤ (db.stream symbol timeframe).length := by
  have hmem : r.streamSeq ∈ (db.stream symbol timeframe).map EvidenceRow.streamSeq :=
    List.mem_map_of_mem hr
  rw [hs.seqs, List.mem_range'_1] at hmem
  omega

theorem Sound.start_le (hs : Sound h db) {last r : EvidenceRow}
    (hlast : (db.stream symbol timeframe).getLast? = some last)
    (hr : r ∈ db.stream symbol timeframe) : r.payload.start ≤ last.payload.start := by
  obtain ⟨init, hinit⟩ := List.getLast?_eq_some_iff.mp hlast
  have hstarts := hs.starts symbol timeframe
  rw [hinit] at hr hstarts
  rcases List.mem_append.mp hr with hr | hr
  · exact le_of_lt ((List.pairwise_append.mp hstarts).2.2 r hr last (List.mem_singleton.mpr rfl))
  · rw [List.mem_singleton.mp hr]

/-! ## One unit -/

/-- A bar that was committed: a row at the end of its stream, and the gap before it. -/
structure Appended (h : Rendering) (bar : MarketBar) (gap : Option Anomaly) (db db' : EvidenceDb) :
    Prop where
  fresh : ∀ r ∈ db.evidence, r.key ≠ bar.key
  rows : db'.evidence.rows = db.evidence.rows ++
    [⟨bar.key, (db.stream bar.symbol bar.timeframe).length + 1, bar, h.digest bar.content⟩]
  after : ∀ r ∈ db.stream bar.symbol bar.timeframe, r.payload.start < bar.start
  apart : ∀ last, (db.stream bar.symbol bar.timeframe).getLast? = some last →
    gap = if last.payload.end_ < bar.start then some (gapBetween last.payload.start bar) else none
  first : db.stream bar.symbol bar.timeframe = [] → gap = none
  anomalies : db'.anomalies = (match gap with
    | none => db
    | some g => anomaly h bar g db).anomalies

/-- What a unit of work can do. -/
inductive Took (h : Rendering) (bar : MarketBar) (db : EvidenceDb) :
    Kind → Option Anomaly → EvidenceDb → Prop
  | duplicate {r : EvidenceRow} : r ∈ db.evidence → r.key = bar.key →
      r.digest = h.digest bar.content → Took h bar db .duplicate none db
  | revision {r : EvidenceRow} : r ∈ db.evidence → r.key = bar.key →
      r.digest ≠ h.digest bar.content → Took h bar db .revision none (anomaly h bar
        ⟨.revision, bar.key, .revision r.digest (h.digest bar.content) bar.provider⟩ db)
  | late {last : EvidenceRow} : (∀ r ∈ db.evidence, r.key ≠ bar.key) →
      (db.stream bar.symbol bar.timeframe).getLast? = some last →
      bar.start ≤ last.payload.start → Took h bar db .late none (anomaly h bar
        ⟨.late, bar.key, .late last.payload.start (h.digest bar.content)⟩ db)
  | committed {gap : Option Anomaly} {db' : EvidenceDb} : Appended h bar gap db db' →
      Took h bar db .committed gap db'

@[simp] theorem anomaly_evidence (h : Rendering) (bar : MarketBar) (a : Anomaly)
    (db : EvidenceDb) : (anomaly h bar a db).evidence = db.evidence := rfl

@[simp] theorem anomaly_stream (h : Rendering) (bar : MarketBar) (a : Anomaly) (db : EvidenceDb)
    (symbol : String) (timeframe : Timeframe) :
    (anomaly h bar a db).stream symbol timeframe = db.stream symbol timeframe := rfl

/-- Neither constraint of the table stands in the way of the next number. -/
theorem insertBar_ok (hs : Sound h db) (bar : MarketBar) (gap : Option Anomaly) (db₁ : EvidenceDb)
    (hevidence : db₁.evidence = db.evidence) (hfresh : ∀ r ∈ db.evidence, r.key ≠ bar.key) :
    ∃ db', insertBar h bar ((db.stream bar.symbol bar.timeframe).length + 1) gap db₁ =
        .ok ((.committed, gap), db') ∧ db'.anomalies = db₁.anomalies ∧
      db'.evidence.rows = db.evidence.rows ++
        [⟨bar.key, (db.stream bar.symbol bar.timeframe).length + 1, bar, h.digest bar.content⟩] := by
  have hstream : db₁.stream bar.key.symbol bar.key.timeframe =
      db.stream bar.symbol bar.timeframe := by
    unfold EvidenceDb.stream
    rw [hevidence]
    rfl
  unfold insertBar EvidenceDb.insertEvidence
  dsimp only
  rw [hstream, if_neg]
  · cases hinsert : db₁.evidence.insert? ⟨bar.key,
        (db.stream bar.symbol bar.timeframe).length + 1, bar, h.digest bar.content⟩ with
    | none =>
      obtain ⟨s, hmem, hkey⟩ := Table.insert?_eq_none.mp hinsert
      exact absurd hkey (hfresh s (hevidence ▸ hmem))
    | some t =>
      refine ⟨_, rfl, rfl, ?_⟩
      rw [(Table.rows_of_insert? hinsert).1, hevidence]
  · intro hany
    obtain ⟨r, hr, hseq⟩ := List.any_eq_true.mp hany
    have hle := hs.seq_le hr
    have hseq := of_decide_eq_true hseq
    omega

theorem commit_took (hs : Sound h db) (bar : MarketBar) :
    ∃ kind gap db', commit h bar db = .ok ((kind, gap), db') ∧ Took h bar db kind gap db' := by
  unfold commit
  cases hget : db.evidence.get? bar.key with
  | some r =>
    obtain ⟨hr, hkey⟩ := Table.get?_eq_some.mp hget
    dsimp only
    split_ifs with hdigest
    · exact ⟨_, _, _, rfl, .duplicate hr hkey hdigest⟩
    · exact ⟨_, _, _, rfl, .revision hr hkey hdigest⟩
  | none =>
    have hfresh : ∀ r ∈ db.evidence, r.key ≠ bar.key := Table.get?_eq_none.mp hget
    rw [hs.top]
    cases hlast : (db.stream bar.symbol bar.timeframe).getLast? with
    | none =>
      have hempty : db.stream bar.symbol bar.timeframe = [] := List.getLast?_eq_none_iff.mp hlast
      obtain ⟨db', hok, hanomalies, hrows⟩ := insertBar_ok hs bar none db rfl hfresh
      rw [hempty] at hok hrows
      refine ⟨_, _, db', hok, .committed ⟨hfresh, ?_, ?_, ?_, fun _ => rfl, hanomalies⟩⟩
      · rw [hempty]
        exact hrows
      · simp [hempty]
      · simp [hempty]
    | some last =>
      have hmem : last ∈ db.stream bar.symbol bar.timeframe := List.mem_of_getLast? hlast
      have hstart : last.key.barStart = last.payload.start := by rw [hs.barStart hmem]
      have htimeframe : last.payload.timeframe = bar.timeframe := by
        obtain ⟨hin, -, htf⟩ := EvidenceDb.mem_stream.mp hmem
        rw [(hs.rows last hin).1] at htf
        exact htf
      have hend : last.payload.end_ = last.payload.start + bar.timeframe.duration := by
        unfold MarketBar.end_
        rw [htimeframe]
      dsimp only
      rw [hstart, hs.lastSeq hlast]
      by_cases hlate : bar.start ≤ last.payload.start
      · rw [if_pos hlate]
        exact ⟨_, _, _, rfl, .late hfresh hlast hlate⟩
      rw [if_neg hlate]
      have hafter : ∀ r ∈ db.stream bar.symbol bar.timeframe, r.payload.start < bar.start :=
        fun r hr => (hs.start_le hlast hr).trans_lt (not_le.mp hlate)
      have hne : db.stream bar.symbol bar.timeframe ≠ [] := List.ne_nil_of_mem hmem
      rw [← hend]
      by_cases hgap : last.payload.end_ < bar.start
      · rw [if_pos hgap]
        obtain ⟨db', hok, hanomalies, hrows⟩ := insertBar_ok hs bar
          (some (gapBetween last.payload.start bar))
          (anomaly h bar (gapBetween last.payload.start bar) db) rfl hfresh
        refine ⟨_, _, db', hok, .committed ⟨hfresh, hrows, hafter, fun last' hlast' => ?_,
          fun hempty => absurd hempty hne, hanomalies⟩⟩
        cases hlast.symm.trans hlast'
        rw [if_pos hgap]
      · rw [if_neg hgap]
        obtain ⟨db', hok, hanomalies, hrows⟩ := insertBar_ok hs bar none db rfl hfresh
        refine ⟨_, _, db', hok, .committed ⟨hfresh, hrows, hafter, fun last' hlast' => ?_,
          fun hempty => absurd hempty hne, hanomalies⟩⟩
        cases hlast.symm.trans hlast'
        rw [if_neg hgap]

theorem anomaly_mono (h : Rendering) (bar : MarketBar) (a : Anomaly) (db : EvidenceDb) :
    Grows db (anomaly h bar a db) :=
  ⟨List.prefix_refl _, fun _ hr => EvidenceDb.mem_insertAnomaly.mpr (.inl hr)⟩

theorem Appended.grows {bar : MarketBar} {gap : Option Anomaly} (ha : Appended h bar gap db db') :
    Grows db db' := by
  refine ⟨by rw [ha.rows]; exact List.prefix_append _ _, fun r hr => ?_⟩
  rw [ha.anomalies]
  cases gap with
  | none => exact hr
  | some g => exact (anomaly_mono h bar g db).anomalies r hr

theorem Took.grows {bar : MarketBar} {kind : Kind} {gap : Option Anomaly}
    (ht : Took h bar db kind gap db') : Grows db db' := by
  cases ht with
  | duplicate _ _ _ => exact Grows.refl db
  | revision _ _ _ => exact anomaly_mono h bar _ db
  | late _ _ _ => exact anomaly_mono h bar _ db
  | committed ha => exact ha.grows

theorem Appended.stream_self {bar : MarketBar} {gap : Option Anomaly}
    (ha : Appended h bar gap db db') :
    db'.stream bar.symbol bar.timeframe = db.stream bar.symbol bar.timeframe ++
      [⟨bar.key, (db.stream bar.symbol bar.timeframe).length + 1, bar, h.digest bar.content⟩] := by
  unfold EvidenceDb.stream
  rw [ha.rows, List.filter_append]
  congr 1
  exact List.filter_cons_of_pos (by simp [MarketBar.key])

theorem Appended.stream_other {bar : MarketBar} {gap : Option Anomaly}
    (ha : Appended h bar gap db db') (hne : ¬ (bar.symbol = symbol ∧ bar.timeframe = timeframe)) :
    db'.stream symbol timeframe = db.stream symbol timeframe := by
  unfold EvidenceDb.stream
  rw [ha.rows, List.filter_append]
  simp only [List.filter_cons, MarketBar.key, hne, decide_false, Bool.false_eq_true, if_false,
    List.filter_nil, List.append_nil]

/-- Nothing recorded so far has the id of a gap before an uncommitted bar. -/
theorem Sound.gap_free (hs : Sound h db) (hd : h.Distinct) {bar : MarketBar}
    (hfresh : ∀ r ∈ db.evidence, r.key ≠ bar.key) {digest : String} :
    ∀ s ∈ db.anomalies, s.anomalyId ≠ h.anomalyId .gap bar.key digest := by
  intro s hmem hid
  obtain ⟨⟨digest', hid'⟩, howned⟩ := hs.anomalies s hmem
  obtain ⟨hkind, hkey⟩ := hd _ _ _ _ _ _ (hid'.symm.trans hid)
  obtain ⟨r, hr, hrkey⟩ := howned hkind
  exact hfresh r hr (hrkey.trans hkey)

theorem Appended.gap_recorded (hs : Sound h db) (hd : h.Distinct) {bar : MarketBar}
    {watermark : Instant} (ha : Appended h bar (some (gapBetween watermark bar)) db db') :
    ∃ r ∈ db'.anomalies, r.anomaly = gapBetween watermark bar := by
  rw [ha.anomalies]
  exact ⟨_, EvidenceDb.mem_insertAnomaly.mpr (.inr ⟨rfl, hs.gap_free hd ha.fresh⟩), rfl⟩

/-- The new row follows the last one as the theorem says. -/
theorem Appended.adjacent (hs : Sound h db) (hd : h.Distinct) {bar : MarketBar}
    {gap : Option Anomaly} (ha : Appended h bar gap db db') {last row : EvidenceRow}
    (hlast : (db.stream bar.symbol bar.timeframe).getLast? = some last)
    (hrow : row.payload = bar) : Adjacent db' last row := by
  have hgap := ha.apart last hlast
  unfold Adjacent
  rw [hrow]
  by_cases hapart : last.payload.end_ < bar.start
  · rw [if_pos hapart] at hgap
    subst hgap
    exact .inr (.inl ⟨hapart, ha.gap_recorded hs hd⟩)
  · rcases lt_or_eq_of_le (not_lt.mp hapart) with hlt | heq
    · exact .inr (.inr hlt)
    · exact .inl heq

theorem Sound.appended (hs : Sound h db) (hd : h.Distinct) {bar : MarketBar}
    {gap : Option Anomaly} (ha : Appended h bar gap db db') : Sound h db' where
  rows := by
    intro r hr
    rw [Table.mem_def, ha.rows, List.mem_append, List.mem_singleton] at hr
    rcases hr with hr | rfl
    · exact hs.rows r hr
    · exact ⟨rfl, rfl⟩
  seqs := by
    intro symbol timeframe
    by_cases hsame : bar.symbol = symbol ∧ bar.timeframe = timeframe
    · obtain ⟨rfl, rfl⟩ := hsame
      rw [ha.stream_self, List.map_append, hs.seqs, List.length_append, List.length_singleton,
        List.range'_concat]
      simp [Nat.add_comm]
    · rw [ha.stream_other hsame]
      exact hs.seqs symbol timeframe
  starts := by
    intro symbol timeframe
    by_cases hsame : bar.symbol = symbol ∧ bar.timeframe = timeframe
    · obtain ⟨rfl, rfl⟩ := hsame
      rw [ha.stream_self]
      refine List.pairwise_append.mpr ⟨hs.starts _ _, List.pairwise_singleton _ _, ?_⟩
      intro a hmem b hb
      rw [List.mem_singleton.mp hb]
      exact ha.after a hmem
    · rw [ha.stream_other hsame]
      exact hs.starts symbol timeframe
  adjacent := by
    intro symbol timeframe
    have hold : (db.stream symbol timeframe).IsChain (Adjacent db') :=
      (hs.adjacent symbol timeframe).imp fun a b hab => hab.mono ha.grows.anomalies
    by_cases hsame : bar.symbol = symbol ∧ bar.timeframe = timeframe
    · obtain ⟨rfl, rfl⟩ := hsame
      rw [ha.stream_self]
      refine hold.append (List.isChain_singleton _) fun last hlast row hrow => ?_
      have hrow : row.payload = bar := by
        rw [List.head?_cons, Option.mem_some_iff] at hrow
        rw [← hrow]
      exact ha.adjacent hs hd hlast hrow
    · rw [ha.stream_other hsame]
      exact hold
  anomalies := by
    have hmono : ∀ r ∈ db.evidence, r ∈ db'.evidence := fun r hr =>
      Table.mem_def.mpr (ha.grows.evidence.subset hr)
    have hold : ∀ s ∈ db.anomalies,
        (∃ digest, s.anomalyId = h.anomalyId s.anomaly.kind s.anomaly.key digest) ∧
        (s.anomaly.kind = .gap → ∃ r ∈ db'.evidence, r.key = s.anomaly.key) := by
      intro s hmem
      obtain ⟨hid, howned⟩ := hs.anomalies s hmem
      refine ⟨hid, fun hkind => ?_⟩
      obtain ⟨r, hr, hkey⟩ := howned hkind
      exact ⟨r, hmono r hr, hkey⟩
    intro s hmem
    rw [ha.anomalies] at hmem
    cases hgap : gap with
    | none =>
      rw [hgap] at hmem
      exact hold s hmem
    | some g =>
      rw [hgap] at hmem
      rcases EvidenceDb.mem_insertAnomaly.mp hmem with hmem | ⟨rfl, -⟩
      · exact hold s hmem
      · -- the gap is recorded together with its bar
        have hg : g.key = bar.key := by
          rcases hlast : (db.stream bar.symbol bar.timeframe).getLast? with _ | last
          · have := ha.first (List.getLast?_eq_none_iff.mp hlast)
            rw [hgap] at this
            cases this
          · have := ha.apart last hlast
            rw [hgap] at this
            split_ifs at this
            cases this
            rfl
        refine ⟨⟨h.digest bar.content, by rw [hg]⟩, fun _ =>
          ⟨⟨bar.key, (db.stream bar.symbol bar.timeframe).length + 1, bar, h.digest bar.content⟩,
            ?_, hg.symm⟩⟩
        rw [Table.mem_def, ha.rows]
        exact List.mem_append_right _ (List.mem_singleton.mpr rfl)

/-- An anomaly that is not a gap. -/
theorem Sound.anomaly (hs : Sound h db) (bar : MarketBar) {a : Anomaly} (hkey : a.key = bar.key)
    (hkind : a.kind ≠ .gap) : Sound h (anomaly h bar a db) where
  rows := hs.rows
  seqs := hs.seqs
  starts := hs.starts
  adjacent := fun symbol timeframe => (hs.adjacent symbol timeframe).imp
    fun _ _ hab => hab.mono (anomaly_mono h bar a db).anomalies
  anomalies := by
    intro s hmem
    rcases EvidenceDb.mem_insertAnomaly.mp hmem with hmem | ⟨rfl, -⟩
    · exact hs.anomalies s hmem
    · exact ⟨⟨_, by rw [hkey]⟩, fun hgap => absurd hgap hkind⟩

theorem Took.sound (hs : Sound h db) (hd : h.Distinct) {bar : MarketBar} {kind : Kind}
    {gap : Option Anomaly} (ht : Took h bar db kind gap db') : Sound h db' := by
  cases ht with
  | duplicate _ _ _ => exact hs
  | revision _ _ _ => exact hs.anomaly bar rfl (by simp)
  | late _ _ _ => exact hs.anomaly bar rfl (by simp)
  | committed ha => exact hs.appended hd ha

/-! ## Gaps are reported where they arise -/

/-- Every gap between rows that `db'` has and `db` had not, or not both, is in the list. -/
def GapsIn (db db' : EvidenceDb) (gaps : List Anomaly) : Prop :=
  ∀ symbol timeframe before a b after,
    db'.stream symbol timeframe = before ++ a :: b :: after →
    (db.stream symbol timeframe).length ≤ before.length + 1 →
    a.payload.end_ < b.payload.start → gapBetween a.payload.start b.payload ∈ gaps

theorem GapsIn.refl (db : EvidenceDb) : GapsIn db db [] := by
  intro symbol timeframe before a b after heq hlen _
  rw [heq] at hlen
  simp only [List.length_append, List.length_cons] at hlen
  omega

theorem GapsIn.trans {db₁ : EvidenceDb} {gaps gaps' : List Anomaly} (h₁ : GapsIn db db₁ gaps)
    (hg : Grows db₁ db') (h₂ : GapsIn db₁ db' gaps') : GapsIn db db' (gaps ++ gaps') := by
  intro symbol timeframe before a b after heq hlen hapart
  by_cases hnew : (db₁.stream symbol timeframe).length ≤ before.length + 1
  · exact List.mem_append_right _ (h₂ symbol timeframe before a b after heq hnew hapart)
  · -- both rows were there in between
    obtain ⟨rest, hrest⟩ := hg.stream symbol timeframe
    have hsplit : db₁.stream symbol timeframe ++ rest = (before ++ [a, b]) ++ after := by
      rw [hrest, heq]
      simp
    have hprefix : before ++ [a, b] <+: db₁.stream symbol timeframe := by
      refine List.prefix_of_prefix_length_le (List.prefix_append (before ++ [a, b]) after)
        (hsplit ▸ List.prefix_append _ _) ?_
      simp only [List.length_append, List.length_cons, List.length_nil]
      omega
    obtain ⟨tail, htail⟩ := hprefix
    exact List.mem_append_left _ (h₁ symbol timeframe before a b tail (by simp [← htail]) hlen hapart)

theorem GapsIn.same (hsame : ∀ symbol timeframe, db'.stream symbol timeframe =
    db.stream symbol timeframe) : GapsIn db db' [] := by
  intro symbol timeframe before a b after heq hlen hapart
  rw [hsame] at heq
  exact GapsIn.refl db symbol timeframe before a b after heq hlen hapart

theorem Appended.gapsIn {bar : MarketBar} {gap : Option Anomaly} (ha : Appended h bar gap db db') :
    GapsIn db db' gap.toList := by
  intro symbol timeframe before a b after heq hlen hapart
  by_cases hsame : bar.symbol = symbol ∧ bar.timeframe = timeframe
  · obtain ⟨rfl, rfl⟩ := hsame
    rw [ha.stream_self] at heq
    have hnil : after = [] := by
      have := congrArg List.length heq
      simp only [List.length_append, List.length_cons, List.length_nil] at this
      exact List.length_eq_zero_iff.mp (by omega)
    subst hnil
    have heq' : db.stream bar.symbol bar.timeframe ++ [⟨bar.key,
        (db.stream bar.symbol bar.timeframe).length + 1, bar, h.digest bar.content⟩] =
        (before ++ [a]) ++ [b] := by
      rw [heq]
      simp
    obtain ⟨hstream, hb⟩ := List.append_inj' heq' rfl
    have hlast : (db.stream bar.symbol bar.timeframe).getLast? = some a := by
      rw [hstream]
      exact List.getLast?_concat
    have hbar : b.payload = bar := by rw [← (List.cons.inj hb).1]
    rw [hbar] at hapart ⊢
    rw [ha.apart a hlast, if_pos hapart]
    exact List.mem_singleton.mpr rfl
  · rw [ha.stream_other hsame] at heq
    exact absurd (GapsIn.refl db symbol timeframe before a b after heq hlen hapart)
      List.not_mem_nil

theorem Took.gapsIn {bar : MarketBar} {kind : Kind} {gap : Option Anomaly}
    (ht : Took h bar db kind gap db') : GapsIn db db' gap.toList := by
  cases ht with
  | duplicate _ _ _ => exact GapsIn.refl db
  | revision _ _ _ => exact GapsIn.same fun _ _ => rfl
  | late _ _ _ => exact GapsIn.same fun _ _ => rfl
  | committed ha => exact ha.gapsIn

/-! ## One presentation -/

/-- A database that is sound and has only grown, by the same connection. -/
structure Goes (h : Rendering) (s s' : Store) : Prop where
  sound : Sound h s'.db
  grows : Grows s.db s'.db
  inBatch : s'.inBatch = s.inBatch

theorem Goes.trans {s s₁ s' : Store} (h₁ : Goes h s s₁) (h₂ : Goes h s₁ s') : Goes h s s' :=
  ⟨h₂.sound, h₁.grows.trans h₂.grows, h₂.inBatch.trans h₁.inBatch⟩

theorem Goes.refl {s : Store} (hs : Sound h s.db) : Goes h s s := ⟨hs, Grows.refl _, rfl⟩

theorem transaction_ensures (hd : h.Distinct) {s : Store} (hs : Sound h s.db) (bar : MarketBar) :
    (transaction (commit h bar)).Ensures s (fun r s' => Goes h s s' ∧
      (∀ e, r = .error e → s' = s) ∧
      ∀ kind gap, r = .ok (kind, gap) → Took h bar s.db kind gap s'.db) := by
  have hsame : ∀ e : String, Goes h s s ∧
      (∀ e', (.error e : Except String (Kind × Option Anomaly)) = .error e' → s = s) ∧
      ∀ kind gap, (.error e : Except String (Kind × Option Anomaly)) = .ok (kind, gap) →
        Took h bar s.db kind gap s.db := fun e => ⟨Goes.refl hs, fun _ _ => rfl, by simp⟩
  have hunit : (work (commit h bar)).Ensures s (fun r s' => Goes h s s' ∧
      (∀ e, r = .error e → s' = s) ∧
      ∀ kind gap, r = .ok (kind, gap) → Took h bar s.db kind gap s'.db) := by
    obtain ⟨kind, gap, db', hok, htook⟩ := commit_took hs bar
    refine ensures_access_bind (hsame _) ?_
    rw [hok]
    refine ensures_ofExcept ⟨⟨htook.sound hs hd, htook.grows, rfl⟩, by simp,
      fun kind' gap' heq => ?_⟩
    cases heq
    exact htook
  refine ensures_get_bind ?_
  by_cases hbatch : s.inBatch = true
  · rw [if_pos hbatch]
    exact ensures_access_bind (hsame _) hunit
  · rw [if_neg hbatch]
    exact hunit

/-- What became of bars of one stream that were taken one after the other. -/
structure AllTaken (symbol : String) (timeframe : Timeframe) (bars : List MarketBar)
    (taken : List Taken) (db db' : EvidenceDb) : Prop where
  bars : taken.map Taken.bar = bars
  committed : (db'.stream symbol timeframe).map EvidenceRow.payload =
    (db.stream symbol timeframe).map EvidenceRow.payload ++ outcome taken .committed
  others : ∀ symbol' timeframe', ¬ (symbol = symbol' ∧ timeframe = timeframe') →
    db'.stream symbol' timeframe' = db.stream symbol' timeframe'
  gaps : GapsIn db db' (taken.filterMap Taken.gap)

theorem Took.payloads {bar : MarketBar} {kind : Kind} {gap : Option Anomaly}
    (ht : Took h bar db kind gap db') :
    (db'.stream bar.symbol bar.timeframe).map EvidenceRow.payload =
      (db.stream bar.symbol bar.timeframe).map EvidenceRow.payload ++
        if kind = .committed then [bar] else [] := by
  cases ht with
  | duplicate _ _ _ => simp
  | revision _ _ _ => simp
  | late _ _ _ => simp
  | committed ha =>
    rw [ha.stream_self, List.map_append]
    simp

theorem Took.others {bar : MarketBar} {kind : Kind} {gap : Option Anomaly}
    (ht : Took h bar db kind gap db')
    (hne : ¬ (bar.symbol = symbol ∧ bar.timeframe = timeframe)) :
    db'.stream symbol timeframe = db.stream symbol timeframe := by
  cases ht with
  | duplicate _ _ _ => rfl
  | revision _ _ _ => rfl
  | late _ _ _ => rfl
  | committed ha => exact ha.stream_other hne

theorem commitAll_ensures (hd : h.Distinct) {bars : List MarketBar} {s : Store}
    (hs : Sound h s.db) (hbars : ∀ b ∈ bars, b.symbol = symbol ∧ b.timeframe = timeframe) :
    (commitAll h bars).Ensures s (fun r s' => Goes h s s' ∧
      ∀ taken, r = .ok taken → AllTaken symbol timeframe bars taken s.db s'.db) := by
  induction bars generalizing s with
  | nil =>
    refine ensures_pure ⟨Goes.refl hs, fun taken heq => ?_⟩
    cases heq
    exact ⟨rfl, by simp [outcome], fun _ _ _ => rfl, GapsIn.refl _⟩
  | cons bar rest ih =>
    refine Ensures.bind ((transaction_ensures hd hs bar).mono fun r s₁ hr => ?_)
    obtain ⟨hgoes, -, htook⟩ := hr
    cases r with
    | error e => exact ⟨hgoes, by simp⟩
    | ok done =>
      obtain ⟨kind, gap⟩ := done
      have htook := htook kind gap rfl
      rw [returns_ok]
      refine Ensures.bind ((ih hgoes.sound
        (fun b hb => hbars b (List.mem_cons_of_mem _ hb))).mono fun r s' hr => ?_)
      obtain ⟨hgoes', hall⟩ := hr
      cases r with
      | error e => exact ⟨hgoes.trans hgoes', by simp⟩
      | ok taken =>
        have hall := hall taken rfl
        obtain ⟨rfl, rfl⟩ := hbars bar List.mem_cons_self
        refine ensures_pure ⟨hgoes.trans hgoes', fun taken' heq => ?_⟩
        cases heq
        refine ⟨by simp [hall.bars], ?_, fun symbol' timeframe' hne => ?_, ?_⟩
        · rw [hall.committed, htook.payloads, List.append_assoc]
          congr 1
          by_cases hk : kind = .committed
          · simp [outcome, hk]
          · simp [outcome, hk]
        · rw [hall.others symbol' timeframe' hne, htook.others hne]
        · have htrans := htook.gapsIn.trans hgoes'.grows hall.gaps
          cases gap with
          | none => exact htrans
          | some g => exact htrans

/-- The bars of a presentation, each once. -/
theorem collect_ok {unique bars all : List MarketBar}
    (hok : collect h symbol timeframe unique bars = .ok all)
    (hstream : ∀ b ∈ unique, b.symbol = symbol ∧ b.timeframe = timeframe)
    (hnodup : (unique.map MarketBar.start).Nodup) :
    (∀ b, b ∈ all ↔ b ∈ unique ∨ b ∈ bars) ∧
      (∀ b ∈ all, b.symbol = symbol ∧ b.timeframe = timeframe) ∧
      (all.map MarketBar.start).Nodup := by
  induction bars generalizing unique with
  | nil =>
    cases hok
    exact ⟨by simp, hstream, hnodup⟩
  | cons bar rest ih =>
    unfold collect at hok
    by_cases hbelongs : bar.symbol = symbol ∧ bar.timeframe = timeframe
    · rw [if_neg (not_not.mpr hbelongs)] at hok
      cases hfind : unique.find? (fun b => b.key = bar.key) with
      | none =>
        rw [hfind] at hok
        have hnew : ∀ b ∈ unique, b.start ≠ bar.start := by
          intro b hb hstart
          have hdiffers := List.find?_eq_none.mp hfind b hb
          refine hdiffers (decide_eq_true ?_)
          unfold MarketBar.key
          rw [(hstream b hb).1, (hstream b hb).2, hbelongs.1, hbelongs.2, hstart]
        obtain ⟨hmem, hall⟩ := ih hok
          (fun b hb => by
            rcases List.mem_append.mp hb with hb | hb
            · exact hstream b hb
            · rw [List.mem_singleton.mp hb]
              exact hbelongs)
          (by
            rw [List.map_append]
            refine List.nodup_append'.mpr ⟨hnodup, by simp, ?_⟩
            simpa [List.disjoint_singleton] using hnew)
        refine ⟨fun b => ?_, hall⟩
        rw [hmem b, List.mem_append, List.mem_singleton, List.mem_cons, or_assoc]
      | some b₀ =>
        rw [hfind] at hok
        dsimp only at hok
        by_cases hsame : b₀ = bar
        · subst hsame
          rw [if_neg (not_not.mpr rfl)] at hok
          have hmem₀ : b₀ ∈ unique := List.mem_of_find?_eq_some hfind
          obtain ⟨hmem, hall⟩ := ih hok hstream hnodup
          refine ⟨fun b => ?_, hall⟩
          rw [hmem b, List.mem_cons]
          constructor
          · rintro (hb | hb)
            · exact .inl hb
            · exact .inr (.inr hb)
          · rintro (hb | rfl | hb)
            · exact .inl hb
            · exact .inl hmem₀
            · exact .inr hb
        · rw [if_pos hsame] at hok
          cases hok
    · rw [if_pos hbelongs] at hok
      cases hok

/-- Every bar that was taken is of one kind. -/
theorem outcome_perm (taken : List Taken) :
    (outcome taken .committed ++ outcome taken .duplicate ++ outcome taken .late ++
      outcome taken .revision).Perm (taken.map Taken.bar) := by
  refine List.perm_iff_count.mpr fun b => ?_
  induction taken with
  | nil => simp [outcome]
  | cons t taken ih =>
    obtain ⟨bar, kind, gap⟩ := t
    simp only [List.count_append, outcome] at ih ⊢
    cases kind <;> simp [List.count_cons] <;> omega

/-- What a completed ingest says about the bars presented, and what it did. -/
structure Reported (p : Presentation) (db : EvidenceDb) (r : IngestResult) (db' : EvidenceDb) :
    Prop where
  partition : (r.committed.map MarketBar.start ++ r.duplicates ++ r.held ++ r.late ++
    r.revisions).Perm (p.bars.map MarketBar.start).dedup
  committed : (db'.stream p.symbol p.timeframe).map EvidenceRow.payload =
    (db.stream p.symbol p.timeframe).map EvidenceRow.payload ++ r.committed
  others : ∀ symbol timeframe, ¬ (p.symbol = symbol ∧ p.timeframe = timeframe) →
    db'.stream symbol timeframe = db.stream symbol timeframe
  gaps : GapsIn db db' r.gaps

theorem ingest_ensures (hd : h.Distinct) (enabledSymbols : List String) (p : Presentation)
    {s : Store} (hs : Sound h s.db) :
    (ingest h enabledSymbols p).Ensures s (fun r s' => Goes h s s' ∧
      ∀ result, r = .ok result → Reported p s.db result s'.db) := by
  unfold ingest
  by_cases henabled : p.symbol ∉ enabledSymbols
  · rw [if_pos henabled]
    exact ensures_raise ⟨Goes.refl hs, by simp⟩
  rw [if_neg henabled]
  refine Ensures.bind (ensures_ofExcept ?_)
  cases hcollect : collect h p.symbol p.timeframe [] p.bars with
  | error e => exact ⟨Goes.refl hs, by simp⟩
  | ok unique =>
    obtain ⟨hmem, hstream, hnodup⟩ := collect_ok hcollect (by simp) (by simp)
    rw [returns_ok]
    set ordered := unique.insertionSort ByStart with hordered
    have hperm : ordered.Perm unique := List.perm_insertionSort _ _
    have hsplit : ordered.takeWhile (fun bar => bar.closedAt p.asOf) ++
        ordered.dropWhile (fun bar => bar.closedAt p.asOf) = ordered :=
      List.takeWhile_append_dropWhile
    refine Ensures.bind ((commitAll_ensures hd hs (fun b hb => hstream b (hperm.mem_iff.mp
      (hsplit ▸ List.mem_append_left _ hb)))).mono fun r s' hr => ?_)
    obtain ⟨hgoes, hall⟩ := hr
    cases r with
    | error e => exact ⟨hgoes, by simp⟩
    | ok taken =>
      have hall := hall taken rfl
      refine ensures_access_bind ⟨hgoes, by simp⟩ (ensures_pure ⟨hgoes, fun result heq => ?_⟩)
      cases heq
      refine ⟨?_, hall.committed, hall.others, hall.gaps⟩
      have hunique : (unique.map MarketBar.start).Perm (p.bars.map MarketBar.start).dedup := by
        refine (List.perm_ext_iff_of_nodup hnodup (List.nodup_dedup _)).mpr fun t => ?_
        rw [List.mem_dedup, List.mem_map, List.mem_map]
        simp [hmem]
      refine List.Perm.trans ?_ hunique
      have hkinds := (outcome_perm taken).map MarketBar.start
      rw [hall.bars] at hkinds
      have hparts := (hperm.map MarketBar.start).symm
      rw [← hsplit, List.map_append] at hparts
      refine List.Perm.trans ?_ hparts.symm
      simp only [IngestResult.of, List.map_append] at hkinds ⊢
      refine List.Perm.trans ?_ (hkinds.append_right _)
      simp only [List.append_assoc]
      refine List.Perm.append_left _ (List.Perm.append_left _ ?_)
      rw [← List.append_assoc ((outcome taken .late).map MarketBar.start)]
      exact List.perm_append_comm

/-! ## Operations -/

/-- Completed ingests one after the other. -/
inductive ReportedAll : List Presentation → EvidenceDb → List IngestResult → EvidenceDb → Prop
  | nil {db : EvidenceDb} : ReportedAll [] db [] db
  | cons {p : Presentation} {db db₁ db' : EvidenceDb} {r : IngestResult}
      {ps : List Presentation} {rs : List IngestResult} : Reported p db r db₁ →
      Grows db₁ db' → ReportedAll ps db₁ rs db' → ReportedAll (p :: ps) db (r :: rs) db'

theorem ReportedAll.gapsIn {ps : List Presentation} {rs : List IngestResult}
    (hr : ReportedAll ps db rs db') : GapsIn db db' (rs.flatMap IngestResult.gaps) := by
  induction hr with
  | nil => exact GapsIn.refl _
  | cons hfirst hgrows _ ih =>
    rw [List.flatMap_cons]
    exact hfirst.gaps.trans hgrows ih

theorem ingestAll_ensures (hd : h.Distinct) (enabledSymbols : List String)
    (ps : List Presentation) {s : Store} (hs : Sound h s.db) :
    (ingestAll h enabledSymbols ps).Ensures s (fun r s' => Goes h s s' ∧
      ∀ results, r = .ok results → ReportedAll ps s.db results s'.db) := by
  induction ps generalizing s with
  | nil =>
    refine ensures_pure ⟨Goes.refl hs, fun results heq => ?_⟩
    cases heq
    exact .nil
  | cons p ps ih =>
    refine Ensures.bind ((ingest_ensures hd enabledSymbols p hs).mono fun r s₁ hr => ?_)
    obtain ⟨hgoes, hreported⟩ := hr
    cases r with
    | error e => exact ⟨hgoes, by simp⟩
    | ok result =>
      rw [returns_ok]
      refine Ensures.bind ((ih hgoes.sound).mono fun r s' hr => ?_)
      obtain ⟨hgoes', hall⟩ := hr
      cases r with
      | error e => exact ⟨hgoes.trans hgoes', by simp⟩
      | ok results =>
        refine ensures_pure ⟨hgoes.trans hgoes', fun results' heq => ?_⟩
        cases heq
        exact .cons (hreported result rfl) hgoes'.grows (hall results rfl)

/-- A batch does what its body did, some of it, or nothing. -/
theorem batch_ensures {α : Type} {body : M α} {P : α → EvidenceDb → Prop} {s : Store}
    (hs : Sound h s.db)
    (hbody : body.Ensures { s with inBatch := true } (fun r s' => Sound h s'.db ∧
      Grows s.db s'.db ∧ ∀ a, r = .ok a → P a s'.db)) :
    (batch body).Ensures s (fun r s' => Sound h s'.db ∧ Grows s.db s'.db ∧
      ∀ a, r = .ok a → P a s'.db) := by
  have hnothing : ∀ e : String, Sound h s.db ∧ Grows s.db s.db ∧
      ∀ a, (.error e : Except String α) = .ok a → P a s.db :=
    fun e => ⟨hs, Grows.refl _, by simp⟩
  refine ensures_access_bind (hnothing _) (Ensures.attempt_bind (hbody.mono fun r s' hr => ?_))
  obtain ⟨hsound, hgrows, hP⟩ := hr
  unfold close
  refine ensures_modify_bind ?_
  cases r with
  | ok a =>
    refine Ensures.attempt_bind (ensures_access ?_ ?_)
    · exact ensures_modify_bind (ensures_raise (hnothing _))
    · exact ensures_ofExcept ⟨hsound, hgrows, hP⟩
  | error e =>
    dsimp only
    split_ifs
    · refine Ensures.attempt_bind (ensures_access ?_ ?_)
      · exact ensures_modify_bind (ensures_raise (hnothing _))
      · exact ensures_raise ⟨hsound, hgrows, by simp⟩
    · exact ensures_modify_bind (ensures_raise (hnothing _))

def Operation.presentations : Operation → List Presentation
  | ingest ps => ps
  | batch ps => ps

theorem operation_ensures (hd : h.Distinct) (enabledSymbols : List String) (op : Operation)
    (hs : Sound h db) :
    (op.program h enabledSymbols).Ensures ⟨db, false⟩ (fun r s' => Sound h s'.db ∧
      Grows db s'.db ∧
      ∀ results, r = .ok results → ReportedAll op.presentations db results s'.db) := by
  cases op with
  | ingest ps =>
    refine (ingestAll_ensures hd enabledSymbols ps (s := ⟨db, false⟩) hs).mono fun r s' hr => ?_
    exact ⟨hr.1.sound, hr.1.grows, hr.2⟩
  | batch ps =>
    refine batch_ensures (s := ⟨db, false⟩) hs ?_
    refine (ingestAll_ensures hd enabledSymbols ps (s := ⟨db, true⟩) hs).mono fun r s' hr => ?_
    exact ⟨hr.1.sound, hr.1.grows, hr.2⟩

/-! ## Windows of a complete series -/

/-- A series of closed bars of one stream, each starting where the one before ends. -/
structure Complete (symbol : String) (timeframe : Timeframe) (series : List MarketBar) : Prop where
  stream : ∀ b ∈ series, b.symbol = symbol ∧ b.timeframe = timeframe
  chain : series.IsChain (fun a b => b.start = a.end_)

theorem start_lt_end (bar : MarketBar) : bar.start < bar.end_ := by
  unfold MarketBar.end_
  cases bar.timeframe <;> simp [Timeframe.duration]

variable {series : List MarketBar}

theorem Complete.increasing (hc : Complete symbol timeframe series) :
    series.Pairwise (fun a b => a.start < b.start) := by
  have hchain : (series.map MarketBar.start).IsChain (· < ·) := by
    refine (List.isChain_map _).mpr (hc.chain.imp fun a b (hab : b.start = a.end_) => ?_)
    rw [hab]
    exact start_lt_end a
  exact List.pairwise_map.mp (List.isChain_iff_pairwise.mp hchain)

/-- The bars a stream holds. -/
def heldBars (db : EvidenceDb) (symbol : String) (timeframe : Timeframe) : List MarketBar :=
  (db.stream symbol timeframe).map EvidenceRow.payload

/-- The next bar of a series is committed, an earlier one changes nothing. -/
theorem Took.held (hc : Complete symbol timeframe series) (hs : Sound h db) {m i : ℕ}
    (hheld : heldBars db symbol timeframe = series.take m) (hi : i ≤ m) (hlt : i < series.length)
    {kind : Kind} {gap : Option Anomaly} (ht : Took h series[i] db kind gap db') :
    heldBars db' symbol timeframe = series.take (max m (i + 1)) := by
  obtain ⟨hsymbol, htimeframe⟩ := hc.stream series[i] (List.getElem_mem hlt)
  have hpayloads := ht.payloads
  rw [hsymbol, htimeframe] at hpayloads
  have hincreasing := List.pairwise_iff_getElem.mp hc.increasing
  -- rows of the stream are bars of the series
  have hrow : ∀ r ∈ db.stream symbol timeframe, ∃ j, ∃ hj : j < series.length, j < m ∧
      r.payload = series[j] := by
    intro r hr
    have hmem : r.payload ∈ series.take m := hheld ▸ List.mem_map_of_mem hr
    obtain ⟨j, hj, heq⟩ := List.mem_take_iff_getElem.mp hmem
    exact ⟨j, by omega, by omega, heq.symm⟩
  unfold heldBars at hheld ⊢
  rcases Nat.lt_or_eq_of_le hi with hold | rfl
  · -- it is there already
    have hmem : series[i] ∈ (db.stream symbol timeframe).map EvidenceRow.payload := by
      rw [hheld]
      exact List.mem_take_iff_getElem.mpr ⟨i, by omega, rfl⟩
    obtain ⟨r, hr, hpayload⟩ := List.mem_map.mp hmem
    have hin := (EvidenceDb.mem_stream.mp hr).1
    have hkey : r.key = series[i].key := by rw [(hs.rows r hin).1, hpayload]
    have hnot : kind ≠ .committed := by
      rintro rfl
      cases ht with
      | committed ha => exact ha.fresh r hin hkey
    rw [hpayloads, if_neg hnot, List.append_nil, hheld, max_eq_left (by omega)]
  · -- it is the next one
    have hbefore : ∀ r ∈ db.stream symbol timeframe, r.payload.start < series[i].start := by
      intro r hr
      obtain ⟨j, hj, hjm, heq⟩ := hrow r hr
      rw [heq]
      exact hincreasing j i hj hlt hjm
    have hfresh : ∀ r ∈ db.evidence, r.key ≠ series[i].key := by
      intro r hr hkey
      have hin : r ∈ db.stream symbol timeframe := by
        refine EvidenceDb.mem_stream.mpr ⟨hr, ?_, ?_⟩
        · rw [hkey]
          exact hsymbol
        · rw [hkey]
          exact htimeframe
      have hlt := hbefore r hin
      have hstart := congrArg Key.barStart hkey
      rw [hs.barStart hin] at hstart
      exact absurd hstart (ne_of_lt hlt)
    have hkind : kind = .committed := by
      cases ht with
      | duplicate hr hkey _ => exact absurd hkey (hfresh _ hr)
      | revision hr hkey _ => exact absurd hkey (hfresh _ hr)
      | late _ hlast hle =>
        rw [hsymbol, htimeframe] at hlast
        exact absurd (hbefore _ (List.mem_of_getLast? hlast)) (not_lt.mpr hle)
      | committed _ => rfl
    rw [hpayloads, if_pos hkind, hheld, max_eq_right (by omega), List.take_add_one,
      List.getElem?_eq_getElem hlt]
    rfl

/-- As much of a window as was taken is in the stream, after what was there. -/
theorem commitAll_series (hd : h.Distinct) (hc : Complete symbol timeframe series) {hi : ℕ}
    {bars : List MarketBar} {i m : ℕ} {s : Store} (hs : Sound h s.db)
    (hbars : (series.take hi).drop i = bars) (him : i ≤ m) (hm : m ≤ series.length)
    (hheld : heldBars s.db symbol timeframe = series.take m) :
    (commitAll h bars).Ensures s (fun r s' => ∃ m', m ≤ m' ∧ m' ≤ series.length ∧
      heldBars s'.db symbol timeframe = series.take m' ∧
      ∀ taken, r = .ok taken → min hi series.length ≤ m') := by
  induction bars generalizing i m s with
  | nil =>
    refine ensures_pure ⟨m, le_refl _, hm, hheld, fun taken _ => ?_⟩
    have hlen := congrArg List.length hbars
    rw [List.length_drop, List.length_take, List.length_nil] at hlen
    omega
  | cons bar rest ih =>
    have hlen : i < hi ∧ i < series.length := by
      have := congrArg List.length hbars
      rw [List.length_drop, List.length_take, List.length_cons] at this
      omega
    have hcut : i < (series.take hi).length := by
      rw [List.length_take]
      omega
    rw [List.drop_eq_getElem_cons hcut, List.getElem_take] at hbars
    obtain ⟨hbar, hrest⟩ := List.cons.inj hbars
    refine Ensures.bind ((transaction_ensures hd hs bar).mono fun r s₁ hr => ?_)
    obtain ⟨hgoes, hfailed, htook⟩ := hr
    cases r with
    | error e =>
      rw [hfailed e rfl]
      exact ⟨m, le_refl _, hm, hheld, by simp⟩
    | ok done =>
      obtain ⟨kind, gap⟩ := done
      have htook := htook kind gap rfl
      rw [← hbar] at htook
      have hheld₁ := htook.held hc hs hheld him hlen.2
      rw [returns_ok]
      refine Ensures.bind ((ih (m := max m (i + 1)) hgoes.sound hrest (by omega) (by omega)
        hheld₁).mono
        fun r s' hr => ?_)
      obtain ⟨m', hle, hbound, hheld', hdone⟩ := hr
      cases r with
      | error e => exact ⟨m', by omega, hbound, hheld', by simp⟩
      | ok taken => exact ensures_pure ⟨m', by omega, hbound, hheld', fun _ _ => hdone taken rfl⟩

/-- A window of a series, presented in any order once its bars are closed. -/
structure Window (symbol : String) (timeframe : Timeframe) (series : List MarketBar) (lo hi : ℕ)
    (p : Presentation) : Prop where
  symbol : p.symbol = symbol
  timeframe : p.timeframe = timeframe
  bars : ∀ b, b ∈ p.bars ↔ b ∈ (series.take hi).drop lo
  closed : ∀ b ∈ p.bars, b.closedAt p.asOf = true

/-- Sorting what was collected gives the window back. -/
theorem Window.sorted (hc : Complete symbol timeframe series) {lo hi : ℕ} {p : Presentation}
    (hw : Window symbol timeframe series lo hi p) {unique : List MarketBar}
    (hmem : ∀ b, b ∈ unique ↔ b ∈ p.bars) (hnodup : (unique.map MarketBar.start).Nodup) :
    unique.insertionSort ByStart = (series.take hi).drop lo := by
  have hincreasing : ((series.take hi).drop lo).Pairwise (fun a b => a.start < b.start) :=
    hc.increasing.sublist ((List.drop_sublist lo _).trans (List.take_sublist hi series))
  have hperm : unique.Perm ((series.take hi).drop lo) := by
    refine (List.perm_ext_iff_of_nodup hnodup.of_map ?_).mpr fun b => ?_
    · exact hincreasing.imp fun {a b} hab heq => absurd (heq ▸ hab) (lt_irrefl _)
    · rw [hmem, hw.bars]
  have htotal : Std.Total ByStart := ⟨fun a b => le_total a.start b.start⟩
  have htrans : IsTrans MarketBar ByStart := ⟨fun _ _ _ => le_trans⟩
  have hsorted := List.pairwise_insertionSort ByStart unique
  refine List.Perm.eq_of_pairwise (fun a b ha hb hab hba => ?_) hsorted
    (hincreasing.imp fun {a b} hab => le_of_lt hab)
    ((List.perm_insertionSort _ _).trans hperm)
  refine List.inj_on_of_nodup_map hnodup ?_ ?_ (le_antisymm hab hba)
  · exact (List.mem_insertionSort _).mp ha
  · exact hperm.mem_iff.mpr hb

theorem ingest_series (hd : h.Distinct) (hc : Complete symbol timeframe series)
    (enabledSymbols : List String) {lo hi m : ℕ} {p : Presentation}
    (hw : Window symbol timeframe series lo hi p) {s : Store} (hs : Sound h s.db) (hlo : lo ≤ m)
    (hm : m ≤ series.length) (hheld : heldBars s.db symbol timeframe = series.take m) :
    (ingest h enabledSymbols p).Ensures s (fun r s' => ∃ m', m ≤ m' ∧ m' ≤ series.length ∧
      heldBars s'.db symbol timeframe = series.take m' ∧
      ∀ result, r = .ok result → min hi series.length ≤ m') := by
  unfold ingest
  by_cases henabled : p.symbol ∉ enabledSymbols
  · rw [if_pos henabled]
    exact ensures_raise ⟨m, le_refl _, hm, hheld, by simp⟩
  rw [if_neg henabled]
  refine Ensures.bind (ensures_ofExcept ?_)
  cases hcollect : collect h p.symbol p.timeframe [] p.bars with
  | error e => exact ⟨m, le_refl _, hm, hheld, by simp⟩
  | ok unique =>
    obtain ⟨hmem, -, hnodup⟩ := collect_ok hcollect (by simp) (by simp)
    have hsorted := hw.sorted hc (by simpa using hmem) hnodup
    have heligible : (unique.insertionSort ByStart).takeWhile
        (fun bar => bar.closedAt p.asOf) = (series.take hi).drop lo := by
      rw [hsorted]
      exact List.takeWhile_eq_self_iff.mpr fun b hb => hw.closed b ((hw.bars b).mpr hb)
    rw [returns_ok]
    refine Ensures.bind ((commitAll_series hd hc hs heligible.symm hlo hm hheld).mono
      fun r s' hr => ?_)
    obtain ⟨m', hle, hbound, hheld', hdone⟩ := hr
    cases r with
    | error e => exact ⟨m', hle, hbound, hheld', by simp⟩
    | ok taken =>
      exact ensures_access_bind ⟨m', hle, hbound, hheld', by simp⟩
        (ensures_pure ⟨m', hle, hbound, hheld', fun _ _ => hdone taken rfl⟩)

/-- Two sound streams of the same bars are the same rows. -/
theorem stream_eq {h' : EvidenceDb} (hs : Sound h db) (hs' : Sound h h')
    (hbars : heldBars db symbol timeframe = heldBars h' symbol timeframe) :
    db.stream symbol timeframe = h'.stream symbol timeframe := by
  have hlen := congrArg List.length hbars
  unfold heldBars at hbars hlen
  rw [List.length_map, List.length_map] at hlen
  refine List.ext_getElem hlen fun i hi hi' => ?_
  have hpayload : ((db.stream symbol timeframe)[i]).payload =
      ((h'.stream symbol timeframe)[i]).payload := by
    have := List.getElem_of_eq hbars (by simpa using hi)
    simpa using this
  have hseq : ((db.stream symbol timeframe)[i]).streamSeq =
      ((h'.stream symbol timeframe)[i]).streamSeq := by
    have h₁ := List.getElem_of_eq (hs.seqs symbol timeframe) (by simpa using hi)
    have h₂ := List.getElem_of_eq (hs'.seqs symbol timeframe) (by simpa using hi')
    rw [List.getElem_map, List.getElem_range'] at h₁ h₂
    rw [h₁, h₂]
  obtain ⟨hmem, -, -⟩ := EvidenceDb.mem_stream.mp (List.getElem_mem hi)
  obtain ⟨hmem', -, -⟩ := EvidenceDb.mem_stream.mp (List.getElem_mem hi')
  obtain ⟨hkey, hdigest⟩ := hs.rows _ hmem
  obtain ⟨hkey', hdigest'⟩ := hs'.rows _ hmem'
  generalize (db.stream symbol timeframe)[i] = r at *
  generalize (h'.stream symbol timeframe)[i] = r' at *
  obtain ⟨key, seq, payload, digest⟩ := r
  obtain ⟨key', seq', payload', digest'⟩ := r'
  simp_all

/-! ## Runs -/

theorem perform_cons (h : Rendering) (enabledSymbols : List String) (fails : ℕ → Bool)
    (op : Operation) (ops : List Operation) (n : ℕ) (db : EvidenceDb) :
    let r := (op.program h enabledSymbols).run fails (n, ⟨db, false⟩)
    perform h enabledSymbols fails (op :: ops) (n, db) =
      ⟨op, db, r.1, r.2.2.db⟩ :: perform h enabledSymbols fails ops (r.2.1, r.2.2.db) := rfl

/-- What holds of every operation of a run. -/
structure StepSpec (h : Rendering) (step : Performed) : Prop where
  before : Sound h step.before
  after : Sound h step.after
  grows : Grows step.before step.after
  reported : ∀ results, step.outcome = .ok results →
    ReportedAll step.operation.presentations step.before results step.after

theorem perform_spec (hd : h.Distinct) (enabledSymbols : List String) (fails : ℕ → Bool)
    (ops : List Operation) {n : ℕ} (hs : Sound h db) :
    (∀ step ∈ perform h enabledSymbols fails ops (n, db),
      StepSpec h step ∧ Grows db step.before) ∧
    (perform h enabledSymbols fails ops (n, db)).Pairwise (fun a b => Grows a.after b.before) := by
  induction ops generalizing n db with
  | nil => simp [perform]
  | cons op ops ih =>
    have hop := @Ensures.run _ _ _ fails ((n, ⟨db, false⟩) : ℕ × Store) _
      (operation_ensures hd enabledSymbols op hs)
    rw [perform_cons]
    generalize (op.program h enabledSymbols).run fails (n, ⟨db, false⟩) = r at hop
    obtain ⟨hsound, hgrows, hreported⟩ := hop
    obtain ⟨hsteps, hpairwise⟩ := @ih r.2.2.db r.2.1 hsound
    refine ⟨fun step hstep => ?_, List.pairwise_cons.mpr ⟨fun b hb => (hsteps b hb).2, hpairwise⟩⟩
    rcases List.mem_cons.mp hstep with rfl | hstep
    · exact ⟨⟨hs, hsound, hgrows, hreported⟩, Grows.refl _⟩
    · obtain ⟨hspec, hbefore⟩ := hsteps step hstep
      exact ⟨hspec, hgrows.trans hbefore⟩

/-- An operation that presents a window overlapping what its stream holds, or continuing it. -/
structure Shows (symbol : String) (timeframe : Timeframe) (series : List MarketBar) (hi : ℕ)
    (step : Performed) : Prop where
  window : ∃ p lo, step.operation = .ingest [p] ∧ Window symbol timeframe series lo hi p ∧
    lo ≤ (step.before.stream symbol timeframe).length

theorem perform_series (hd : h.Distinct) (hc : Complete symbol timeframe series)
    (enabledSymbols : List String) (fails : ℕ → Bool) (ops : List Operation) {n m : ℕ}
    (hs : Sound h db) (hm : m ≤ series.length)
    (hheld : heldBars db symbol timeframe = series.take m)
    (hshows : ∀ step ∈ perform h enabledSymbols fails ops (n, db),
      ∃ hi, Shows symbol timeframe series hi step) :
    ∀ step ∈ perform h enabledSymbols fails ops (n, db), ∃ m', m' ≤ series.length ∧
      heldBars step.after symbol timeframe = series.take m' ∧
      ∀ hi results, Shows symbol timeframe series hi step → step.outcome = .ok results →
        min hi series.length ≤ m' := by
  induction ops generalizing n db m with
  | nil => simp [perform]
  | cons op ops ih =>
    have hop := @Ensures.run _ _ _ fails ((n, ⟨db, false⟩) : ℕ × Store) _
      (operation_ensures hd enabledSymbols op hs)
    have hwindow : ∀ lo hi p, op = .ingest [p] → Window symbol timeframe series lo hi p →
        lo ≤ (db.stream symbol timeframe).length →
        ∃ m', m ≤ m' ∧ m' ≤ series.length ∧
          heldBars ((op.program h enabledSymbols).run fails (n, ⟨db, false⟩)).2.2.db symbol
            timeframe = series.take m' ∧
          ∀ results, ((op.program h enabledSymbols).run fails (n, ⟨db, false⟩)).1 = .ok results →
            min hi series.length ≤ m' := by
      rintro lo hi p rfl hw hlo
      refine @Ensures.run _ _ _ fails ((n, ⟨db, false⟩) : ℕ × Store) (fun r s' => ∃ m', m ≤ m' ∧
        m' ≤ series.length ∧ heldBars s'.db symbol timeframe = series.take m' ∧
        ∀ results, r = .ok results → min hi series.length ≤ m') ?_
      have hlo : lo ≤ m := by
        have hlen := congrArg List.length hheld
        unfold heldBars at hlen
        rw [List.length_map, List.length_take] at hlen
        omega
      refine Ensures.bind ((ingest_series hd hc enabledSymbols hw hs hlo hm hheld).mono
        fun r s' hr => ?_)
      obtain ⟨m', hle, hbound, hheld', hdone⟩ := hr
      cases r with
      | error e => exact ⟨m', hle, hbound, hheld', by simp⟩
      | ok result =>
        exact Ensures.bind (ensures_pure
          (ensures_pure ⟨m', hle, hbound, hheld', fun _ _ => hdone result rfl⟩))
    rw [perform_cons] at hshows ⊢
    generalize (op.program h enabledSymbols).run fails (n, ⟨db, false⟩) = r at hop hwindow hshows ⊢
    obtain ⟨hi₀, ⟨p₀, lo₀, hop₀, hw₀, hlo₀⟩⟩ := hshows _ List.mem_cons_self
    obtain ⟨m₁, -, hbound, hheld₁, -⟩ := hwindow lo₀ hi₀ p₀ hop₀ hw₀ hlo₀
    intro step hstep
    rcases List.mem_cons.mp hstep with rfl | hstep
    · refine ⟨m₁, hbound, hheld₁, fun hi results hshow hok => ?_⟩
      obtain ⟨p, lo, hop', hw, hlo⟩ := hshow
      obtain ⟨m₂, -, hbound₂, hheld₂, hdone⟩ := hwindow lo hi p hop' hw hlo
      have hsame := congrArg List.length (hheld₁.symm.trans hheld₂)
      rw [List.length_take, List.length_take] at hsame
      have := hdone results hok
      omega
    · exact @ih r.2.2.db r.2.1 m₁ hop.1 hbound hheld₁
        (fun step hstep => hshows step (List.mem_cons_of_mem _ hstep)) step hstep

/-- Two bars of one stream that start a whole number of durations apart do not overlap. -/
theorem Sound.on_grid (hs : Sound h db) {before after : List EvidenceRow} {a b : EvidenceRow}
    (hstream : db.stream symbol timeframe = before ++ a :: b :: after)
    (hgrid : timeframe.duration ∣ b.payload.start - a.payload.start) :
    a.payload.end_ ≤ b.payload.start := by
  have hlt : a.payload.start < b.payload.start := by
    have hstarts := hs.starts symbol timeframe
    rw [hstream] at hstarts
    exact (List.pairwise_cons.mp (List.pairwise_append.mp hstarts).2.1).1 b List.mem_cons_self
  have htimeframe : a.payload.timeframe = timeframe := by
    have hmem : a ∈ db.stream symbol timeframe := by
      rw [hstream]
      exact List.mem_append_right _ List.mem_cons_self
    obtain ⟨hin, -, htf⟩ := EvidenceDb.mem_stream.mp hmem
    rw [(hs.rows a hin).1] at htf
    exact htf
  unfold MarketBar.end_
  rw [htimeframe]
  have hle : timeframe.duration ≤ b.payload.start - a.payload.start :=
    Int.le_of_dvd (sub_pos.mpr hlt) hgrid
  linarith

def kindLetter : AnomalyKind → Char
  | .gap => 'G'
  | .late => 'L'
  | .revision => 'R'

def timeframeLetter : Timeframe → Char
  | .h1 => 'h'
  | .m15 => 'q'
  | .m5 => 'm'

/-- An instant as a natural number, in binary. -/
def binary (t : Instant) : List Char :=
  (Equiv.intEquivNat t).bits.map (fun b => if b then '1' else '0')

theorem binary_injective : Function.Injective binary := by
  intro s t hst
  have hbits : (Equiv.intEquivNat s).bits = (Equiv.intEquivNat t).bits := by
    refine List.map_injective_iff.mpr (fun a b hab => ?_) hst
    cases a <;> cases b <;> simp_all
  apply Equiv.intEquivNat.injective
  apply Nat.digits.injective 2
  rw [Nat.digits_two_eq_bits, Nat.digits_two_eq_bits, hbits]

/-- An id in which kind and key can be read. -/
def plainId (kind : AnomalyKind) (key : Key) (_ : String) : String :=
  String.ofList (kindLetter kind :: timeframeLetter key.timeframe ::
    (binary key.barStart ++ '|' :: key.symbol.toList))

def plainRendering : Rendering := ⟨fun _ => "", plainId, fun _ => ""⟩

theorem plainRendering_distinct : plainRendering.Distinct := by
  have hcut : ∀ t (rest : List Char),
      (binary t ++ '|' :: rest).takeWhile (fun c => c ≠ '|') = binary t := by
    intro t rest
    rw [List.takeWhile_append_of_pos]
    · simp
    · intro c hc
      obtain ⟨b, -, rfl⟩ := List.mem_map.mp hc
      cases b <;> decide
  intro kind key _ kind' key' _ hid
  obtain ⟨symbol, timeframe, start⟩ := key
  obtain ⟨symbol', timeframe', start'⟩ := key'
  have hid := String.ofList_injective hid
  obtain ⟨hkind, hid⟩ := List.cons.inj hid
  obtain ⟨htimeframe, hid⟩ := List.cons.inj hid
  have hstart : binary start = binary start' := by
    rw [← hcut start symbol.toList, ← hcut start' symbol'.toList]
    exact congrArg _ hid
  have hsymbol : symbol.toList = symbol'.toList := by
    have htail := hid
    dsimp only at htail
    rw [hstart] at htail
    exact (List.cons.inj (List.append_cancel_left htail)).2
  have hkind : kind = kind' := by cases kind <;> cases kind' <;> simp_all [kindLetter]
  have htimeframe : timeframe = timeframe' := by
    cases timeframe <;> cases timeframe' <;> simp_all [timeframeLetter]
  refine ⟨hkind, ?_⟩
  rw [htimeframe, binary_injective hstart, String.toList_injective hsymbol]

/-- A quiet bar that has closed. -/
def closedBar (start : Instant) : MarketBar where
  symbol := "XAUUSD"
  timeframe := .m5
  start := start
  open_ := 100
  high := 101
  low := 99
  close := 100
  isClosed := true
  positive := by norm_num
  coherent := by norm_num

def presented (bars : List MarketBar) : Presentation := ⟨"XAUUSD", .m5, bars, 3600000000⟩

def sampleSeries : List MarketBar := [closedBar 0, closedBar 300000000, closedBar 600000000]

/-- Two overlapping windows, the later one out of order. -/
def sampleOps : List Operation :=
  [.ingest [presented (sampleSeries.take 2)],
    .ingest [presented [closedBar 600000000, closedBar 300000000]]]

def never (_ : ℕ) : Bool := false

theorem complete_sampleSeries : Complete "XAUUSD" .m5 sampleSeries where
  stream := by
    intro b hb
    simp only [sampleSeries, List.mem_cons, List.not_mem_nil, or_false] at hb
    rcases hb with rfl | rfl | rfl <;> exact ⟨rfl, rfl⟩
  chain := by
    simp [sampleSeries, closedBar, MarketBar.end_, Timeframe.duration]

theorem window_presented {lo hi : ℕ} {bars : List MarketBar}
    (hbars : ∀ b, b ∈ bars ↔ b ∈ (sampleSeries.take hi).drop lo) :
    Window "XAUUSD" .m5 sampleSeries lo hi (presented bars) where
  symbol := rfl
  timeframe := rfl
  bars := hbars
  closed := by
    intro b hb
    have hmem : b ∈ sampleSeries :=
      List.mem_of_mem_take (List.mem_of_mem_drop ((hbars b).mp hb))
    simp only [sampleSeries, List.mem_cons, List.not_mem_nil, or_false] at hmem
    rcases hmem with rfl | rfl | rfl <;> rfl

end MarketSystem.EvidenceIngest

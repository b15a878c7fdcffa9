import MarketSystem.Execution.Contracts
import MarketSystem.Library.SortedView

/-!
# What the scouts read and report

Each scout takes the raw frame of a timeframe and filters it itself: the bars up to the
cut-off that are closed. A bar without a number in a column that the scout needs is
dropped. A report is a message with a status and, when there is something to say, a
payload.
-/
namespace MarketSystem.Scouts

open Library

inductive AgentStatus
  | ok
  | partialData
  | noData
  | error
  deriving DecidableEq, Repr

/-- `AgentMessage`, with the payload that `evidence[0]` holds. -/
structure AgentMessage (π : Type) where
  runId : String
  timestamp : Instant
  symbol : String
  timeframe : String
  status : AgentStatus
  evidence : Option π := none
  warnings : List String := []
  deriving DecidableEq

/-- `AUTHORIZED_TIMEFRAMES`. -/
def AUTHORIZED_TIMEFRAMES : List String := ["1h", "15m", "5m"]

/-- A row of a frame. A cell that is no finite number is `none`. -/
structure Row where
  timestamp : Instant
  «open» : Option ℚ
  high : Option ℚ
  low : Option ℚ
  close : Option ℚ
  isClosed : Bool
  deriving DecidableEq

/-- A frame in whatever order its rows came. -/
structure Frame where
  columns : List String
  rows : List Row

/-- `index.has_duplicates` is false. -/
abbrev Frame.Unique (frame : Frame) : Prop := (frame.rows.map Row.timestamp).Nodup

/-- The rows that a cut-off lets through: not after it, and closed where a column says so. -/
def Frame.visible (frame : Frame) (asOf : Instant) (row : Row) : Bool :=
  decide (row.timestamp ≤ asOf) && (decide ("is_closed" ∉ frame.columns) || row.isClosed)

/-- `sort_index`, `mask_hasta_as_of` and the filter on `is_closed`. -/
def Frame.closedRows (frame : Frame) (asOf : Instant) : List Row :=
  sortedView Row.timestamp (frame.visible asOf) frame.rows

/-- `_closed_frame`: what a scout sees of a frame, as bars of its own kind. -/
def closedFrame {β : Type} (required : List String) (bar : Row → Option β)
    (frame : Option Frame) (asOf : Instant) : Option (List β) :=
  match frame with
  | none => none
  | some frame =>
      if frame.rows = [] then none
      else if ¬frame.Unique then none
      else if ¬∀ column ∈ required, column ∈ frame.columns then none
      else
        match (frame.closedRows asOf).filterMap bar with
        | [] => none
        | bars => some bars

/-! ## Two frames that agree -/

/-- The frames carry `is_closed`, no timestamp repeats, and the bars that are closed by the
cut-off are the same, with the same columns. Nothing is said about the others. -/
structure Agree (asOf : Instant) (frame frame' : Frame) : Prop where
  carries : "is_closed" ∈ frame.columns
  carries' : "is_closed" ∈ frame'.columns
  unique : frame.Unique
  unique' : frame'.Unique
  bars : ∀ row : Row, row.timestamp ≤ asOf → row.isClosed = true →
    (row ∈ frame.rows ↔ row ∈ frame'.rows)
  columns : ∀ row ∈ frame.rows, row.timestamp ≤ asOf → row.isClosed = true →
    frame.columns = frame'.columns

variable {asOf : Instant} {frame frame' : Frame}

theorem visible_of_carries (h : "is_closed" ∈ frame.columns) (row : Row) :
    frame.visible asOf row = (decide (row.timestamp ≤ asOf) && row.isClosed) := by
  simp [Frame.visible, h]

theorem mem_closedRows (h : "is_closed" ∈ frame.columns) {row : Row} :
    row ∈ frame.closedRows asOf ↔
      row ∈ frame.rows ∧ row.timestamp ≤ asOf ∧ row.isClosed = true := by
  rw [Frame.closedRows, mem_sortedView, visible_of_carries h, Bool.and_eq_true,
    decide_eq_true_eq]

/-- The cut-off lets the same bars through in the same order. -/
theorem Agree.closedRows_eq (h : Agree asOf frame frame') :
    frame.closedRows asOf = frame'.closedRows asOf := by
  have hvisible : frame.visible asOf = frame'.visible asOf := by
    funext row
    rw [visible_of_carries h.carries, visible_of_carries h.carries']
  unfold Frame.closedRows
  rw [← hvisible]
  refine sortedView_eq h.unique h.unique' fun row hrow => ?_
  rw [visible_of_carries h.carries, Bool.and_eq_true, decide_eq_true_eq] at hrow
  exact h.bars row hrow.1 hrow.2

/-- Where the cut-off lets a bar through, the columns are the same. -/
theorem Agree.columns_eq (h : Agree asOf frame frame') (hrows : frame.closedRows asOf ≠ []) :
    frame.columns = frame'.columns := by
  obtain ⟨row, hrow⟩ := List.exists_mem_of_ne_nil _ hrows
  obtain ⟨hmem, htime, hclosed⟩ := (mem_closedRows h.carries).mp hrow
  exact h.columns row hmem htime hclosed

theorem closedRows_nil (h : frame.rows = []) : frame.closedRows asOf = [] := by
  rw [Frame.closedRows, h]
  rfl

/-- A frame without visible bars shows nothing, one with them shows their numbers. -/
theorem closedFrame_some {β : Type} {required : List String} {bar : Row → Option β}
    (h : frame.Unique) : closedFrame required bar (some frame) asOf =
      if ∀ column ∈ required, column ∈ frame.columns then
        match (frame.closedRows asOf).filterMap bar with
        | [] => none
        | bars => some bars
      else none := by
  unfold closedFrame
  dsimp only
  rw [if_neg (not_not.mpr h)]
  by_cases hrows : frame.rows = []
  · simp [hrows, closedRows_nil hrows]
  · rw [if_neg hrows]
    by_cases hcolumns : ∀ column ∈ required, column ∈ frame.columns
    · rw [if_neg (not_not.mpr hcolumns), if_pos hcolumns]
    · rw [if_pos hcolumns, if_neg hcolumns]

/-- No scout can tell the two frames apart. -/
theorem Agree.closedFrame_eq {β : Type} (h : Agree asOf frame frame') (required : List String)
    (bar : Row → Option β) :
    closedFrame required bar (some frame) asOf = closedFrame required bar (some frame') asOf := by
  rw [closedFrame_some h.unique, closedFrame_some h.unique', ← h.closedRows_eq]
  by_cases hrows : frame.closedRows asOf = []
  · simp [hrows]
  · rw [h.columns_eq hrows]

end MarketSystem.Scouts

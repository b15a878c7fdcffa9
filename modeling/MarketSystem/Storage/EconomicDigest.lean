import MarketSystem.Library.JsonText
import Mathlib.Order.WithBot

/-!
# The economic digest

`economic_digest` names the persisted PAPER state by a hash: `edg` that of every row of the
five PAPER tables, `psh` that of the tuple which the compare-and-swap of a save compares.
Each is a hash of a text that determines what was hashed. SHA-256 of the UTF-8 bytes of a
text is a parameter: it must not collide on the texts that are hashed.

The cells of the five tables are TEXT or NULL, so no REAL and no BLOB reaches `cj`.
-/
namespace MarketSystem.EconomicDigest

open Library Library.JsonText

/-- `EDG_TABLES`: every table with its primary key. -/
def edgTables : List (String × String) :=
  [("paper_accounts", "account_id"), ("paper_orders", "order_id"), ("paper_fills", "fill_id"),
    ("paper_positions", "position_id"), ("closed_trades", "trade_id")]

def edgVersion : ℕ := 1

def pshPrefix : String := "V2PAPER/STATE/1"

def edgTablePrefix : String := "V2ECON/TABLE/1"

def edgStatePrefix : String := "V2ECON/STATE/1"

/-- Canonical JSON. -/
def cj (v : Value) : String := dumps (sortKeys v)

/-- What `H` hashes. -/
def hashed (domain text : String) : String := domain ++ "\n" ++ text

/-- `H`. -/
def digestOf (sha256 : String → String) (domain text : String) : String :=
  sha256 (hashed domain text)

/-! ## Tables -/

/-- A TEXT, or NULL, which sorts first. -/
abbrev Cell := Option String

/-- A table as it is stored: the rows in any order. -/
structure TextTable where
  columns : List String
  rows : List (List Cell)

/-- A row as a dictionary. -/
abbrev Row := List (String × Cell)

namespace TextTable

/-- `dict(zip(columns, row))`. -/
def row (t : TextTable) (cells : List Cell) : Row := t.columns.zip cells

/-- What a row is sorted by. -/
def keyOf (t : TextTable) (key : String) (cells : List Cell) : WithBot String :=
  ((t.row cells).lookup key).getD none

/-- `SELECT * ... ORDER BY key COLLATE BINARY`, as dictionaries. -/
def select (t : TextTable) (key : String) : List Row :=
  (sortedView (t.keyOf key) (fun _ => true) t.rows).map t.row

/-- The rows, each as the function of a column that it is. -/
def rowSet (t : TextTable) : Set (String → Option Cell) :=
  {f | ∃ cells ∈ t.rows, f = fun column => (t.row cells).lookup column}

/-- No column repeats, every row has a cell for each column, and `key` is a column whose
cells do not repeat. -/
structure KeyedBy (t : TextTable) (key : String) : Prop where
  columns : t.columns.Nodup
  key_mem : key ∈ t.columns
  width : ∀ cells ∈ t.rows, cells.length = t.columns.length
  keys : (t.rows.map (t.keyOf key)).Nodup

end TextTable

/-- A database whose five PAPER tables are there with their primary keys. -/
structure TradingDatabase where
  tables : String → Option TextTable
  economic : ∀ name key, (name, key) ∈ edgTables → ∃ t, tables name = some t ∧ t.KeyedBy key

/-- The rows of a table. -/
def TradingDatabase.rowSet (db : TradingDatabase) (name : String) : Set (String → Option Cell) :=
  match db.tables name with
  | some t => t.rowSet
  | none => ∅

/-- `_read_tables`. -/
def readTables (tables : String → Option TextTable) :
    List (String × String) → Except String (List (String × List Row))
  | [] => .ok []
  | (name, key) :: rest =>
      match tables name with
      | none => .error ("economic table missing: " ++ name)
      | some t =>
          if key ∉ t.columns then
            .error ("economic table " ++ name ++ " lacks its primary key " ++ key)
          else
            match readTables tables rest with
            | .ok read => .ok ((name, t.select key) :: read)
            | .error e => .error e

/-! ## Digests -/

def cellValue : Cell → Value
  | none => .null
  | some text => .str text

def rowValue (row : Row) : Value := .obj (row.map (fun c => (c.1, cellValue c.2)))

/-- The text of a table. -/
def tableText (name : String) (rows : List Row) : String :=
  name ++ "\n" ++ toString rows.length ++ "\n" ++
    "\n".intercalate (rows.map (fun r => cj (rowValue r)))

def tableDigest (sha256 : String → String) (name : String) (rows : List Row) : String :=
  digestOf sha256 edgTablePrefix (tableText name rows)

/-- The text of the summary: every table with its count and digest. -/
def stateText (sha256 : String → String) (read : List (String × List Row)) : String :=
  cj (.arr (read.map (fun t =>
    .arr [.str t.1, .int t.2.length, .str (tableDigest sha256 t.1 t.2)])))

structure Evidence where
  edgVersion : ℕ
  edg : String
  /-- Every table with its count and digest. -/
  tables : List (String × ℕ × String)
  deriving DecidableEq

/-- `_digest`. -/
def digest (sha256 : String → String) (read : List (String × List Row)) : Evidence where
  edgVersion := edgVersion
  edg := digestOf sha256 edgStatePrefix (stateText sha256 read)
  tables := read.map (fun t => (t.1, t.2.length, tableDigest sha256 t.1 t.2))

/-- `edg`, of the one snapshot that its transaction reads. -/
def edg (sha256 : String → String) (tables : String → Option TextTable) :
    Except String Evidence :=
  match readTables tables edgTables with
  | .ok read => .ok (digest sha256 read)
  | .error e => .error e

/-- The tuple that `Store.paper_state` returns: encoded objects, the groups sorted. -/
structure StateTuple where
  account : Option String
  openPositions : List String
  closedTrades : List String
  orders : List String
  fills : List String
  deriving DecidableEq

/-- `list(state)`. -/
def StateTuple.value (s : StateTuple) : Value :=
  .arr [cellValue s.account, .arr (s.openPositions.map .str), .arr (s.closedTrades.map .str),
    .arr (s.orders.map .str), .arr (s.fills.map .str)]

def psh (sha256 : String → String) (s : StateTuple) : String :=
  digestOf sha256 pshPrefix (cj s.value)

/-! ## What a text determines -/

theorem hashed_inj {domain a b : String} : hashed domain a = hashed domain b ↔ a = b := by
  unfold hashed
  rw [String.append_right_inj]

theorem sortKeys_cellValue (c : Cell) : sortKeys (cellValue c) = cellValue c := by
  cases c <;> rfl

theorem cellValue_injective : Function.Injective cellValue := by
  intro c d h
  cases c <;> cases d <;> simp_all [cellValue]

theorem sortKeys_rowValue (row : Row) :
    sortKeys (rowValue row) = .obj (sortFields (row.map (fun c => (c.1, cellValue c.2)))) := by
  unfold rowValue
  rw [sortKeys, sortKeysFields_eq]
  intro f hf
  obtain ⟨c, -, rfl⟩ := List.mem_map.mp hf
  exact sortKeys_cellValue c.2

/-- The canonical value of a row is the row as a function of the column. -/
theorem sortKeys_rowValue_eq_iff {row row' : Row} (hnodup : (row.map Prod.fst).Nodup)
    (hnodup' : (row'.map Prod.fst).Nodup) :
    sortKeys (rowValue row) = sortKeys (rowValue row') ↔
      (fun column => row.lookup column) = fun column => row'.lookup column := by
  have hinjective : Function.Injective fun c : String × Cell => (c.1, cellValue c.2) := by
    rintro ⟨k, c⟩ ⟨k', c'⟩ h
    obtain ⟨hk, hc⟩ := Prod.mk.injEq .. ▸ h
    exact Prod.ext hk (cellValue_injective hc)
  rw [sortKeys_rowValue, sortKeys_rowValue, Value.obj.injEq, lookup_eq_iff hnodup hnodup']
  unfold sortFields
  rw [sortedView_eq_iff (by rwa [List.map_map]) (by rwa [List.map_map])]
  constructor
  · intro h c
    have hc := h (c.1, cellValue c.2)
    rwa [List.mem_map_of_injective hinjective, List.mem_map_of_injective hinjective] at hc
  · intro h e
    simp only [List.mem_map, h]

namespace TextTable

variable {t t' : TextTable} {key : String}

/-- The canonical value of a row. -/
def canonical (t : TextTable) (cells : List Cell) : Value := sortKeys (rowValue (t.row cells))

theorem KeyedBy.row_nodup (ht : t.KeyedBy key) {cells : List Cell} (hcells : cells ∈ t.rows) :
    ((t.row cells).map Prod.fst).Nodup := by
  unfold row
  rw [List.map_fst_zip (ht.width cells hcells).ge]
  exact ht.columns

theorem canonical_eq_iff (ht : t.KeyedBy key) (ht' : t'.KeyedBy key) {cells cells' : List Cell}
    (hcells : cells ∈ t.rows) (hcells' : cells' ∈ t'.rows) :
    t.canonical cells = t'.canonical cells' ↔
      (fun column => (t.row cells).lookup column) = fun column => (t'.row cells').lookup column :=
  sortKeys_rowValue_eq_iff (ht.row_nodup hcells) (ht'.row_nodup hcells')

theorem canonical_select (t : TextTable) (key : String) :
    (t.select key).map (fun r => sortKeys (rowValue r)) =
      (sortedView (t.keyOf key) (fun _ => true) t.rows).map t.canonical := by
  unfold select
  rw [List.map_map]
  rfl

/-- Equal canonical rows are rows of both tables. -/
theorem rowSet_subset (ht : t.KeyedBy key) (ht' : t'.KeyedBy key)
    (h : ∀ v, v ∈ t.rows.map t.canonical → v ∈ t'.rows.map t'.canonical) :
    t.rowSet ⊆ t'.rowSet := by
  rintro f ⟨cells, hcells, rfl⟩
  obtain ⟨cells', hcells', heq⟩ := List.mem_map.mp (h _ (List.mem_map_of_mem hcells))
  exact ⟨cells', hcells', ((canonical_eq_iff ht' ht hcells' hcells).mp heq).symm⟩

theorem canonical_subset (ht : t.KeyedBy key) (ht' : t'.KeyedBy key) (h : t.rowSet ⊆ t'.rowSet)
    {v : Value} (hv : v ∈ t.rows.map t.canonical) : v ∈ t'.rows.map t'.canonical := by
  obtain ⟨cells, hcells, rfl⟩ := List.mem_map.mp hv
  obtain ⟨cells', hcells', heq⟩ := h ⟨cells, hcells, rfl⟩
  exact List.mem_map.mpr ⟨cells', hcells', (canonical_eq_iff ht' ht hcells' hcells).mpr heq.symm⟩

/-- Two tables select the same canonical rows when they hold the same set of rows. -/
theorem canonical_select_eq_iff (ht : t.KeyedBy key) (ht' : t'.KeyedBy key) :
    (t.select key).map (fun r => sortKeys (rowValue r)) =
        (t'.select key).map (fun r => sortKeys (rowValue r)) ↔ t.rowSet = t'.rowSet := by
  rw [canonical_select, canonical_select]
  constructor
  · intro h
    have hmem : ∀ v, v ∈ t.rows.map t.canonical ↔ v ∈ t'.rows.map t'.canonical := by
      intro v
      have hv : v ∈ (sortedView (t.keyOf key) (fun _ => true) t.rows).map t.canonical ↔
          v ∈ (sortedView (t'.keyOf key) (fun _ => true) t'.rows).map t'.canonical := by rw [h]
      simpa only [List.mem_map, mem_sortedView, and_true] using hv
    exact Set.Subset.antisymm (rowSet_subset ht ht' fun v => (hmem v).mp)
      (rowSet_subset ht' ht fun v => (hmem v).mpr)
  · intro h
    refine map_sortedView_eq ht.keys ht'.keys ?_ fun v => ?_
    · intro cells hcells cells' hcells' heq
      have hlookup := congrFun ((canonical_eq_iff ht ht' hcells hcells').mp heq) key
      exact congrArg (fun c => c.getD none) hlookup
    · exact ⟨canonical_subset ht ht' h.subset, canonical_subset ht' ht h.symm.subset⟩

end TextTable

/-- The text of a table determines its canonical rows. -/
theorem tableText_eq_iff {name : String} {rows rows' : List Row} (h : rows.length = rows'.length) :
    tableText name rows = tableText name rows' ↔
      rows.map (fun r => sortKeys (rowValue r)) = rows'.map (fun r => sortKeys (rowValue r)) := by
  have hlines : ∀ rows : List Row, rows.map (fun r => cj (rowValue r)) =
      (rows.map (fun r => sortKeys (rowValue r))).map dumps := by
    intro rows
    rw [List.map_map]
    rfl
  unfold tableText
  rw [h, String.append_right_inj, hlines, hlines]
  constructor
  · exact lines_injective (by rw [List.length_map, List.length_map, h])
  · exact congrArg fun values : List Value => "\n".intercalate (values.map dumps)

theorem cj_flat_inj {v w : Value} (hv : sortKeys v = v) (hw : sortKeys w = w) :
    cj v = cj w ↔ v = w := by
  unfold cj
  rw [hv, hw]
  exact dumps_injective.eq_iff

theorem sortKeys_strings (texts : List String) :
    sortKeys (.arr (texts.map .str)) = .arr (texts.map .str) := by
  rw [sortKeys, sortKeysItems_eq]
  intro v hv
  obtain ⟨text, -, rfl⟩ := List.mem_map.mp hv
  rfl

/-- The text of a summary determines every count and every digest. -/
theorem stateText_eq_iff {sha256 : String → String} {read read' : List (String × List Row)} :
    stateText sha256 read = stateText sha256 read' ↔
      read.map (fun t => (t.1, t.2.length, tableDigest sha256 t.1 t.2)) =
        read'.map (fun t => (t.1, t.2.length, tableDigest sha256 t.1 t.2)) := by
  have hflat : ∀ entries : List (String × ℕ × String),
      sortKeys (.arr (entries.map fun e => .arr [.str e.1, .int e.2.1, .str e.2.2])) =
        .arr (entries.map fun e => .arr [.str e.1, .int e.2.1, .str e.2.2]) := by
    intro entries
    rw [sortKeys, sortKeysItems_eq]
    intro v hv
    obtain ⟨e, -, rfl⟩ := List.mem_map.mp hv
    rfl
  have hinjective : Function.Injective fun e : String × ℕ × String =>
      Value.arr [.str e.1, .int e.2.1, .str e.2.2] := by
    rintro ⟨a, n, b⟩ ⟨a', n', b'⟩ h
    simp only [Value.arr.injEq, List.cons.injEq, Value.str.injEq, Value.int.injEq, Int.natCast_inj,
      and_true] at h
    exact Prod.ext h.1 (Prod.ext h.2.1 h.2.2)
  have hentries : ∀ read : List (String × List Row), stateText sha256 read =
      cj (.arr ((read.map fun t => (t.1, t.2.length, tableDigest sha256 t.1 t.2)).map
        fun e => .arr [.str e.1, .int e.2.1, .str e.2.2])) := by
    intro read
    rw [List.map_map]
    rfl
  rw [hentries, hentries, cj_flat_inj (hflat _) (hflat _), Value.arr.injEq]
  exact (List.map_injective_iff.mpr hinjective).eq_iff

/-- The text of a state tuple determines the tuple. -/
theorem cj_value_eq_iff {s s' : StateTuple} : cj s.value = cj s'.value ↔ s = s' := by
  have hflat : ∀ s : StateTuple, sortKeys s.value = s.value := by
    intro s
    rw [StateTuple.value, sortKeys, sortKeysItems_eq]
    simp only [List.forall_mem_cons, sortKeys_cellValue, sortKeys_strings, true_and]
    exact fun v hv => nomatch hv
  have hstrings : Function.Injective (List.map Value.str) :=
    List.map_injective_iff.mpr fun a b h => Value.str.inj h
  rw [cj_flat_inj (hflat s) (hflat s')]
  constructor
  · intro h
    obtain ⟨account, positions, trades, orders, fills⟩ := s
    obtain ⟨account', positions', trades', orders', fills'⟩ := s'
    simp only [StateTuple.value, Value.arr.injEq, List.cons.injEq, and_true,
      hstrings.eq_iff, cellValue_injective.eq_iff] at h
    obtain ⟨rfl, rfl, rfl, rfl, rfl⟩ := h
    rfl
  · exact congrArg StateTuple.value

/-! ## The digests of a database -/

namespace TradingDatabase

variable {db db' : TradingDatabase}

/-- What `_read_tables` returns. -/
def read (db : TradingDatabase) : List (String × List Row) :=
  edgTables.map fun entry =>
    (entry.1, match db.tables entry.1 with
      | some t => t.select entry.2
      | none => [])

/-- The texts that `edg` hashes. -/
def texts (sha256 : String → String) (db : TradingDatabase) : Set String :=
  {text | text = hashed edgStatePrefix (stateText sha256 db.read) ∨
    ∃ t ∈ db.read, text = hashed edgTablePrefix (tableText t.1 t.2)}

theorem readTables_eq (db : TradingDatabase) : readTables db.tables edgTables = .ok db.read := by
  have hall : ∀ entries : List (String × String), entries ⊆ edgTables →
      readTables db.tables entries = .ok (entries.map fun entry =>
        (entry.1, match db.tables entry.1 with
          | some t => t.select entry.2
          | none => [])) := by
    intro entries hentries
    induction entries with
    | nil => rfl
    | cons entry entries ih =>
      obtain ⟨name, key⟩ := entry
      rw [List.cons_subset] at hentries
      obtain ⟨t, htable, ht⟩ := db.economic name key hentries.1
      rw [readTables, htable]
      dsimp only
      rw [if_neg (not_not.mpr ht.key_mem), ih hentries.2, List.map_cons, htable]
  exact hall edgTables (List.Subset.refl _)

/-- The digest of a table with its count, or its rows as a set. -/
theorem entry_eq_iff {sha256 : String → String} {name key : String} {t t' : TextTable}
    (ht : t.KeyedBy key) (ht' : t'.KeyedBy key)
    (hsha : sha256 (hashed edgTablePrefix (tableText name (t.select key))) =
        sha256 (hashed edgTablePrefix (tableText name (t'.select key))) →
      hashed edgTablePrefix (tableText name (t.select key)) =
        hashed edgTablePrefix (tableText name (t'.select key))) :
    ((t.select key).length = (t'.select key).length ∧
        tableDigest sha256 name (t.select key) = tableDigest sha256 name (t'.select key)) ↔
      t.rowSet = t'.rowSet := by
  rw [← TextTable.canonical_select_eq_iff ht ht']
  constructor
  · rintro ⟨hlength, hdigest⟩
    exact (tableText_eq_iff hlength).mp (hashed_inj.mp (hsha hdigest))
  · intro h
    have hlength := congrArg List.length h
    rw [List.length_map, List.length_map] at hlength
    refine ⟨hlength, ?_⟩
    unfold tableDigest digestOf
    rw [(tableText_eq_iff hlength).mpr h]

/-- Databases with the same sets of rows have one digest, and no others. -/
theorem digest_eq_iff {sha256 : String → String}
    (hsha : Set.InjOn sha256 (db.texts sha256 ∪ db'.texts sha256)) :
    (digest sha256 db.read).edg = (digest sha256 db'.read).edg ↔
      ∀ name key, (name, key) ∈ edgTables → db.rowSet name = db'.rowSet name := by
  have hstate : (digest sha256 db.read).edg = (digest sha256 db'.read).edg ↔
      stateText sha256 db.read = stateText sha256 db'.read := by
    constructor
    · exact fun h => hashed_inj.mp (hsha (.inl (.inl rfl)) (.inr (.inl rfl)) h)
    · exact congrArg (digestOf sha256 edgStatePrefix)
  rw [hstate, stateText_eq_iff]
  unfold read
  rw [List.map_map, List.map_map, List.map_inj_left, Prod.forall]
  refine forall_congr' fun name => forall_congr' fun key => forall_congr' fun hentry => ?_
  obtain ⟨t, htable, ht⟩ := db.economic name key hentry
  obtain ⟨t', htable', ht'⟩ := db'.economic name key hentry
  have hmem : (name, t.select key) ∈ db.read :=
    List.mem_map.mpr ⟨(name, key), hentry, by rw [htable]⟩
  have hmem' : (name, t'.select key) ∈ db'.read :=
    List.mem_map.mpr ⟨(name, key), hentry, by rw [htable']⟩
  unfold rowSet
  simp only [Function.comp_apply, htable, htable', Prod.mk.injEq, true_and]
  exact entry_eq_iff ht ht'
    fun h => hsha (.inl (.inr ⟨_, hmem, rfl⟩)) (.inr (.inr ⟨_, hmem', rfl⟩)) h

end TradingDatabase

theorem psh_eq_iff {sha256 : String → String} {s s' : StateTuple}
    (hsha : Set.InjOn sha256 {hashed pshPrefix (cj s.value), hashed pshPrefix (cj s'.value)}) :
    psh sha256 s = psh sha256 s' ↔ s = s' := by
  constructor
  · intro h
    exact cj_value_eq_iff.mp (hashed_inj.mp (hsha (.inl rfl) (.inr rfl) h))
  · exact congrArg (psh sha256)

/-- The columns of each of the five tables, and rows of orders only. -/
def withOrders (orders : List (List Cell)) : String → Option TextTable := fun name =>
  (edgTables.lookup name).map fun key =>
    ⟨[key, "payload"], if name = "paper_orders" then orders else []⟩

theorem columns_nodup {key : String} (h : key ≠ "payload") : [key, "payload"].Nodup :=
  List.nodup_cons.mpr ⟨by simpa using h, List.nodup_singleton _⟩

theorem keyedBy_nil {key : String} (h : key ≠ "payload") :
    (⟨[key, "payload"], []⟩ : TextTable).KeyedBy key :=
  ⟨columns_nodup h, List.mem_cons_self, fun _ hcells => (nomatch hcells), List.nodup_nil⟩

/-- A database that holds orders only. -/
def ordersDatabase (orders : List (List Cell))
    (h : (⟨["order_id", "payload"], orders⟩ : TextTable).KeyedBy "order_id") :
    TradingDatabase where
  tables := withOrders orders
  economic := by
    intro name key hentry
    simp only [edgTables, List.mem_cons, List.not_mem_nil, or_false, Prod.mk.injEq] at hentry
    obtain ⟨rfl, rfl⟩ | ⟨rfl, rfl⟩ | ⟨rfl, rfl⟩ | ⟨rfl, rfl⟩ | ⟨rfl, rfl⟩ := hentry
    · exact ⟨_, rfl, keyedBy_nil (by decide)⟩
    · exact ⟨_, rfl, h⟩
    · exact ⟨_, rfl, keyedBy_nil (by decide)⟩
    · exact ⟨_, rfl, keyedBy_nil (by decide)⟩
    · exact ⟨_, rfl, keyedBy_nil (by decide)⟩

/-- The payloads of two orders, and the same exchanged. -/
def payloads (first second : String) : List (List Cell) :=
  [[some "a", some first], [some "b", some second]]

theorem payloads_keyed (first second : String) :
    (⟨["order_id", "payload"], payloads first second⟩ : TextTable).KeyedBy "order_id" := by
  refine ⟨columns_nodup (by decide), List.mem_cons_self, ?_, ?_⟩
  · intro cells hcells
    simp only [payloads, List.mem_cons, List.not_mem_nil, or_false] at hcells
    rcases hcells with rfl | rfl <;> rfl
  · have hkeys : ([some "a", some "b"] : List (Option String)).Nodup := by decide
    exact hkeys

end MarketSystem.EconomicDigest

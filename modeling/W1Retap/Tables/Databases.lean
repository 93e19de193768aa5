import W1Retap.Support.Grouping
import W1Retap.Tables.Entries

/-!
# Sensor tables in databases

The five database plugins go through the rows of `w1sensors` in one way: find the entry of
the device and type, or begin a new one, and hand the cells to `w1_set_device_data`, each
under the name of its column. They differ in how they find the entry and in which cells
they hand on.
-/
namespace W1Retap

open Programs

def deviceCol : CString := "device".toList
def typeCol : CString := "type".toList
def abbrv1Col : CString := "abbrv1".toList
def name1Col : CString := "name1".toList
def units1Col : CString := "units1".toList
def abbrv2Col : CString := "abbrv2".toList
def name2Col : CString := "name2".toList
def units2Col : CString := "units2".toList
def paramsCol : CString := "params".toList
def intervalCol : CString := "interval".toList

/-- The columns that `w1_set_device_data` takes for sensors. -/
def sensorCols : List CString := [abbrv1Col, name1Col, units1Col, abbrv2Col, name2Col, units2Col]

/-- The columns of `docs/mksens.sql`. -/
def mksensCols : List CString := [deviceCol, typeCol] ++ sensorCols ++ [paramsCol]

/-- The columns of `select * from w1sensors order by device`, in their order: those of
`docs/mksens.sql`, and others. -/
structure Columns where
  names : List CString
  nodup : names.Nodup
  mksens : ∀ n ∈ mksensCols, n ∈ names

/-- A row: its cell in every column, where `none` is a NULL. -/
abbrev Record := CString → Option CString

/-- What is left of a cell that the loaders hand on. -/
def filled (cell : Option CString) : Option CString := cell.filter (· ≠ [])

/-- The cells of a row that are neither NULL nor empty, in the order of the columns. -/
def filledCells (names : List CString) (row : Record) : List (CString × CString) :=
  names.filterMap fun fnam => (filled (row fnam)).map (fnam, ·)

/-- The body of the loops over the rows: the entry is looked up under `serno` and `devtype`. -/
def loadRow (serno devtype : Option CString) (cells : List (CString × CString))
    (devs : List Entry) : Except Stop (List Entry) := do
  let nn ← w1GetDeviceIndex serno devtype devs
  let devs := if nn.isNone then devs ++ [Entry.zero] else devs
  let nx := nn.getD (devs.length - 1)
  let e ← setCells (devs.getD nx .zero) cells
  let e ← w1Enumdevs e
  return devs.set nx e

/-- `w1_init` of the sqlite plugin, up to the rate limits. -/
def sqliteInit (cols : Columns) (rows : List Record) : Except Stop (List Entry) :=
  rows.foldlM (fun devs row =>
    loadRow (row deviceCol) (row typeCol) (filledCells cols.names row) devs) []

/-- `w1_init` of the pgsql plugin: `PQgetvalue` gives an empty string for NULL. -/
def pgsqlInit (cols : Columns) (rows : List Record) : Except Stop (List Entry) :=
  rows.foldlM (fun devs row =>
    loadRow (some ((row deviceCol).getD [])) (some ((row typeCol).getD []))
      (filledCells cols.names row) devs) []

/-! ## The loop gathers rows -/

/-- What an entry is found by. -/
structure Key where
  serno : Option CString
  devtype : Option CString
  deriving DecidableEq, Repr

def Entry.key (e : Entry) : Key := ⟨e.serial, e.devtype⟩

/-- A row as it is handed to its entry. -/
def stepRow (cells : List (CString × CString)) (e : Entry) : Except Stop Entry := do
  w1Enumdevs (← setCells e cells)

/-- The entry has a serial number and a type. -/
def Entry.Named (e : Entry) : Prop := e.serial.isSome ∧ e.devtype.isSome

/-- Among named entries the first one with the key is found. -/
theorem w1GetDeviceIndex_ok {serno devtype : CString} {devs : List Entry}
    (h : ∀ e ∈ devs, e.Named) :
    w1GetDeviceIndex (some serno) (some devtype) devs =
      .ok (devs.findIdx? fun e => e.key = ⟨some serno, some devtype⟩) := by
  induction devs with
  | nil => rfl
  | cons e devs ih =>
    obtain ⟨hs, ht⟩ := h e List.mem_cons_self
    obtain ⟨s, hs⟩ := Option.isSome_iff_exists.mp hs
    obtain ⟨t, ht⟩ := Option.isSome_iff_exists.mp ht
    have hrest := ih fun e he => h e (List.mem_cons_of_mem _ he)
    rw [w1GetDeviceIndex, hrest, List.findIdx?_cons, hs, ht]
    by_cases hserno : serno = s
    · by_cases hdevtype : devtype = t
      · simp [strcmpEq, Entry.key, hs, ht, hserno, hdevtype, bind, Except.bind, pure, Except.pure]
      · simp [strcmpEq, Entry.key, hs, ht, hserno, hdevtype, Ne.symm hdevtype, bind, Except.bind,
          pure, Except.pure]
    · simp [strcmpEq, Entry.key, hs, ht, hserno, Ne.symm hserno, bind, Except.bind, pure,
        Except.pure]

/-- With its place known, a row changes one entry. -/
theorem loadRow_eq {serno devtype : Option CString} {cells : List (CString × CString)}
    {devs : List Entry} {nn : Option ℕ} (h : w1GetDeviceIndex serno devtype devs = .ok nn) :
    loadRow serno devtype cells devs =
      let devs := if nn.isNone then devs ++ [Entry.zero] else devs
      let nx := nn.getD (devs.length - 1)
      (stepRow cells (devs.getD nx .zero)).map (devs.set nx) := by
  rw [loadRow, h]
  simp only [stepRow, bind, Except.bind]
  cases setCells _ cells with
  | error err => rfl
  | ok e => cases w1Enumdevs e <;> rfl

/-- The entry a row goes to is the first one with its key, or a new one. -/
theorem loadRow_place {ρ : Type} {key : ρ → Key}
    {cells : ρ → List (CString × CString)} {r : ρ} {devs : List Entry}
    (hr : (key r).serno.isSome ∧ (key r).devtype.isSome) (h : ∀ e ∈ devs, e.Named) :
    loadRow (key r).serno (key r).devtype (cells r) devs =
      Grouping.place Entry.key key (fun e r => stepRow (cells r) e) .zero r devs := by
  have hfind : w1GetDeviceIndex (key r).serno (key r).devtype devs =
      .ok (devs.findIdx? fun e => e.key = key r) := by
    obtain ⟨serno, hserno⟩ := Option.isSome_iff_exists.mp hr.1
    obtain ⟨devtype, hdevtype⟩ := Option.isSome_iff_exists.mp hr.2
    have hkey : key r = ⟨some serno, some devtype⟩ := by rw [← hserno, ← hdevtype]
    rw [hkey]
    exact w1GetDeviceIndex_ok h
  rw [loadRow_eq hfind]
  cases hidx : devs.findIdx? fun e => e.key = key r with
  | none =>
    rw [List.findIdx?_eq_none_iff] at hidx
    rw [Grouping.place_notMem fun e he => by simpa using hidx e he]
    have hset : (devs ++ [Entry.zero]).set devs.length = fun e => devs ++ [e] := by
      funext e
      simp
    simp [hset]
  | some i =>
    obtain ⟨hi, hkey, hbefore⟩ := List.findIdx?_eq_some_iff_getElem.mp hidx
    have hsplit : devs = devs.take i ++ devs[i] :: devs.drop (i + 1) := by simp
    have hfront : ∀ e ∈ devs.take i, e.key ≠ key r := by
      intro e he
      obtain ⟨j, hj, rfl⟩ := List.getElem_of_mem he
      rw [List.length_take] at hj
      rw [List.getElem_take]
      simpa using hbefore j (by omega)
    conv_rhs => rw [hsplit]
    rw [Grouping.place_append hfront (by simpa using hkey)]
    have hset : devs.set i = fun e => devs.take i ++ e :: devs.drop (i + 1) := by
      funext e
      rw [List.set_eq_take_append_cons_drop, if_pos hi]
    simp [hi, hset]

end W1Retap

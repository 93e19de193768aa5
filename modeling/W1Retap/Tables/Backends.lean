import W1Retap.Tables.KeySafety

/-!
# Five back-ends

The database plugins each have a loop over the rows of `w1sensors`. They look the entry up
under the two key cells as the library hands them out, and pass the cells on to
`w1_set_device_data`. Three of them leave out cells that are empty. The odbc plugin reads
into buffers, and the mongo plugin takes whatever has a value.
-/
namespace W1Retap

open Programs

/-- The cells that are passed on; `give` is what becomes of a cell. -/
def givenCells (give : Option CString → Option CString) (names : List CString) (row : Record) :
    List (CString × CString) :=
  names.filterMap fun fnam => (give (row fnam)).map (fnam, ·)

/-! ## The odbc loader -/

/-- `SQLGetData` into a buffer of 32 zero bytes; a NULL leaves it alone. -/
def keyBuffer (cell : Option CString) : CString := (cell.getD []).take 31

/-- `SQLGetData` into a buffer of 512 bytes. -/
def odbcCell (cell : Option CString) : Option CString := cell.map (·.take 511)

/-- `w1_init` of the odbc plugin, up to the rate limits. -/
def odbcRows (names : List CString) (rows : List Record) : Except Stop (List Entry) :=
  rows.foldlM (fun devs row => loadRow (some (keyBuffer (row deviceCol)))
    (some (keyBuffer (row typeCol))) (givenCells odbcCell names row) devs) []

/-! ## The mongo loader -/

/-- The values of a document: texts, numbers and others. -/
inductive Bson where
  | string (s : CString)
  | int32 (i : Int)
  | int64 (i : Int)
  | double (d : ℚ)
  | other
  deriving DecidableEq, Repr

/-- The text that is passed on for a value; `fixed` is `%f`, printed into 32 bytes. -/
def Bson.text (fixed : ℚ → CString) : Bson → Option CString
  | .string s => some s
  | .int32 i => some (toString i).toList
  | .int64 i => some (toString i).toList
  | .double d => some ((fixed d).take 31)
  | .other => none

abbrev Document := List (CString × Bson)

/-- `bson_find` and `bson_cursor_get_string` -/
def Document.getString (doc : Document) (key : CString) : Option CString :=
  (doc.find? (·.1 = key)).bind fun p =>
    match p.2 with
    | .string s => some s
    | _ => none

/-- The body of the loop over the documents. Without a type `ds` still points at the device,
and without a device it was never set. -/
def mongoDocument (fixed : ℚ → CString) (doc : Document) (devs : List Entry) :
    Except Stop (List Entry) :=
  match doc.getString deviceCol with
  | none => .error .nullDeref
  | some device =>
    loadRow (some device) (some ((doc.getString typeCol).getD device))
      (doc.filterMap fun p => (p.2.text fixed).map (p.1, ·)) devs

/-- `w1_init` of the mongo plugin, up to the rate limits. -/
def mongoDocs (fixed : ℚ → CString) (docs : List Document) : Except Stop (List Entry) :=
  docs.foldlM (fun devs doc => mongoDocument fixed doc devs) []

/-- A row of a table as a document. -/
def Record.document (names : List CString) (row : Record) : Document :=
  names.map fun fnam => (fnam, (row fnam).elim .other .string)

/-! ## What they have in common -/

inductive Backend where
  | sqlite | pgsql | mysql | odbc | mongo
  deriving DecidableEq, Repr

/-- The devices of a table; `fixed` is `%f`. -/
def Backend.load (fixed : ℚ → CString) (names : List CString) (rows : List Record) :
    Backend → Except Stop (List Entry)
  | .sqlite => sqliteRows names rows
  | .pgsql => pgsqlRows names rows
  | .mysql => mysqlRows names rows
  | .odbc => odbcRows names rows
  | .mongo => mongoDocs fixed (rows.map (Record.document names))

/-- All five build the same list of devices, or none builds one. -/
def BackendsAgree (fixed : ℚ → CString) (names : List CString) (rows : List Record) : Prop :=
  ∀ b b' : Backend, (b.load fixed names rows).toOption = (b'.load fixed names rows).toOption

/-- A cell of column `c` that every back-end passes on alike: keys fit into 31 characters,
no cell is an empty string, and nothing is lost after 511 characters. -/
structure OrdinaryCell (c : CString) (cell : Option CString) : Prop where
  key : c = deviceCol ∨ c = typeCol → ∃ v, cell = some v ∧ v ≠ [] ∧ v.length ≤ 31
  filled : c ∈ mksensCols ++ [intervalCol] → cell ≠ some []
  sensor : c ∈ sensorCols → ∀ v, cell = some v → v.length ≤ 511
  params : c = paramsCol → ∀ v, cell = some v → w1DevParams (v.take 511) = w1DevParams v
  interval : c = intervalCol → ∀ v, cell = some v → intvlOf (v.take 511) = intvlOf v

/-! ## OrdinaryCell tables -/

section
variable {give give' : Option CString → Option CString} {names : List CString} {row : Record}
  {c v : CString} {cell : Option CString} {e : Entry}

/-- One cell, as it is passed on. -/
def setGiven (give : Option CString → Option CString) (row : Record) (e : Entry) (fnam : CString) :
    Except Stop Entry :=
  match give (row fnam) with
  | none => .ok e
  | some v => w1SetDeviceData e fnam v

theorem setCells_given : setCells e (givenCells give names row) = names.foldlM (setGiven give row) e := by
  unfold setCells givenCells
  rw [List.foldlM_filterMap]
  congr 1
  funext e fnam
  unfold setGiven
  cases give (row fnam) <;> rfl

theorem loadRow_congr {serno devtype : Option CString} {cells cells' : List (CString × CString)}
    (h : ∀ e, setCells e cells = setCells e cells') :
    loadRow serno devtype cells = loadRow serno devtype cells' := by
  funext devs
  simp only [loadRow, h]

/-- Columns that `w1_set_device_data` does not know. -/
theorem w1SetDeviceData_other (h : c ∉ mksensCols ++ [intervalCol]) :
    w1SetDeviceData e c v = .ok e := by
  simp only [mksensCols, sensorCols, List.mem_append, List.mem_cons, List.not_mem_nil, or_false,
    not_or] at h
  obtain ⟨⟨⟨⟨hdevice, htype⟩, ha₁, hn₁, hu₁, ha₂, hn₂, hu₂⟩, hparams⟩, hinterval⟩ := h
  calc w1SetDeviceData e c v
    _ = _ := if_neg hdevice
    _ = _ := if_neg fun h => htype h.1
    _ = _ := if_neg (not_or.mpr ⟨ha₁, ha₂⟩)
    _ = _ := if_neg (not_or.mpr ⟨hn₁, hn₂⟩)
    _ = _ := if_neg (not_or.mpr ⟨hu₁, hu₂⟩)
    _ = _ := if_neg hparams
    _ = .ok e := if_neg hinterval

/-- What an ordinary cell loses in the buffer of the odbc plugin does not matter. -/
theorem w1SetDeviceData_take (h : OrdinaryCell c (some v)) :
    w1SetDeviceData e c (v.take 511) = w1SetDeviceData e c v := by
  by_cases hknown : c ∈ mksensCols ++ [intervalCol]
  · by_cases htext : v.length ≤ 511
    · rw [List.take_of_length_le htext]
    · have hkey : ¬ (c = deviceCol ∨ c = typeCol) := by
        intro hc
        obtain ⟨w, hw, -, hlen⟩ := h.key hc
        obtain rfl := Option.some.inj hw
        omega
      have hsensor : c ∉ sensorCols := fun hc => htext (h.sensor hc v rfl)
      obtain rfl | rfl : c = paramsCol ∨ c = intervalCol := by
        simp only [mksensCols, List.mem_append, List.mem_cons, List.not_mem_nil, or_false] at hknown
        tauto
      · change Except.ok { e with params := w1DevParams (v.take 511) } = _
        rw [h.params rfl v rfl]
        rfl
      · change Except.ok { e with intvl := intvlOf (v.take 511) } = _
        rw [h.interval rfl v rfl]
        rfl
  · rw [w1SetDeviceData_other hknown, w1SetDeviceData_other hknown]

theorem setGiven_filled (h : OrdinaryCell c (row c)) :
    setGiven filled row e c = setGiven id row e c := by
  unfold setGiven
  cases hcell : row c with
  | none => rfl
  | some v =>
    cases v with
    | cons a v => rfl
    | nil =>
      have hother : c ∉ mksensCols ++ [intervalCol] := fun hc => h.filled hc hcell
      exact (w1SetDeviceData_other hother).symm

theorem setGiven_odbc (h : OrdinaryCell c (row c)) :
    setGiven odbcCell row e c = setGiven id row e c := by
  unfold setGiven
  cases hcell : row c with
  | none => rfl
  | some v => exact w1SetDeviceData_take (hcell ▸ h)

theorem setCells_congr (h : ∀ c ∈ names, ∀ e, setGiven give row e c = setGiven give' row e c) (e : Entry) :
    setCells e (givenCells give names row) = setCells e (givenCells give' names row) := by
  rw [setCells_given, setCells_given]
  exact foldlM_congr (P := fun _ => True) trivial (fun c hc e _ => h c hc e) fun _ _ _ _ _ _ => trivial

theorem document_text (fixed : ℚ → CString) :
    (row.document names).filterMap (fun p => (p.2.text fixed).map (p.1, ·)) =
      givenCells id names row := by
  unfold Record.document givenCells
  rw [List.filterMap_map]
  congr 1
  funext c
  cases h : row c <;> simp [h, Bson.text]

theorem document_getString (hc : c ∈ names) : (row.document names).getString c = row c := by
  have hfind : names.find? (fun fnam => decide (fnam = c)) = some c := by
    obtain ⟨x, hx⟩ := Option.isSome_iff_exists.mp
      (List.find?_isSome.mpr ⟨c, hc, decide_eq_true rfl⟩ :
        (names.find? fun fnam => decide (fnam = c)).isSome = true)
    have hxc : x = c := by simpa using List.find?_some hx
    rw [hx, hxc]
  have hdoc : (row.document names).find? (·.1 = c) = some (c, (row c).elim .other .string) := by
    unfold Record.document
    rw [List.find?_map]
    change (names.find? fun fnam => decide (fnam = c)).map _ = _
    rw [hfind]
    rfl
  rw [Document.getString, hdoc]
  cases row c <;> rfl

/-- The keys of an ordinary row. -/
theorem ordinary_key (hc : c = deviceCol ∨ c = typeCol) (h : OrdinaryCell c (row c)) :
    ∃ v, row c = some v ∧ pqGetvalue (row c) = some v ∧ keyBuffer (row c) = v := by
  obtain ⟨v, hv, -, hlen⟩ := h.key hc
  refine ⟨v, hv, ?_, ?_⟩
  · rw [hv]
    rfl
  · rw [hv]
    exact List.take_of_length_le hlen

variable {fixed : ℚ → CString} {rows : List Record}

/-- Every back-end treats an ordinary row as the sqlite plugin does. -/
theorem load_ordinary (hdevice : deviceCol ∈ names) (htype : typeCol ∈ names)
    (h : ∀ row ∈ rows, ∀ c ∈ names, OrdinaryCell c (row c)) (b : Backend) :
    b.load fixed names rows = sqliteRows names rows := by
  have hstep : ∀ {step : List Entry → Record → Except Stop (List Entry)},
      (∀ row ∈ rows, ∀ devs, step devs row =
        loadRow (row deviceCol) (row typeCol) (filledCells names row) devs) →
      rows.foldlM step [] = sqliteRows names rows := fun hstep =>
    foldlM_congr (P := fun _ => True) trivial (fun row hrow devs _ => hstep row hrow devs)
      fun _ _ _ _ _ _ => trivial
  have hfilled : ∀ row ∈ rows, ∀ e, setCells e (filledCells names row) =
      setCells e (givenCells id names row) := fun row hrow =>
    setCells_congr fun c hc e => setGiven_filled (h row hrow c hc)
  cases b with
  | sqlite => rfl
  | mysql => rfl
  | pgsql =>
    refine hstep fun row hrow devs => ?_
    obtain ⟨d, hd, hpq, -⟩ := ordinary_key (.inl rfl) (h row hrow _ hdevice)
    obtain ⟨t, ht, hpq', -⟩ := ordinary_key (.inr rfl) (h row hrow _ htype)
    rw [hpq, hpq', hd, ht]
  | odbc =>
    refine hstep fun row hrow devs => ?_
    obtain ⟨d, hd, -, hbuffer⟩ := ordinary_key (.inl rfl) (h row hrow _ hdevice)
    obtain ⟨t, ht, -, hbuffer'⟩ := ordinary_key (.inr rfl) (h row hrow _ htype)
    have hcells : ∀ e, setCells e (givenCells odbcCell names row) =
        setCells e (filledCells names row) := by
      intro e
      rw [hfilled row hrow e]
      exact setCells_congr (fun c hc e => setGiven_odbc (h row hrow c hc)) e
    rw [hbuffer, hbuffer', hd, ht, loadRow_congr hcells]
  | mongo =>
    change (rows.map (Record.document names)).foldlM _ [] = _
    rw [List.foldlM_map]
    refine hstep fun row hrow devs => ?_
    obtain ⟨d, hd, -⟩ := ordinary_key (.inl rfl) (h row hrow _ hdevice)
    obtain ⟨t, ht, -⟩ := ordinary_key (.inr rfl) (h row hrow _ htype)
    rw [mongoDocument, document_getString hdevice, document_getString htype, document_text, hd, ht,
      loadRow_congr (hfilled row hrow)]
    rfl

end

/-! ## Cells that set the back-ends apart -/

/-- A thermometer whose table row has parameters and an interval. -/
def thermometerRow : Record := Record.of [("device", "10.1B"), ("type", "DS1820"), ("abbrv1", "OAT"),
  ("params", "1"), ("interval", "60")]

/-- The row with another cell. -/
def thermometerRow.with (c : CString) (cell : Option CString) : Record :=
  Function.update thermometerRow c cell

def noFixed : ℚ → CString := fun _ => []

theorem empty_differs : ∀ c ∈ mksensCols ++ [intervalCol],
    (sqliteRows mksensColumns.names [thermometerRow, thermometerRow.with c (some [])]).toOption ≠
      (odbcRows mksensColumns.names [thermometerRow, thermometerRow.with c (some [])]).toOption := by
  decide +kernel

theorem null_differs : ∀ c ∈ [deviceCol, typeCol],
    (sqliteRows mksensColumns.names [thermometerRow, thermometerRow.with c none]).toOption ≠
      (pgsqlRows mksensColumns.names [thermometerRow, thermometerRow.with c none]).toOption := by
  decide +kernel

/-- A row goes to an entry that is there, or to a new one. -/
theorem length_loadRow {serno devtype : Option CString} {cells : List (CString × CString)}
    {devs devs' : List Entry} {nn : Option ℕ} (hnn : w1GetDeviceIndex serno devtype devs = .ok nn)
    (h : loadRow serno devtype cells devs = .ok devs') :
    devs'.length = if nn.isNone then devs.length + 1 else devs.length := by
  rw [loadRow_eq hnn] at h
  obtain ⟨e, -, rfl⟩ := map_ok.mp h
  rw [List.length_set]
  split
  · simp
  · rfl

theorem foldlM_two_ok {α β : Type} {f : β → α → Except Stop β} {x y : α} {b r : β} :
    [x, y].foldlM f b = .ok r ↔ ∃ b', f b x = .ok b' ∧ f b' y = .ok r := by
  simp only [List.foldlM_cons, List.foldlM_nil, bind_pure]
  exact bind_ok

section
variable {c v : CString}

theorem take_ne_take (hlong : 31 < v.length) : v.take 511 ≠ v.take 31 := by
  intro h
  have hlen := congrArg List.length h
  rw [List.length_take, List.length_take] at hlen
  omega

/-- Two rows of a thermometer with a long serial number or type. -/
def twice (c v : CString) : List Record :=
  [thermometerRow.with c (some v), thermometerRow.with c (some v)]

/-- The second row finds the entry of the first. -/
theorem longKey_sqlite (hc : c = deviceCol ∨ c = typeCol) (hv : v ≠ []) :
    ∃ devs, sqliteRows mksensColumns.names (twice c v) = .ok devs ∧ devs.length = 1 := by
  obtain ⟨a, v, rfl⟩ := List.exists_cons_of_ne_nil hv
  generalize hrow : thermometerRow.with c (some (a :: v)) = row
  have hfirst : ∃ e, loadRow (row deviceCol) (row typeCol) (filledCells mksensColumns.names row) [] =
      .ok [e] ∧ e.key = row.key ∧ e.Named ∧ e.sensors ≠ [] := by
    rw [← hrow]
    rcases hc with rfl | rfl
    · exact ⟨_, rfl, rfl, ⟨rfl, rfl⟩, by exact List.cons_ne_nil _ _⟩
    · exact ⟨_, rfl, rfl, ⟨rfl, rfl⟩, by exact List.cons_ne_nil _ _⟩
  obtain ⟨e, hfirst, hkey, hnamed, hsensors⟩ := hfirst
  obtain ⟨s, hs⟩ := Option.isSome_iff_exists.mp hnamed.1
  obtain ⟨t, ht⟩ := Option.isSome_iff_exists.mp hnamed.2
  have hkeys : row deviceCol = some s ∧ row typeCol = some t := by
    obtain ⟨hserial, hdevtype⟩ := Key.mk.inj hkey
    exact ⟨hserial.symm.trans hs, hdevtype.symm.trans ht⟩
  have hfound : w1GetDeviceIndex (row deviceCol) (row typeCol) [e] = .ok (some 0) := by
    rw [hkeys.1, hkeys.2, w1GetDeviceIndex_ok (List.forall_mem_singleton.mpr hnamed)]
    simp [Entry.key, hs, ht]
  obtain ⟨xs, hxs⟩ := attach_some (filledCells mksensColumns.names row) hsensors
  have hstep : stepRow (filledCells mksensColumns.names row) e =
      .ok (e.fill (filledCells mksensColumns.names row) xs) := by
    rw [stepRow_eq e _ (by rw [ht]; rfl), hxs]
    rfl
  refine ⟨[e.fill (filledCells mksensColumns.names row) xs], ?_, rfl⟩
  unfold sqliteRows initRows twice
  rw [hrow]
  refine foldlM_two_ok.mpr ⟨[e], hfirst, ?_⟩
  rw [id, id, loadRow_eq hfound]
  change Except.map _ (stepRow _ e) = _
  rw [hstep]
  rfl

/-- It does not when the search is for the first 31 characters. -/
theorem longKey_odbc (hc : c = deviceCol ∨ c = typeCol) (hlong : 31 < v.length) {devs : List Entry}
    (h : odbcRows mksensColumns.names (twice c v) = .ok devs) : devs.length = 2 := by
  obtain ⟨a, w, rfl⟩ : ∃ a w, v = a :: w := List.exists_cons_of_length_pos (by omega)
  generalize hrow : thermometerRow.with c (some (a :: w)) = row at h
  have hfirst : ∃ e, loadRow (some (keyBuffer (row deviceCol))) (some (keyBuffer (row typeCol)))
      (givenCells odbcCell mksensColumns.names row) [] = .ok [e] ∧ e.Named ∧
      e.key ≠ ⟨some (keyBuffer (row deviceCol)), some (keyBuffer (row typeCol))⟩ := by
    rw [← hrow]
    rcases hc with rfl | rfl
    · refine ⟨_, rfl, ⟨rfl, rfl⟩, fun hkey => ?_⟩
      exact take_ne_take hlong (Option.some.inj (Key.mk.inj hkey).1)
    · refine ⟨_, rfl, ⟨rfl, rfl⟩, fun hkey => ?_⟩
      exact take_ne_take hlong (Option.some.inj (Key.mk.inj hkey).2)
  obtain ⟨e, hfirst, hnamed, hkey⟩ := hfirst
  have hnone : w1GetDeviceIndex (some (keyBuffer (row deviceCol))) (some (keyBuffer (row typeCol))) [e] =
      .ok none := by
    rw [w1GetDeviceIndex_ok (List.forall_mem_singleton.mpr hnamed)]
    simp [hkey]
  unfold odbcRows twice at h
  rw [hrow] at h
  obtain ⟨devs', hdevs', hsecond⟩ := foldlM_two_ok.mp h
  obtain rfl := Except.ok.inj (hfirst.symm.trans hdevs')
  exact length_loadRow hnone hsecond

/-- A long key is found by the one and not by the other. -/
theorem longKey_differs (hc : c = deviceCol ∨ c = typeCol) (hlong : 31 < v.length) :
    (sqliteRows mksensColumns.names (twice c v)).toOption ≠
      (odbcRows mksensColumns.names (twice c v)).toOption := by
  obtain ⟨devs, hsqlite, hone⟩ := longKey_sqlite hc (List.ne_nil_of_length_pos (by omega : 0 < v.length))
  rw [hsqlite]
  intro h
  cases hodbc : odbcRows mksensColumns.names (twice c v) with
  | error err =>
    rw [hodbc] at h
    cases h
  | ok devs' =>
    rw [hodbc] at h
    obtain rfl := Option.some.inj h
    have htwo := longKey_odbc hc hlong hodbc
    omega

/-- The sensors of the thermometer with `v` in a column for sensors. -/
def thermometerSensors (c v : CString) : List Sensor :=
  if c = abbrv1Col then [{ abbrv := some v }]
  else if c = name1Col ∨ c = name2Col then [{ abbrv := some "OAT".toList, name := some v }]
  else if c = units1Col ∨ c = units2Col then [{ abbrv := some "OAT".toList, units := some v }]
  else [{ abbrv := some "OAT".toList }, { abbrv := some v }]

theorem thermometerSensors_inj {v w : CString} :
    thermometerSensors c v = thermometerSensors c w ↔ v = w := by
  unfold thermometerSensors
  split_ifs <;> simp

/-- A long text in a column for sensors, and what is left of it in a buffer. -/
theorem longText_differs (hc : c ∈ sensorCols) (hlong : 511 < v.length) :
    (sqliteRows mksensColumns.names [thermometerRow.with c (some v)]).toOption ≠
      (odbcRows mksensColumns.names [thermometerRow.with c (some v)]).toOption := by
  obtain ⟨a, w, rfl⟩ : ∃ a w, v = a :: w := List.exists_cons_of_length_pos (by omega)
  have hsqlite : (sqliteRows mksensColumns.names [thermometerRow.with c (some (a :: w))]).toOption.map
      (List.map Entry.sensors) = some [thermometerSensors c (a :: w)] := by
    fin_cases hc <;> rfl
  have hodbc : (odbcRows mksensColumns.names [thermometerRow.with c (some (a :: w))]).toOption.map
      (List.map Entry.sensors) = some [thermometerSensors c ((a :: w).take 511)] := by
    fin_cases hc <;> rfl
  intro h
  rw [h, hodbc] at hsqlite
  have hv := thermometerSensors_inj.mp (List.singleton_inj.mp (Option.some.inj hsqlite))
  have hlen := congrArg List.length hv
  rw [List.length_take] at hlen
  omega

/-- The parameters and the interval of a row. -/
theorem longNumbers_differ (hv : v ≠ []) :
    ((sqliteRows mksensColumns.names [thermometerRow.with paramsCol (some v)]).toOption =
        (odbcRows mksensColumns.names [thermometerRow.with paramsCol (some v)]).toOption →
      w1DevParams (v.take 511) = w1DevParams v) ∧
    ((sqliteRows mksensColumns.names [thermometerRow.with intervalCol (some v)]).toOption =
        (odbcRows mksensColumns.names [thermometerRow.with intervalCol (some v)]).toOption →
      intvlOf (v.take 511) = intvlOf v) := by
  obtain ⟨a, w, rfl⟩ := List.exists_cons_of_ne_nil hv
  constructor
  · intro h
    have hparams := congrArg (Option.map (List.map Entry.params)) h
    have hboth : some [w1DevParams (a :: w)] = some [w1DevParams ((a :: w).take 511)] := hparams
    exact (List.singleton_inj.mp (Option.some.inj hboth)).symm
  · intro h
    have hintvl := congrArg (Option.map (List.map Entry.intvl)) h
    have hboth : some [intvlOf (a :: w)] = some [intvlOf ((a :: w).take 511)] := hintvl
    exact (List.singleton_inj.mp (Option.some.inj hboth)).symm

end

/-! ## The exact condition -/

theorem ordinary_of_short {c v : CString} (hne : v ≠ []) (hlen : v.length ≤ 31) :
    OrdinaryCell c (some v) := by
  have htake : v.take 511 = v := List.take_of_length_le (by omega)
  refine ⟨fun _ => ⟨v, rfl, hne, hlen⟩, fun _ => by simpa using hne, fun _ w hw => ?_,
    fun _ w hw => ?_, fun _ w hw => ?_⟩
  · obtain rfl := Option.some.inj hw
    omega
  · obtain rfl := Option.some.inj hw
    rw [htake]
  · obtain rfl := Option.some.inj hw
    rw [htake]

/-- The cells of the thermometer are ordinary. -/
theorem thermometerRow_ordinary (c : CString) : OrdinaryCell c (thermometerRow c) := by
  cases hcell : thermometerRow c with
  | none =>
    refine ⟨?_, fun _ => nofun, fun _ => nofun, fun _ => nofun, fun _ => nofun⟩
    rintro (rfl | rfl)
    · cases hcell
    · cases hcell
  | some v =>
    obtain ⟨p, hp, rfl⟩ := Option.map_eq_some_iff.mp hcell
    have hmem := List.mem_of_find?_eq_some hp
    have hshort : ∀ q ∈ [("device", "10.1B"), ("type", "DS1820"), ("abbrv1", "OAT"), ("params", "1"),
        ("interval", "60")], q.2.toList ≠ [] ∧ q.2.toList.length ≤ 31 := by decide
    exact ordinary_of_short (hshort p hmem).1 (hshort p hmem).2

theorem thermometerRow.with_cells (c n : CString) (cell : Option CString) :
    OrdinaryCell n (thermometerRow.with c cell n) ∨ n = c ∧ thermometerRow.with c cell n = cell := by
  unfold thermometerRow.with
  by_cases hn : n = c
  · subst hn
    exact .inr ⟨rfl, Function.update_self n cell thermometerRow⟩
  · rw [Function.update_of_ne hn]
    exact .inl (thermometerRow_ordinary n)

/-- The five back-ends agree on all tables of ordinary cells, and any other cell is in a
table, with ordinary ones otherwise, on which they do not. -/
theorem backends_agree_iff (fixed : ℚ → CString) (c : CString) (cell : Option CString) :
    (∀ (cols : Columns) (rows : List Record),
      (∀ row ∈ rows, ∀ n ∈ cols.names, OrdinaryCell n (row n) ∨ n = c ∧ row n = cell) →
        BackendsAgree fixed cols.names rows) ↔ OrdinaryCell c cell := by
  constructor
  · intro h
    have hone := h mksensColumns [thermometerRow.with c cell]
      (List.forall_mem_singleton.mpr fun n _ => thermometerRow.with_cells c n cell)
    have htwo := h mksensColumns [thermometerRow, thermometerRow.with c cell] (by
      rw [List.forall_mem_cons, List.forall_mem_singleton]
      exact ⟨fun n _ => .inl (thermometerRow_ordinary n), fun n _ => thermometerRow.with_cells c n cell⟩)
    have hsame := h mksensColumns [thermometerRow.with c cell, thermometerRow.with c cell] (by
      rw [List.forall_mem_cons, List.forall_mem_singleton]
      exact ⟨fun n _ => thermometerRow.with_cells c n cell, fun n _ => thermometerRow.with_cells c n cell⟩)
    have hfilled : c ∈ mksensCols ++ [intervalCol] → cell ≠ some [] := by
      rintro hc rfl
      exact empty_differs c hc (htwo .sqlite .odbc)
    refine ⟨fun hc => ?_, hfilled, ?_, ?_, ?_⟩
    · have hnull : cell ≠ none := by
        rintro rfl
        exact null_differs c (by simpa using hc) (htwo .sqlite .pgsql)
      obtain ⟨v, rfl⟩ := Option.ne_none_iff_exists'.mp hnull
      refine ⟨v, rfl, ?_, ?_⟩
      · rintro rfl
        refine hfilled ?_ rfl
        rcases hc with rfl | rfl
        · decide
        · decide
      · by_contra hlong
        exact longKey_differs hc (by omega) (hsame .sqlite .odbc)
    · rintro hc v rfl
      by_contra hlong
      exact longText_differs hc (by omega) (hone .sqlite .odbc)
    · rintro rfl v rfl
      by_cases hv : v = []
      · rw [hv]
        rfl
      · exact (longNumbers_differ hv).1 (hone .sqlite .odbc)
    · rintro rfl v rfl
      by_cases hv : v = []
      · rw [hv]
        rfl
      · exact (longNumbers_differ hv).2 (hone .sqlite .odbc)
  · intro hcell cols rows hrows b b'
    have hordinary : ∀ row ∈ rows, ∀ n ∈ cols.names, OrdinaryCell n (row n) := by
      intro row hrow n hn
      rcases hrows row hrow n hn with h | ⟨rfl, h⟩
      · exact h
      · rw [h]
        exact hcell
    have hdevice : deviceCol ∈ cols.names := cols.mksens _ (by decide)
    have htype : typeCol ∈ cols.names := cols.mksens _ (by decide)
    rw [load_ordinary hdevice htype hordinary b, load_ordinary hdevice htype hordinary b']

/-- An empty cell where there is no second sensor. -/
def emptyCells : List Record :=
  [Record.of [("device", "10.1B"), ("type", "DS1820"), ("abbrv1", "OAT"), ("abbrv2", "")]]

/-- It makes a second sensor in two of the back-ends. -/
theorem backends_disagree :
    ¬ BackendsAgree noFixed mksensColumns.names emptyCells ∧
      (Backend.load noFixed mksensColumns.names emptyCells .sqlite).toOption.map (List.map Entry.ns) =
        some [1] ∧
      (Backend.load noFixed mksensColumns.names emptyCells .odbc).toOption.map (List.map Entry.ns) =
        some [2] ∧
      (Backend.load noFixed mksensColumns.names emptyCells .mongo).toOption.map (List.map Entry.ns) =
        some [2] := by
  have hsqlite : (Backend.load noFixed mksensColumns.names emptyCells .sqlite).toOption.map
      (List.map Entry.ns) = some [1] := by decide
  have hodbc : (Backend.load noFixed mksensColumns.names emptyCells .odbc).toOption.map
      (List.map Entry.ns) = some [2] := by decide
  refine ⟨fun h => ?_, hsqlite, hodbc, by decide⟩
  rw [h .sqlite .odbc, hodbc] at hsqlite
  exact absurd hsqlite (by decide)

end W1Retap

import W1Retap.Tables.Loading

/-!
# Sensor tables in files

The `w1_init` of the file plugin reads a line at a time into a buffer of 256 bytes and
hands the fields to `w1_set_device_data_index` by their positions, which are those of the
columns of `docs/mksens.sql` and of the interval behind them.
-/
namespace W1Retap

open CStrings Programs

/-- `(p && *p) ? strdup (p) : NULL` -/
def fieldOf (p : CString) : Option CString := filled (some p)

/-- The fields from position `j` on. -/
def fileFields : List CString → ℕ → Entry → Except Stop Entry
  | [], _, e => .ok e
  | p :: ps, j, e => do
    let e ← w1SetDeviceDataIndex e j (fieldOf p)
    fileFields ps (j + 1) e

/-- What a line with a device and a type does to its entry. -/
def fileEntry (serno devtype : CString) (rest : List CString) (e : Entry) : Except Stop Entry := do
  let e ← w1SetDeviceDataIndex e 0 (fieldOf serno)
  let e ← w1SetDeviceDataIndex e 1 (fieldOf devtype)
  let e ← w1Enumdevs e
  fileFields rest 2 e

/-- The loop over the fields of a line; the device is looked up at the second one. -/
def fileLine (fields : List CString) (devs : List Entry) : Except Stop (List Entry) :=
  match fields with
  | serno :: devtype :: rest => do
    let nn ← w1GetDeviceIndex (fieldOf serno) (fieldOf devtype) devs
    let devs := if nn.isNone then devs ++ [Entry.zero] else devs
    let nx := nn.getD (devs.length - 1)
    let e ← fileEntry serno devtype rest (devs.getD nx .zero)
    return devs.set nx e
  | _ => return devs

/-- What the buffer holds is a row if it begins with a letter or a digit. -/
def filePiece (devs : List Entry) (line : CString) : Except Stop (List Entry) :=
  if line.head?.any isalnum then fileLine (strsep ['|', ':'] (line.takeWhile (· ≠ '\n'))) devs
  else .ok devs

/-- `w1_init` of the file plugin, for the contents of its file. -/
def fileInit (text : CString) : Except Stop (List Entry) := (fgets 255 text []).foldlM filePiece []

/-! ## Positions are columns -/

/-- The columns that the positions of a line stand for. -/
def fileCols : List CString := mksensCols ++ [intervalCol]

/-- The cells of a line. -/
def fieldCells (fields : List CString) : List (CString × CString) :=
  (fileCols.zip fields).filterMap fun p => (fieldOf p.2).map (p.1, ·)

theorem setIndex_eq (e : Entry) (sv : CString) {j : ℕ} {name : CString}
    (hj : fileCols[j]? = some name) (htype : j = 1 → e.devtype = none) :
    w1SetDeviceDataIndex e j (some sv) = w1SetDeviceData e name sv := by
  have hlt : j < 10 := (List.getElem?_eq_some_iff.mp hj).1
  interval_cases j <;> obtain rfl := Option.some.inj hj <;> try rfl
  simp [w1SetDeviceDataIndex, w1SetDeviceData, typeCol, htype]

theorem setIndex_beyond (e : Entry) (sv : Option CString) {j : ℕ} (hj : fileCols.length ≤ j) :
    w1SetDeviceDataIndex e j sv = .ok e := by
  obtain ⟨k, rfl⟩ := Nat.exists_eq_add_of_le' hj
  cases sv <;> rfl

/-- The cells of the fields from position `j` on. -/
def fieldCellsFrom (fields : List CString) (j : ℕ) : List (CString × CString) :=
  ((fileCols.drop j).zip fields).filterMap fun p => (fieldOf p.2).map (p.1, ·)

theorem fieldCells_cons_cons (serno devtype : CString) (rest : List CString) :
    fieldCells (serno :: devtype :: rest) =
      ((fieldOf serno).map (deviceCol, ·)).toList ++ ((fieldOf devtype).map (typeCol, ·)).toList ++
        fieldCellsFrom rest 2 := by
  have hcols : fileCols = deviceCol :: typeCol :: fileCols.drop 2 := rfl
  rw [fieldCells, hcols, List.zip_cons_cons, List.zip_cons_cons]
  cases hs : fieldOf serno <;> cases ht : fieldOf devtype <;>
    simp [hs, ht, fieldCellsFrom]

theorem fileFields_eq (fields : List CString) {j : ℕ} (hj : 2 ≤ j) (e : Entry) :
    fileFields fields j e = setCells e (fieldCellsFrom fields j) := by
  induction fields generalizing j e with
  | nil => simp [fileFields, fieldCellsFrom, setCells, pure, Except.pure]
  | cons p ps ih =>
    rw [fileFields]
    simp only [ih (show 2 ≤ j + 1 by omega)]
    by_cases hlt : j < fileCols.length
    · have hdrop : fileCols.drop j = fileCols[j] :: fileCols.drop (j + 1) := List.drop_eq_getElem_cons hlt
      cases hp : fieldOf p with
      | none =>
        have hcells : fieldCellsFrom (p :: ps) j = fieldCellsFrom ps (j + 1) := by
          rw [fieldCellsFrom, hdrop, List.zip_cons_cons, List.filterMap_cons_none (by rw [hp]; rfl)]
          rfl
        rw [hcells]
        rfl
      | some v =>
        have hcells : fieldCellsFrom (p :: ps) j = (fileCols[j], v) :: fieldCellsFrom ps (j + 1) := by
          rw [fieldCellsFrom, hdrop, List.zip_cons_cons, List.filterMap_cons_some (by rw [hp]; rfl)]
          rfl
        rw [hcells, setCells, List.foldlM_cons,
          setIndex_eq e v (List.getElem?_eq_getElem hlt) (by omega)]
        rfl
    · have hnone : ∀ fields, ∀ k, j ≤ k → fieldCellsFrom fields k = [] := by
        intro fields k hk
        rw [fieldCellsFrom, List.drop_eq_nil_of_le (by omega)]
        simp
      rw [setIndex_beyond e _ (by omega), hnone _ j le_rfl, hnone _ (j + 1) (by omega)]
      rfl

/-! ## A line is a row -/

/-- An entry that has its type can take the other cells before or after `w1_enumdevs`. -/
theorem stepRow_enumerated {e : Entry} {cells : List (CString × CString)} {ty : CString}
    (hty : e.devtype = some ty) (henum : e.stype = (typeOf ty).getD e.stype) :
    stepRow cells e = setCells e cells := by
  obtain ⟨hserial, hdevtype, hstype, hparams, hintvl⟩ := foldl_assign e cells
  rw [stepRow_eq e cells (by simp [hty]), setCells_eq]
  refine congrArg (Except.map · _) (funext fun xs => ?_)
  obtain ⟨hs', hserial', hdevtype', hstype', hparams', hintvl'⟩ := fill_fields e cells xs
  apply Entry.ext_sensors
  · rw [hs', Entry.withSensors_sensors]
  · exact hserial'.trans hserial.symm
  · exact hdevtype'.trans hdevtype.symm
  · rw [hty] at hstype'
    exact hstype'.trans (henum.symm.trans hstype.symm)
  · exact hparams'.trans hparams.symm
  · exact hintvl'.trans hintvl.symm

/-- A line fills a new entry, or one of its device and type, as the row with its cells does. -/
theorem fileEntry_eq {serno devtype : CString} {rest : List CString} {e : Entry} {d ty : CString}
    (hserno : fieldOf serno = some d) (hdevtype : fieldOf devtype = some ty)
    (he : e.devtype = none ∨ e.devtype = some ty) :
    fileEntry serno devtype rest e = stepRow (fieldCells (serno :: devtype :: rest)) e := by
  have hcells : fieldCells (serno :: devtype :: rest) =
      [(deviceCol, d), (typeCol, ty)] ++ fieldCellsFrom rest 2 := by
    rw [fieldCells_cons_cons, hserno, hdevtype]
    rfl
  have hmid : e.devtype.or (firstCell typeCol [(deviceCol, d), (typeCol, ty)]) = some ty := by
    rcases he with he | he <;> rw [he] <;> rfl
  -- the first two fields and `w1_enumdevs` are a row of their own
  have hfirst : (do
      let e ← w1SetDeviceDataIndex e 0 (fieldOf serno)
      let e ← w1SetDeviceDataIndex e 1 (fieldOf devtype)
      w1Enumdevs e) = stepRow [(deviceCol, d), (typeCol, ty)] e := by
    have htype : ∀ e : Entry, e.devtype = none ∨ e.devtype = some ty →
        w1SetDeviceDataIndex e 1 (some ty) = w1SetDeviceData e typeCol ty := by
      rintro e (he | he)
      · exact setIndex_eq e ty rfl fun _ => he
      · have hsame : ({ e with devtype := some ty } : Entry) = e := by rw [← he]
        simp [w1SetDeviceDataIndex, w1SetDeviceData, typeCol, he, hsame]
    have hdevice : w1SetDeviceData e deviceCol d = .ok { e with serial := some d } := rfl
    rw [hserno, hdevtype, setIndex_eq e d (j := 0) rfl (by omega), stepRow, setCells,
      List.foldlM_cons, hdevice]
    change (w1SetDeviceDataIndex { e with serial := some d } 1 (some ty) >>= w1Enumdevs) = _
    rw [htype { e with serial := some d } he]
    change _ = ((w1SetDeviceData { e with serial := some d } typeCol ty >>= pure) >>= w1Enumdevs)
    rw [bind_pure]
  have hother : ∀ v, attachCell e.sensors (deviceCol, v) = .ok e.sensors ∧
      attachCell e.sensors (typeCol, v) = .ok e.sensors := by
    have hdevice : deviceCol ∉ sensorCols := by decide
    have htype : typeCol ∉ sensorCols := by decide
    exact fun v => ⟨attachCell_other _ hdevice, attachCell_other _ htype⟩
  have hfill : stepRow [(deviceCol, d), (typeCol, ty)] e =
      .ok (e.fill [(deviceCol, d), (typeCol, ty)] e.sensors) := by
    rw [stepRow_eq e _ (by rw [hmid]; rfl), List.foldlM_cons, (hother d).1]
    change (attachCell e.sensors (typeCol, ty) >>= pure).map _ = _
    rw [bind_pure, (hother ty).2]
    rfl
  have hentry : fileEntry serno devtype rest e =
      (do
        let e ← w1SetDeviceDataIndex e 0 (fieldOf serno)
        let e ← w1SetDeviceDataIndex e 1 (fieldOf devtype)
        w1Enumdevs e) >>= fileFields rest 2 := by
    simp only [fileEntry, bind_assoc]
  obtain ⟨-, -, hdevtype', hstype', -, -⟩ := fill_fields e [(deviceCol, d), (typeCol, ty)] e.sensors
  rw [hmid] at hdevtype' hstype'
  rw [hentry, hfirst, hcells, ← stepRow_append (by rw [hmid]; rfl), hfill]
  change fileFields rest 2 _ = stepRow (fieldCellsFrom rest 2) _
  rw [fileFields_eq rest le_rfl, stepRow_enumerated hdevtype']
  rw [hstype']
  cases hof : typeOf ty <;> simp [hof]

theorem fileLine_eq {serno devtype : CString} {rest : List CString} {devs : List Entry} {d ty : CString}
    (hserno : fieldOf serno = some d) (hdevtype : fieldOf devtype = some ty)
    (h : ∀ e ∈ devs, e.Named) :
    fileLine (serno :: devtype :: rest) devs =
      loadRow (some d) (some ty) (fieldCells (serno :: devtype :: rest)) devs := by
  have hfind : w1GetDeviceIndex (some d) (some ty) devs = _ := w1GetDeviceIndex_ok h
  rw [loadRow_eq hfind]
  simp only [fileLine, hserno, hdevtype, hfind]
  -- the entry that is found has the type of the line
  have hentry : ∀ e : Entry, e.devtype = none ∨ e.devtype = some ty →
      fileEntry serno devtype rest e = stepRow (fieldCells (serno :: devtype :: rest)) e :=
    fun e he => fileEntry_eq hserno hdevtype he
  cases hidx : devs.findIdx? fun e => e.key = ⟨some d, some ty⟩ with
  | none =>
    have hzero : (devs ++ [Entry.zero]).getD devs.length .zero = .zero := by simp
    simp only [bind, Except.bind, Option.isNone_none, if_true, Option.getD_none, List.length_append,
      List.length_singleton, Nat.add_sub_cancel, hzero, hentry .zero (Or.inl rfl)]
    rfl
  | some i =>
    obtain ⟨hi, hkey, -⟩ := List.findIdx?_eq_some_iff_getElem.mp hidx
    have hget : devs.getD i .zero = devs[i] := by simp [hi]
    have hty : devs[i].devtype = some ty := congrArg Key.devtype (by simpa using hkey)
    simp only [bind, Except.bind, Option.isNone_some, Bool.false_eq_true, if_false, Option.getD_some,
      hget, hentry devs[i] (Or.inr hty)]
    rfl

/-! ## Lines -/

/-- The line of a row: its cells between bars, NULL as an empty one. -/
def rowLine (row : Record) : CString :=
  List.intercalate ['|'] (fileCols.map fun n => (row n).getD [])

/-- The file of the rows. -/
def fileText (rows : List Record) : CString := rows.flatMap fun row => rowLine row ++ ['\n']

/-- A row that can stand in a file: no cell has a separator or a newline, the device begins
with a letter or a digit, and there is a type. -/
structure FileRow (row : Record) : Prop where
  clean : ∀ n ∈ fileCols, ∀ v, row n = some v → ∀ c ∈ v, c ≠ '|' ∧ c ≠ ':' ∧ c ≠ '\n'
  device : ∃ c v, row deviceCol = some (c :: v) ∧ isalnum c
  type : (filled (row typeCol)).isSome

theorem fieldOf_getD (cell : Option CString) : fieldOf (cell.getD []) = filled cell := by
  cases cell <;> rfl

/-- The cells of a row as fields are its cells as columns. -/
theorem fieldCells_cells (row : Record) :
    fieldCells (fileCols.map fun n => (row n).getD []) = filledCells fileCols row := by
  have hzip : fileCols.zip (fileCols.map fun n => (row n).getD []) =
      fileCols.map fun n => (n, (row n).getD []) := by
    rw [← List.map_prod_left_eq_zip]
  rw [fieldCells, hzip, filledCells, List.filterMap_map]
  congr 1
  funext n
  simp [fieldOf_getD]

/-- What is read back from the line of a row are its cells. -/
theorem strsep_rowLine {row : Record} (h : FileRow row) :
    strsep ['|', ':'] (rowLine row) = fileCols.map fun n => (row n).getD [] := by
  apply strsep_intercalate (by decide) (by simp [fileCols])
  intro v hv c hc
  obtain ⟨n, hn, rfl⟩ := List.mem_map.mp hv
  cases hcell : row n with
  | none => simp [hcell] at hc
  | some v =>
    have hclean := h.clean n hn v hcell c (by simpa [hcell] using hc)
    simp [hclean.1, hclean.2.1]

/-- A line that fits into the buffer is read whole; one that fills it leaves its newline. -/
theorem fgets_line {size : ℕ} {line rest cur : List Char} (hline : '\n' ∉ line)
    (hcur : cur.length < size) (hlen : cur.length + line.length ≤ size) :
    fgets size (line ++ '\n' :: rest) cur =
      if cur.length + line.length < size then
        (cur.reverse ++ line ++ ['\n']) :: fgets size rest []
      else (cur.reverse ++ line) :: ['\n'] :: fgets size rest [] := by
  induction line generalizing cur with
  | nil => simp [fgets, hcur]
  | cons c line ih =>
    obtain ⟨hc, hline⟩ := not_or.mp (List.mem_cons.not.mp hline)
    rw [List.length_cons] at hlen ⊢
    rw [List.cons_append, fgets]
    by_cases hfull : cur.length + 1 = size
    · have hnil : line = [] := List.eq_nil_of_length_eq_zero (by omega)
      subst hnil
      rw [if_pos (Or.inr hfull), if_neg (by simp; omega)]
      simp [fgets]
    · rw [if_neg (not_or.mpr ⟨Ne.symm hc, hfull⟩), ih hline (by simp; omega) (by simp; omega)]
      simp [Nat.add_right_comm, Nat.add_assoc]

theorem rowLine_notMem {row : Record} (h : FileRow row) : '\n' ∉ rowLine row := by
  intro hmem
  rcases mem_intercalate hmem with hsep | ⟨v, hv, hc⟩
  · exact absurd hsep (by decide)
  · obtain ⟨n, hn, rfl⟩ := List.mem_map.mp hv
    cases hcell : row n with
    | none => simp [hcell] at hc
    | some v => exact (h.clean n hn v hcell '\n' (by simpa [hcell] using hc)).2.2 rfl

theorem rowLine_head {row : Record} (h : FileRow row) : (rowLine row).head?.any isalnum := by
  obtain ⟨c, v, hdevice, hc⟩ := h.device
  have hcols : fileCols = deviceCol :: typeCol :: fileCols.drop 2 := rfl
  rw [rowLine, hcols]
  simp [List.intercalate, hdevice, hc]

/-- A line that fits is a row, with or without its newline. -/
theorem filePiece_rowLine {row : Record} (h : FileRow row) (devs : List Entry) {tail : CString}
    (htail : tail = [] ∨ tail = ['\n']) :
    filePiece devs (rowLine row ++ tail) = fileLine (fileCols.map fun n => (row n).getD []) devs := by
  have hhead : (rowLine row ++ tail).head?.any isalnum := by
    have hrow := rowLine_head h
    rw [List.head?_append]
    cases hl : (rowLine row).head? with
    | none => simp [hl] at hrow
    | some c => simpa [hl] using hrow
  have htake : (rowLine row ++ tail).takeWhile (· ≠ '\n') = rowLine row := by
    have hline : ∀ c ∈ rowLine row, decide (c ≠ '\n') = true := by
      intro c hc
      have hne : c ≠ '\n' := fun heq => rowLine_notMem h (heq ▸ hc)
      simpa using hne
    rw [List.takeWhile_append_of_pos hline]
    rcases htail with rfl | rfl <;> simp
  rw [filePiece, if_pos hhead, htake, strsep_rowLine h]

theorem FileRow.named {row : Record} (h : FileRow row) :
    RowNamed row.key (filledCells mksensColumns.names row) := by
  obtain ⟨c, v, hdevice, -⟩ := h.device
  exact Record.named (by simp [hdevice, filled, Option.filter]) h.type mksensColumns

/-- A file whose lines fit into the buffer loads as the table of its rows. -/
theorem fileInit_eq {rows : List Record} (hrows : ∀ row ∈ rows, FileRow row)
    (hlen : ∀ row ∈ rows, (rowLine row).length ≤ 255) :
    fileInit (fileText rows) = sqliteInit mksensColumns rows := by
  -- the buffer holds one row at a time
  have hpieces : ∀ devs, (fgets 255 (fileText rows) []).foldlM filePiece devs =
      rows.foldlM (fun devs row => fileLine (fileCols.map fun n => (row n).getD []) devs) devs := by
    induction rows with
    | nil => exact fun devs => rfl
    | cons row rows ih =>
      intro devs
      obtain ⟨hrow, hrows⟩ := List.forall_mem_cons.mp hrows
      obtain ⟨hlen, hlens⟩ := List.forall_mem_cons.mp hlen
      have hrest : ∀ devs, (fgets 255 (fileText rows) []).foldlM filePiece devs = _ := ih hrows hlens
      have htext : fileText (row :: rows) = rowLine row ++ '\n' :: fileText rows := by
        simp [fileText]
      rw [htext, fgets_line (rowLine_notMem hrow) (by simp) (by simpa using hlen), List.foldlM_cons]
      split
      · rw [List.foldlM_cons, List.reverse_nil, List.nil_append,
          filePiece_rowLine hrow devs (Or.inr rfl)]
        exact congrArg _ (funext hrest)
      · have hline := filePiece_rowLine hrow devs (Or.inl rfl)
        rw [List.append_nil] at hline
        rw [List.foldlM_cons, List.reverse_nil, List.nil_append, hline]
        refine congrArg _ (funext fun devs => ?_)
        rw [List.foldlM_cons]
        exact hrest devs
  rw [fileInit, hpieces]
  apply foldlM_congr (P := fun devs => ∀ e ∈ devs, e.Named)
  · simp
  · intro row hrow devs hdevs
    obtain ⟨c, v, hdevice, -⟩ := (hrows row hrow).device
    obtain ⟨ty, hty⟩ := Option.isSome_iff_exists.mp (hrows row hrow).type
    have htype : row typeCol = some ty := (filled_eq (hrows row hrow).type).symm.trans hty
    have hserno : fieldOf ((row deviceCol).getD []) = some (c :: v) := by
      simp [hdevice, fieldOf, filled, Option.filter]
    have hdevtype : fieldOf ((row typeCol).getD []) = some ty := by
      rw [htype] at hty ⊢
      exact hty
    have hcols : fileCols.map (fun n => (row n).getD []) = (row deviceCol).getD [] ::
        (row typeCol).getD [] :: (fileCols.drop 2).map fun n => (row n).getD [] := rfl
    have hcells : filledCells mksensColumns.names row =
        fieldCells (fileCols.map fun n => (row n).getD []) :=
      (fieldCells_cells row).symm
    rw [hcells, hcols, fileLine_eq hserno hdevtype hdevs, hdevice, htype]
  · exact fun row hrow devs devs' hdevs hload => loadRow_named (hrows row hrow).named hdevs hload

end W1Retap

import W1Retap.Tables.Merging

/-!
# What a table configures

In the column order of `docs/mksens.sql` each name and unit column stands behind the
abbreviation it belongs to. Then every row contributes the sensors it names, in order,
to the one device of its pair, and no others.
-/
namespace W1Retap

open Programs

/-! ## Cells by column -/

theorem firstCell_isSome {name : CString} {cells : List (CString × CString)} :
    (firstCell name cells).isSome ↔ ∃ c ∈ cells, c.1 = name := by
  simp [firstCell]

theorem firstCell_filledCells (names : List CString) (row : Record) (name : CString) :
    firstCell name (filledCells names row) = if name ∈ names then filled (row name) else none := by
  induction names with
  | nil => simp [firstCell, filledCells]
  | cons n names ih =>
    by_cases hn : n = name
    · subst hn
      cases hf : filled (row n) with
      | none =>
        rw [filledCells, List.filterMap_cons_none (by rw [hf]; rfl), ← filledCells, ih, hf]
        simp
      | some v =>
        rw [filledCells, List.filterMap_cons_some (by rw [hf]; rfl), firstCell_cons]
        simp
    · have hskip : firstCell name (filledCells (n :: names) row) =
          firstCell name (filledCells names row) := by
        cases hf : filled (row n) with
        | none => rw [filledCells, List.filterMap_cons_none (by rw [hf]; rfl), ← filledCells]
        | some v =>
          rw [filledCells, List.filterMap_cons_some (by rw [hf]; rfl), firstCell_cons, if_neg hn,
            ← filledCells]
      rw [hskip, ih]
      simp [Ne.symm hn]

theorem filledCells_reverse (names : List CString) (row : Record) :
    (filledCells names row).reverse = filledCells names.reverse row :=
  (List.filterMap_reverse ..).symm

theorem lastCell_filledCells (names : List CString) (row : Record) (name : CString) :
    lastCell name (filledCells names row) = if name ∈ names then filled (row name) else none := by
  rw [lastCell, filledCells_reverse, firstCell_filledCells]
  simp

/-- The last cell of a column that is neither NULL nor empty. -/
def lastFilled (names : List CString) (rows : List Record) (name : CString) : Option CString :=
  if name ∈ names then (rows.filterMap fun row => filled (row name)).getLast? else none

theorem lastCell_rows (names : List CString) (rows : List Record) (name : CString) :
    lastCell name (rows.flatMap (filledCells names)) = lastFilled names rows name := by
  unfold lastFilled
  induction rows using List.reverseRecOn with
  | nil => simp [lastCell, firstCell]
  | append_singleton rows row ih =>
    rw [List.flatMap_append, lastCell_append, List.flatMap_singleton, lastCell_filledCells, ih]
    by_cases hname : name ∈ names
    · simp only [if_pos hname, List.filterMap_append]
      cases hf : filled (row name) with
      | none => simp [hf]
      | some v => simp [hf]
    · simp [hname]

/-! ## The sensors of a row -/

/-- A sensor that a row names. -/
def rowSensor (row : Record) (abbrv name units : CString) : Option Sensor :=
  (filled (row abbrv)).map fun a =>
    { abbrv := some a, name := filled (row name), units := filled (row units) }

/-- The sensors that a row names. -/
def rowSensors (row : Record) : List Sensor :=
  (rowSensor row abbrv1Col name1Col units1Col).toList ++
    (rowSensor row abbrv2Col name2Col units2Col).toList

/-- The row has a device and a type, and names and units only for abbreviations. -/
structure WellFilled (row : Record) : Prop where
  device : (filled (row deviceCol)).isSome
  type : (filled (row typeCol)).isSome
  first : filled (row abbrv1Col) = none → filled (row name1Col) = none ∧ filled (row units1Col) = none
  second : filled (row abbrv2Col) = none → filled (row name2Col) = none ∧ filled (row units2Col) = none

section
variable (xs : List Sensor) {c : CString × CString}

theorem attachCell_abbrv (h : c.1 = abbrv1Col ∨ c.1 = abbrv2Col) :
    attachCell xs c = .ok (xs ++ [{ abbrv := some c.2 }]) := by
  unfold attachCell
  exact if_pos h

theorem attachCell_name (h : c.1 = name1Col ∨ c.1 = name2Col) :
    attachCell xs c = match xs.getLast? with
      | none => .error .noSlot
      | some x => .ok (xs.dropLast ++ [{ x with name := some c.2 }]) := by
  unfold attachCell
  have ha : ¬ (c.1 = "abbrv1".toList ∨ c.1 = "abbrv2".toList) := by
    rcases h with h | h <;> rw [h] <;> decide
  rw [if_neg ha]
  exact if_pos h

theorem attachCell_units (h : c.1 = units1Col ∨ c.1 = units2Col) :
    attachCell xs c = match xs.getLast? with
      | none => .error .noSlot
      | some x => .ok (xs.dropLast ++ [{ x with units := some c.2 }]) := by
  unfold attachCell
  have ha : ¬ (c.1 = "abbrv1".toList ∨ c.1 = "abbrv2".toList) := by
    rcases h with h | h <;> rw [h] <;> decide
  have hn : ¬ (c.1 = "name1".toList ∨ c.1 = "name2".toList) := by
    rcases h with h | h <;> rw [h] <;> decide
  rw [if_neg ha, if_neg hn]
  exact if_pos h

theorem attachCell_other (h : c.1 ∉ sensorCols) :
    attachCell xs c = .ok xs := by
  simp only [sensorCols, List.mem_cons, List.not_mem_nil, or_false, not_or] at h
  obtain ⟨ha₁, hn₁, hu₁, ha₂, hn₂, hu₂⟩ := h
  have ha : ¬ (c.1 = "abbrv1".toList ∨ c.1 = "abbrv2".toList) := not_or.mpr ⟨ha₁, ha₂⟩
  have hn : ¬ (c.1 = "name1".toList ∨ c.1 = "name2".toList) := not_or.mpr ⟨hn₁, hn₂⟩
  have hu : ¬ (c.1 = "units1".toList ∨ c.1 = "units2".toList) := not_or.mpr ⟨hu₁, hu₂⟩
  unfold attachCell
  rw [if_neg ha, if_neg hn, if_neg hu]

end

/-- Only the sensor columns make sensors. -/
theorem foldlM_attachCell_filter (xs : List Sensor) (cells : List (CString × CString)) :
    cells.foldlM attachCell xs = (cells.filter (·.1 ∈ sensorCols)).foldlM attachCell xs := by
  induction cells generalizing xs with
  | nil => rfl
  | cons c cells ih =>
    by_cases hc : c.1 ∈ sensorCols
    · rw [List.filter_cons_of_pos (by simpa using hc), List.foldlM_cons, List.foldlM_cons]
      exact congrArg _ (funext ih)
    · rw [List.filter_cons_of_neg (by simpa using hc), List.foldlM_cons, attachCell_other xs hc]
      exact ih xs

theorem filledCells_filter (names : List CString) (row : Record) (p : CString → Bool) :
    (filledCells names row).filter (p ·.1) = filledCells (names.filter p) row := by
  rw [filledCells, filledCells, List.filter_filterMap, List.filterMap_filter]
  congr 1
  funext n
  cases filled (row n) with
  | none => simp
  | some v => simp [Option.filter]

/-- Three columns in the order abbreviation, name, units. -/
structure Triple (abbrv name units : CString) : Prop where
  abbrv : abbrv = abbrv1Col ∨ abbrv = abbrv2Col
  name : name = name1Col ∨ name = name2Col
  units : units = units1Col ∨ units = units2Col

theorem attach_triple {abbrv name units : CString} (h : Triple abbrv name units) (row : Record)
    (hrow : filled (row abbrv) = none → filled (row name) = none ∧ filled (row units) = none)
    (xs : List Sensor) :
    (filledCells [abbrv, name, units] row).foldlM attachCell xs =
      .ok (xs ++ (rowSensor row abbrv name units).toList) := by
  cases ha : filled (row abbrv) with
  | none =>
    obtain ⟨hn, hu⟩ := hrow ha
    simp [filledCells, rowSensor, ha, hn, hu, pure, Except.pure]
  | some a =>
    have habbrv := attachCell_abbrv xs (c := (abbrv, a)) h.abbrv
    have hname := fun v xs => attachCell_name xs (c := (name, v)) h.name
    have hunits := fun v xs => attachCell_units xs (c := (units, v)) h.units
    cases hn : filled (row name) <;> cases hu : filled (row units) <;>
      simp [filledCells, rowSensor, ha, hn, hu, habbrv, hname, hunits, bind, Except.bind, pure,
        Except.pure]

/-- The columns of `docs/mksens.sql` stand in their order; others may stand anywhere. -/
def MksensOrder (names : List CString) : Prop := names.filter (· ∈ mksensCols) = mksensCols

theorem MksensOrder.filter {names : List CString} (h : MksensOrder names) {S : List CString}
    (hS : ∀ n ∈ S, n ∈ mksensCols) : names.filter (· ∈ S) = mksensCols.filter (· ∈ S) := by
  rw [← h, List.filter_filter]
  apply List.filter_congr
  intro n _
  by_cases hn : n ∈ S <;> simp [hn, hS]

theorem attach_row {names : List CString} (horder : MksensOrder names) {row : Record}
    (hrow : WellFilled row) (xs : List Sensor) :
    (filledCells names row).foldlM attachCell xs = .ok (xs ++ rowSensors row) := by
  have hsplit : filledCells sensorCols row = filledCells [abbrv1Col, name1Col, units1Col] row ++
      filledCells [abbrv2Col, name2Col, units2Col] row := by
    rw [filledCells, filledCells, filledCells, ← List.filterMap_append]
    rfl
  rw [foldlM_attachCell_filter, filledCells_filter names row (· ∈ sensorCols),
    horder.filter (by decide), show mksensCols.filter (· ∈ sensorCols) = sensorCols by decide, hsplit, List.foldlM_append,
    attach_triple ⟨Or.inl rfl, Or.inl rfl, Or.inl rfl⟩ row hrow.first]
  change (filledCells [abbrv2Col, name2Col, units2Col] row).foldlM attachCell _ = _
  rw [attach_triple ⟨Or.inr rfl, Or.inr rfl, Or.inr rfl⟩ row hrow.second, List.append_assoc]
  rfl

theorem attach_rows {names : List CString} (horder : MksensOrder names) {rows : List Record}
    (hrows : ∀ row ∈ rows, WellFilled row) (xs : List Sensor) :
    (rows.flatMap (filledCells names)).foldlM attachCell xs = .ok (xs ++ rows.flatMap rowSensors) := by
  induction rows generalizing xs with
  | nil => simp [pure, Except.pure]
  | cons row rows ih =>
    obtain ⟨hrow, hrows⟩ := List.forall_mem_cons.mp hrows
    rw [List.flatMap_cons, List.foldlM_append, attach_row horder hrow]
    change (rows.flatMap (filledCells names)).foldlM attachCell _ = _
    rw [ih hrows, List.flatMap_cons, List.append_assoc]

/-! ## The devices of a table -/

/-- The pair that a row is about. -/
def Record.key (row : Record) : Key := ⟨row deviceCol, row typeCol⟩

/-- The entry is what `rows`, all of one pair, say about it. -/
structure LoadedFrom (names : List CString) (rows : List Record) (e : Entry) : Prop where
  sensors : e.sensors = rows.flatMap rowSensors
  stype : e.stype = (e.devtype.bind typeOf).getD .invalid
  params : e.params = (lastFilled names rows paramsCol).bind w1DevParams
  intvl : e.intvl = (lastFilled names rows intervalCol).elim 0 intvlOf

theorem filled_eq {cell : Option CString} (h : (filled cell).isSome) : filled cell = cell := by
  cases cell with
  | none => rfl
  | some v =>
    by_cases hv : v = []
    · simp [filled, Option.filter, hv] at h
    · simp [filled, Option.filter, hv]

theorem Record.named {row : Record} (hdevice : (filled (row deviceCol)).isSome)
    (htype : (filled (row typeCol)).isSome) (cols : Columns) :
    RowNamed row.key (filledCells cols.names row) where
  device := by rw [Record.key, ← filled_eq hdevice]; exact hdevice
  type := by rw [Record.key, ← filled_eq htype]; exact htype
  device_eq := by
    rw [lastCell_filledCells, if_pos (cols.mksens _ (by decide)), filled_eq hdevice, Record.key]
  type_eq := by
    rw [firstCell_filledCells, if_pos (cols.mksens _ (by decide)), filled_eq htype, Record.key]

/-- On rows with a device and a type the two plugins look entries up in the same way. -/
theorem pgsqlInit_eq {cols : Columns} {rows : List Record} (h : ∀ row ∈ rows, WellFilled row) :
    pgsqlInit cols rows = sqliteInit cols rows := by
  apply foldlM_congr (P := fun _ => True) trivial
  · intro row hrow devs _
    have hdevice := filled_eq (h row hrow).device
    have htype := filled_eq (h row hrow).type
    obtain ⟨d, hd⟩ := Option.isSome_iff_exists.mp (hdevice ▸ (h row hrow).device)
    obtain ⟨ty, hty⟩ := Option.isSome_iff_exists.mp (htype ▸ (h row hrow).type)
    rw [hd, hty]
    rfl
  · exact fun _ _ _ _ _ _ => trivial

/-- Every pair of device and type becomes one device, in order of first appearance, with
the sensors that its rows name. -/
theorem init_groups {cols : Columns} {rows : List Record} (horder : MksensOrder cols.names)
    (hrows : ∀ row ∈ rows, WellFilled row) :
    ∃ devs, sqliteInit cols rows = .ok devs ∧ pgsqlInit cols rows = .ok devs ∧
      devs.map Entry.key = (rows.map Record.key).eraseDups ∧
      ∀ e ∈ devs, LoadedFrom cols.names (rows.filter (·.key = e.key)) e := by
  have hnamed : ∀ row ∈ rows, RowNamed row.key (filledCells cols.names row) :=
    fun row hrow => Record.named (hrows row hrow).device (hrows row hrow).type cols
  let made (k : Key) : Entry := Entry.zero.fill
    ((rows.filter (·.key = k)).flatMap (filledCells cols.names))
    ((rows.filter (·.key = k)).flatMap rowSensors)
  have hmade : (rows.map Record.key).eraseDups.mapM (fun k =>
      stepRow ((rows.filter (·.key = k)).flatMap (filledCells cols.names)) .zero) =
      .ok ((rows.map Record.key).eraseDups.map made) := by
    apply mapM_ok
    intro k hk
    obtain ⟨row, hrow, rfl⟩ := List.mem_map.mp (List.mem_eraseDups.mp hk)
    have htype : (firstCell typeCol
        ((rows.filter (·.key = row.key)).flatMap (filledCells cols.names))).isSome := by
      obtain ⟨c, hc, hname⟩ := firstCell_isSome.mp ((hnamed row hrow).type_eq ▸ (hnamed row hrow).type)
      exact firstCell_isSome.mpr ⟨c, List.mem_flatMap.mpr
        ⟨row, List.mem_filter.mpr ⟨hrow, by simp⟩, hc⟩, hname⟩
    rw [stepRow_eq Entry.zero _ htype]
    have hrows' : ∀ r ∈ rows.filter (·.key = row.key), WellFilled r :=
      fun r hr => hrows r (List.mem_filter.mp hr).1
    rw [attach_rows horder hrows']
    rfl
  have hload := (load_ok hnamed).mpr hmade
  have hkeys := load_keys hnamed hload
  refine ⟨_, hload, (pgsqlInit_eq hrows).trans hload, hkeys, fun e he => ?_⟩
  obtain ⟨k, hk, rfl⟩ := List.mem_map.mp he
  have hkey : (made k).key = k := by
    rw [List.map_map] at hkeys
    nth_rewrite 2 [← List.map_id (rows.map Record.key).eraseDups] at hkeys
    exact List.map_inj_left.mp hkeys k hk
  obtain ⟨hs, -, hdevtype, hstype, hparams, hintvl⟩ := fill_fields Entry.zero
    ((rows.filter (·.key = k)).flatMap (filledCells cols.names))
    ((rows.filter (·.key = k)).flatMap rowSensors)
  rw [lastCell_rows] at hparams hintvl
  rw [hkey]
  refine ⟨hs, ?_, ?_, hintvl⟩
  · rw [hstype, hdevtype]
    rfl
  · rw [hparams]
    cases lastFilled cols.names (rows.filter (·.key = k)) paramsCol <;> rfl

/-- A row with the given cells and NULL elsewhere. -/
def Record.of (cells : List (String × String)) : Record := fun name =>
  (cells.find? (·.1.toList = name)).map (·.2.toList)

def mksensColumns : Columns where
  names := mksensCols ++ [intervalCol]
  nodup := by decide
  mksens := by decide

/-- A humidity sensor and a coupler with two rows. -/
def garden : List Record :=
  [.of [("device", "26378851000000AB"), ("type", "TAI8540"), ("abbrv1", "OHUM"),
      ("name1", "Humidity"), ("units1", "%"), ("abbrv2", "OTMP0"), ("name2", "Outside")],
   .of [("device", "1F1CE7030000009C"), ("type", "DS2409"), ("abbrv1", "MAIN"),
      ("name1", "105EE02301080039")],
   .of [("device", "1F1CE7030000009C"), ("type", "DS2409"), ("abbrv1", "MAIN"),
      ("name1", "286DA467000000AD"), ("interval", "60")]]

theorem init_groups_garden :
    ∃ devs, sqliteInit mksensColumns garden = .ok devs ∧ pgsqlInit mksensColumns garden = .ok devs ∧
      devs.map Entry.key = (garden.map Record.key).eraseDups ∧
      ∀ e ∈ devs, LoadedFrom mksensColumns.names (garden.filter (·.key = e.key)) e := by
  refine init_groups (by unfold MksensOrder; decide) fun row hrow => ?_
  fin_cases hrow <;> exact ⟨by decide, by decide, by decide, by decide⟩

end W1Retap

import W1Retap.Tables.Loading
import W1Retap.Support.Reordering

/-!
# The order of the columns

`w1_set_device_data` gives a name or a unit to the last sensor that was allocated, so it
matters where these columns stand between the abbreviations, and nothing else matters.
-/
namespace W1Retap

open Programs Reordering

/-- The columns whose order decides which sensor has which name. -/
def nameCols : List CString := [abbrv1Col, abbrv2Col, name1Col, name2Col]

/-- The columns whose order decides which sensor has which units. -/
def unitCols : List CString := [abbrv1Col, abbrv2Col, units1Col, units2Col]

/-! ## Columns that may change places -/

/-- What a row does to the sensors at one column. -/
def attachCol (row : Record) (xs : List Sensor) (n : CString) : Except Stop (List Sensor) :=
  match filled (row n) with
  | none => .ok xs
  | some v => attachCell xs (n, v)

theorem foldlM_attachCol (row : Record) (names : List CString) (xs : List Sensor) :
    (filledCells names row).foldlM attachCell xs = names.foldlM (attachCol row) xs := by
  induction names generalizing xs with
  | nil => rfl
  | cons n names ih =>
    rw [List.foldlM_cons, attachCol]
    cases hf : filled (row n) with
    | none =>
      rw [filledCells, List.filterMap_cons_none (by rw [hf]; rfl), ← filledCells, ih]
      rfl
    | some v =>
      rw [filledCells, List.filterMap_cons_some (by rw [hf]; rfl), ← filledCells, List.foldlM_cons]
      exact congrArg _ (funext ih)

theorem commute_other {row : Record} {a b : CString} (ha : a ∉ sensorCols) :
    Commute (attachCol row) a b := by
  have hpure : ∀ xs, attachCol row xs a = .ok xs := by
    intro xs
    unfold attachCol
    cases filled (row a) with
    | none => rfl
    | some v => exact attachCell_other xs ha
  intro xs
  rw [hpure]
  cases hb : attachCol row xs b with
  | error err => exact hb
  | ok ys => exact hb.trans (hpure ys).symm

theorem commute_name_units {row : Record} {a b : CString} (ha : a = name1Col ∨ a = name2Col)
    (hb : b = units1Col ∨ b = units2Col) : Commute (attachCol row) a b := by
  intro xs
  unfold attachCol
  cases filled (row a) with
  | none => cases filled (row b) with
    | none => rfl
    | some w =>
      change attachCell xs (b, w) = (attachCell xs (b, w) >>= pure)
      rw [bind_pure]
  | some v =>
    have hname := fun xs => attachCell_name xs (c := (a, v)) ha
    cases filled (row b) with
    | none =>
      change (attachCell xs (a, v) >>= pure) = attachCell xs (a, v)
      rw [bind_pure]
    | some w =>
      have hunits := fun xs => attachCell_units xs (c := (b, w)) hb
      simp only [hname, hunits]
      cases xs.getLast? with
      | none => rfl
      | some x => simp [bind, Except.bind]

/-- Columns whose order does not matter. -/
theorem commute_of_notMem {row : Record} {a b : CString} (hname : ¬ (a ∈ nameCols ∧ b ∈ nameCols))
    (hunit : ¬ (a ∈ unitCols ∧ b ∈ unitCols)) : Commute (attachCol row) a b := by
  by_cases ha : a ∈ sensorCols
  · by_cases hb : b ∈ sensorCols
    · fin_cases ha <;> fin_cases hb <;>
        first
          | exact absurd ⟨by decide, by decide⟩ hname
          | exact absurd ⟨by decide, by decide⟩ hunit
          | exact commute_name_units (by decide) (by decide)
          | exact (commute_name_units (by decide) (by decide)).symm
    · exact (commute_other hb).symm
  · exact commute_other ha

/-! ## The same order makes the same devices -/

theorem foldl_assign_sensors (e : Entry) (cells : List (CString × CString)) :
    (cells.foldl Entry.assign e).sensors = e.sensors := by
  induction cells generalizing e with
  | nil => rfl
  | cons c cells ih => rw [List.foldl_cons, ih, Entry.assign_sensors]

/-- The fields that are no sensors do not depend on the order at all. -/
theorem foldl_assign_perm {names names' : List CString} (hperm : names.Perm names') (row : Record)
    (e : Entry) : (filledCells names row).foldl Entry.assign e =
      (filledCells names' row).foldl Entry.assign e := by
  obtain ⟨hserial, hdevtype, hstype, hparams, hintvl⟩ := foldl_assign e (filledCells names row)
  obtain ⟨hserial', hdevtype', hstype', hparams', hintvl'⟩ := foldl_assign e (filledCells names' row)
  have hlast : ∀ n, lastCell n (filledCells names row) = lastCell n (filledCells names' row) := by
    intro n
    simp only [lastCell_filledCells, hperm.mem_iff]
  have hfirst : ∀ n, firstCell n (filledCells names row) = firstCell n (filledCells names' row) := by
    intro n
    simp only [firstCell_filledCells, hperm.mem_iff]
  apply Entry.ext_sensors
  · rw [foldl_assign_sensors, foldl_assign_sensors]
  · rw [hserial, hserial', hlast]
  · rw [hdevtype, hdevtype', hfirst]
  · rw [hstype, hstype']
  · rw [hparams, hparams', hlast]
  · rw [hintvl, hintvl', hlast]

theorem setCells_order {cols cols' : Columns} (hperm : cols.names.Perm cols'.names)
    (hname : cols.names.filter (· ∈ nameCols) = cols'.names.filter (· ∈ nameCols))
    (hunit : cols.names.filter (· ∈ unitCols) = cols'.names.filter (· ∈ unitCols))
    (row : Record) (e : Entry) :
    setCells e (filledCells cols.names row) = setCells e (filledCells cols'.names row) := by
  have hattach : cols.names.foldlM (attachCol row) e.sensors =
      cols'.names.foldlM (attachCol row) e.sensors := by
    apply foldlM_reorder hperm cols.nodup
    intro a _ b _
    by_cases hn : a ∈ nameCols ∧ b ∈ nameCols
    · exact Or.inr ((filter_eq_iff hperm cols.nodup).mp hname a hn.1 b hn.2)
    · by_cases hu : a ∈ unitCols ∧ b ∈ unitCols
      · exact Or.inr ((filter_eq_iff hperm cols.nodup).mp hunit a hu.1 b hu.2)
      · exact Or.inl (commute_of_notMem hn hu)
  rw [setCells_eq, setCells_eq, foldlM_attachCol, foldlM_attachCol, hattach,
    foldl_assign_perm hperm]

theorem init_order {cols cols' : Columns} (hperm : cols.names.Perm cols'.names)
    (hname : cols.names.filter (· ∈ nameCols) = cols'.names.filter (· ∈ nameCols))
    (hunit : cols.names.filter (· ∈ unitCols) = cols'.names.filter (· ∈ unitCols))
    (rows : List Record) :
    sqliteInit cols rows = sqliteInit cols' rows ∧ pgsqlInit cols rows = pgsqlInit cols' rows := by
  have hload : ∀ (serno devtype : Option CString) (row : Record) (devs : List Entry),
      loadRow serno devtype (filledCells cols.names row) devs =
        loadRow serno devtype (filledCells cols'.names row) devs := by
    intro serno devtype row devs
    unfold loadRow
    simp only [setCells_order hperm hname hunit row]
  constructor
  · simp only [sqliteInit, hload]
  · simp only [pgsqlInit, hload]

/-! ## Another order makes other devices -/

def counterRow : Record := .of [("device", "1D47E80700000051"), ("type", "DS2423")]

/-- A row with a sensor. -/
def sensorRow : Record := fun n => if n = abbrv1Col then some ['X'] else counterRow n

/-- A row with cells in columns `a` and `b`. -/
def pairRow (a b : CString) : Record := fun n =>
  if n = a then some ['Y'] else if n = b then some ['Z'] else counterRow n

/-- The sensors that these rows make from the cells of the second one. -/
def pairSensors (cells : List (CString × CString)) : Except Stop (List Sensor) :=
  ((abbrv1Col, ['X']) :: cells).foldlM attachCell []

/-- The two cells make other sensors in the other order. -/
theorem pairSensors_ne {g : List CString} (hg : g = nameCols ∨ g = unitCols) {a b : CString}
    (ha : a ∈ g) (hb : b ∈ g) (hne : a ≠ b) :
    ∃ xs ys, pairSensors [(a, ['Y']), (b, ['Z'])] = .ok xs ∧
      pairSensors [(b, ['Z']), (a, ['Y'])] = .ok ys ∧ xs ≠ ys := by
  have hall : ∀ g ∈ [nameCols, unitCols], ∀ a ∈ g, ∀ b ∈ g, a ≠ b →
      (pairSensors [(a, ['Y']), (b, ['Z'])]).toOption.isSome ∧
      (pairSensors [(b, ['Z']), (a, ['Y'])]).toOption.isSome ∧
      pairSensors [(a, ['Y']), (b, ['Z'])] ≠ pairSensors [(b, ['Z']), (a, ['Y'])] := by
    decide +kernel
  have hok : ∀ x : Except Stop (List Sensor), x.toOption.isSome → ∃ xs, x = .ok xs := by
    rintro (_ | xs) h
    · exact absurd h Bool.false_ne_true
    · exact ⟨xs, rfl⟩
  obtain ⟨h₁, h₂, hdiff⟩ := hall g (List.mem_pair.mpr hg) a ha b hb hne
  obtain ⟨xs, hxs⟩ := hok _ h₁
  obtain ⟨ys, hys⟩ := hok _ h₂
  refine ⟨xs, ys, hxs, hys, fun heq => hdiff ?_⟩
  rw [hxs, hys, heq]

/-- The sensor cells of a row that has some in the columns `S` only. -/
theorem filledCells_sensor {names : List CString} {row : Record} {S : List CString}
    (hS : ∀ n ∈ S, n ∈ sensorCols) (h : ∀ n ∈ sensorCols, n ∉ S → filled (row n) = none) :
    (filledCells names row).filter (·.1 ∈ sensorCols) = filledCells (names.filter (· ∈ S)) row := by
  rw [filledCells_filter names row (· ∈ sensorCols), filledCells, filledCells, List.filterMap_filter,
    List.filterMap_filter]
  congr 1
  funext n
  by_cases hn : n ∈ S
  · simp [hn, hS]
  · by_cases hn' : n ∈ sensorCols
    · simp [hn, hn', h]
    · simp [hn, hn']

theorem counterRow_other {n : CString} (h : n ∈ sensorCols) : filled (counterRow n) = none := by
  fin_cases h <;> decide

/-- The rows load as one device, whose sensors depend on the order of `a` and `b`. -/
theorem sqliteInit_pair {cols : Columns} {a b : CString} {c c' : CString × CString}
    (ha : a ∈ sensorCols) (hb : b ∈ sensorCols)
    (hc : filledCells (cols.names.filter (· ∈ [a, b])) (pairRow a b) = [c, c'])
    {xs : List Sensor} (hxs : pairSensors [c, c'] = .ok xs) :
    ∃ e : Entry, sqliteInit cols [sensorRow, pairRow a b] = .ok [e] ∧ e.sensors = xs := by
  have hother : ∀ n, n ∉ sensorCols → sensorRow n = counterRow n ∧ pairRow a b n = counterRow n := by
    intro n hn
    have h₁ : n ≠ abbrv1Col := fun h => hn (h ▸ by decide)
    have h₂ : n ≠ a := fun h => hn (h ▸ ha)
    have h₃ : n ≠ b := fun h => hn (h ▸ hb)
    exact ⟨if_neg h₁, by rw [pairRow, if_neg h₂, if_neg h₃]⟩
  have hdevice := hother deviceCol (by decide)
  have htype := hother typeCol (by decide)
  have hkey : sensorRow.key = (pairRow a b).key := by
    rw [Record.key, Record.key, hdevice.1, hdevice.2, htype.1, htype.2]
  have hnamed : ∀ row ∈ [sensorRow, pairRow a b], RowNamed row.key (filledCells cols.names row) := by
    intro row hrow
    rcases List.mem_pair.mp hrow with rfl | rfl
    · exact Record.named (by rw [hdevice.1]; decide) (by rw [htype.1]; decide) cols
    · exact Record.named (by rw [hdevice.2]; decide) (by rw [htype.2]; decide) cols
  have hcells : ((filledCells cols.names sensorRow ++ filledCells cols.names (pairRow a b)).filter
      (·.1 ∈ sensorCols)) = [(abbrv1Col, ['X']), c, c'] := by
    rw [List.filter_append, filledCells_sensor (S := [abbrv1Col]) (by decide),
      filledCells_sensor (S := [a, b]) (by simp [ha, hb]), hc,
      filter_self cols.nodup (cols.mksens _ (by decide))]
    · rfl
    · intro n hn hnS
      rw [List.mem_pair, not_or] at hnS
      rw [pairRow, if_neg hnS.1, if_neg hnS.2]
      exact counterRow_other hn
    · intro n hn hnS
      rw [sensorRow, if_neg (by simpa using hnS)]
      exact counterRow_other hn
  have hattach : (filledCells cols.names sensorRow ++ filledCells cols.names (pairRow a b)).foldlM
      attachCell Entry.zero.sensors = .ok xs := by
    rw [foldlM_attachCell_filter, hcells]
    exact hxs
  have hfirst : (firstCell typeCol
      (filledCells cols.names sensorRow ++ filledCells cols.names (pairRow a b))).isSome := by
    have h := hnamed sensorRow (by simp)
    rw [firstCell_append, h.type_eq]
    simp [h.type]
  have hstep : stepRow (filledCells cols.names sensorRow ++ filledCells cols.names (pairRow a b)) .zero =
      .ok (Entry.zero.fill (filledCells cols.names sensorRow ++ filledCells cols.names (pairRow a b)) xs) := by
    rw [stepRow_eq Entry.zero _ hfirst, hattach]
    rfl
  refine ⟨Entry.zero.fill (filledCells cols.names sensorRow ++ filledCells cols.names (pairRow a b)) xs,
    (load_ok hnamed).mpr ?_, (fill_fields _ _ _).1⟩
  have hkeys : ([sensorRow, pairRow a b].map Record.key).eraseDups = [(pairRow a b).key] := by
    simp [List.eraseDups_cons, hkey]
  have hfilter : [sensorRow, pairRow a b].filter (·.key = (pairRow a b).key) =
      [sensorRow, pairRow a b] := by
    simp [hkey]
  rw [hkeys, List.mapM_cons, List.mapM_nil, hfilter, List.flatMap_cons, List.flatMap_singleton, hstep]
  rfl

/-! ## When the order matters -/

/-- Every table loads alike with both orders of the columns exactly when the
abbreviations stand in one order with the names and in one order with the units. -/
theorem columnOrder_iff {cols cols' : Columns} (hperm : cols.names.Perm cols'.names) :
    (∀ rows, sqliteInit cols rows = sqliteInit cols' rows ∧
      pgsqlInit cols rows = pgsqlInit cols' rows) ↔
      cols.names.filter (· ∈ nameCols) = cols'.names.filter (· ∈ nameCols) ∧
        cols.names.filter (· ∈ unitCols) = cols'.names.filter (· ∈ unitCols) := by
  constructor
  · intro hsame
    have hgroup : ∀ g, g = nameCols ∨ g = unitCols →
        cols.names.filter (· ∈ g) = cols'.names.filter (· ∈ g) := by
      intro g hg
      have hsub : ∀ n ∈ g, n ∈ sensorCols := by
        rcases hg with rfl | rfl <;> decide
      have hin : ∀ (cols : Columns), ∀ n ∈ g, n ∈ cols.names := by
        intro cols n hn
        have hall : ∀ n ∈ sensorCols, n ∈ mksensCols := by decide
        exact cols.mksens n (hall n (hsub n hn))
      rw [filter_eq_iff hperm cols.nodup]
      intro a ha b hb
      by_cases hne : a = b
      · subst hne
        exact sameOrder_self cols.nodup cols'.nodup (hin cols a ha) (hin cols' a hb)
      · -- the rows made for this pair load differently unless the orders are the same
        have hcells : filledCells [a, b] (pairRow a b) = [(a, ['Y']), (b, ['Z'])] := by
          simp [filledCells, pairRow, filled, Option.filter, Ne.symm hne]
        have hcells' : filledCells [b, a] (pairRow a b) = [(b, ['Z']), (a, ['Y'])] := by
          simp [filledCells, pairRow, filled, Option.filter, Ne.symm hne]
        obtain ⟨xs, ys, hxs, hys, hdiff⟩ := pairSensors_ne hg ha hb hne
        have hapart : ∀ cols₁ cols₂ : Columns, cols₁.names.filter (· ∈ [a, b]) = [a, b] →
            cols₂.names.filter (· ∈ [a, b]) = [b, a] →
            sqliteInit cols₁ [sensorRow, pairRow a b] ≠ sqliteInit cols₂ [sensorRow, pairRow a b] := by
          intro cols₁ cols₂ h₁ h₂ heq
          obtain ⟨e₁, he₁, rfl⟩ := sqliteInit_pair (hsub a ha) (hsub b hb) (h₁ ▸ hcells) hxs
          obtain ⟨e₂, he₂, rfl⟩ := sqliteInit_pair (hsub a ha) (hsub b hb) (h₂ ▸ hcells') hys
          rw [he₁, he₂] at heq
          obtain rfl := (List.cons.inj (Except.ok.inj heq)).1
          exact hdiff rfl
        have hrows := (hsame [sensorRow, pairRow a b]).1
        rcases filter_pair cols.nodup (hin cols a ha) (hin cols b hb) hne with h | h <;>
          rcases filter_pair cols'.nodup (hin cols' a ha) (hin cols' b hb) hne with h' | h'
        · exact h.trans h'.symm
        · exact absurd hrows (hapart cols cols' h h')
        · exact absurd hrows.symm (hapart cols' cols h' h)
        · exact h.trans h'.symm
    exact ⟨hgroup _ (Or.inl rfl), hgroup _ (Or.inr rfl)⟩
  · rintro ⟨hname, hunit⟩ rows
    exact init_order hperm hname hunit rows

/-- The same columns with the parameters first and each unit before its name. -/
def shuffledColumns : Columns where
  names := [paramsCol, intervalCol, typeCol, abbrv1Col, units1Col, name1Col, abbrv2Col, units2Col,
    name2Col, deviceCol]
  nodup := by decide
  mksens := by decide

theorem columnOrder_iff_shuffled :
    sqliteInit mksensColumns garden = sqliteInit shuffledColumns garden ∧
      pgsqlInit mksensColumns garden = pgsqlInit shuffledColumns garden :=
  (columnOrder_iff (by decide)).mpr ⟨by decide, by decide⟩ garden

/-- The abbreviations first, then the names, then the units. -/
def groupedColumns : Columns where
  names := [deviceCol, typeCol, abbrv1Col, abbrv2Col, name1Col, name2Col, units1Col, units2Col,
    paramsCol, intervalCol]
  nodup := by decide
  mksens := by decide

/-- With these columns the first sensor has no name, and the second one its own or the first's. -/
theorem columnOrder_grouped : ¬ ∀ cols cols' : Columns, cols.names.Perm cols'.names →
    ∀ rows, sqliteInit cols rows = sqliteInit cols' rows := by
  intro h
  have hsame := h mksensColumns groupedColumns (by decide) garden
  exact absurd hsame (by decide +kernel)

end W1Retap

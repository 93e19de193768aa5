import W1Retap.Sensors.SlotRuns
import W1Retap.Tables.Piles

/-!
# Cells that have no slot

A loader hands on the cells of a table in whatever order they stand. Each abbreviation makes
a slot, and a name goes to the last one. Which slots a device has, and which of its sensors
have names, is said by the cells that have come to it; whether its reader gets through is said
by its type and these cells.
-/
namespace W1Retap

open CStrings Programs

/-! ## The sensors of a device -/

def abbrvCols : List CString := [abbrv1Col, abbrv2Col]

def namingCols : List CString := [name1Col, name2Col]

/-- The name that the last abbreviation has got before the next one; a later name replaces it. -/
def ownName : List (CString × CString) → Option CString
  | [] => none
  | c :: cells =>
    if c.1 ∈ abbrvCols then none
    else (ownName cells).or (if c.1 ∈ namingCols then some c.2 else none)

/-- The sensors that the cells of a device make. -/
def cellSensors : List (CString × CString) → List Sensor
  | [] => []
  | c :: cells =>
    if c.1 ∈ abbrvCols then { abbrv := some c.2, name := ownName cells } :: cellSensors cells
    else cellSensors cells

section
variable {c : CString × CString} {cells : List (CString × CString)} {xs ys : List Sensor}
  {x : Sensor}

/-- What a cell does to the sensor before it. -/
theorem attachCell_last (ys : List Sensor) (x : Sensor) (h : c.1 ∉ abbrvCols) :
    ∃ x', attachCell (ys ++ [x]) c = .ok (ys ++ [x']) ∧
      x'.label = (x.abbrv, (if c.1 ∈ namingCols then some c.2 else none).or x.name) := by
  have hlast : (ys ++ [x]).getLast? = some x := by simp
  by_cases hname : c.1 ∈ namingCols
  · have hcol : c.1 = name1Col ∨ c.1 = name2Col := by simpa [namingCols] using hname
    refine ⟨{ x with name := some c.2 }, ?_, by simp [Sensor.label, hname]⟩
    rw [attachCell_name _ hcol, hlast]
    simp
  · by_cases hunits : c.1 = units1Col ∨ c.1 = units2Col
    · refine ⟨{ x with units := some c.2 }, ?_, by simp [Sensor.label, hname]⟩
      rw [attachCell_units _ hunits, hlast]
      simp
    · refine ⟨x, attachCell_other _ ?_, by simp [Sensor.label, hname]⟩
      simp only [abbrvCols, namingCols, List.mem_cons, List.not_mem_nil, or_false, not_or]
        at h hname hunits
      simp [sensorCols, h, hname, hunits]

/-- Behind a sensor all cells can be attached. -/
theorem attach_behind (cells : List (CString × CString)) (ys : List Sensor) (x : Sensor) :
    ∃ zs, cells.foldlM attachCell (ys ++ [x]) = .ok zs ∧ zs.map Sensor.label =
      ys.map Sensor.label ++
        (x.abbrv, (ownName cells).or x.name) :: (cellSensors cells).map Sensor.label := by
  induction cells generalizing ys x with
  | nil => exact ⟨ys ++ [x], rfl, by simp [ownName, cellSensors, Sensor.label]⟩
  | cons c cells ih =>
    rw [List.foldlM_cons]
    by_cases habbrv : c.1 ∈ abbrvCols
    · have hcol : c.1 = abbrv1Col ∨ c.1 = abbrv2Col := by simpa [abbrvCols] using habbrv
      rw [attachCell_abbrv _ hcol]
      obtain ⟨zs, hzs, hlabels⟩ := ih (ys ++ [x]) { abbrv := some c.2 }
      refine ⟨zs, hzs, hlabels.trans ?_⟩
      simp [ownName, cellSensors, habbrv, Sensor.label]
    · obtain ⟨x', hx', hlabel⟩ := attachCell_last ys x habbrv
      obtain ⟨habbrv', hname'⟩ := Prod.mk.inj hlabel
      rw [hx']
      obtain ⟨zs, hzs, hlabels⟩ := ih ys x'
      refine ⟨zs, hzs, hlabels.trans ?_⟩
      simp [ownName, cellSensors, habbrv, habbrv', hname', Option.or_assoc]

/-- The sensors of a new entry. -/
theorem attach_cells {zs : List Sensor} (h : cells.foldlM attachCell [] = .ok zs) :
    zs.map Sensor.label = (cellSensors cells).map Sensor.label := by
  induction cells with
  | nil =>
    obtain rfl := Except.ok.inj h
    rfl
  | cons c cells ih =>
    rw [List.foldlM_cons] at h
    by_cases habbrv : c.1 ∈ abbrvCols
    · have hcol : c.1 = abbrv1Col ∨ c.1 = abbrv2Col := by simpa [abbrvCols] using habbrv
      rw [attachCell_abbrv _ hcol] at h
      obtain ⟨zs', hzs, hlabels⟩ := attach_behind cells [] { abbrv := some c.2 }
      obtain rfl := Except.ok.inj (h.symm.trans hzs)
      rw [hlabels]
      simp [cellSensors, habbrv, Sensor.label]
    · -- a name or a unit would have no slot
      obtain ⟨ys, hc, hrest⟩ := bind_ok.mp h
      have hys : ys = [] := by
        by_cases hname : c.1 = name1Col ∨ c.1 = name2Col
        · rw [attachCell_name _ hname] at hc
          cases hc
        · by_cases hunits : c.1 = units1Col ∨ c.1 = units2Col
          · rw [attachCell_units _ hunits] at hc
            cases hc
          · have hother : c.1 ∉ sensorCols := by
              simp only [abbrvCols, List.mem_cons, List.not_mem_nil, or_false, not_or]
                at habbrv hname hunits
              simp [sensorCols, habbrv, hname, hunits]
            rw [attachCell_other _ hother] at hc
            exact (Except.ok.inj hc).symm
      subst hys
      rw [ih hrest]
      simp [cellSensors, habbrv]

theorem cellSensors_abbrv : ∀ x ∈ cellSensors cells, x.abbrv.isSome := by
  induction cells with
  | nil => simp [cellSensors]
  | cons c cells ih =>
    rw [cellSensors]
    split
    · exact List.forall_mem_cons.mpr ⟨rfl, ih⟩
    · exact ih

theorem cellSensors_eq_nil : cellSensors cells = [] ↔ ∀ c ∈ cells, c.1 ∉ abbrvCols := by
  induction cells with
  | nil => simp [cellSensors]
  | cons c cells ih =>
    rw [cellSensors, List.forall_mem_cons, ← ih]
    split <;> simp [*]

end

/-! ## Searches for a name -/

/-- Each sensor without a name stands behind one that a search for `name` finds. -/
def FoundFirst (name : String) (xs : List Sensor) : Prop :=
  ∀ pre x post, xs = pre ++ x :: post → x.name = none → ∃ y ∈ pre, y.goesBy name = true

section
variable {name : String} {xs : List Sensor} {x : Sensor}

theorem foundFirst_nil : FoundFirst name [] := by
  intro pre x post h
  simp at h

theorem foundFirst_cons :
    FoundFirst name (x :: xs) ↔ x.name.isSome ∧ (x.goesBy name = true ∨ FoundFirst name xs) := by
  constructor
  · intro h
    constructor
    · by_contra hnone
      obtain ⟨y, hy, -⟩ := h [] x xs rfl (by simpa using hnone)
      simp at hy
    · by_cases hx : x.goesBy name = true
      · exact Or.inl hx
      · refine Or.inr fun pre y post hxs hy => ?_
        obtain ⟨z, hz, hgoes⟩ := h (x :: pre) y post (by rw [hxs]; rfl) hy
        rcases List.mem_cons.mp hz with rfl | hz
        · exact absurd hgoes hx
        · exact ⟨z, hz, hgoes⟩
  · rintro ⟨hname, hrest⟩ pre y post hxs hy
    cases pre with
    | nil =>
      obtain ⟨rfl, -⟩ := List.cons.inj hxs
      rw [hy] at hname
      cases hname
    | cons z pre =>
      obtain ⟨rfl, rfl⟩ := List.cons.inj hxs
      rcases hrest with hx | hrest
      · exact ⟨x, List.mem_cons_self, hx⟩
      · obtain ⟨u, hu, hgoes⟩ := hrest pre y post rfl hy
        exact ⟨u, List.mem_cons_of_mem _ hu, hgoes⟩

/-- A search stops at the first sensor without a name that it comes to. -/
theorem matchFrom_ne_iff (h : ∀ x ∈ xs, x.abbrv.isSome) (j : ℕ) :
    matchFrom name.toList xs j ≠ .error .noName ↔ FoundFirst name xs := by
  induction xs generalizing j with
  | nil => exact iff_of_true (fun he => by cases he) foundFirst_nil
  | cons x xs ih =>
    obtain ⟨habbrv, hxs⟩ := List.forall_mem_cons.mp h
    obtain ⟨abbrv, habbrv⟩ := Option.isSome_iff_exists.mp habbrv
    rw [foundFirst_cons, ← ih hxs (j + 1), matchFrom, Sensor.goesBy, habbrv]
    cases x.name with
    | none => simp
    | some full =>
      by_cases hgoes : (strcasestr full name.toList || strcaseeq abbrv name.toList) = true
      · simp [hgoes]
      · simp [hgoes]

end

/-! ## One device -/

/-- The type that the cells of a device name. -/
def cellType (cells : List (CString × CString)) : W1Type :=
  ((firstCell typeCol cells).bind typeOf).getD .invalid

def cellParams (cells : List (CString × CString)) : Option (List ℚ) :=
  (lastCell paramsCol cells).bind w1DevParams

/-- The cells give a device what its reader needs: an abbreviation, if the reader goes to fixed
slots, and for every name that it searches for no sensor without a name but behind one that is
found. -/
structure SafeCells (cells : List (CString × CString)) : Prop where
  slots : (cellType cells).usesSlots = true → ∃ c ∈ cells, c.1 ∈ abbrvCols
  names : ∀ name ∈ searchedNames (cellParams cells) (cellType cells),
    FoundFirst name (cellSensors cells)

section
variable {cells : List (CString × CString)} {e : Entry}

/-- Slots come in blocks. -/
theorem Entry.block (e : Entry) (h : e.s ≠ []) : 2 ≤ e.s.length := by
  have hlen := congrArg List.length e.spare_eq
  have hle := e.ns_le
  have hpos := List.length_pos_of_ne_nil h
  rw [List.length_drop, List.length_replicate, spare] at hlen
  unfold allocSens at hlen
  omega

/-- What a new entry gets from the cells of its rows. -/
theorem stepRow_made (h : stepRow cells .zero = .ok e) :
    e.sensors.map Sensor.label = (cellSensors cells).map Sensor.label ∧
    e.serial = lastCell deviceCol cells ∧ e.devtype = firstCell typeCol cells ∧
    (firstCell typeCol cells).isSome ∧ e.stype = cellType cells ∧ e.params = cellParams cells := by
  obtain ⟨htype, hserial, hdevtype, hstype⟩ := stepRow_zero.2 e h
  rw [stepRow_eq _ cells (by simpa [Entry.zero] using htype)] at h
  obtain ⟨xs, hxs, rfl⟩ := map_ok.mp h
  obtain ⟨hsensors, -, -, -, hparams, -⟩ := fill_fields .zero cells xs
  refine ⟨?_, hserial, hdevtype, htype, hstype, ?_⟩
  · rw [hsensors]
    exact attach_cells hxs
  · rw [hparams, cellParams]
    cases lastCell paramsCol cells <;> rfl

theorem made_searchable (h : stepRow cells .zero = .ok e) (name : String) :
    e.row.device.Searchable name ↔ FoundFirst name (cellSensors cells) := by
  rw [← matchFrom_ne_iff cellSensors_abbrv 0, Device.Searchable]
  have hsame : w1MatchSensor e.row.device name.toList =
      matchFrom name.toList (cellSensors cells) 0 :=
    matchFrom_labels (stepRow_made h).1
  rw [hsame]

theorem made_slots (h : stepRow cells .zero = .ok e) :
    e.s ≠ [] ↔ ∃ c ∈ cells, c.1 ∈ abbrvCols := by
  have hlabels := (stepRow_made h).1
  have hsensors : e.sensors = [] ↔ cellSensors cells = [] := by
    rw [← List.map_eq_nil_iff (f := Sensor.label), hlabels, List.map_eq_nil_iff]
  have hslots : e.s = [] ↔ e.sensors = [] := by
    constructor
    · intro hs
      rw [Entry.sensors, hs, List.take_nil]
    · intro hs
      have hns : e.ns = 0 := by rw [← e.length_sensors, hs, List.length_nil]
      have hspare := e.spare_eq
      rw [hns] at hspare
      exact hspare
  rw [ne_eq, hslots, hsensors, cellSensors_eq_nil]
  simp

/-- The reader of a device is safe exactly for safe cells. -/
theorem made_safe_iff (h : stepRow cells .zero = .ok e) :
    SlotsSafe e.row.device ↔ SafeCells cells := by
  obtain ⟨-, -, -, -, hstype, hparams⟩ := stepRow_made h
  rw [slots_safe_iff e.block]
  change e.row.device.Readable e.stype ↔ _
  rw [hstype]
  constructor
  · intro hw
    refine ⟨fun hslots => (made_slots h).mp (hw.slots hslots), fun name hname => ?_⟩
    rw [← hparams] at hname
    exact (made_searchable h name).mp (hw.names name hname)
  · intro hcells
    refine ⟨fun hslots => (made_slots h).mpr (hcells.slots hslots), fun name hname => ?_⟩
    refine (made_searchable h name).mpr (hcells.names name ?_)
    rw [← hparams]
    exact hname

end

/-! ## Tables -/

/-- The cells of every entry begin with a sensor, as far as the loader gets, and what they make
in the end is safe to read. -/
structure SafeDeliveries (rs : List (Option Delivery)) : Prop where
  loading : ∀ pre, pre <+: rs → ∀ piles, pilesOf pre = .ok piles → ∀ p ∈ piles, ¬ LacksSlot p
  reading : ∀ piles, pilesOf rs = .ok piles → (∀ p ∈ piles, (firstCell typeCol p).isSome) →
    ∀ p ∈ piles, SafeCells p

/-- Neither the loader of the table nor a reader of one of its devices goes to a slot that is
not there or searches in a name that was never set. -/
structure Table.SlotsKept (t : Table) : Prop where
  loader : t.load ≠ .error .noSlot ∧ t.load ≠ .error .noName
  readers : ∀ devs, t.load = .ok devs → ∀ e ∈ devs, SlotsSafe e.row.device

section
variable {rs : List (Option Delivery)} {piles : List Pile} {devs : List Entry}

/-- The entries that are made of the piles are safe exactly when the piles are. -/
theorem made_all_safe_iff (h : makeEntries piles = .ok devs) :
    (∀ e ∈ devs, SlotsSafe e.row.device) ↔ ∀ p ∈ piles, SafeCells p := by
  have hmade := mapM_forall₂ h
  constructor
  · intro hdevs p hp
    obtain ⟨n, hn⟩ := List.getElem?_of_mem hp
    obtain ⟨e, he, hpe⟩ := forall₂_left hmade hn
    exact (made_safe_iff hpe).mp (hdevs e (List.mem_of_getElem? he))
  · intro hpiles e he
    obtain ⟨n, hn⟩ := List.getElem?_of_mem he
    obtain ⟨p, hp, hpe⟩ := forall₂_right hmade hn
    exact (made_safe_iff hpe).mpr (hpiles p (List.mem_of_getElem? hp))

/-- A table keeps to its slots exactly when its cells, sorted by their entries, are safe. -/
theorem table_slots_iff (t : Table) : t.SlotsKept ↔ SafeDeliveries t.deliveries := by
  constructor
  · intro h
    have hload : ∀ pre, pre <+: t.deliveries → ∀ piles, pilesOf pre = .ok piles →
        ∀ p ∈ piles, ¬ LacksSlot p := by
      intro pre hpre piles hpiles p hp hlacks
      apply h.loader.1
      rw [t.load_eq]
      exact deliverAll_noSlot.mpr ⟨pre, hpre, piles, hpiles, p, hp, hlacks⟩
    refine ⟨hload, fun piles hpiles htyped => ?_⟩
    obtain ⟨devs, hdevs⟩ := makeEntries_filled.mpr fun p hp =>
      ⟨hload _ List.prefix_rfl piles hpiles p hp, htyped p hp⟩
    refine (made_all_safe_iff hdevs).mp (h.readers devs ?_)
    rw [t.load_eq]
    exact deliverAll_ok.mpr ⟨piles, hpiles, hdevs⟩
  · intro h
    refine ⟨⟨fun hslot => ?_, fun hname => ?_⟩, fun devs hdevs => ?_⟩
    · rw [t.load_eq] at hslot
      obtain ⟨pre, hpre, piles, hpiles, p, hp, hlacks⟩ := deliverAll_noSlot.mp hslot
      exact h.loading pre hpre piles hpiles p hp hlacks
    · rw [t.load_eq] at hname
      rcases deliverAll_error hname with herr | herr
      · cases herr
      · cases herr
    · rw [t.load_eq] at hdevs
      obtain ⟨piles, hpiles, hmake⟩ := deliverAll_ok.mp hdevs
      have hfilled := makeEntries_filled.mp ⟨devs, hmake⟩
      exact (made_all_safe_iff hmake).mpr (h.reading piles hpiles fun p hp => (hfilled p hp).2)

/-- A name before any abbreviation. -/
def looseName : Record :=
  .of [("device", "10.1B"), ("type", "TEMPERATURE"), ("name1", "Outside")]

/-- A thermometer without a sensor. -/
def bareThermometer : Record := .of [("device", "10.1B"), ("type", "TEMPERATURE")]

/-- A voltmeter whose sensor has no name. -/
def namelessVoltmeter : Record := .of [("device", "26.5A"), ("type", "VOLTAGE"), ("abbrv1", "BATT")]

/-- A table that is loaded into one unsafe entry. -/
theorem not_kept_of_cells {names : List CString} {row : Record} {e : Entry}
    (hrow : stepRow (filledCells names row) .zero = .ok e)
    (hload : (Table.sqlite names [row]).load = .ok [e])
    (hcells : ¬ SafeCells (filledCells names row)) :
    ¬ (Table.sqlite names [row]).SlotsKept :=
  fun h => hcells ((made_safe_iff hrow).mp (h.readers [e] hload e List.mem_cons_self))

/-- The loader of the first table goes outside the slots, and the readers of the two others,
which their loader accepts, outside the slots and into a missing name. -/
theorem slots_not_kept :
    ¬ (Table.sqlite mksensColumns.names [looseName]).SlotsKept ∧
    ¬ (Table.sqlite mksensColumns.names [bareThermometer]).SlotsKept ∧
    ¬ (Table.sqlite mksensColumns.names [namelessVoltmeter]).SlotsKept := by
  refine ⟨fun h => h.loader.1 rfl, not_kept_of_cells rfl rfl fun h => ?_,
    not_kept_of_cells rfl rfl fun h => ?_⟩
  · obtain ⟨c, hc, habbrv⟩ := h.slots (by decide)
    revert c
    decide
  · obtain ⟨name, hname⟩ : ∃ name, name ∈ searchedNames
        (cellParams (filledCells mksensColumns.names namelessVoltmeter))
        (cellType (filledCells mksensColumns.names namelessVoltmeter)) :=
      ⟨_, List.mem_cons_self⟩
    have hfirst : FoundFirst name [{ abbrv := some "BATT".toList }] := h.names name hname
    exact absurd (foundFirst_cons.mp hfirst).1 (by decide)

end

end W1Retap

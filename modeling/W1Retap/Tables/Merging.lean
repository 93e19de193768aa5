import W1Retap.Tables.Databases

/-!
# Rows of one device

A row goes to the entry of its device and type, so all rows of a pair make one entry, and
what they make is what one row with all their cells makes. The sensors depend on the
cells of the six sensor columns in their order, the other fields on the last cell of
their column.
-/
namespace W1Retap

open Programs

/-! ## The fields that are no sensors -/

/-- The first cell of a column. -/
def firstCell (name : CString) (cells : List (CString × CString)) : Option CString :=
  (cells.find? (·.1 = name)).map Prod.snd

/-- The last cell of a column. -/
def lastCell (name : CString) (cells : List (CString × CString)) : Option CString :=
  firstCell name cells.reverse

theorem firstCell_cons (name : CString) (c : CString × CString) (cells : List (CString × CString)) :
    firstCell name (c :: cells) = if c.1 = name then some c.2 else firstCell name cells := by
  by_cases hc : c.1 = name <;> simp [firstCell, hc]

theorem firstCell_append (name : CString) (cells cells' : List (CString × CString)) :
    firstCell name (cells ++ cells') = (firstCell name cells).or (firstCell name cells') := by
  simp only [firstCell, List.find?_append]
  cases cells.find? (·.1 = name) <;> rfl

theorem lastCell_append (name : CString) (cells cells' : List (CString × CString)) :
    lastCell name (cells ++ cells') = (lastCell name cells').or (lastCell name cells) := by
  rw [lastCell, List.reverse_append, firstCell_append]
  rfl

theorem lastCell_cons (name : CString) (c : CString × CString) (cells : List (CString × CString)) :
    lastCell name (c :: cells) = (lastCell name cells).or (if c.1 = name then some c.2 else none) := by
  rw [← List.singleton_append, lastCell_append]
  by_cases hc : c.1 = name <;> simp [lastCell, firstCell, hc]

section
variable (e : Entry) (c : CString × CString) (cells : List (CString × CString))

theorem assign_serial : (e.assign c).serial = if c.1 = deviceCol then some c.2 else e.serial := by
  unfold Entry.assign deviceCol
  split_ifs <;> rfl

theorem assign_devtype :
    (e.assign c).devtype = e.devtype.or (if c.1 = typeCol then some c.2 else none) := by
  unfold Entry.assign
  by_cases hc : c.1 = typeCol
  · cases htype : e.devtype <;> simp [hc, htype, typeCol]
  · rw [if_neg hc, Option.or_none]
    have hc' : ¬ (c.1 = "type".toList ∧ e.devtype = none) := fun h => hc h.1
    rw [if_neg hc']
    split_ifs <;> rfl

theorem assign_stype : (e.assign c).stype = e.stype := by
  unfold Entry.assign
  split_ifs <;> rfl

theorem assign_params :
    (e.assign c).params = if c.1 = paramsCol then w1DevParams c.2 else e.params := by
  unfold Entry.assign
  by_cases hc : c.1 = paramsCol
  · simp [hc, paramsCol]
  · have hc' : ¬ c.1 = "params".toList := hc
    rw [if_neg hc, if_neg hc']
    split_ifs <;> rfl

theorem assign_intvl :
    (e.assign c).intvl = if c.1 = intervalCol then intvlOf c.2 else e.intvl := by
  unfold Entry.assign
  by_cases hc : c.1 = intervalCol
  · have hdevice : ¬ c.1 = "device".toList := by rw [hc]; decide
    have htype : ¬ (c.1 = "type".toList ∧ e.devtype = none) := by
      rw [hc]
      exact fun h => absurd h.1 (by decide)
    have hparams : ¬ c.1 = "params".toList := by rw [hc]; decide
    have hintvl : c.1 = "interval".toList := hc
    rw [if_neg hdevice, if_neg htype, if_neg hparams, if_pos hintvl, if_pos hc]
  · have hc' : ¬ c.1 = "interval".toList := hc
    rw [if_neg hc, if_neg hc']
    split_ifs <;> rfl

/-- What a row leaves in the fields that are no sensors. -/
theorem foldl_assign :
    (cells.foldl Entry.assign e).serial = (lastCell deviceCol cells).or e.serial ∧
    (cells.foldl Entry.assign e).devtype = e.devtype.or (firstCell typeCol cells) ∧
    (cells.foldl Entry.assign e).stype = e.stype ∧
    (cells.foldl Entry.assign e).params = (lastCell paramsCol cells).elim e.params w1DevParams ∧
    (cells.foldl Entry.assign e).intvl = (lastCell intervalCol cells).elim e.intvl intvlOf := by
  induction cells generalizing e with
  | nil => simp [lastCell, firstCell]
  | cons c cells ih =>
    obtain ⟨hserial, hdevtype, hstype, hparams, hintvl⟩ := ih (e.assign c)
    rw [List.foldl_cons, hserial, hdevtype, hstype, hparams, hintvl]
    simp only [lastCell_cons, firstCell_cons, assign_serial, assign_devtype, assign_stype,
      assign_params, assign_intvl]
    refine ⟨?_, ?_, trivial, ?_, ?_⟩
    · cases lastCell deviceCol cells <;> split_ifs <;> rfl
    · cases e.devtype <;> split_ifs <;> rfl
    · cases lastCell paramsCol cells <;> split_ifs <;> rfl
    · cases lastCell intervalCol cells <;> split_ifs <;> rfl

/-- The entry after the cells of a row, whose sensors are `xs`. -/
def Entry.fill (xs : List Sensor) : Entry :=
  let e' := cells.foldl Entry.assign e
  ({ e' with stype := (e'.devtype.bind typeOf).getD e.stype } : Entry).withSensors xs

theorem fill_fields (xs : List Sensor) :
    (e.fill cells xs).sensors = xs ∧
    (e.fill cells xs).serial = (lastCell deviceCol cells).or e.serial ∧
    (e.fill cells xs).devtype = e.devtype.or (firstCell typeCol cells) ∧
    (e.fill cells xs).stype = ((e.devtype.or (firstCell typeCol cells)).bind typeOf).getD e.stype ∧
    (e.fill cells xs).params = (lastCell paramsCol cells).elim e.params w1DevParams ∧
    (e.fill cells xs).intvl = (lastCell intervalCol cells).elim e.intvl intvlOf := by
  obtain ⟨hserial, hdevtype, hstype, hparams, hintvl⟩ := foldl_assign e cells
  refine ⟨Entry.withSensors_sensors _ xs, hserial, hdevtype, ?_, hparams, hintvl⟩
  rw [← hdevtype]
  rfl

/-- A row with a type, or for an entry with one, fills its entry if its cells can be attached. -/
theorem stepRow_eq (h : (e.devtype.or (firstCell typeCol cells)).isSome) :
    stepRow cells e = (cells.foldlM attachCell e.sensors).map (e.fill cells) := by
  obtain ⟨-, hdevtype, hstype, -, -⟩ := foldl_assign e cells
  rw [stepRow, setCells_eq]
  cases cells.foldlM attachCell e.sensors with
  | error err => rfl
  | ok xs =>
    obtain ⟨ty, hty⟩ := Option.isSome_iff_exists.mp h
    rw [← hdevtype] at hty
    have henum : w1Enumdevs ((cells.foldl Entry.assign e).withSensors xs) =
        .ok (e.fill cells xs) := by
      have hty' : ((cells.foldl Entry.assign e).withSensors xs).devtype = some ty := hty
      rw [w1Enumdevs, hty']
      simp only [Entry.fill, hty]
      rw [← hstype]
      rfl
    exact henum

/-! ## Rows one after the other -/

variable {e cells}

theorem fill_append {cells' : List (CString × CString)} {xs ys : List Sensor}
    (h : (e.devtype.or (firstCell typeCol cells)).isSome) :
    (e.fill cells xs).fill cells' ys = e.fill (cells ++ cells') ys := by
  obtain ⟨-, hserial₁, hdevtype₁, hstype₁, hparams₁, hintvl₁⟩ := fill_fields e cells xs
  obtain ⟨hs₂, hserial₂, hdevtype₂, hstype₂, hparams₂, hintvl₂⟩ :=
    fill_fields (e.fill cells xs) cells' ys
  obtain ⟨hs, hserial, hdevtype, hstype, hparams, hintvl⟩ := fill_fields e (cells ++ cells') ys
  obtain ⟨ty, hty⟩ := Option.isSome_iff_exists.mp h
  apply Entry.ext_sensors
  · rw [hs₂, hs]
  · rw [hserial₂, hserial₁, hserial, lastCell_append, Option.or_assoc]
  · rw [hdevtype₂, hdevtype₁, hdevtype, firstCell_append, Option.or_assoc]
  · rw [hstype₂, hstype₁, hdevtype₁, hstype, firstCell_append, ← Option.or_assoc, hty]
    cases hof : typeOf ty <;> simp [hof]
  · rw [hparams₂, hparams₁, hparams, lastCell_append]
    cases lastCell paramsCol cells' <;> rfl
  · rw [hintvl₂, hintvl₁, hintvl, lastCell_append]
    cases lastCell intervalCol cells' <;> rfl

/-- Two rows make what one row with the cells of both makes. -/
theorem stepRow_append {cells' : List (CString × CString)}
    (h : (e.devtype.or (firstCell typeCol cells)).isSome) :
    (stepRow cells e >>= stepRow cells') = stepRow (cells ++ cells') e := by
  have h' : (e.devtype.or (firstCell typeCol (cells ++ cells'))).isSome := by
    rw [firstCell_append, ← Option.or_assoc]
    simp [h]
  rw [stepRow_eq e cells h, stepRow_eq e _ h', List.foldlM_append]
  cases cells.foldlM attachCell e.sensors with
  | error err => rfl
  | ok xs =>
    obtain ⟨hs, -, hdevtype, -⟩ := fill_fields e cells xs
    change stepRow cells' (e.fill cells xs) = _
    rw [stepRow_eq _ _ (by rw [hdevtype]; simp [h]), hs]
    change _ = (cells'.foldlM attachCell xs).map _
    refine congrArg (fun f => Except.map f _) (funext fun ys => ?_)
    exact fill_append h

theorem foldlM_stepRow {ρ : Type} {rows : List ρ} {cells : ρ → List (CString × CString)}
    (h : ∀ r ∈ rows, (firstCell typeCol (cells r)).isSome) (hne : rows ≠ []) (e : Entry) :
    rows.foldlM (fun e r => stepRow (cells r) e) e = stepRow (rows.flatMap cells) e := by
  induction rows generalizing e with
  | nil => exact absurd rfl hne
  | cons r rows ih =>
    by_cases hrows : rows = []
    · simp [hrows]
    · rw [List.foldlM_cons, List.flatMap_cons,
        ← stepRow_append (by simp [h r List.mem_cons_self])]
      exact congrArg _ (funext fun e' => ih (fun r hr => h r (List.mem_cons_of_mem _ hr)) hrows e')

end

/-! ## The loop over a table -/

section
variable {ρ : Type} {key : ρ → Key} {cells : ρ → List (CString × CString)}
  {r : ρ} {rows : List ρ}

/-- A row is looked up under the device and the type that its cells name. -/
structure RowNamed (key : Key) (cells : List (CString × CString)) : Prop where
  device : key.serno.isSome
  type : key.devtype.isSome
  device_eq : lastCell deviceCol cells = key.serno
  type_eq : firstCell typeCol cells = key.devtype

theorem keyed_stepRow (h : RowNamed (key r) (cells r)) :
    Grouping.Keyed Entry.key key (fun e r => stepRow (cells r) e) .zero r := by
  intro e e' he hstep
  have htype : e.devtype.or (firstCell typeCol (cells r)) = (key r).devtype := by
    rw [h.type_eq]
    rcases he with rfl | he
    · rfl
    · rw [← he, Entry.key, Option.or_self]
  change stepRow (cells r) e = .ok e' at hstep
  rw [stepRow_eq e _ (by rw [htype]; exact h.type)] at hstep
  obtain ⟨xs, -, rfl⟩ := map_ok.mp hstep
  obtain ⟨-, hserial, hdevtype, -⟩ := fill_fields e (cells r) xs
  rw [h.device_eq] at hserial
  obtain ⟨serno, hserno⟩ := Option.isSome_iff_exists.mp h.device
  rw [Entry.key, hserial, hdevtype, htype, hserno, Option.some_or, ← hserno]

theorem loadRow_named (h : RowNamed (key r) (cells r)) {devs devs' : List Entry}
    (hdevs : ∀ e ∈ devs, e.Named)
    (hload : loadRow (key r).serno (key r).devtype (cells r) devs = .ok devs') :
    ∀ e ∈ devs', e.Named := by
  rw [loadRow_place ⟨h.device, h.type⟩ hdevs] at hload
  refine Grouping.place_forall hload hdevs fun e e' he hstep => ?_
  have hkey := keyed_stepRow h e e' he hstep
  constructor
  · rw [show e'.serial = (key r).serno from congrArg Key.serno hkey]
    exact h.device
  · rw [show e'.devtype = (key r).devtype from congrArg Key.devtype hkey]
    exact h.type

/-- The loop over the rows gathers them by their keys. -/
theorem load_gather (h : ∀ r ∈ rows, RowNamed (key r) (cells r)) :
    rows.foldlM (fun devs r => loadRow (key r).serno (key r).devtype (cells r) devs) [] =
      Grouping.gather Entry.key key (fun e r => stepRow (cells r) e) .zero rows := by
  have hplace : ∀ r ∈ rows, ∀ devs, (∀ e ∈ devs, e.Named) →
      loadRow (key r).serno (key r).devtype (cells r) devs =
        Grouping.place Entry.key key (fun e r => stepRow (cells r) e) .zero r devs :=
    fun r hr devs hdevs => loadRow_place ⟨(h r hr).device, (h r hr).type⟩ hdevs
  apply foldlM_congr (P := fun devs => ∀ e ∈ devs, e.Named)
  · simp
  · exact hplace
  · intro r hr devs devs' hdevs hstep
    rw [← hplace r hr devs hdevs] at hstep
    exact loadRow_named (h r hr) hdevs hstep

theorem load_group (h : ∀ r ∈ rows, RowNamed (key r) (cells r)) :
    (rows.map key).eraseDups.mapM (Grouping.group key (fun e r => stepRow (cells r) e) .zero rows) =
      (rows.map key).eraseDups.mapM fun k =>
        stepRow ((rows.filter (key · = k)).flatMap cells) .zero := by
  apply mapM_congr
  intro k hk
  obtain ⟨r, hr, rfl⟩ := List.mem_map.mp (List.mem_eraseDups.mp hk)
  apply foldlM_stepRow
  · intro r' hr'
    rw [(h r' (List.mem_filter.mp hr').1).type_eq]
    exact (h r' (List.mem_filter.mp hr').1).type
  · exact List.ne_nil_of_mem (List.mem_filter.mpr ⟨hr, by simp⟩)

/-- The loop makes one entry for every pair of device and type, in order of first
appearance, and the entry what one row with all cells of the pair would make. -/
theorem load_ok (h : ∀ r ∈ rows, RowNamed (key r) (cells r)) {devs : List Entry} :
    rows.foldlM (fun devs r => loadRow (key r).serno (key r).devtype (cells r) devs) [] = .ok devs ↔
      (rows.map key).eraseDups.mapM
        (fun k => stepRow ((rows.filter (key · = k)).flatMap cells) .zero) = .ok devs := by
  rw [load_gather h, Grouping.gather_ok fun r hr => keyed_stepRow (h r hr), load_group h]

theorem load_keys (h : ∀ r ∈ rows, RowNamed (key r) (cells r)) {devs : List Entry}
    (hload : rows.foldlM (fun devs r => loadRow (key r).serno (key r).devtype (cells r) devs) [] =
      .ok devs) : devs.map Entry.key = (rows.map key).eraseDups := by
  have hkeyed : ∀ r ∈ rows, Grouping.Keyed Entry.key key (fun e r => stepRow (cells r) e) .zero r :=
    fun r hr => keyed_stepRow (h r hr)
  rw [load_gather h, Grouping.gather_ok hkeyed] at hload
  exact Grouping.mapM_group_keyOf hkeyed (fun k hk => List.mem_eraseDups.mp hk) hload

end
end W1Retap

import W1Retap.Tables.Loading
import W1Retap.Couplers.Initialisation
import W1Retap.Sensors.ReadAll

/-!
# Missing keys

The loaders hand on only the cells that are neither NULL nor empty, but look every row up
under its own two key cells, compare them with what the entries have been given, and
compare the type of an entry with the known ones. All of these comparisons follow the
pointer they are given, and so does `w1_make_serial`, for sixteen characters.
-/
namespace W1Retap

open Programs

/-! ## The three loaders -/

/-- `PQgetvalue`: an empty string for a NULL. -/
def pqGetvalue (cell : Option CString) : Option CString := some (cell.getD [])

/-- The loop over the rows in `w1_init`; the key cells are fetched with `fetch`. -/
def initRows (fetch : Option CString → Option CString) (names : List CString)
    (rows : List Record) : Except Stop (List Entry) :=
  rows.foldlM (fun devs row =>
    loadRow (fetch (row deviceCol)) (fetch (row typeCol)) (filledCells names row) devs) []

/-- The rows of `sqlite3_get_table`, in which a NULL cell is a null pointer. -/
def sqliteRows : List CString → List Record → Except Stop (List Entry) := initRows id

/-- The rows of `mysql_fetch_row`, in which a NULL cell is a null pointer. -/
def mysqlRows : List CString → List Record → Except Stop (List Entry) := initRows id

def pgsqlRows : List CString → List Record → Except Stop (List Entry) := initRows pqGetvalue

theorem sqliteInit_rows (cols : Columns) (rows : List Record) :
    sqliteInit cols rows = sqliteRows cols.names rows := rfl

theorem pgsqlInit_rows (cols : Columns) (rows : List Record) :
    pgsqlInit cols rows = pgsqlRows cols.names rows := rfl

/-! ## What has to be there -/

/-- The couplers before entry `n` list as many ids as `clist` holds, and those from there
on are passed over. -/
def ClistFull (devs : List Entry) (n : ℕ) : Prop :=
  maxCpl ≤ (allListedIds ((devs.take n).map fun e => e.row.device)).length

/-- The serial number of entry `n` reaches `w1_make_serial`: that of a coupler when the
couplers are initialised, any other one in the reader of the type. -/
def Decoded (devs : List Entry) (n : ℕ) (e : Entry) : Prop :=
  devs[n]? = some e ∧ e.stype ≠ .invalid ∧ (e.stype = .coupler → ¬ ClistFull devs n)

/-- Nothing that is compared is NULL, and what is decoded is long enough. -/
structure KeySafe (load : Except Stop (List Entry)) : Prop where
  compared : load ≠ .error .nullDeref
  decoded : ∀ devs, load = .ok devs → ∀ n e, Decoded devs n e →
    ∃ serial, e.serial = some serial ∧ 16 ≤ serial.length

/-- The key that a row gives to its entry. -/
def Record.filledKey (row : Record) : Key := ⟨filled (row deviceCol), filled (row typeCol)⟩

/-- The search for `asked` ends at an entry with key `k`; a missing type suits every entry. -/
def Key.Suits (k asked : Key) : Prop :=
  k.serno.isSome ∧ k.serno = asked.serno ∧
    (asked.devtype = none ∨ k.devtype.isSome ∧ k.devtype = asked.devtype)

/-- One of the keys suits, and all keys before it have a device to compare with. -/
def Found (ks : List Key) (asked : Key) : Prop :=
  ∃ a k b, ks = a ++ k :: b ∧ k.Suits asked ∧ ∀ q ∈ a, q.serno.isSome

/-- The search for `asked` compares nothing that is missing. -/
def Searchable (ks : List Key) (asked : Key) : Prop :=
  ks = [] ∨ asked.serno.isSome ∧ (Found ks asked ∨ ∀ k ∈ ks, k.serno.isSome)

/-- The first cell that concerns a sensor is no abbreviation, so that there is no sensor
for it to go to. -/
def LacksSlot (cells : List (CString × CString)) : Prop :=
  ∃ c, (cells.filter (·.1 ∈ sensorCols)).head? = some c ∧ c.1 ≠ abbrv1Col ∧ c.1 ≠ abbrv2Col

section
variable (fetch : Option CString → Option CString) (names : List CString)

/-- The key that a row is looked up under. -/
def Record.askedKey (row : Record) : Key := ⟨fetch (row deviceCol), fetch (row typeCol)⟩

/-- Row `r` can be looked up among the rows before it, and its entry has a type by the time
the type is compared. -/
structure SafeRow (pre : List Record) (r : Record) : Prop where
  search : Searchable (pre.map Record.filledKey) (r.askedKey fetch)
  type : Found (pre.map Record.filledKey) (r.askedKey fetch) ∨ (filled (r typeCol)).isSome ∨
    LacksSlot (filledCells names r)

/-- Every row that the loader comes to is safe, and the device of a row with a known type
has at least sixteen characters; only a coupler that is passed over may have less. -/
structure SafeTable (rows : List Record) : Prop where
  row : ∀ pre r post, rows = pre ++ r :: post → (∃ devs, initRows fetch names pre = .ok devs) →
    SafeRow fetch names pre r
  device : ∀ devs, initRows fetch names rows = .ok devs → ∀ r ∈ rows, ∀ ty stype,
    filled (r typeCol) = some ty → typeOf ty = some stype →
    ∀ n, (devs.map Entry.key)[n]? = some r.filledKey →
      (stype = .coupler → ¬ ClistFull devs n) → 16 ≤ ((r deviceCol).getD []).length

end

/-! ## The search -/

section
variable {ks : List Key} {k asked : Key} {e : Entry} {devs : List Entry}

theorem found_append : Found (ks ++ [k]) asked ↔
    Found ks asked ∨ k.Suits asked ∧ ∀ q ∈ ks, q.serno.isSome := by
  constructor
  · rintro ⟨a, k', b, hks, hsuits, hbefore⟩
    rcases List.eq_nil_or_concat b with rfl | ⟨b, k'', rfl⟩
    · obtain ⟨rfl, hk⟩ := List.append_inj' hks rfl
      rw [List.singleton_inj.mp hk]
      exact Or.inr ⟨hsuits, hbefore⟩
    · rw [List.concat_eq_append, ← List.cons_append, ← List.append_assoc] at hks
      obtain ⟨rfl, -⟩ := List.append_inj' hks rfl
      exact Or.inl ⟨a, k', b, rfl, hsuits, hbefore⟩
  · rintro (⟨a, k', b, rfl, hsuits, hbefore⟩ | ⟨hsuits, hall⟩)
    · exact ⟨a, k', b ++ [k], by simp, hsuits, hbefore⟩
    · exact ⟨ks, k, [], rfl, hsuits, hall⟩

theorem found_cons : Found (k :: ks) asked ↔
    k.Suits asked ∨ k.serno.isSome ∧ Found ks asked := by
  constructor
  · rintro ⟨a, k', b, hks, hsuits, hbefore⟩
    cases a with
    | nil =>
      obtain ⟨rfl, -⟩ := List.cons.inj hks
      exact Or.inl hsuits
    | cons k₀ a =>
      obtain ⟨rfl, rfl⟩ := List.cons.inj hks
      obtain ⟨hk, hbefore⟩ := List.forall_mem_cons.mp hbefore
      exact Or.inr ⟨hk, a, k', b, rfl, hsuits, hbefore⟩
  · rintro (hsuits | ⟨hk, a, k', b, rfl, hsuits, hbefore⟩)
    · exact ⟨[], k, ks, rfl, hsuits, by simp⟩
    · exact ⟨k :: a, k', b, rfl, hsuits, List.forall_mem_cons.mpr ⟨hk, hbefore⟩⟩

/-- One turn of the loop, at an entry with a serial number and a type. -/
theorem getDeviceIndex_cons (hserno : asked.serno.isSome) (he : e.Named) :
    (e.key.Suits asked → w1GetDeviceIndex asked.serno asked.devtype (e :: devs) = .ok (some 0)) ∧
    (¬ e.key.Suits asked → w1GetDeviceIndex asked.serno asked.devtype (e :: devs) =
      (w1GetDeviceIndex asked.serno asked.devtype devs).map (Option.map (· + 1))) := by
  obtain ⟨s, hs⟩ := Option.isSome_iff_exists.mp hserno
  obtain ⟨s', hs'⟩ := Option.isSome_iff_exists.mp he.1
  obtain ⟨t', ht'⟩ := Option.isSome_iff_exists.mp he.2
  have hrest : (w1GetDeviceIndex (some s) asked.devtype devs >>= fun nn =>
      Except.ok (nn.map (· + 1))) =
      (w1GetDeviceIndex (some s) asked.devtype devs).map (Option.map (· + 1)) := by
    cases w1GetDeviceIndex (some s) asked.devtype devs <;> rfl
  rw [w1GetDeviceIndex, Key.Suits, Entry.key, hs, hs', ht', ← hrest]
  by_cases hserial : s = s'
  · cases ht : asked.devtype with
    | none => simp [strcmpEq, hserial, bind, Except.bind, pure, Except.pure]
    | some t =>
      by_cases htype : t = t'
      · simp [strcmpEq, hserial, htype, bind, Except.bind, pure, Except.pure]
      · simp [strcmpEq, hserial, htype, Ne.symm htype, bind, Except.bind, pure, Except.pure]
  · simp [strcmpEq, hserial, Ne.symm hserial, bind, Except.bind, pure, Except.pure]

theorem getDeviceIndex_null (h : asked.serno = none ∨ e.serial = none) :
    w1GetDeviceIndex asked.serno asked.devtype (e :: devs) = .error .nullDeref := by
  have hcmp : strcmpEq asked.serno e.serial = .error .nullDeref := by
    rcases h with h | h <;> rw [h]
    · rfl
    · cases asked.serno <;> rfl
  rw [w1GetDeviceIndex, hcmp]
  rfl

theorem getDeviceIndex_found (htypes : ∀ e ∈ devs, e.devtype.isSome)
    (h : Found (devs.map Entry.key) asked) :
    ∃ i e, w1GetDeviceIndex asked.serno asked.devtype devs = .ok (some i) ∧
      devs[i]? = some e ∧ e.key.Suits asked := by
  induction devs with
  | nil =>
    obtain ⟨a, k, b, hks, -, -⟩ := h
    simp at hks
  | cons e devs ih =>
    obtain ⟨he, htypes⟩ := List.forall_mem_cons.mp htypes
    have hserno : asked.serno.isSome := by
      obtain ⟨a, k, b, -, hsuits, -⟩ := h
      exact hsuits.2.1 ▸ hsuits.1
    by_cases hsuits : e.key.Suits asked
    · exact ⟨0, e, (getDeviceIndex_cons hserno ⟨hsuits.1, he⟩).1 hsuits, rfl, hsuits⟩
    · obtain ⟨hserial, hrest⟩ := (found_cons.mp h).resolve_left hsuits
      obtain ⟨i, e', hi, he', hsuits'⟩ := ih htypes hrest
      refine ⟨i + 1, e', ?_, he', hsuits'⟩
      rw [(getDeviceIndex_cons hserno ⟨hserial, he⟩).2 hsuits, hi]
      rfl

theorem getDeviceIndex_none (htypes : ∀ e ∈ devs, e.devtype.isSome)
    (h : ¬ Found (devs.map Entry.key) asked) (hs : Searchable (devs.map Entry.key) asked) :
    w1GetDeviceIndex asked.serno asked.devtype devs = .ok none := by
  induction devs with
  | nil => rfl
  | cons e devs ih =>
    obtain ⟨he, htypes⟩ := List.forall_mem_cons.mp htypes
    obtain ⟨hserno, hall⟩ := hs.resolve_left (by simp)
    obtain ⟨hserial, hall⟩ := List.forall_mem_cons.mp (hall.resolve_left h)
    rw [List.map_cons, found_cons, not_or, not_and] at h
    rw [(getDeviceIndex_cons hserno ⟨hserial, he⟩).2 h.1,
      ih htypes (h.2 hserial) (Or.inr ⟨hserno, Or.inr hall⟩)]
    rfl

theorem getDeviceIndex_unsearchable (htypes : ∀ e ∈ devs, e.devtype.isSome)
    (h : ¬ Searchable (devs.map Entry.key) asked) :
    w1GetDeviceIndex asked.serno asked.devtype devs = .error .nullDeref := by
  induction devs with
  | nil => exact absurd (Or.inl rfl) h
  | cons e devs ih =>
    obtain ⟨he, htypes⟩ := List.forall_mem_cons.mp htypes
    by_cases hserno : asked.serno.isSome
    · by_cases hserial : e.serial.isSome
      · have hsuits : ¬ e.key.Suits asked := fun hsuits =>
          h (Or.inr ⟨hserno, Or.inl (found_cons.mpr (Or.inl hsuits))⟩)
        have hrest : ¬ Searchable (devs.map Entry.key) asked := by
          rintro (hnil | ⟨-, hfound | hall⟩)
          · rw [List.map_eq_nil_iff] at hnil
            exact h (Or.inr ⟨hserno, Or.inr (by simpa [hnil, Entry.key] using hserial)⟩)
          · exact h (Or.inr ⟨hserno, Or.inl (found_cons.mpr (Or.inr ⟨hserial, hfound⟩))⟩)
          · exact h (Or.inr ⟨hserno, Or.inr (List.forall_mem_cons.mpr ⟨hserial, hall⟩)⟩)
        rw [(getDeviceIndex_cons hserno ⟨hserial, he⟩).2 hsuits, ih htypes hrest]
        rfl
      · exact getDeviceIndex_null (Or.inr (by simpa using hserial))
    · exact getDeviceIndex_null (Or.inl (by simpa using hserno))

end

/-! ## One row -/

section
variable {cells : List (CString × CString)} {e : Entry}

/-- With a sensor to go to, every cell can be attached. -/
theorem attach_some (cells : List (CString × CString)) {xs : List Sensor} (hxs : xs ≠ []) :
    ∃ ys, cells.foldlM attachCell xs = .ok ys := by
  induction cells generalizing xs with
  | nil => exact ⟨xs, rfl⟩
  | cons c cells ih =>
    obtain ⟨zs, hzs, hne⟩ : ∃ zs, attachCell xs c = .ok zs ∧ zs ≠ [] := by
      have hx := List.getLast?_eq_some_getLast hxs
      unfold attachCell
      simp only [hx]
      split_ifs
      · exact ⟨_, rfl, by simp⟩
      · exact ⟨_, rfl, by simp⟩
      · exact ⟨_, rfl, by simp⟩
      · exact ⟨_, rfl, hxs⟩
    obtain ⟨ys, hys⟩ := ih hne
    refine ⟨ys, ?_⟩
    rw [List.foldlM_cons, hzs]
    exact hys

/-- The cells of a new entry can be attached unless the first one lacks a slot. -/
theorem attach_nil_iff : (∃ xs, cells.foldlM attachCell [] = .ok xs) ↔ ¬ LacksSlot cells := by
  rw [foldlM_attachCell_filter, LacksSlot]
  have hmem : ∀ c ∈ cells.filter (·.1 ∈ sensorCols), c.1 ∈ sensorCols := fun c hc => by
    simpa using (List.mem_filter.mp hc).2
  generalize cells.filter (·.1 ∈ sensorCols) = ds at hmem
  cases ds with
  | nil => simp [pure, Except.pure]
  | cons c ds =>
    rw [List.foldlM_cons]
    by_cases habbrv : c.1 = abbrv1Col ∨ c.1 = abbrv2Col
    · obtain ⟨xs, hxs⟩ := attach_some ds (show ([] ++ [{ abbrv := some c.2 }] : List Sensor) ≠ [] by simp)
      rw [attachCell_abbrv [] habbrv]
      refine iff_of_true ⟨xs, hxs⟩ ?_
      rintro ⟨c', hc', h₁, h₂⟩
      obtain rfl := Option.some.inj hc'
      exact habbrv.elim h₁ h₂
    · have herror : attachCell [] c = .error .noSlot := by
        have hc := hmem c List.mem_cons_self
        simp only [sensorCols, List.mem_cons, List.not_mem_nil, or_false] at hc
        rcases hc with h | h | h | h | h | h
        · exact absurd (Or.inl h) habbrv
        · exact attachCell_name [] (Or.inl h)
        · exact attachCell_units [] (Or.inl h)
        · exact absurd (Or.inr h) habbrv
        · exact attachCell_name [] (Or.inr h)
        · exact attachCell_units [] (Or.inr h)
      rw [herror]
      refine iff_of_false (fun h => by cases h.choose_spec) (not_not.mpr ?_)
      exact ⟨c, rfl, not_or.mp habbrv⟩

theorem attach_error {xs : List Sensor} {err : Stop}
    (h : cells.foldlM attachCell xs = .error err) : err = .noSlot := by
  induction cells generalizing xs with
  | nil => exact nomatch h
  | cons c cells ih =>
    rw [List.foldlM_cons] at h
    cases hc : attachCell xs c with
    | ok ys =>
      rw [hc] at h
      exact ih h
    | error err' =>
      rw [hc] at h
      obtain rfl := Except.error.inj h
      unfold attachCell at hc
      split_ifs at hc <;> cases hx : xs.getLast? <;> simp_all

/-- An entry with a type keeps it, and nothing that is missing is compared. -/
theorem stepRow_typed (htype : e.devtype.isSome) :
    stepRow cells e ≠ .error .nullDeref ∧ ∀ e', stepRow cells e = .ok e' →
      e'.serial = (lastCell deviceCol cells).or e.serial ∧ e'.devtype = e.devtype ∧
      e'.stype = (e.devtype.bind typeOf).getD e.stype := by
  obtain ⟨ty, hty⟩ := Option.isSome_iff_exists.mp htype
  have hor : e.devtype.or (firstCell typeCol cells) = e.devtype := by rw [hty, Option.some_or]
  rw [stepRow_eq e cells (by rw [hor]; exact htype)]
  constructor
  · intro h
    cases hxs : cells.foldlM attachCell e.sensors with
    | ok xs =>
      rw [hxs] at h
      exact nomatch h
    | error err =>
      rw [hxs] at h
      exact nomatch (Except.error.inj h).symm.trans (attach_error hxs)
  · intro e' h
    obtain ⟨xs, -, rfl⟩ := map_ok.mp h
    obtain ⟨-, hserial, hdevtype, hstype, -, -⟩ := fill_fields e cells xs
    rw [hor] at hdevtype hstype
    exact ⟨hserial, hdevtype, hstype⟩

/-- A new entry takes its keys from the row, which has to have a type unless an earlier
cell already stops the row. -/
theorem stepRow_zero :
    (stepRow cells .zero = .error .nullDeref ↔
      ¬ LacksSlot cells ∧ firstCell typeCol cells = none) ∧
    ∀ e, stepRow cells .zero = .ok e → (firstCell typeCol cells).isSome ∧
      e.serial = lastCell deviceCol cells ∧ e.devtype = firstCell typeCol cells ∧
      e.stype = ((firstCell typeCol cells).bind typeOf).getD .invalid := by
  cases htype : firstCell typeCol cells with
  | some ty =>
    have hor : (Entry.zero.devtype.or (firstCell typeCol cells)) = some ty := htype
    rw [stepRow_eq _ cells (by rw [hor]; rfl)]
    constructor
    · refine iff_of_false (fun h => ?_) fun h => nomatch h.2
      cases hxs : cells.foldlM attachCell Entry.zero.sensors with
      | ok xs =>
        rw [hxs] at h
        exact nomatch h
      | error err =>
        rw [hxs] at h
        exact nomatch (Except.error.inj h).symm.trans (attach_error hxs)
    · intro e h
      obtain ⟨xs, -, rfl⟩ := map_ok.mp h
      obtain ⟨-, hserial, hdevtype, hstype, -, -⟩ := fill_fields Entry.zero cells xs
      rw [hor] at hdevtype hstype
      exact ⟨rfl, hserial.trans (by cases lastCell deviceCol cells <;> rfl), hdevtype, hstype⟩
  | none =>
    have hnone : ((cells.foldl Entry.assign Entry.zero)).devtype = none := by
      rw [(foldl_assign Entry.zero cells).2.1, htype]
      rfl
    rw [stepRow, setCells_eq, show Entry.zero.sensors = [] from rfl]
    rw [← attach_nil_iff]
    cases hxs : cells.foldlM attachCell [] with
    | error err =>
      obtain rfl := attach_error hxs
      simp [Except.map, bind, Except.bind]
    | ok xs =>
      have henum : w1Enumdevs ((cells.foldl Entry.assign Entry.zero).withSensors xs) =
          .error .nullDeref := by
        have h : ((cells.foldl Entry.assign Entry.zero).withSensors xs).devtype = none := hnone
        rw [w1Enumdevs, h]
      simp [Except.map, bind, Except.bind, henum]

end

/-! ## The loop over the rows -/

/-- What `fetch` delivers is the cell, but for how a NULL is spelt. -/
def Fetches (fetch : Option CString → Option CString) : Prop :=
  ∀ cell, filled (fetch cell) = filled cell

theorem fetches_id : Fetches id := fun _ => rfl

theorem fetches_pqGetvalue : Fetches pqGetvalue := by
  intro cell
  cases cell <;> rfl

/-- The entries of the rows so far: their types are compared, and a search among them goes
as a search among the keys of the rows. -/
structure Loaded (rows : List Record) (devs : List Entry) : Prop where
  typed : ∀ e ∈ devs, e.devtype.isSome ∧ e.stype = (e.devtype.bind typeOf).getD .invalid
  empty : devs.map Entry.key = [] ↔ rows.map Record.filledKey = []
  complete : (∀ k ∈ devs.map Entry.key, k.serno.isSome) ↔
    ∀ k ∈ rows.map Record.filledKey, k.serno.isSome
  found : ∀ asked, Found (devs.map Entry.key) asked ↔ Found (rows.map Record.filledKey) asked
  keys : ∀ k : Key, k ∈ devs.map Entry.key ↔ k.devtype.isSome ∧ k ∈ rows.map Record.filledKey

section
variable {fetch : Option CString → Option CString} {names : List CString}
  {rows : List Record} {r q : Record} {devs devs' : List Entry}

theorem filled_filled (cell : Option CString) : filled (filled cell) = filled cell := by
  cases h : filled cell with
  | none => rfl
  | some v =>
    have hcell : filled cell = cell := W1Retap.filled_eq (by rw [h]; rfl)
    rw [← h, hcell, hcell]

theorem Fetches.filled_eq (hfetch : Fetches fetch) {cell : Option CString}
    (h : (filled cell).isSome) : fetch cell = filled cell := by
  rw [← hfetch cell] at h ⊢
  exact (W1Retap.filled_eq h).symm

/-- A row goes to an entry of its own device. -/
theorem suits_serno (hfetch : Fetches fetch) (h : q.filledKey.Suits (r.askedKey fetch)) :
    r.filledKey.serno = q.filledKey.serno := by
  calc filled (r deviceCol) = filled (fetch (r deviceCol)) := (hfetch _).symm
    _ = filled (filled (q deviceCol)) := congrArg filled h.2.1.symm
    _ = filled (q deviceCol) := filled_filled _

theorem suits_key (hfetch : Fetches fetch) (h : q.filledKey.Suits (r.askedKey fetch))
    (htype : (filled (r typeCol)).isSome) : r.filledKey = q.filledKey := by
  have hasked : fetch (r typeCol) = filled (r typeCol) := hfetch.filled_eq htype
  have hdevtype : filled (r typeCol) = filled (q typeCol) := by
    rcases h.2.2 with hnone | ⟨-, heq⟩
    · change fetch (r typeCol) = none at hnone
      rw [← hasked, hnone] at htype
      exact nomatch htype
    · exact hasked.symm.trans heq.symm
  rw [Record.filledKey, hdevtype, show filled (r deviceCol) = _ from suits_serno hfetch h]
  rfl

/-- Whoever finds the key of a row finds the key that this row was joined to. -/
theorem suits_trans (hfetch : Fetches fetch) {asked : Key}
    (h : q.filledKey.Suits (r.askedKey fetch)) (hr : r.filledKey.Suits asked) :
    q.filledKey.Suits asked := by
  obtain ⟨-, hserno, htype⟩ := hr
  refine ⟨h.1, (suits_serno hfetch h).symm.trans hserno, ?_⟩
  rcases htype with hnone | ⟨hsome, heq⟩
  · exact Or.inl hnone
  · have hkey := suits_key hfetch h hsome
    exact Or.inr ⟨hkey ▸ hsome, hkey ▸ heq⟩

theorem Loaded.searchable (h : Loaded rows devs) (asked : Key) :
    Searchable (devs.map Entry.key) asked ↔ Searchable (rows.map Record.filledKey) asked := by
  rw [Searchable, Searchable, h.empty, h.found, h.complete]

/-- The row of an entry that a search has found. -/
theorem Loaded.row {e : Entry} (h : Loaded rows devs) (he : e ∈ devs) :
    ∃ q ∈ rows, e.key = q.filledKey := by
  have hmem := ((h.keys e.key).mp (List.mem_map_of_mem he)).2
  obtain ⟨q, hq, hkey⟩ := List.mem_map.mp hmem
  exact ⟨q, hq, hkey.symm⟩

theorem firstCell_type (htype : typeCol ∈ names) (r : Record) :
    firstCell typeCol (filledCells names r) = filled (r typeCol) := by
  rw [firstCell_filledCells, if_pos htype]

theorem lastCell_device (hdevice : deviceCol ∈ names) (r : Record) :
    lastCell deviceCol (filledCells names r) = filled (r deviceCol) := by
  rw [lastCell_filledCells, if_pos hdevice]

/-- A row that joins an entry adds nothing that a search could find. -/
theorem Loaded.joined (hfetch : Fetches fetch) (h : Loaded rows devs)
    (hfound : Found (rows.map Record.filledKey) (r.askedKey fetch))
    (hkeys : devs'.map Entry.key = devs.map Entry.key)
    (htyped : ∀ e ∈ devs', e.devtype.isSome ∧ e.stype = (e.devtype.bind typeOf).getD .invalid) :
    Loaded (rows ++ [r]) devs' := by
  obtain ⟨a, k, b, hsplit, hsuits, hbefore⟩ := id hfound
  have hk : k ∈ rows.map Record.filledKey := hsplit ▸ by simp
  obtain ⟨q, hq, rfl⟩ := List.mem_map.mp hk
  refine ⟨htyped, ?_, ?_, fun asked => ?_, fun k => ?_⟩
  · rw [hkeys, h.empty]
    exact iff_of_false (by rw [hsplit]; simp) (by simp)
  · rw [hkeys, h.complete, List.map_append, List.forall_mem_append]
    refine (and_iff_left_of_imp fun _ => ?_).symm
    have hr : r.filledKey.serno.isSome := suits_serno hfetch hsuits ▸ hsuits.1
    simpa using hr
  · rw [hkeys, h.found, List.map_append, List.map_singleton, found_append]
    refine (or_iff_left_of_imp ?_).symm
    rintro ⟨hr, -⟩
    exact ⟨a, q.filledKey, b, hsplit, suits_trans hfetch hsuits hr, hbefore⟩
  · rw [hkeys, h.keys, List.map_append, List.mem_append, List.map_singleton, List.mem_singleton]
    refine and_congr_right fun htype => (or_iff_left_of_imp ?_).symm
    rintro rfl
    rwa [suits_key hfetch hsuits htype]

/-- A row that joins an entry leaves the keys as they are. -/
theorem loadRow_found (hfetch : Fetches fetch) (hdevice : deviceCol ∈ names)
    (h : Loaded rows devs)
    (hfound : Found (rows.map Record.filledKey) (r.askedKey fetch)) :
    loadRow (r.askedKey fetch).serno (r.askedKey fetch).devtype (filledCells names r) devs ≠
        .error .nullDeref ∧
      ∀ devs', loadRow (r.askedKey fetch).serno (r.askedKey fetch).devtype
        (filledCells names r) devs = .ok devs' → Loaded (rows ++ [r]) devs' := by
  obtain ⟨i, e, hidx, he, hsuits⟩ := getDeviceIndex_found (fun e he => (h.typed e he).1)
    ((h.found _).mpr hfound)
  have hmem := List.mem_of_getElem? he
  obtain ⟨htype, hstype⟩ := h.typed e hmem
  obtain ⟨q, hq, hkey⟩ := h.row hmem
  rw [hkey] at hsuits
  have hserno : filled (r deviceCol) = e.serial :=
    (suits_serno hfetch hsuits).trans (congrArg Key.serno hkey).symm
  rw [loadRow_eq hidx]
  simp only [Option.isNone_some, Bool.false_eq_true, if_false, Option.getD_some,
    List.getD_eq_getElem?_getD, he]
  constructor
  · exact fun herror => (stepRow_typed htype).1 (map_error.mp herror)
  · intro devs' hok
    obtain ⟨e', hstep, rfl⟩ := map_ok.mp hok
    obtain ⟨hserial', htype', hstype'⟩ := (stepRow_typed htype).2 e' hstep
    have hkey' : e'.key = e.key := by
      rw [Entry.key, hserial', htype', lastCell_device hdevice, hserno, Option.or_self]
      rfl
    have hkeys : (devs.set i e').map Entry.key = devs.map Entry.key := by
      obtain ⟨hi, rfl⟩ := List.getElem?_eq_some_iff.mp he
      rw [List.map_set, hkey', ← List.getElem_map Entry.key (h := by simpa using hi),
        List.set_getElem_self]
    exact h.joined hfetch hfound hkeys fun x hx => by
      rcases List.mem_or_eq_of_mem_set hx with hx | rfl
      · exact h.typed x hx
      · rw [hstype', htype', hstype]
        exact ⟨htype, by cases e.devtype.bind typeOf <;> rfl⟩

/-- A row that makes an entry adds its key. -/
theorem Loaded.extended {e : Entry} (h : Loaded rows devs) (hkey : e.key = r.filledKey)
    (hdevtype : e.devtype.isSome) (hstype : e.stype = (e.devtype.bind typeOf).getD .invalid) :
    Loaded (rows ++ [r]) (devs ++ [e]) := by
  have hr : r.filledKey.devtype.isSome := hkey ▸ hdevtype
  refine ⟨?_, ?_, ?_, fun asked => ?_, fun k => ?_⟩
  · rw [List.forall_mem_append]
    exact ⟨h.typed, by simpa using ⟨hdevtype, hstype⟩⟩
  · simp
  · rw [List.map_append, List.map_append, List.forall_mem_append, List.forall_mem_append,
      h.complete, List.map_singleton, List.map_singleton, hkey]
  · rw [List.map_append, List.map_append, List.map_singleton, List.map_singleton, hkey,
      found_append, found_append, h.found, h.complete]
  · rw [List.map_append, List.map_append, List.mem_append, List.mem_append, h.keys,
      List.map_singleton, List.map_singleton, hkey, List.mem_singleton]
    constructor
    · rintro (⟨htype, hk⟩ | rfl)
      · exact ⟨htype, Or.inl hk⟩
      · exact ⟨hr, Or.inr rfl⟩
    · rintro ⟨htype, hk | rfl⟩
      · exact Or.inl ⟨htype, hk⟩
      · exact Or.inr rfl

/-- A row that joins no entry makes one, for which it has to have a type. -/
theorem loadRow_new (hdevice : deviceCol ∈ names) (htype : typeCol ∈ names)
    (h : Loaded rows devs)
    (hnew : ¬ Found (rows.map Record.filledKey) (r.askedKey fetch))
    (hs : Searchable (rows.map Record.filledKey) (r.askedKey fetch)) :
    (loadRow (r.askedKey fetch).serno (r.askedKey fetch).devtype (filledCells names r) devs =
        .error .nullDeref ↔ ¬ LacksSlot (filledCells names r) ∧ filled (r typeCol) = none) ∧
      ∀ devs', loadRow (r.askedKey fetch).serno (r.askedKey fetch).devtype
        (filledCells names r) devs = .ok devs' → Loaded (rows ++ [r]) devs' := by
  have hidx := getDeviceIndex_none (fun e he => (h.typed e he).1) (fun hf => hnew ((h.found _).mp hf))
    ((h.searchable _).mpr hs)
  have hset : (devs ++ [Entry.zero]).set devs.length = fun e => devs ++ [e] := by
    funext e
    simp
  have hload : loadRow (r.askedKey fetch).serno (r.askedKey fetch).devtype
      (filledCells names r) devs =
      (stepRow (filledCells names r) .zero).map fun e => devs ++ [e] := by
    rw [loadRow_eq hidx]
    simp [hset]
  rw [hload, ← firstCell_type htype]
  constructor
  · rw [map_error]
    exact stepRow_zero.1
  · intro devs' hok
    obtain ⟨e, hstep, rfl⟩ := map_ok.mp hok
    obtain ⟨hsome, hserial, hdevtype, hstype⟩ := stepRow_zero.2 e hstep
    refine h.extended ?_ (hdevtype ▸ hsome) (hdevtype ▸ hstype)
    rw [Entry.key, hserial, hdevtype, lastCell_device hdevice, firstCell_type htype]
    rfl

/-- What a row can do: go on, or compare what is missing when it is not safe. -/
theorem loadRow_step (hfetch : Fetches fetch) (hdevice : deviceCol ∈ names)
    (htype : typeCol ∈ names) (h : Loaded rows devs) :
    (loadRow (r.askedKey fetch).serno (r.askedKey fetch).devtype (filledCells names r) devs =
        .error .nullDeref ↔ ¬ SafeRow fetch names rows r) ∧
      ∀ devs', loadRow (r.askedKey fetch).serno (r.askedKey fetch).devtype
        (filledCells names r) devs = .ok devs' → Loaded (rows ++ [r]) devs' := by
  by_cases hfound : Found (rows.map Record.filledKey) (r.askedKey fetch)
  · obtain ⟨hnull, hok⟩ := loadRow_found hfetch hdevice h hfound
    refine ⟨iff_of_false hnull (not_not.mpr ⟨Or.inr ⟨?_, Or.inl hfound⟩, Or.inl hfound⟩), hok⟩
    obtain ⟨a, k, b, -, hsuits, -⟩ := hfound
    exact hsuits.2.1 ▸ hsuits.1
  · by_cases hs : Searchable (rows.map Record.filledKey) (r.askedKey fetch)
    · obtain ⟨hnull, hok⟩ := loadRow_new hdevice htype h hfound hs
      refine ⟨hnull.trans ?_, hok⟩
      constructor
      · rintro ⟨hslot, hnone⟩ hsafe
        rcases hsafe.type with hf | hsome | hl
        · exact hfound hf
        · rw [hnone] at hsome
          cases hsome
        · exact hslot hl
      · intro hunsafe
        refine ⟨fun hl => hunsafe ⟨hs, Or.inr (Or.inr hl)⟩, ?_⟩
        by_contra hsome
        exact hunsafe ⟨hs, Or.inr (Or.inl (Option.isSome_iff_ne_none.mpr hsome))⟩
    · have hnull : loadRow (r.askedKey fetch).serno (r.askedKey fetch).devtype
          (filledCells names r) devs = .error .nullDeref := by
        rw [loadRow, getDeviceIndex_unsearchable (fun e he => (h.typed e he).1)
          (fun hs' => hs ((h.searchable _).mp hs'))]
        rfl
      refine ⟨iff_of_true hnull fun hsafe => hs hsafe.search, fun devs' hok => ?_⟩
      cases hnull.symm.trans hok

theorem initRows_loaded (hfetch : Fetches fetch) (hdevice : deviceCol ∈ names)
    (htype : typeCol ∈ names) (hload : initRows fetch names rows = .ok devs) :
    Loaded rows devs := by
  induction rows using List.reverseRecOn generalizing devs with
  | nil =>
    obtain rfl := Except.ok.inj hload
    exact ⟨by simp, Iff.rfl, Iff.rfl, fun _ => Iff.rfl, by simp⟩
  | append_singleton rows r ih =>
    simp only [initRows, List.foldlM_append, List.foldlM_cons, List.foldlM_nil, bind_pure] at hload
    obtain ⟨devs₁, hrows, hr⟩ := bind_ok.mp hload
    exact (loadRow_step hfetch hdevice htype (ih hrows)).2 devs hr

/-- A table is loaded without a comparison of what is missing when every row that the
loader comes to is safe. -/
theorem compared_iff (hfetch : Fetches fetch) (hdevice : deviceCol ∈ names)
    (htype : typeCol ∈ names) :
    initRows fetch names rows ≠ .error .nullDeref ↔
      ∀ pre r post, rows = pre ++ r :: post → (∃ devs, initRows fetch names pre = .ok devs) →
        SafeRow fetch names pre r := by
  rw [ne_eq, initRows, foldlM_error]
  constructor
  · intro h pre r post hrows ⟨devs, hdevs⟩
    by_contra hunsafe
    have hpre := initRows_loaded hfetch hdevice htype hdevs
    have hnull := (loadRow_step hfetch hdevice htype hpre).1.mpr hunsafe
    exact h ⟨pre, r, post, devs, hrows, hdevs, hnull⟩
  · rintro h ⟨pre, r, post, devs, hrows, hdevs, hnull⟩
    have hpre := initRows_loaded hfetch hdevice htype hdevs
    have hunsafe := (loadRow_step hfetch hdevice htype hpre).1.mp hnull
    exact hunsafe (h pre r post hrows ⟨devs, hdevs⟩)

theorem typeOf_ne_invalid {ty : CString} {stype : W1Type} (h : typeOf ty = some stype) :
    stype ≠ .invalid := by
  obtain ⟨p, hp, rfl⟩ := Option.map_eq_some_iff.mp h
  have hmem := List.mem_of_find?_eq_some hp
  have hall : ∀ p ∈ typeNames, p.2 ≠ .invalid := by decide
  exact hall p hmem

/-- The serial numbers that are decoded are the devices of the rows with a known type. -/
theorem decoded_iff (h : Loaded rows devs) :
    (∀ n e, Decoded devs n e → ∃ serial, e.serial = some serial ∧ 16 ≤ serial.length) ↔
      ∀ r ∈ rows, ∀ ty stype, filled (r typeCol) = some ty → typeOf ty = some stype →
        ∀ n, (devs.map Entry.key)[n]? = some r.filledKey →
          (stype = .coupler → ¬ ClistFull devs n) → 16 ≤ ((r deviceCol).getD []).length := by
  constructor
  · intro hdecoded r hr ty stype hty hstype n hn hfull
    rw [List.getElem?_map] at hn
    obtain ⟨e, he, hkey⟩ := Option.map_eq_some_iff.mp hn
    have hdevtype : e.devtype = some ty := (congrArg Key.devtype hkey).trans hty
    have htyped : e.stype = stype := by
      rw [(h.typed e (List.mem_of_getElem? he)).2, hdevtype, Option.bind_some, hstype]
      rfl
    obtain ⟨serial, hserial, hlen⟩ := hdecoded n e
      ⟨he, htyped ▸ typeOf_ne_invalid hstype, fun hc => hfull (htyped ▸ hc)⟩
    have hfilled : filled (r deviceCol) = some serial :=
      (congrArg Key.serno hkey).symm.trans hserial
    have hcell : filled (r deviceCol) = r deviceCol := filled_eq (by rw [hfilled]; rfl)
    rw [← hcell, hfilled]
    exact hlen
  · rintro hdevice n e ⟨he, hinvalid, hfull⟩
    have hmem := List.mem_of_getElem? he
    obtain ⟨r, hr, hkey⟩ := h.row hmem
    obtain ⟨hsome, htyped⟩ := h.typed e hmem
    obtain ⟨ty, hty⟩ := Option.isSome_iff_exists.mp hsome
    have hstype : typeOf ty = some e.stype := by
      rw [hty, Option.bind_some] at htyped
      cases hof : typeOf ty with
      | none => exact absurd (htyped.trans (by rw [hof]; rfl)) hinvalid
      | some stype => rw [htyped, hof]; rfl
    have hlen := hdevice r hr ty e.stype ((congrArg Key.devtype hkey).symm.trans hty) hstype n
      (by rw [List.getElem?_map, he, Option.map_some, hkey]) hfull
    have hserial : e.serial = filled (r deviceCol) := congrArg Key.serno hkey
    cases hd : r deviceCol with
    | none => simp [hd] at hlen
    | some v =>
      rw [hd, Option.getD_some] at hlen
      have hv : v ≠ [] := by
        rintro rfl
        simp at hlen
      exact ⟨v, by rw [hserial, hd]; simp [filled, Option.filter, hv], hlen⟩

theorem keySafe_iff (hfetch : Fetches fetch) (hdevice : deviceCol ∈ names)
    (htype : typeCol ∈ names) :
    KeySafe (initRows fetch names rows) ↔ SafeTable fetch names rows := by
  constructor
  · rintro ⟨hcompared, hdecoded⟩
    refine ⟨(compared_iff hfetch hdevice htype).mp hcompared, fun devs hdevs => ?_⟩
    exact (decoded_iff (initRows_loaded hfetch hdevice htype hdevs)).mp (hdecoded devs hdevs)
  · rintro ⟨hrow, hdev⟩
    refine ⟨(compared_iff hfetch hdevice htype).mpr hrow, fun devs hdevs => ?_⟩
    exact (decoded_iff (initRows_loaded hfetch hdevice htype hdevs)).mpr (hdev devs hdevs)

end

/-! ## Where serial numbers are decoded -/

section
variable {σ : Type} {drv : Driver σ}

theorem makeSerial_decodes {n : ℕ} {d : Device} {s s' : Machine σ} {u : Unit}
    (hd : s.w1.devs[n]? = some d) (hinit : d.init = 0) (h : (makeSerial n).run s = .ok (u, s')) :
    ∃ serno, w1MakeSerial d.serial = .ok serno := by
  rw [makeSerial, run_dev_bind hd, if_pos hinit, run_bind_ok] at h
  obtain ⟨serno, s₁, h, -⟩ := h
  exact ⟨serno, (run_lift_ok.mp h).1⟩

/-- The reader of a device that has not been read before decodes its serial number. -/
theorem readSensors_decodes {n : ℕ} {d : Device} {stype : W1Type} {s s' : Machine σ} {r : Int}
    (hd : s.w1.devs[n]? = some d) (hinit : d.init = 0) (hinvalid : stype ≠ .invalid)
    (hcoupler : stype ≠ .coupler) (h : (readSensors drv n stype).run s = .ok (r, s')) :
    ∃ serno, w1MakeSerial d.serial = .ok serno := by
  have hfirst : ∀ {α : Type} {f : Unit → M σ α} {a : α} {s' : Machine σ},
      (makeSerial n >>= f).run s = .ok (a, s') → ∃ serno, w1MakeSerial d.serial = .ok serno := by
    intro α f a s' h
    obtain ⟨u, s₁, h, -⟩ := run_bind_ok.mp h
    exact makeSerial_decodes hd hinit h
  cases stype with
  | invalid => exact absurd rfl hinvalid
  | coupler => exact absurd rfl hcoupler
  | windvane =>
    obtain ⟨u, s₁, h, -⟩ := run_bind_ok.mp h
    rw [makeVane, run_dev_bind hd] at h
    exact hfirst h
  | ds2438v =>
    obtain ⟨v, s₁, h, -⟩ := run_bind_ok.mp h
    exact hfirst h
  | _ => exact hfirst h

end

/-- The loop over the couplers decodes the serial number of every coupler for whose ids
there is room. -/
theorem scanCouplers_decodes {ds ds' : List Device} {n k : ℕ} {clist clist' : List CoupEntry}
    {d : Device} (h : scanCouplers ds n clist = .ok (ds', clist')) (hk : ds[k]? = some d)
    (hd : d.stype = .coupler)
    (hroom : clist.length + (allListedIds (ds.take k)).length < maxCpl) :
    ∃ serno, w1MakeSerial d.serial = .ok serno := by
  induction ds generalizing n k clist ds' with
  | nil => simp at hk
  | cons d₀ ds ih =>
    rw [scanCouplers] at h
    obtain ⟨⟨d₁, clist₁⟩, hscan, h⟩ := bind_ok.mp h
    obtain ⟨⟨ds₁, clist₂⟩, hrest, h⟩ := bind_ok.mp h
    obtain ⟨-, rfl⟩ := Prod.mk.inj (Except.ok.inj h)
    cases k with
    | zero =>
      obtain rfl := Option.some.inj hk
      have hlt : clist.length < maxCpl := Nat.lt_of_le_of_lt (Nat.le_add_right ..) hroom
      rw [scanDevice, if_pos ⟨hd, hlt⟩] at hscan
      exact ⟨_, (scanCoupler_ok hd hscan).1.serno⟩
    | succ k =>
      refine ih hrest hk ?_
      rw [List.take_succ_cons] at hroom
      by_cases hcoupler : d₀.stype = .coupler
      · have hids : allListedIds (d₀ :: ds.take k) = d₀.listedIds ++ allListedIds (ds.take k) := by
          simp [allListedIds, hcoupler]
        rw [hids, List.length_append] at hroom
        have hlt : clist.length < maxCpl := by omega
        rw [scanDevice, if_pos ⟨hcoupler, hlt⟩] at hscan
        obtain ⟨-, new, rfl, hlen, -⟩ := scanCoupler_ok hcoupler hscan
        rw [List.length_append, hlen]
        omega
      · have hids : allListedIds (d₀ :: ds.take k) = allListedIds (ds.take k) := by
          simp [allListedIds, hcoupler]
        rw [scanDevice, if_neg fun hc => hcoupler hc.1] at hscan
        obtain ⟨-, rfl⟩ := Prod.mk.inj (Except.ok.inj hscan)
        rwa [hids] at hroom

/-! ## When the keys are safe -/

/-- The three loaders compare nothing that is missing, and every serial number that is
decoded has sixteen characters, exactly for the tables that are safe for them. -/
theorem loaders_key_safe_iff {names : List CString} (hdevice : deviceCol ∈ names)
    (htype : typeCol ∈ names) (rows : List Record) :
    (KeySafe (sqliteRows names rows) ↔ SafeTable id names rows) ∧
    (KeySafe (mysqlRows names rows) ↔ SafeTable id names rows) ∧
    (KeySafe (pgsqlRows names rows) ↔ SafeTable pqGetvalue names rows) :=
  ⟨keySafe_iff fetches_id hdevice htype, keySafe_iff fetches_id hdevice htype,
    keySafe_iff fetches_pqGetvalue hdevice htype⟩

theorem loaders_key_safe_iff_garden :
    (KeySafe (sqliteRows mksensCols garden) ↔ SafeTable id mksensCols garden) ∧
    (KeySafe (mysqlRows mksensCols garden) ↔ SafeTable id mksensCols garden) ∧
    (KeySafe (pgsqlRows mksensCols garden) ↔ SafeTable pqGetvalue mksensCols garden) :=
  loaders_key_safe_iff (by decide) (by decide) garden

/-- A thermometer without a type. -/
def untyped : List Record :=
  [.of [("device", "28A1B2C30400007F"), ("abbrv1", "OTMP0"), ("name1", "Outside")]]

/-- A thermometer of which only the family is given. -/
def abridged : List Record :=
  [.of [("device", "28"), ("type", "DS1820"), ("abbrv1", "OTMP0"), ("name1", "Outside")]]

/-- The type that is missing is compared by all three, and the short serial number is
decoded. -/
theorem key_safety_fails :
    (¬ KeySafe (sqliteRows mksensCols untyped) ∧ ¬ KeySafe (mysqlRows mksensCols untyped) ∧
      ¬ KeySafe (pgsqlRows mksensCols untyped)) ∧
    ¬ KeySafe (sqliteRows mksensCols abridged) := by
  refine ⟨⟨fun h => h.compared rfl, fun h => h.compared rfl, fun h => h.compared rfl⟩, fun h => ?_⟩
  obtain ⟨e, he, hserial, hstype⟩ : ∃ e, sqliteRows mksensCols abridged = .ok [e] ∧
      e.serial = some "28".toList ∧ e.stype = .temp := ⟨_, rfl, rfl, rfl⟩
  have hdecoded : Decoded [e] 0 e :=
    ⟨rfl, by rw [hstype]; decide, fun hc => nomatch hstype.symm.trans hc⟩
  obtain ⟨serial, hs, hlen⟩ := h.decoded [e] he 0 e hdecoded
  obtain rfl := Option.some.inj (hserial.symm.trans hs)
  exact absurd hlen (by decide)

end W1Retap

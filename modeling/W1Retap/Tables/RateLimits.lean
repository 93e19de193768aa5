import W1Retap.Tables.Databases

/-!
# Rate limits

The five database plugins read the table `ratelimit` after the sensors, and each row sets
the limits of the sensor that it names. The loops are alike; they differ in which names
they take, and in which cells are a number for them.
-/
namespace W1Retap

open Programs

/-! ## The table -/

/-- The columns `value`, `rmin` and `rmax`. -/
inductive Limit where
  | roc | rmin | rmax
  deriving DecidableEq, Repr

/-- A NULL, or a number stored as an integer or as a real. -/
inductive NumCell where
  | null
  | int (v : Int)
  | real (v : ℚ)
  deriving DecidableEq, Repr

def NumCell.number : NumCell → Option ℚ
  | .null => none
  | .int v => some v
  | .real v => some v

structure LimitRow where
  name : Option CString
  cell : Limit → NumCell

/-- The numbers of a row; the flag of a limit is set when there is one. -/
abbrev Limits := Limit → Option ℚ

def Limits.flags (l : Limits) : ℕ :=
  (if (l .roc).isSome then w1Roc else 0) ||| (if (l .rmin).isSome then w1Rmin else 0) |||
    if (l .rmax).isSome then w1Rmax else 0

def Sensor.bound (x : Sensor) : Limit → ℚ
  | .roc => x.roc
  | .rmin => x.rmin
  | .rmax => x.rmax

/-- The assignments to the sensor that was found. -/
def Sensor.limit (x : Sensor) (l : Limits) : Sensor :=
  { x with
    flags := l.flags, roc := (l .roc).getD x.roc, rmin := (l .rmin).getD x.rmin
    rmax := (l .rmax).getD x.rmax }

/-! ## `w1_find_sensor` -/

/-- The sensors of a device that are in use. -/
def Device.used (d : Device) : List Sensor := d.s.take d.ns

/-- Each device is left at its first sensor of that name, but the search goes on. -/
def findSensor : List Device → CString → Option (ℕ × ℕ)
  | [], _ => none
  | d :: devs, s =>
    match findSensor devs s with
    | some (n, j) => some (n + 1, j)
    | none => (d.used.findIdx? fun x => x.abbrv = some s).map (0, ·)

/-- The comparison of a name with NULL is undefined. -/
def w1FindSensor (devs : List Device) : Option CString → Except Stop (Option (ℕ × ℕ))
  | some s => .ok (findSensor devs s)
  | none => if devs.any (fun d => d.used.any fun x => x.abbrv.isSome) then .error .nullDeref else .ok none

/-! ## The loaders -/

/-- A number as a C program stores it that reads its text: with `strtof` in a float, and
with `strtod`. -/
structure Rounding where
  float : ℚ → ℚ
  double : ℚ → ℚ

/-- What tells the loops apart: the string that a name makes them search for, and the
number that a cell is for them. -/
structure LimitReader where
  name : Option CString → Option (Option CString)
  number : NumCell → Option ℚ

def LimitReader.limits (p : LimitReader) (row : LimitRow) : Limits := fun b => p.number (row.cell b)

def LimitReader.step (p : LimitReader) (devs : List Device) (row : LimitRow) :
    Except Stop (List Device) :=
  match p.name row.name with
  | none => pure devs
  | some name =>
    if (p.limits row).flags ≠ 0 then do
      match ← w1FindSensor devs name with
      | some (n, j) => pure (devs.modify n (·.modifySlot j (·.limit (p.limits row))))
      | none => pure devs
    else
      pure devs

/-- The part of `w1_init` that reads the limits. -/
def LimitReader.load (p : LimitReader) (devs : List Device) (rows : List LimitRow) :
    Except Stop (List Device) := rows.foldlM p.step devs

inductive LimitPlugin where
  | sqlite | pgsql | mysql | odbc | mongo
  deriving DecidableEq, Repr

/-- The sqlite and mysql plugins read texts and take names that are not empty. The pgsql
plugin gets an empty text for NULL and uses `strtod`. The odbc plugin takes every name,
but has 512 bytes for it. The mongo plugin takes reals only, and searches without a name. -/
def LimitPlugin.reader (R : Rounding) : LimitPlugin → LimitReader
  | .sqlite => { name s := (filled s).map some, number c := c.number.map R.float }
  | .pgsql =>
    { name s := (filled (some (s.getD []))).map some
      number c := c.number.map fun v => R.float (R.double v) }
  | .mysql => { name s := (filled s).map some, number c := c.number.map R.float }
  | .odbc => { name s := s.map fun s => some (s.take 511), number c := c.number.map R.float }
  | .mongo =>
    { name s := some s
      number
        | .real v => some v
        | _ => none }

/-- What a row asks for. -/
def asked : LimitReader where
  name s := s.map some
  number := NumCell.number

/-! ## One sensor -/

/-- The sensor in slot `j` of device `n`, when it is in use. -/
def sensorAt (devs : List Device) (n j : ℕ) : Option Sensor := devs[n]?.bind fun d => d.used[j]?

/-- No two sensors have the same abbreviation. -/
def DistinctAbbrvs (devs : List Device) : Prop :=
  ∀ n j m k x y, sensorAt devs n j = some x → sensorAt devs m k = some y →
    x.abbrv.isSome → x.abbrv = y.abbrv → n = m ∧ j = k

namespace LimitReader
variable (p : LimitReader)

/-- The row sets limits of the sensor. -/
def names (x : Sensor) (row : LimitRow) : Bool :=
  x.abbrv.isSome && p.name row.name == some x.abbrv && (p.limits row).flags != 0

/-- The limits that the rows set for the sensor, one row after the other. -/
def seen (rows : List LimitRow) (x : Sensor) : List Limits :=
  (rows.filter (p.names x)).map p.limits

end LimitReader

section
variable {p : LimitReader} {devs devs' : List Device} {row : LimitRow} {rows : List LimitRow}
  {n j m k : ℕ} {x : Sensor} {s : CString}

theorem used_modifySlot (d : Device) (f : Sensor → Sensor) :
    (d.modifySlot j f).used[k]? = if j = k then d.used[k]?.map f else d.used[k]? := by
  rw [Device.used, Device.used, List.getElem?_take, List.getElem?_take, Device.modifySlot_ns,
    Device.modifySlot_getElem?]
  by_cases hk : k < d.ns
  · rw [if_pos hk, if_pos hk]
  · rw [if_neg hk, if_neg hk, Option.map_none, ite_self]

theorem sensorAt_modify (f : Sensor → Sensor) :
    sensorAt (devs.modify n (·.modifySlot j f)) m k =
      if n = m ∧ j = k then (sensorAt devs m k).map f else sensorAt devs m k := by
  unfold sensorAt
  rw [List.getElem?_modify]
  cases devs[m]? with
  | none => simp
  | some d =>
    by_cases hn : n = m
    · simp [hn, used_modifySlot]
    · simp [hn]

theorem sensorAt_succ (d : Device) : sensorAt (d :: devs) (n + 1) j = sensorAt devs n j := rfl

/-- What is found has the name. -/
theorem findSensor_some (h : findSensor devs s = some (n, j)) :
    ∃ x, sensorAt devs n j = some x ∧ x.abbrv = some s := by
  induction devs generalizing n with
  | nil => exact nomatch h
  | cons d devs ih =>
    rw [findSensor] at h
    cases hrest : findSensor devs s with
    | some r =>
      obtain ⟨n', j'⟩ := r
      rw [hrest] at h
      obtain ⟨rfl, rfl⟩ := Prod.mk.inj (Option.some.inj h)
      exact ih hrest
    | none =>
      rw [hrest] at h
      obtain ⟨i, hi, he⟩ := Option.map_eq_some_iff.mp h
      obtain ⟨rfl, rfl⟩ := Prod.mk.inj he
      obtain ⟨hlt, hname, -⟩ := List.findIdx?_eq_some_iff_getElem.mp hi
      exact ⟨_, List.getElem?_eq_getElem hlt, by simpa using hname⟩

/-- When nothing is found no sensor has the name. -/
theorem findSensor_none (h : findSensor devs s = none) (hx : sensorAt devs n j = some x) :
    x.abbrv ≠ some s := by
  induction devs generalizing n with
  | nil => exact nomatch hx
  | cons d devs ih =>
    rw [findSensor] at h
    cases hrest : findSensor devs s with
    | some r =>
      rw [hrest] at h
      exact nomatch h
    | none =>
      rw [hrest] at h
      cases n with
      | succ n => exact ih hrest hx
      | zero =>
        have hnone := List.findIdx?_eq_none_iff.mp (Option.map_eq_none_iff.mp h)
        have hmem : x ∈ d.used := List.mem_of_getElem? hx
        simpa using hnone x hmem

/-- Some sensor has a name. -/
def HasNamed (devs : List Device) : Prop := ∃ n j x, sensorAt devs n j = some x ∧ x.abbrv.isSome

theorem any_named : (devs.any fun d => d.used.any fun x => x.abbrv.isSome) = true ↔ HasNamed devs := by
  rw [List.any_eq_true]
  constructor
  · rintro ⟨d, hd, h⟩
    obtain ⟨x, hx, hname⟩ := List.any_eq_true.mp h
    obtain ⟨n, hn⟩ := List.mem_iff_getElem?.mp hd
    obtain ⟨j, hj⟩ := List.mem_iff_getElem?.mp hx
    exact ⟨n, j, x, Option.bind_eq_some_iff.mpr ⟨d, hn, hj⟩, hname⟩
  · rintro ⟨n, j, x, hx, hname⟩
    obtain ⟨d, hd, hj⟩ := Option.bind_eq_some_iff.mp hx
    exact ⟨d, List.mem_of_getElem? hd, List.any_eq_true.mpr ⟨x, List.mem_of_getElem? hj, hname⟩⟩

/-! ## One row -/

theorem names_congr {y : Sensor} (h : y.abbrv = x.abbrv) (row : LimitRow) :
    p.names y row = p.names x row := by
  rw [LimitReader.names, LimitReader.names, h]

/-- What a row does to a sensor. -/
def LimitReader.set (p : LimitReader) (row : LimitRow) (x : Sensor) : Sensor :=
  if p.names x row then x.limit (p.limits row) else x

theorem set_abbrv (row : LimitRow) (x : Sensor) : (p.set row x).abbrv = x.abbrv := by
  unfold LimitReader.set
  split <;> rfl

theorem step_ok (hd : DistinctAbbrvs devs) (h : p.step devs row = .ok devs') (n j : ℕ) :
    sensorAt devs' n j = (sensorAt devs n j).map (p.set row) := by
  have hidle : (∀ x, sensorAt devs n j = some x → p.names x row = false) →
      sensorAt devs n j = (sensorAt devs n j).map (p.set row) := by
    intro hno
    cases hx : sensorAt devs n j with
    | none => rfl
    | some x => rw [Option.map_some, LimitReader.set, hno x hx, if_neg Bool.false_ne_true]
  rw [LimitReader.step] at h
  cases hname : p.name row.name with
  | none =>
    rw [hname] at h
    obtain rfl := Except.ok.inj h
    exact hidle fun x _ => by simp [LimitReader.names, hname]
  | some name =>
    rw [hname] at h
    by_cases hflags : (p.limits row).flags ≠ 0
    · simp only [if_pos hflags] at h
      obtain ⟨found, hfound, h⟩ := bind_ok.mp h
      cases name with
      | none =>
        have hnone : found = none := by
          rw [w1FindSensor] at hfound
          split at hfound
          · exact nomatch hfound
          · exact (Except.ok.inj hfound).symm
        subst hnone
        obtain rfl := Except.ok.inj h
        refine hidle fun x _ => ?_
        cases hx : x.abbrv <;> simp [LimitReader.names, hname, hx]
      | some s =>
        obtain rfl := Except.ok.inj hfound
        cases hs : findSensor devs s with
        | none =>
          rw [hs] at h
          obtain rfl := Except.ok.inj h
          refine hidle fun x hx => ?_
          have hne := findSensor_none hs hx
          simp [LimitReader.names, hname, Ne.symm hne]
        | some r =>
          obtain ⟨m, k⟩ := r
          rw [hs] at h
          obtain rfl := Except.ok.inj h
          obtain ⟨y, hy, hys⟩ := findSensor_some hs
          rw [sensorAt_modify]
          by_cases hplace : m = n ∧ k = j
          · obtain ⟨rfl, rfl⟩ := hplace
            have hnames : p.names y row = true := by
              simp [LimitReader.names, hname, hys, hflags]
            rw [if_pos ⟨rfl, rfl⟩, hy, Option.map_some, Option.map_some, LimitReader.set, if_pos hnames]
          · rw [if_neg hplace]
            refine hidle fun x hx => ?_
            have hne : x.abbrv ≠ some s := by
              intro hxs
              exact hplace (hd m k n j y x hy hx (by rw [hys]; rfl) (hys.trans hxs.symm))
            simp [LimitReader.names, hname, Ne.symm hne]
    · simp only [if_neg hflags] at h
      obtain rfl := Except.ok.inj h
      exact hidle fun x _ => by simp [LimitReader.names, not_not.mp hflags]

/-- A row fails when it makes the program search for NULL among names. -/
theorem step_error (h : ¬ (p.name row.name = some none ∧ (p.limits row).flags ≠ 0 ∧ HasNamed devs)) :
    ∃ devs', p.step devs row = .ok devs' := by
  rw [LimitReader.step]
  cases hname : p.name row.name with
  | none => exact ⟨devs, rfl⟩
  | some name =>
    by_cases hflags : (p.limits row).flags ≠ 0
    · simp only [if_pos hflags]
      cases name with
      | none =>
        have hno : ¬ (devs.any fun d => d.used.any fun x => x.abbrv.isSome) = true :=
          fun hany => h ⟨hname, hflags, any_named.mp hany⟩
        exact ⟨devs, by rw [w1FindSensor, if_neg hno]; rfl⟩
      | some s =>
        cases hs : findSensor devs s with
        | none => exact ⟨devs, by rw [w1FindSensor, hs]; rfl⟩
        | some r => exact ⟨_, by rw [w1FindSensor, hs]; rfl⟩
    · simp only [if_neg hflags]
      exact ⟨devs, rfl⟩

/-- Such a row does fail. -/
theorem step_null (hname : p.name row.name = some none) (hflags : (p.limits row).flags ≠ 0)
    (hnamed : HasNamed devs) : p.step devs row = .error .nullDeref := by
  rw [LimitReader.step, hname]
  simp only [if_pos hflags]
  rw [w1FindSensor, if_pos (any_named.mpr hnamed)]
  rfl

/-! ## The whole table -/

theorem DistinctAbbrvs.step (hd : DistinctAbbrvs devs) (h : p.step devs row = .ok devs') :
    DistinctAbbrvs devs' := by
  intro n j m k x y hx hy hname heq
  rw [step_ok hd h] at hx hy
  obtain ⟨x₀, hx₀, rfl⟩ := Option.map_eq_some_iff.mp hx
  obtain ⟨y₀, hy₀, rfl⟩ := Option.map_eq_some_iff.mp hy
  rw [set_abbrv] at hname heq
  rw [set_abbrv] at heq
  exact hd n j m k x₀ y₀ hx₀ hy₀ hname heq

theorem hasNamed_step (hd : DistinctAbbrvs devs) (h : p.step devs row = .ok devs') :
    HasNamed devs' ↔ HasNamed devs := by
  constructor
  · rintro ⟨n, j, x, hx, hname⟩
    rw [step_ok hd h] at hx
    obtain ⟨x₀, hx₀, rfl⟩ := Option.map_eq_some_iff.mp hx
    rw [set_abbrv] at hname
    exact ⟨n, j, x₀, hx₀, hname⟩
  · rintro ⟨n, j, x, hx, hname⟩
    refine ⟨n, j, p.set row x, ?_, by rwa [set_abbrv]⟩
    rw [step_ok hd h, hx]
    rfl

theorem seen_congr {y : Sensor} (h : y.abbrv = x.abbrv) : p.seen rows y = p.seen rows x := by
  have hnames : p.names y = p.names x := funext (names_congr h)
  rw [LimitReader.seen, LimitReader.seen, hnames]

/-- The rows that name a sensor set its limits one after the other. -/
theorem load_sensor (hd : DistinctAbbrvs devs) (h : p.load devs rows = .ok devs') (n j : ℕ) :
    sensorAt devs' n j = (sensorAt devs n j).map fun x => (p.seen rows x).foldl Sensor.limit x := by
  induction rows generalizing devs with
  | nil =>
    obtain rfl := Except.ok.inj h
    simp [LimitReader.seen]
  | cons row rows ih =>
    rw [LimitReader.load, List.foldlM_cons] at h
    obtain ⟨devs₁, h₁, h⟩ := bind_ok.mp h
    rw [ih (hd.step h₁) h, step_ok hd h₁, Option.map_map]
    congr 1
    funext x
    rw [Function.comp_apply, seen_congr (set_abbrv row x), LimitReader.seen, LimitReader.seen,
      LimitReader.set]
    by_cases hn : p.names x row = true
    · rw [if_pos hn, List.filter_cons_of_pos hn, List.map_cons, List.foldl_cons]
    · rw [if_neg hn, List.filter_cons_of_neg hn]

/-- The table is read unless a row without a name has limits. -/
theorem load_iff (hd : DistinctAbbrvs devs) : (∃ devs', p.load devs rows = .ok devs') ↔
    ∀ row ∈ rows, p.name row.name = some none → (p.limits row).flags ≠ 0 → ¬ HasNamed devs := by
  induction rows generalizing devs with
  | nil =>
    refine iff_of_true ⟨devs, rfl⟩ ?_
    intro row hrow
    exact nomatch hrow
  | cons row rows ih =>
    rw [List.forall_mem_cons]
    constructor
    · rintro ⟨devs', h⟩
      rw [LimitReader.load, List.foldlM_cons] at h
      obtain ⟨devs₁, h₁, h⟩ := bind_ok.mp h
      constructor
      · intro hname hflags hnamed
        rw [step_null hname hflags hnamed] at h₁
        exact nomatch h₁
      · intro r hr hname hflags hnamed
        exact (ih (hd.step h₁)).mp ⟨devs', h⟩ r hr hname hflags ((hasNamed_step hd h₁).mpr hnamed)
    · rintro ⟨hfirst, hrest⟩
      obtain ⟨devs₁, h₁⟩ : ∃ devs', p.step devs row = .ok devs' :=
        step_error fun h => hfirst h.1 h.2.1 h.2.2
      obtain ⟨devs', h⟩ := (ih (hd.step h₁)).mpr fun r hr hname hflags hnamed =>
        hrest r hr hname hflags ((hasNamed_step hd h₁).mp hnamed)
      exact ⟨devs', bind_ok.mpr ⟨devs₁, h₁, h⟩⟩

/-! ## Limits in the end -/

/-- The limits of the last row. -/
def lastLimits (ls : List Limits) : Limits := fun b => ls.getLast?.bind (· b)

/-- The last number of a column. -/
def lastNumber (ls : List Limits) (b : Limit) : Option ℚ := (ls.filterMap (· b)).getLast?

theorem flags_eq_iff {l l' : Limits} : l.flags = l'.flags ↔ ∀ b, (l b).isSome = (l' b).isSome := by
  have hbits : ∀ a b c a' b' c' : Bool,
      (((if a then w1Roc else 0) ||| (if b then w1Rmin else 0) ||| if c then w1Rmax else 0) =
        ((if a' then w1Roc else 0) ||| (if b' then w1Rmin else 0) ||| if c' then w1Rmax else 0)) ↔
      a = a' ∧ b = b' ∧ c = c' := by decide
  rw [Limits.flags, Limits.flags, hbits]
  constructor
  · rintro ⟨hroc, hrmin, hrmax⟩ b
    cases b <;> assumption
  · exact fun h => ⟨h .roc, h .rmin, h .rmax⟩

theorem flags_none : Limits.flags (fun _ => none) = 0 := rfl

theorem foldl_limit_flags (ls : List Limits) (hx : x.flags = 0) :
    (ls.foldl Sensor.limit x).flags = (lastLimits ls).flags := by
  cases hl : ls.getLast? with
  | none =>
    obtain rfl := List.getLast?_eq_none_iff.mp hl
    exact hx
  | some l =>
    obtain ⟨older, rfl⟩ := List.getLast?_eq_some_iff.mp hl
    rw [List.foldl_append]
    unfold lastLimits
    rw [hl]
    rfl

theorem limit_bound (l : Limits) (b : Limit) : (x.limit l).bound b = (l b).getD (x.bound b) := by
  cases b <;> rfl

theorem foldl_limit_bound (ls : List Limits) (b : Limit) :
    (ls.foldl Sensor.limit x).bound b = (lastNumber ls b).getD (x.bound b) := by
  induction ls generalizing x with
  | nil => rfl
  | cons l ls ih =>
    rw [List.foldl_cons, ih, limit_bound]
    cases hb : l b with
    | none => simp [lastNumber, hb]
    | some v =>
      rw [lastNumber, lastNumber, List.filterMap_cons, hb]
      simp only [List.getLast?_cons, Option.getD_some]

/-- The last row's number is the last number of its column. -/
theorem lastNumber_of_lastLimits {ls : List Limits} {b : Limit} {v : ℚ}
    (h : lastLimits ls b = some v) : lastNumber ls b = some v := by
  obtain ⟨l, hl, hv⟩ := Option.bind_eq_some_iff.mp h
  obtain ⟨older, rfl⟩ := List.getLast?_eq_some_iff.mp hl
  simp [lastNumber, List.filterMap_append, hv]

end

/-! ## The five plugins -/

section
variable (R : Rounding) (devs : List Device) (rows : List LimitRow)

/-- Devices as `w1_init` has just made them: without limits, and no two sensors with the
same abbreviation. -/
structure Unlimited : Prop where
  distinct : DistinctAbbrvs devs
  flags : ∀ n j x, sensorAt devs n j = some x → x.flags = 0

/-- All plugins give every sensor the same limits: the flags are the cells that are not
NULL in the last row that names it and has one, and the bounds are the numbers there. -/
def LimitsAlike : Prop :=
  ∃ load : LimitPlugin → List Device, (∀ p : LimitPlugin, (p.reader R).load devs rows = .ok (load p)) ∧
    ∀ n j x, sensorAt devs n j = some x → ∃ bound : Limit → ℚ,
      (∀ p, ∃ x', sensorAt (load p) n j = some x' ∧
        x'.flags = (lastLimits (asked.seen rows x)).flags ∧ x'.bound = bound) ∧
      ∀ b v, lastLimits (asked.seen rows x) b = some v → bound b = v

/-- The rows that the plugins take for a sensor ask for the same as those that name it. -/
structure SeenAlike : Prop where
  named : ∀ row ∈ rows, row.name = none → ∀ b v, row.cell b = .real v → ¬ HasNamed devs
  flags : ∀ (p : LimitPlugin) n j x, sensorAt devs n j = some x → ∀ b,
    (lastLimits ((p.reader R).seen rows x) b).isSome = (lastLimits (asked.seen rows x) b).isSome
  numbers : ∀ (p : LimitPlugin) n j x, sensorAt devs n j = some x → ∀ b v,
    lastLimits (asked.seen rows x) b = some v → lastNumber ((p.reader R).seen rows x) b = some v
  others : ∀ (p p' : LimitPlugin) n j x, sensorAt devs n j = some x → ∀ b,
    (lastNumber ((p.reader R).seen rows x) b).getD (x.bound b) =
      (lastNumber ((p'.reader R).seen rows x) b).getD (x.bound b)

variable {R devs rows}

/-- Only the mongo plugin searches for NULL. -/
theorem name_null_iff {p : LimitPlugin} {s : Option CString} :
    (p.reader R).name s = some none ↔ p = .mongo ∧ s = none := by
  cases p <;> simp [LimitPlugin.reader]

theorem mongo_flags_iff {row : LimitRow} :
    ((LimitPlugin.mongo.reader R).limits row).flags ≠ 0 ↔ ∃ b v, row.cell b = .real v := by
  rw [← flags_none, ne_eq, flags_eq_iff, not_forall]
  refine exists_congr fun b => ?_
  simp only [LimitReader.limits, LimitPlugin.reader]
  cases row.cell b <;> simp

theorem loads_iff (hu : Unlimited devs) :
    (∀ p : LimitPlugin, ∃ devs', (p.reader R).load devs rows = .ok devs') ↔
      ∀ row ∈ rows, row.name = none → ∀ b v, row.cell b = .real v → ¬ HasNamed devs := by
  simp only [load_iff hu.distinct, name_null_iff]
  constructor
  · intro h row hrow hname b v hv
    exact h .mongo row hrow ⟨rfl, hname⟩ (mongo_flags_iff.mpr ⟨b, v, hv⟩)
  · rintro h p row hrow ⟨rfl, hname⟩ hflags
    obtain ⟨b, v, hv⟩ := mongo_flags_iff.mp hflags
    exact h row hrow hname b v hv

theorem LimitsAlike.seenAlike (hu : Unlimited devs) (h : LimitsAlike R devs rows) :
    SeenAlike R devs rows := by
  obtain ⟨load, hload, hsame⟩ := h
  have hloads : ∀ p : LimitPlugin, ∃ devs', (p.reader R).load devs rows = .ok devs' :=
    fun p => ⟨_, hload p⟩
  have hresult : ∀ (p : LimitPlugin) n j x, sensorAt devs n j = some x →
      sensorAt (load p) n j = some (((p.reader R).seen rows x).foldl Sensor.limit x) := by
    intro p n j x hx
    rw [load_sensor hu.distinct (hload p), hx]
    rfl
  have hflags : ∀ (p : LimitPlugin) n j x, sensorAt devs n j = some x → ∀ b,
      (lastLimits ((p.reader R).seen rows x) b).isSome =
        (lastLimits (asked.seen rows x) b).isSome := by
    intro p n j x hx
    obtain ⟨bound, hall, -⟩ := hsame n j x hx
    obtain ⟨x', hx', hf, -⟩ := hall p
    obtain rfl := Option.some.inj ((hresult p n j x hx).symm.trans hx')
    rw [foldl_limit_flags _ (hu.flags n j x hx)] at hf
    exact flags_eq_iff.mp hf
  have hbound : ∀ (p : LimitPlugin) n j x (bound : Limit → ℚ), sensorAt devs n j = some x →
      (∃ x', sensorAt (load p) n j = some x' ∧
        x'.flags = (lastLimits (asked.seen rows x)).flags ∧ x'.bound = bound) →
      ∀ b, (lastNumber ((p.reader R).seen rows x) b).getD (x.bound b) = bound b := by
    rintro p n j x bound hx ⟨x', hx', -, rfl⟩ b
    obtain rfl := Option.some.inj ((hresult p n j x hx).symm.trans hx')
    exact (foldl_limit_bound _ b).symm
  refine ⟨(loads_iff hu).mp hloads, hflags, ?_, ?_⟩
  · intro p n j x hx b v hv
    obtain ⟨bound, hall, hnum⟩ := hsame n j x hx
    have hb := hbound p n j x bound hx (hall p) b
    rw [hnum b v hv] at hb
    have hsome : (lastLimits ((p.reader R).seen rows x) b).isSome = true := by
      rw [hflags p n j x hx, hv]
      rfl
    obtain ⟨w, hw⟩ := Option.isSome_iff_exists.mp hsome
    rw [lastNumber_of_lastLimits hw] at hb ⊢
    exact congrArg some hb
  · intro p p' n j x hx b
    obtain ⟨bound, hall, -⟩ := hsame n j x hx
    rw [hbound p n j x bound hx (hall p), hbound p' n j x bound hx (hall p')]

theorem SeenAlike.limitsAlike (hu : Unlimited devs) (h : SeenAlike R devs rows) :
    LimitsAlike R devs rows := by
  choose load hload using (loads_iff (R := R) hu).mpr h.named
  refine ⟨load, hload, fun n j x hx => ?_⟩
  refine ⟨fun b => (lastNumber ((LimitPlugin.sqlite.reader R).seen rows x) b).getD (x.bound b), ?_, ?_⟩
  · intro p
    refine ⟨((p.reader R).seen rows x).foldl Sensor.limit x, ?_, ?_, ?_⟩
    · rw [load_sensor hu.distinct (hload p), hx]
      rfl
    · rw [foldl_limit_flags _ (hu.flags n j x hx)]
      exact flags_eq_iff.mpr (h.flags p n j x hx)
    · funext b
      rw [foldl_limit_bound]
      exact h.others p .sqlite n j x hx b
  · intro b v hv
    dsimp only
    rw [h.numbers .sqlite n j x hx b v hv]
    rfl

/-- Tables on which the plugins agree in any case: every row has a name that fits in 512
bytes, and every number is a real that a float holds. -/
structure PlainLimits (R : Rounding) (devs : List Device) (rows : List LimitRow) : Prop where
  name : ∀ row ∈ rows, ∃ s, row.name = some s ∧ s.length ≤ 511
  cell : ∀ row ∈ rows, ∀ b, row.cell b = .null ∨
    ∃ v, row.cell b = .real v ∧ R.float v = v ∧ R.float (R.double v) = v
  abbrv : ∀ n j x, sensorAt devs n j = some x → x.abbrv ≠ some []

theorem PlainLimits.seen_eq (h : PlainLimits R devs rows) (p : LimitPlugin) {n j : ℕ} {x : Sensor}
    (hx : sensorAt devs n j = some x) : (p.reader R).seen rows x = asked.seen rows x := by
  have hlimits : ∀ row ∈ rows, (p.reader R).limits row = asked.limits row := by
    intro row hrow
    funext b
    rcases h.cell row hrow b with hb | ⟨v, hb, hfloat, hdouble⟩
    · cases p <;> simp [LimitReader.limits, LimitPlugin.reader, asked, NumCell.number, hb]
    · cases p <;>
        simp [LimitReader.limits, LimitPlugin.reader, asked, NumCell.number, hb, hfloat, hdouble]
  have hnames : ∀ row ∈ rows, (p.reader R).names x row = asked.names x row := by
    intro row hrow
    rw [LimitReader.names, LimitReader.names, hlimits row hrow]
    obtain ⟨s, hs, hlen⟩ := h.name row hrow
    cases ha : x.abbrv with
    | none => rfl
    | some a =>
      have hne : a ≠ [] := by
        rintro rfl
        exact h.abbrv n j x hx ha
      have hsame : (p.reader R).name (some s) = some (some a) ↔ asked.name (some s) = some (some a) := by
        have hfilled : filled (some s) = some a ↔ s = a := by
          rw [filled, Option.filter_eq_some_iff, Option.some.injEq]
          exact ⟨fun h => h.1, fun h => ⟨h, by simpa using hne⟩⟩
        cases p <;> simp [LimitPlugin.reader, asked, hfilled, List.take_of_length_le hlen]
      have hbeq : ((p.reader R).name (some s) == some (some a)) = (asked.name (some s) == some (some a)) :=
        Bool.eq_iff_iff.mpr (by rw [beq_iff_eq, beq_iff_eq, hsame])
      rw [hs, hbeq]
  rw [LimitReader.seen, LimitReader.seen, List.filter_congr hnames]
  exact List.map_congr_left fun row hrow => hlimits row (List.mem_of_mem_filter hrow)

theorem PlainLimits.seenAlike (h : PlainLimits R devs rows) : SeenAlike R devs rows where
  named row hrow hname := by
    obtain ⟨s, hs, -⟩ := h.name row hrow
    rw [hname] at hs
    exact nomatch hs
  flags p n j x hx b := by rw [h.seen_eq p hx]
  numbers p n j x hx b v hv := by
    rw [h.seen_eq p hx]
    exact lastNumber_of_lastLimits hv
  others p p' n j x hx b := by rw [h.seen_eq p hx, h.seen_eq p' hx]

/-- One sensor, and a row that limits its rate. -/
def limitedDevice : Device :=
  { s := [{ abbrv := some "GHT".toList }], ns := 1 }

def rateRow (value : NumCell) : LimitRow where
  name := some "GHT".toList
  cell
    | .roc => value
    | _ => .null

theorem limitedDevice_sensor {n j : ℕ} {x : Sensor} (h : sensorAt [limitedDevice] n j = some x) :
    n = 0 ∧ j = 0 ∧ x = { abbrv := some "GHT".toList } := by
  obtain ⟨d, hd, hj⟩ := Option.bind_eq_some_iff.mp h
  cases n with
  | succ n => simp at hd
  | zero =>
    obtain rfl := Option.some.inj hd
    cases j with
    | succ j => simp [limitedDevice, Device.used] at hj
    | zero => exact ⟨rfl, rfl, (Option.some.inj hj).symm⟩

theorem limitedDevice_unlimited : Unlimited [limitedDevice] where
  distinct n j m k x y hx hy _ _ := by
    obtain ⟨rfl, rfl, -⟩ := limitedDevice_sensor hx
    obtain ⟨rfl, rfl, -⟩ := limitedDevice_sensor hy
    exact ⟨rfl, rfl⟩
  flags n j x hx := by
    obtain ⟨-, -, rfl⟩ := limitedDevice_sensor hx
    rfl

end
end W1Retap

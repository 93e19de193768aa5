import W1Retap.Model.CArith
import W1Retap.Model.Types
import W1Retap.Support.CStrings

/-!
# Filling in the sensor table

The functions of `w1util.c` with which the `w1_init` of a plugin fills in a device, one
cell at a time. Sensors are allocated in blocks; a name or a unit goes to the last
sensor, and before the first one that is an access outside the array.
-/
namespace W1Retap

open CStrings

def allocSens : ℕ := 8

/-- The slots that are allocated and not yet in use. -/
def spare (ns : ℕ) : ℕ := (allocSens - ns % allocSens) % allocSens

/-- A `w1_device` that is being filled in: the slots in use, and zeroed ones up to the end
of the block. -/
structure Entry where
  serial : Option CString := none
  devtype : Option CString := none
  stype : W1Type := .invalid
  s : List Sensor := []
  ns : ℕ := 0
  ns_le : ns ≤ s.length := by decide
  spare_eq : s.drop ns = List.replicate (spare ns) {} := by simp [spare, allocSens]
  params : Option (List ℚ) := none
  intvl : Int := 0
  deriving Repr

instance : DecidableEq Entry := fun e e' => decidable_of_iff
  (e.serial = e'.serial ∧ e.devtype = e'.devtype ∧ e.stype = e'.stype ∧ e.s = e'.s ∧ e.ns = e'.ns ∧
    e.params = e'.params ∧ e.intvl = e'.intvl) (by
  cases e
  cases e'
  simp)

namespace Entry

/-- A zeroed `w1_device`. -/
def zero : Entry := { ns_le := nil_fits }

/-- The sensors in use. -/
def sensors (e : Entry) : List Sensor := e.s.take e.ns

/-- The slots hold these sensors and no others. -/
def withSensors (e : Entry) (xs : List Sensor) : Entry :=
  { e with
    s := xs ++ List.replicate (spare xs.length) {}
    ns := xs.length
    ns_le := by simp
    spare_eq := by simp }

/-- The entry as a finished row of the table. -/
def row (e : Entry) : Row :=
  { serial := e.serial, devtype := e.devtype, stype := e.stype, s := e.s, ns := e.ns
    ns_le := e.ns_le, params := e.params, intvl := e.intvl }

end Entry

/-! ## The setters -/

theorem spare_succ {n : ℕ} : spare (n + 1) = if n % allocSens = 0 then allocSens - 1 else spare n - 1 := by
  unfold spare allocSens
  split <;> omega

/-- `w1_alloc_sensor`: a new block of zeroed slots when the last one is full. -/
def w1AllocSensor (e : Entry) : Entry :=
  { e with
    s := if e.ns % allocSens = 0 then e.s.take e.ns ++ List.replicate allocSens {} else e.s
    ns := e.ns + 1
    ns_le := by
      have hlen := congrArg List.length e.spare_eq
      have hle := e.ns_le
      rw [List.length_drop, List.length_replicate, spare] at hlen
      by_cases hfull : e.ns % allocSens = 0
      · rw [if_pos hfull, List.length_append, List.length_take, List.length_replicate]
        unfold allocSens
        omega
      · rw [if_neg hfull]
        unfold allocSens at hfull hlen
        omega
    spare_eq := by
      have hle := e.ns_le
      rw [spare_succ]
      by_cases hfull : e.ns % allocSens = 0
      · rw [if_pos hfull, if_pos hfull, List.drop_append]
        simp [List.length_take, hle, allocSens]
      · rw [if_neg hfull, if_neg hfull, ← List.drop_drop, e.spare_eq]
        simp }

/-- An assignment to `w1->s[w1->ns-1]`. -/
def Entry.setLast (e : Entry) (f : Sensor → Sensor) : Except Stop Entry :=
  if h : e.ns = 0 then .error .noSlot
  else .ok
    { e with
      s := e.s.modify (e.ns - 1) f
      ns_le := by simpa using e.ns_le
      spare_eq := by
        rw [← e.spare_eq]
        apply List.ext_getElem?
        intro k
        rw [List.getElem?_drop, List.getElem?_drop, List.getElem?_modify]
        simp only [if_neg (show ¬ e.ns - 1 = e.ns + k by omega), Option.map_eq_map, Option.map_id'] }

/-- `w1_dev_params`: the numbers of a list, if there are any. -/
def w1DevParams (params : CString) : Option (List ℚ) :=
  match strtok ['|', ':', ' '] params with
  | [] => none
  | values => some (values.map strtod)

/-- `strtol (sv, NULL, 10)`, stored in an `int` -/
def intvlOf (sv : CString) : Int := wrapInt (strtol sv)

/-- `w1_set_device_data` -/
def w1SetDeviceData (e : Entry) (fnam sv : CString) : Except Stop Entry :=
  if fnam = "device".toList then .ok { e with serial := some sv }
  else if fnam = "type".toList ∧ e.devtype = none then .ok { e with devtype := some sv }
  else if fnam = "abbrv1".toList ∨ fnam = "abbrv2".toList then
    (w1AllocSensor e).setLast fun x => { x with abbrv := some sv }
  else if fnam = "name1".toList ∨ fnam = "name2".toList then
    e.setLast fun x => { x with name := some sv }
  else if fnam = "units1".toList ∨ fnam = "units2".toList then
    e.setLast fun x => { x with units := some sv }
  else if fnam = "params".toList then .ok { e with params := w1DevParams sv }
  else if fnam = "interval".toList then .ok { e with intvl := intvlOf sv }
  else .ok e

/-- `w1_set_device_data_index` -/
def w1SetDeviceDataIndex (e : Entry) (idx : ℕ) (sv : Option CString) : Except Stop Entry :=
  match sv with
  | none => .ok e
  | some sv =>
    match idx with
    | 0 => .ok { e with serial := some sv }
    | 1 => .ok { e with devtype := some sv }
    | 2 | 5 => (w1AllocSensor e).setLast fun x => { x with abbrv := some sv }
    | 3 | 6 => e.setLast fun x => { x with name := some sv }
    | 4 | 7 => e.setLast fun x => { x with units := some sv }
    | 8 => .ok { e with params := w1DevParams sv }
    | 9 => .ok { e with intvl := intvlOf sv }
    | _ => .ok e

/-- The prefixes that `w1_enumdevs` looks for, in order. -/
def typeNames : List (String × W1Type) :=
  [("TEMPERATURE", .temp), ("DS1820", .temp), ("DS18S20", .temp),
    ("HUMIDITY", .humid), ("TAI8540", .humid),
    ("PRESSURE", .pres), ("TAI8570", .pres),
    ("RAIN", .counter), ("COUNTER", .counter), ("TAI8575", .counter), ("DS2423", .counter),
    ("Bray", .bray), ("MPX4115A", .bray),
    ("sht11", .sht11),
    ("WINDVANE", .windvane), ("WEATHERVANE", .windvane), ("TAI8515", .windvane),
    ("Coupler", .coupler), ("DS2409", .coupler),
    ("VOLTAGE", .ds2438v), ("DS2438", .ds2438v),
    ("DS2760", .ds2760), ("DS1921", .ds1921), ("DS1923", .ds1923), ("DS2450", .ds2450),
    ("HB-BARO", .hbbaro), ("HB_BARO", .hbbaro),
    ("HWHIH", .hih), ("MS-TH", .hih),
    ("MS-TC", .msTc),
    ("HB_UV", .hbuv), ("HB-UV", .hbuv),
    ("HB_HT", .hbht), ("HB-HT", .hbht)]

/-- The type that a device type names; `none` for a name that is not known. -/
def typeOf (devtype : CString) : Option W1Type :=
  (typeNames.find? fun p => (p.1.toList.map tolower).isPrefixOf (devtype.map tolower)).map Prod.snd

/-- `w1_enumdevs`: an unknown name leaves the type as it is. -/
def w1Enumdevs (e : Entry) : Except Stop Entry :=
  match e.devtype with
  | none => .error .nullDeref
  | some devtype => .ok { e with stype := (typeOf devtype).getD e.stype }

/-- `strcmp (a, b) == 0` -/
def strcmpEq (a b : Option CString) : Except Stop Bool :=
  match a, b with
  | some a, some b => .ok (a == b)
  | _, _ => .error .nullDeref

/-- `w1_get_device_index` -/
def w1GetDeviceIndex (serno devtype : Option CString) : List Entry → Except Stop (Option ℕ)
  | [] => .ok none
  | e :: devs => do
    let same ← do
      if ← strcmpEq serno e.serial then
        if devtype = none then pure true else strcmpEq devtype e.devtype
      else pure false
    if same then
      return some 0
    else
      return (← w1GetDeviceIndex serno devtype devs).map (· + 1)

/-! ## What they do to the sensors -/

section
variable {e e' : Entry} {x : Sensor} {xs : List Sensor} {f : Sensor → Sensor}

theorem Entry.length_sensors (e : Entry) : e.sensors.length = e.ns := by
  rw [Entry.sensors, List.length_take, min_eq_left e.ns_le]

@[simp] theorem Entry.withSensors_sensors (e : Entry) (xs : List Sensor) :
    (e.withSensors xs).sensors = xs := by
  simp [Entry.sensors, Entry.withSensors]

/-- The slots of an entry are determined by the sensors in use. -/
theorem Entry.ext_sensors (h : e.sensors = e'.sensors) (hserial : e.serial = e'.serial)
    (hdevtype : e.devtype = e'.devtype) (hstype : e.stype = e'.stype)
    (hparams : e.params = e'.params) (hintvl : e.intvl = e'.intvl) : e = e' := by
  have hns : e.ns = e'.ns := by
    rw [← e.length_sensors, ← e'.length_sensors, h]
  have hs : ∀ e : Entry, e.s = e.sensors ++ List.replicate (spare e.ns) ({} : Sensor) := by
    intro e
    rw [← e.spare_eq]
    exact (List.take_append_drop e.ns e.s).symm
  have hslots : e.s = e'.s := by
    rw [hs e, hs e', h, hns]
  cases e
  cases e'
  simp_all

theorem Entry.eq_withSensors (e : Entry) : e = e.withSensors e.sensors :=
  Entry.ext_sensors (by simp) rfl rfl rfl rfl rfl

theorem w1AllocSensor_eq (e : Entry) : w1AllocSensor e = e.withSensors (e.sensors ++ [({} : Sensor)]) := by
  refine Entry.ext_sensors ?_ rfl rfl rfl rfl rfl
  have hle := e.ns_le
  rw [Entry.withSensors_sensors]
  simp only [Entry.sensors, w1AllocSensor]
  by_cases hfull : e.ns % allocSens = 0
  · rw [if_pos hfull, List.take_append, List.take_take]
    simp [hle, allocSens]
  · rw [if_neg hfull, List.take_add_one]
    congr 1
    have hdrop := congrArg (·[0]?) e.spare_eq
    have hpos : 0 < spare e.ns := by
      unfold spare allocSens at *
      omega
    simp only [List.getElem?_drop, Nat.add_zero] at hdrop
    rw [hdrop, List.getElem?_replicate, if_pos hpos]
    rfl

theorem setLast_eq (h : e.sensors = xs ++ [x]) :
    e.setLast f = .ok (e.withSensors (xs ++ [f x])) := by
  have hns : e.ns = xs.length + 1 := by
    rw [← e.length_sensors, h, List.length_append, List.length_singleton]
  rw [Entry.setLast, dif_neg (by omega)]
  refine congrArg Except.ok (Entry.ext_sensors ?_ rfl rfl rfl rfl rfl)
  rw [Entry.withSensors_sensors]
  have htake : (e.s.modify (e.ns - 1) f).take e.ns = e.sensors.modify (e.ns - 1) f := by
    rw [Entry.sensors, List.take_modify]
  change (e.s.modify (e.ns - 1) f).take e.ns = _
  rw [htake, h, hns, Nat.add_sub_cancel, List.modify_eq_take_cons_drop (by simp)]
  simp

/-- Without a sensor there is no last one. -/
theorem setLast_nil (h : e.sensors = []) : e.setLast f = .error .noSlot := by
  have hns : e.ns = 0 := by
    rw [← e.length_sensors, h]
    rfl
  rw [Entry.setLast, dif_pos hns]

theorem allocSensor_setLast (e : Entry) (f : Sensor → Sensor) :
    (w1AllocSensor e).setLast f = .ok (e.withSensors (e.sensors ++ [f {}])) := by
  rw [w1AllocSensor_eq, setLast_eq (Entry.withSensors_sensors e _)]
  rfl

/-! ## One cell, on the sensors and on the rest -/

/-- The part of `w1_set_device_data` that concerns sensors. -/
def attachCell (xs : List Sensor) (c : CString × CString) : Except Stop (List Sensor) :=
  let onLast (f : Sensor → Sensor) : Except Stop (List Sensor) :=
    match xs.getLast? with
    | none => .error .noSlot
    | some x => .ok (xs.dropLast ++ [f x])
  if c.1 = "abbrv1".toList ∨ c.1 = "abbrv2".toList then .ok (xs ++ [{ abbrv := some c.2 }])
  else if c.1 = "name1".toList ∨ c.1 = "name2".toList then
    onLast fun x => { x with name := some c.2 }
  else if c.1 = "units1".toList ∨ c.1 = "units2".toList then
    onLast fun x => { x with units := some c.2 }
  else .ok xs

/-- The part that does not. -/
def Entry.assign (e : Entry) (c : CString × CString) : Entry :=
  if c.1 = "device".toList then { e with serial := some c.2 }
  else if c.1 = "type".toList ∧ e.devtype = none then { e with devtype := some c.2 }
  else if c.1 = "params".toList then { e with params := w1DevParams c.2 }
  else if c.1 = "interval".toList then { e with intvl := intvlOf c.2 }
  else e

theorem Entry.assign_sensors (e : Entry) (c : CString × CString) :
    (e.assign c).sensors = e.sensors := by
  unfold Entry.assign
  split_ifs <;> rfl

theorem setLast_onLast (e : Entry) (f : Sensor → Sensor) :
    e.setLast f = (match e.sensors.getLast? with
      | none => Except.error Stop.noSlot
      | some x => .ok (e.sensors.dropLast ++ [f x])).map e.withSensors := by
  cases hl : e.sensors.getLast? with
  | none =>
    rw [setLast_nil (List.getLast?_eq_none_iff.mp hl)]
    rfl
  | some x =>
    have hsplit : e.sensors = e.sensors.dropLast ++ [x] :=
      (List.dropLast_append_getLast? x hl).symm
    rw [setLast_eq hsplit]
    rfl

/-- A cell changes the sensors or the rest, never both. -/
theorem w1SetDeviceData_eq (e : Entry) (c : CString × CString) :
    w1SetDeviceData e c.1 c.2 = (attachCell e.sensors c).map (e.assign c).withSensors := by
  obtain ⟨fnam, sv⟩ := c
  have hrest : ∀ e' : Entry, e'.sensors = e.sensors → e' = e'.withSensors e.sensors :=
    fun e' h => h ▸ e'.eq_withSensors
  by_cases hsensor : fnam ∈ ["abbrv1".toList, "abbrv2".toList, "name1".toList, "name2".toList,
      "units1".toList, "units2".toList]
  · have hassign : e.assign (fnam, sv) = e := by
      fin_cases hsensor <;> rfl
    rw [hassign]
    fin_cases hsensor
    · exact allocSensor_setLast e _
    · exact allocSensor_setLast e _
    · exact setLast_onLast e _
    · exact setLast_onLast e _
    · exact setLast_onLast e _
    · exact setLast_onLast e _
  · simp only [List.mem_cons, List.not_mem_nil, or_false, not_or] at hsensor
    obtain ⟨ha₁, ha₂, hn₁, hn₂, hu₁, hu₂⟩ := hsensor
    have hattach : attachCell e.sensors (fnam, sv) = .ok e.sensors := by
      simp only [attachCell, ha₁, ha₂, hn₁, hn₂, hu₁, hu₂, or_self, if_false]
    have hset : w1SetDeviceData e fnam sv = .ok (e.assign (fnam, sv)) := by
      simp only [w1SetDeviceData, Entry.assign, ha₁, ha₂, hn₁, hn₂, hu₁, hu₂, or_self, if_false]
      split_ifs <;> rfl
    rw [hset, hattach]
    exact congrArg Except.ok (hrest _ (e.assign_sensors _))

theorem Entry.assign_withSensors (e : Entry) (xs : List Sensor) (c : CString × CString) :
    (e.withSensors xs).assign c = (e.assign c).withSensors xs := by
  unfold Entry.assign
  split_ifs <;> first | rfl | contradiction

/-- The cells of a row in a row. -/
def setCells (e : Entry) (cells : List (CString × CString)) : Except Stop Entry :=
  cells.foldlM (fun e c => w1SetDeviceData e c.1 c.2) e

/-- The sensors and the rest go through a row side by side. -/
theorem setCells_eq (e : Entry) (cells : List (CString × CString)) :
    setCells e cells =
      (cells.foldlM attachCell e.sensors).map (cells.foldl Entry.assign e).withSensors := by
  unfold setCells
  induction cells generalizing e with
  | nil => exact congrArg Except.ok e.eq_withSensors
  | cons c cells ih =>
    rw [List.foldlM_cons, List.foldlM_cons, List.foldl_cons, w1SetDeviceData_eq]
    cases hc : attachCell e.sensors c with
    | error err => rfl
    | ok xs =>
      change cells.foldlM _ ((e.assign c).withSensors xs) = (cells.foldlM attachCell xs).map _
      have hcomm : ∀ (l : List (CString × CString)) (e : Entry),
          l.foldl Entry.assign (e.withSensors xs) = (l.foldl Entry.assign e).withSensors xs := by
        intro l
        induction l with
        | nil => exact fun e => rfl
        | cons c l ihl =>
          intro e
          rw [List.foldl_cons, List.foldl_cons, Entry.assign_withSensors, ihl]
      rw [ih, Entry.withSensors_sensors, hcomm]
      rfl

end
end W1Retap

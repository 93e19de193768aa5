import Mathlib

/-!
# The data of `w1retap.h`

Records keep the fields of their C namesakes. A pointer that may be `NULL` is an
`Option`, a pointer into `w1->devs` is an index, and a C string is its characters
without the terminating NUL. Readings and limits are exact rationals, `int` and
`time_t` values are integers; where their width matters the operation wraps.
-/
namespace W1Retap

abbrev CString := List Char

/-- The eight bytes of a 1-wire ROM code, family code first. -/
abbrev Serno := Vector UInt8 8

inductive W1Type where
  | invalid | temp | humid | pres | counter | bray | sht11 | coupler | windvane
  | ds2438v | hbbaro | hih | ds2760 | ds2450 | msTc | ds1921 | ds1923 | hbuv | hbht
  deriving DecidableEq, Repr

def couplerUndefined : Int := -1
def couplerAllOff : Int := 0
def couplerMainOn : Int := 4
def couplerAuxOn : Int := 2

def w1Roc : ℕ := 1
def w1Rmin : ℕ := 2
def w1Rmax : ℕ := 4
def w1Seq : ℕ := w1Rmax + 1

def maxDll : ℕ := 16
def maxCpl : ℕ := 64
/-- The size of `devid` in `w1_couplist_t`. -/
def devidSize : ℕ := 32
def w1MinIntvl : Int := 10
def w1DefaultIntvl : Int := 120
def w1Retry : ℕ := 10

/-! ## Sensors and devices -/

/-- `w1_sensor_t`. A freshly allocated slot is all zero bytes: the defaults below. -/
structure Sensor where
  abbrv : Option CString := none
  name : Option CString := none
  units : Option CString := none
  value : ℚ := 0
  valid : Bool := false
  flags : ℕ := 0
  rmin : ℚ := 0
  rmax : ℚ := 0
  roc : ℚ := 0
  lval : ℚ := 0
  ltime : Int := 0
  reason : ℕ := 0
  deriving DecidableEq, Repr

/-- `s->flags & flag` -/
def Sensor.has (s : Sensor) (flag : ℕ) : Bool := s.flags &&& flag != 0

/-- `strncmp(s->abbrv, "RGC", 3) == 0`: the sensor is a rain gauge counter. -/
def Sensor.isRgc (abbrv : CString) : Bool := "RGC".toList.isPrefixOf abbrv

/-- `w1_coupler_t`: the coupler, as its index in `w1->devs`, and the branch behind it. -/
structure Coupler where
  couplerDevice : ℕ
  branch : Int
  deriving DecidableEq, Repr

abbrev AtoDControl := Vector UInt8 16

/-- What `private` points to, by the type of the device. -/
inductive Private where
  | coupler (activeLines : Int)
  | windvane (control : AtoDControl)
  deriving DecidableEq, Repr

theorem nil_fits : 0 ≤ ([] : List Sensor).length := le_rfl

/-- `w1_device`. `s` holds the allocated slots, of which the first `ns` are in use. -/
structure Device where
  serial : Option CString := none
  devtype : Option CString := none
  init : ℕ := 0
  stype : W1Type := .invalid
  s : List Sensor := []
  ns : ℕ := 0
  ns_le : ns ≤ s.length := by decide
  serno : Serno := Vector.replicate 8 0
  coupler : Option Coupler := none
  params : Option (List ℚ) := none
  priv : Option Private := none
  intvl : Int := 0
  deriving DecidableEq, Repr

namespace Device

/-- Rewrite slot `j`; the slots stay allocated. -/
def modifySlot (d : Device) (j : ℕ) (f : Sensor → Sensor) : Device :=
  { d with s := d.s.modify j f, ns_le := by simpa using d.ns_le }

/-- `w1_set_invalid` -/
def setInvalid (d : Device) : Device :=
  { d with
    s := (d.s.take d.ns).map (fun s => { s with valid := false }) ++ d.s.drop d.ns
    ns_le := by have := d.ns_le; simp; omega }

/-- The test of `w1_read_all_sensors` for a read pass at `secs`. -/
def due (d : Device) (secs : Int) : Bool :=
  secs == 0 || d.intvl == 0 || secs.tmod d.intvl == 0

/-- The cached `active_lines` of an initialised coupler. -/
def activeLines (d : Device) : Option Int :=
  match d.priv with
  | some (.coupler a) => some a
  | _ => none

variable (d : Device) (j k : ℕ) (f : Sensor → Sensor)

@[simp] theorem modifySlot_s : (d.modifySlot j f).s = d.s.modify j f := rfl
@[simp] theorem modifySlot_ns : (d.modifySlot j f).ns = d.ns := rfl
@[simp] theorem modifySlot_stype : (d.modifySlot j f).stype = d.stype := rfl
@[simp] theorem modifySlot_intvl : (d.modifySlot j f).intvl = d.intvl := rfl
@[simp] theorem setInvalid_ns : d.setInvalid.ns = d.ns := rfl
@[simp] theorem setInvalid_stype : d.setInvalid.stype = d.stype := rfl
@[simp] theorem setInvalid_intvl : d.setInvalid.intvl = d.intvl := rfl

theorem modifySlot_getElem? :
    (d.modifySlot j f).s[k]? = if j = k then (d.s[k]?).map f else d.s[k]? := by
  rw [modifySlot_s, List.getElem?_modify]
  split <;> simp_all

theorem setInvalid_getElem? :
    d.setInvalid.s[k]? =
      if k < d.ns then (d.s[k]?).map fun s => { s with valid := false } else d.s[k]? := by
  have hle := d.ns_le
  simp only [setInvalid]
  split
  · rename_i hk
    rw [List.getElem?_append_left (by simp; omega), List.getElem?_map,
      List.getElem?_take_of_lt hk]
  · rename_i hk
    rw [List.getElem?_append_right (by simp; omega), List.getElem?_drop]
    congr 1
    simp
    omega

end Device

/-- One entry of the sensor table, as a `w1_init` plugin fills it in. -/
structure Row where
  serial : Option CString := none
  devtype : Option CString := none
  stype : W1Type := .invalid
  s : List Sensor := []
  ns : ℕ := 0
  ns_le : ns ≤ s.length := by decide
  params : Option (List ℚ) := none
  intvl : Int := 0
  deriving DecidableEq, Repr

/-- The device a plugin allocates for a table entry: what the table does not say is zero. -/
def Row.device (r : Row) : Device :=
  { serial := r.serial, devtype := r.devtype, stype := r.stype, s := r.s, ns := r.ns
    ns_le := r.ns_le, params := r.params, intvl := r.intvl }

/-! ## Plugins and the device list -/

/-- An open module: its file and the number of the `g_module_open` that opened it. -/
structure Handle where
  file : CString
  opened : ℕ
  deriving DecidableEq, Repr

/-- A function resolved by `g_module_symbol`. -/
structure Func where
  handle : Handle
  symbol : CString
  deriving DecidableEq, Repr

/-- The `type` of a plugin slot: unset, or the letter of its `init`, `log` or `rep` line. -/
inductive DllType where
  | unset | c | l | r
  deriving DecidableEq, Repr

/-- `dlldef_t` -/
structure Dll where
  type : DllType := .unset
  handle : Option Handle := none
  func : Option Func := none
  param : Option CString := none
  deriving DecidableEq, Repr

/-- `w1_devlist`; `numdev` is the length of `devs`. -/
structure DevList where
  devs : List Device := []
  dlls : Vector Dll maxDll := Vector.replicate maxDll {}
  ndll : ℕ := 0
  delay : Int := 0
  cycle : Int := 0
  portnum : Int := 0
  altitude : Int := 0
  iface : Option CString := none
  rcfile : Option CString := none
  repfile : Option CString := none
  logtime : Int := 0
  daemonise : Int := 0
  logtmp : Int := 0
  doread : Bool := false
  timestamp : Int := 0
  vaneOffset : Int := 0
  pidfile : Option CString := none
  tmpname : Option CString := none
  logDelim : Char := ' '
  logTimet : Bool := false
  tempScan : Int := 0
  presReductionTemp : Option ℚ := none
  allowEscape : Bool := false
  releaseMe : Bool := false
  forceUtc : Bool := false

/-- Rewrite plugin slot `i`. -/
def DevList.modifyDll (w1 : DevList) (i : ℕ) (f : Dll → Dll) : DevList :=
  { w1 with dlls := w1.dlls.mapIdx fun k dll => if k = i then f dll else dll }

theorem DevList.modifyDll_getElem? (w1 : DevList) (i k : ℕ) (f : Dll → Dll) :
    (w1.modifyDll i f).dlls[k]? = if k = i then (w1.dlls[k]?).map f else w1.dlls[k]? := by
  simp only [DevList.modifyDll, Vector.getElem?_mapIdx]
  split
  · rfl
  · exact Option.map_id_apply

end W1Retap

import W1Retap.Model.Machine
import W1Retap.Support.CStrings

/-!
# Couplers

`w1_initialize_couplers` reads the ids listed in the sensor slots of every coupler and
points each listed device at its branch. The switching functions send a command
only when the cached `active_lines` differ from the lines asked for.
-/
namespace W1Retap

open CStrings

/-! ## Serial numbers -/

def toHex (ch : Char) : UInt8 :=
  if '0' ≤ ch ∧ ch ≤ '9' then UInt8.ofNat (ch.toNat - 0x30)
  else if 'A' ≤ ch ∧ ch ≤ 'F' then UInt8.ofNat (ch.toNat - 0x37)
  else if 'a' ≤ ch ∧ ch ≤ 'f' then UInt8.ofNat (ch.toNat - 0x57)
  else 0

/-- `w1_make_serial`: it reads sixteen characters, of which the last may be the NUL. -/
def w1MakeSerial (asc : Option CString) : Except Stop Serno :=
  match asc with
  | none => .error .nullDeref
  | some asc =>
    let digit (j : ℕ) : UInt8 := toHex (asc.getD j '\x00')
    if asc.length < 15 then .error .outOfBounds
    else .ok (Vector.ofFn fun i : Fin 8 => (digit (2 * i) <<< 4) + digit (2 * i + 1))

/-- The family code of a device, `id[0]`. -/
def Serno.family (serno : Serno) : UInt8 := serno[0]

/-! ## Initialisation -/

/-- `w1_couplist_t` -/
structure CoupEntry where
  devid : CString
  branch : Int
  couplerDevice : ℕ
  deriving DecidableEq, Repr

/-- The ids a sensor slot of a coupler lists, with their branch; `none` for a slot that
is freed. -/
def Sensor.listed (x : Sensor) : Option (List CString × Int) :=
  match x.abbrv, x.name with
  | some abbrv, some name =>
    if (abbrv.head? = some 'M' ∨ abbrv.head? = some 'A') ∧ name.head?.any isxdigit then
      some (strtok [',', ' ', '|'] name,
        if abbrv.head? = some 'M' then couplerMainOn else couplerAuxOn)
    else none
  | _, _ => none

/-- Append an id to `clist`, which has room for `MAXCPL` entries of 31 characters. -/
def addId (n : ℕ) (branch : Int) (clist : List CoupEntry) (id : CString) :
    Except Stop (List CoupEntry) :=
  if clist.length < maxCpl ∧ id.length < devidSize then .ok (clist ++ [⟨id, branch, n⟩])
  else .error .outOfBounds

def scanSlot (n : ℕ) (clist : List CoupEntry) (x : Sensor) : Except Stop (List CoupEntry) :=
  match x.listed with
  | some (ids, branch) => ids.foldlM (addId n branch) clist
  | none => .ok clist

/-- The ids a coupler lists, over its slots in use. -/
def Device.listedIds (d : Device) : List CString :=
  (d.s.take d.ns).flatMap fun x => (x.listed.map Prod.fst).getD []

/-- The slots that list ids; the others are freed. -/
def Device.keepListed (d : Device) : Device :=
  let used := (d.s.take d.ns).filter (·.listed.isSome)
  if used.length < d.ns then { d with s := used, ns := used.length, ns_le := le_rfl } else d

def scanCoupler (n : ℕ) (clist : List CoupEntry) (d : Device) :
    Except Stop (Device × List CoupEntry) := do
  let serno ← w1MakeSerial d.serial
  let clist ← (d.s.take d.ns).foldlM (scanSlot n) clist
  let d := { d with serno, priv := some (.coupler couplerUndefined) }
  return (d.keepListed, clist)

/-- A coupler that comes after `MAXCPL` ids is not initialised. -/
def scanDevice (n : ℕ) (clist : List CoupEntry) (d : Device) :
    Except Stop (Device × List CoupEntry) :=
  if d.stype = .coupler ∧ clist.length < maxCpl then scanCoupler n clist d else .ok (d, clist)

def scanCouplers : List Device → ℕ → List CoupEntry → Except Stop (List Device × List CoupEntry)
  | [], _, clist => .ok ([], clist)
  | d :: ds, n, clist => do
    let r ← scanDevice n clist d
    let rs ← scanCouplers ds (n + 1) r.2
    return (r.1 :: rs.1, rs.2)

/-- Point a device at the branch that lists it. -/
def attach (e : CoupEntry) (d : Device) : Except Stop Device :=
  if d.stype ≠ .coupler ∧ d.coupler = none then
    match d.serial with
    | none => .error .nullDeref
    | some serial =>
      .ok (if serial = e.devid then { d with coupler := some ⟨e.couplerDevice, e.branch⟩ } else d)
  else .ok d

def w1InitializeCouplers (w1 : DevList) : Except Stop DevList := do
  let r ← scanCouplers w1.devs 0 []
  let devs ← r.2.foldlM (fun devs e => devs.mapM (attach e)) r.1
  return { w1 with devs }

/-! ## Switching -/

section
variable {σ : Type} (drv : Driver σ)

/-- `w1_set_coupler`: the new lines are cached whatever `SetSwitch1F` returns. -/
def w1SetCoupler (n : ℕ) (lines : Int) : M σ Unit := do
  let d ← dev n
  if d.stype = .coupler ∧ d.activeLines.isSome ∧ d.activeLines ≠ some lines then
    let ok ← call (drv.setSwitch1F d.serno lines)
    event (.switch n d.serno lines ok)
    modifyDev n fun d => { d with priv := some (.coupler lines) }

/-- The body of the loops that switch all couplers off; `own` is left alone. -/
def switchOff (own : Option ℕ) (i : ℕ) : M σ Unit := do
  let d ← dev i
  if d.stype = .coupler ∧ own ≠ some i then w1SetCoupler drv i couplerAllOff

/-- `w1_select_device`: the own coupler is not switched off first. -/
def w1SelectDevice (n : ℕ) : M σ Bool := do
  let w1 ← getW1
  let w ← dev n
  (List.range w1.devs.length).forM (switchOff drv (w.coupler.map (·.couplerDevice)))
  w.coupler.forM fun c => w1SetCoupler drv c.couplerDevice c.branch
  event (.search n)
  let found ← call (drv.owSearch w.serno[0] w.serno)
  return found.contains w.serno

def w1AllCouplersOff : M σ Unit := do
  let w1 ← getW1
  if w1.doread then (List.range w1.devs.length).forM (switchOff drv none)

end
end W1Retap

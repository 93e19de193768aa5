import W1Retap.Model.CArith
import W1Retap.Support.CStrings
import W1Retap.Support.Calls

/-!
# What the database plugins log

All loggers go through `w1->devs` in the same way: the valid sensors of the devices that are
initialised. Texts that the C library would print are kept as the format with the value
that goes into it.
-/
namespace W1Retap

open CStrings

/-- A sensor that a logger writes out. -/
structure Logged where
  stype : W1Type
  abbrv : Option CString
  value : ℚ
  units : Option CString
  deriving DecidableEq, Repr

def Device.logged (d : Device) : List Logged :=
  if d.init ≠ 0 then
    ((d.s.take d.ns).filter (·.valid)).map fun x => ⟨d.stype, x.abbrv, x.value, x.units⟩
  else []

/-- The sensors that a logger finds in `w1->devs`, in their order. -/
def DevList.logged (w1 : DevList) : List Logged := w1.devs.flatMap Device.logged

/-- A value as `printf` prints it. -/
structure Printed where
  format : String
  value : ℚ
  deriving DecidableEq, Repr

/-- The date of a row: the seconds themselves, or what `strftime` makes of them. -/
inductive Stamp where
  | seconds (t : Int)
  | text (format : String) (utc : Bool) (t : Int)
  deriving DecidableEq, Repr

/-- Whole numbers for counters and wind vanes, six decimal places for the others. -/
def Logged.printed (e : Logged) : Printed :=
  if e.stype = .counter ∨ e.stype = .windvane then ⟨"%.0f", e.value⟩ else ⟨"%f", e.value⟩

/-- The members of the JSON document. -/
def DevList.wxdata (w1 : DevList) : List (Option CString × Printed) :=
  w1.logged.map fun e => (e.abbrv, e.printed)

/-- A list with valid readings of these names, each in a device of its own. -/
def readingsOf (abbrvs : List CString) : DevList where
  devs := abbrvs.map fun abbrv =>
    { init := 1, stype := .temp, s := [{ abbrv := some abbrv, value := 21, valid := true }]
      ns := 1, ns_le := le_refl 1 }

/-- A connection, with the parameter string that opened it. -/
structure Conn where
  id : ℕ
  params : CString
  deriving DecidableEq, Repr

/-- `strncmp(s, text, sizeof(text) - 1) == 0` -/
def startsWith (text : String) (s : CString) : Bool := text.toList.isPrefixOf s

/-! ## Parameter strings -/

/-- `sscanf(s1, "%256[^=]=%256s", t, v) == 2` -/
def scanPair (s : CString) : Option (CString × CString) :=
  let t := (s.takeWhile (· ≠ '=')).take 256
  match s.drop t.length with
  | '=' :: rest =>
    let v := ((rest.dropWhile isspace).takeWhile fun c => !isspace c).take 256
    if t = [] ∨ v = [] then none else some (t, v)
  | _ => none

/-- The assignments of a parameter string such as `host=localhost dbname=wx`. -/
def assignments (params : CString) : List (CString × CString) :=
  (strsep [' '] params).filterMap scanPair

end W1Retap

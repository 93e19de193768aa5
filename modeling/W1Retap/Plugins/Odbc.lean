import W1Retap.Plugins.Rows

/-!
# The ODBC plugin

A call is given whether `SQLDriverConnect` would succeed, and its outputs are the library
calls. There is neither a `w1_report` nor a lock file here.
-/
namespace W1Retap.Odbc

open Calls

inductive Op where
  | driverConnect (dbc : Conn) (ok : Bool)
  | execDirect (dbc : Conn) (sql : String)
  | prepare (dbc : Conn) (sql : String)
  | execute (stmt : Option Conn) (date : Stamp) (abbrv : Option CString) (value : ℚ)
  | freeHandle (dbc : Option Conn)
  deriving DecidableEq, Repr

/-- `stmt` is known by the connection on which it was allocated. -/
structure Statics where
  env : Bool := false
  dbc : Option Conn := none
  stmt : Option Conn := none
  issued : ℕ := 0
  deriving DecidableEq, Repr

/-! ## The functions of the plugin -/

/-- `w1_init`, with handles of its own. -/
def w1Init (s : Statics) (params : CString) (connects : Bool) : Statics × List Op :=
  let dbc : Conn := ⟨s.issued, params⟩
  ({ s with issued := s.issued + 1 }, [.driverConnect dbc connects] ++
    (if connects then [.execDirect dbc "select * from w1sensors order by device",
      .execDirect dbc "select name,value,rmin,rmax from ratelimit"] else []) ++
    [.freeHandle dbc])

/-- No statement can be allocated on a connection that is not open. -/
def openStatic (s : Statics) (params : CString) (connects : Bool) : Statics × List Op :=
  if s.env then (s, [])
  else
    let dbc : Conn := ⟨s.issued, params⟩
    ({ s with
        env := true, dbc := some dbc, stmt := if connects then some dbc else none
        issued := s.issued + 1 },
      .driverConnect dbc connects ::
        if connects then [.prepare dbc "insert into readings(date,name,value)  values (?,?,?)"]
        else [])

def date (w1 : DevList) : Stamp :=
  if w1.timestamp ≠ 0 then .text "SQL_TIMESTAMP" false w1.logtime else .seconds w1.logtime

def inserts (stmt : Option Conn) (w1 : DevList) : List Op :=
  w1.logged.map fun e => .execute stmt (date w1) e.abbrv e.value

def w1Logger (s : Statics) (w1 : DevList) (params : CString) (connects : Bool) :
    Statics × List Op :=
  let (s, opening) := openStatic s params connects
  (s, opening ++ inserts s.stmt w1)

def w1Cleanup (s : Statics) : Statics × List Op :=
  ({ s with env := false, dbc := none, stmt := none }, [.freeHandle s.dbc])

inductive Call where
  | init (params : CString) (connects : Bool)
  | logger (w1 : DevList) (params : CString) (connects : Bool)
  | cleanup

def Call.isCleanup : Call → Bool
  | .cleanup => true
  | _ => false

def call (s : Statics) : Call → Statics × List Op
  | .init params connects => w1Init s params connects
  | .logger w1 params connects => w1Logger s w1 params connects
  | .cleanup => w1Cleanup s

end W1Retap.Odbc

import W1Retap.Plugins.Rows

/-!
# The MySQL plugin

A call is given what the library would answer, and its outputs are the library calls.
Rows are inserted with plain queries. There is no `w1_report`.
-/
namespace W1Retap.Mysql

open Calls

/-- What `my_params` finds in the parameter string. -/
structure Account where
  host : Option CString := none
  dbname : Option CString := none
  user : Option CString := none
  pass : Option CString := none
  deriving DecidableEq, Repr

def Account.assign (acc : Account) : CString × CString → Account
  | (t, v) =>
    if t = "dbname".toList then { acc with dbname := some v }
    else if t = "host".toList then { acc with host := some v }
    else if t = "user".toList then { acc with user := some v }
    else if t = "password".toList then { acc with pass := some v }
    else acc

def myParams (params : CString) : Account := (assignments params).foldl Account.assign {}

inductive Query where
  | text (sql : String)
  | insert (date : Stamp) (abbrv : Option CString) (value : Printed)
  deriving DecidableEq, Repr

inductive Op where
  | realConnect (conn : Conn) (acc : Account) (ok : Bool)
  | query (conn : Option Conn) (q : Query)
  | close (conn : Conn)
  deriving DecidableEq, Repr

structure Statics where
  conn : Option Conn := none
  issued : ℕ := 0
  deriving DecidableEq, Repr

/-! ## The functions of the plugin -/

def w1Opendb (s : Statics) (params : CString) (connects : Bool) :
    (Statics × Option Conn) × List Op :=
  let conn : Conn := ⟨s.issued, params⟩
  (({ s with issued := s.issued + 1 }, if connects then some conn else none),
    [.realConnect conn (myParams params) connects])

/-- `w1_init` with a connection of its own, which is closed when `w1sensors` could be read. -/
def w1Init (s : Statics) (dbnam : CString) (connects selects : Bool) : Statics × List Op :=
  let ((s, conn), ops) := w1Opendb s dbnam connects
  match conn with
  | none => (s, ops)
  | some conn =>
    (s, ops ++ [.query conn (.text "select * from w1sensors order by device")] ++
      if selects then
        [.query conn (.text "select name,value,rmin,rmax from ratelimit"), .close conn]
      else [])

def date (w1 : DevList) : Stamp :=
  if w1.timestamp ≠ 0 then .text "'%F %T'" w1.forceUtc w1.logtime else .seconds w1.logtime

def inserts (conn : Option Conn) (w1 : DevList) : List Op :=
  w1.logged.map fun e => .query conn (.insert (date w1) e.abbrv ⟨"%g", e.value⟩)

/-- The queries of one pass. -/
def queries (conn : Option Conn) (w1 : DevList) : List Op :=
  [.query conn (.text "BEGIN")] ++ inserts conn w1 ++ [.query conn (.text "COMMIT")]

/-- The connection is opened when there is none. -/
def openStatic (s : Statics) (params : CString) (connects : Bool) : Statics × List Op :=
  if s.conn = none then
    let ((s, conn), ops) := w1Opendb s params connects
    ({ s with conn }, ops ++ [.query conn (.text "SET AUTOCOMMIT=0")])
  else (s, [])

/-- `w1_logger`, which does not ask whether the connection could be opened. -/
def w1Logger (s : Statics) (w1 : DevList) (params : CString) (locked connects : Bool) :
    Statics × List Op :=
  if locked then (s, [])
  else
    let (s, opening) := openStatic s params connects
    (s, opening ++ queries s.conn w1)

def w1Cleanup (s : Statics) : Statics × List Op :=
  match s.conn with
  | none => (s, [])
  | some conn => ({ s with conn := none }, [.close conn])

inductive Call where
  | init (dbnam : CString) (connects selects : Bool)
  | logger (w1 : DevList) (params : CString) (locked connects : Bool)
  | cleanup

def Call.isCleanup : Call → Bool
  | .cleanup => true
  | _ => false

def call (s : Statics) : Call → Statics × List Op
  | .init dbnam connects selects => w1Init s dbnam connects selects
  | .logger w1 params locked connects => w1Logger s w1 params locked connects
  | .cleanup => w1Cleanup s

end W1Retap.Mysql

import W1Retap.Plugins.Rows

/-!
# The sqlite plugin

The static variables of the plugin are `Statics`. A call is given the answers that the
library would make, and its outputs are the library calls in their order. The sensor and
ratelimit tables that `w1_init` reads are not repeated here.
-/
namespace W1Retap.Sqlite

open Calls

/-- What `sqlite3_open` does, with the declared types of `readings.date` and
`readings.wxdata`; when it fails it may still return a handle. -/
inductive Opening where
  | opened (date wxdata : Option CString)
  | failed (handle : Bool)
  deriving DecidableEq, Repr

def Opening.tstamp : Opening → Bool
  | .opened (some date) _ => startsWith "timestamp" date
  | _ => false

def Opening.json : Opening → Bool
  | .opened _ (some wxdata) =>
    startsWith "text" wxdata || startsWith "varchar" wxdata || startsWith "char" wxdata
  | _ => false

/-- A prepared statement, with the handle on which it was prepared. -/
structure Stmt where
  id : ℕ
  db : Conn
  deriving DecidableEq, Repr

def Opening.isOpened : Opening → Bool
  | .opened .. => true
  | .failed _ => false

inductive Value where
  | int (v : Int)
  | real (v : ℚ)
  | text (v : Option CString)
  | stamp (v : Stamp)
  | wxdata (v : List (Option CString × Printed))
  deriving DecidableEq, Repr

inductive Op where
  | openDb (db : Conn) (a : Opening)
  | getTable (db : Option Conn) (sql : String)
  | prepare (db : Option Conn) (sql : String) (stmt : Option Stmt)
  | exec (db : Option Conn) (sql : String)
  | bind (stmt : Option Stmt) (column : ℕ) (value : Value)
  | step (stmt : Option Stmt)
  | reset (stmt : Option Stmt)
  | finalize (stmt : Stmt)
  | close (db : Option Conn)
  deriving DecidableEq, Repr

/-- `issued` numbers the handles and statements that the library gives out. -/
structure Statics where
  db : Option Conn := none
  stmt : Option Stmt := none
  stml : Option Stmt := none
  json : Bool := false
  tstamp : Bool := false
  issued : ℕ := 0
  deriving DecidableEq, Repr

/-! ## The functions of the plugin -/

/-- `w1_opendb`, which sets the flags that the table asks for and clears none. -/
def w1Opendb (s : Statics) (dbname : CString) (a : Opening) :
    (Statics × Option Conn) × List Op :=
  let db : Conn := ⟨s.issued, dbname⟩
  let s : Statics := { s with
    issued := s.issued + 1, tstamp := s.tstamp || a.tstamp, json := s.json || a.json }
  ((s, if a = .failed false then none else some db), [.openDb db a])

def w1Init (s : Statics) (dbnam : CString) (a : Opening) : Statics × List Op :=
  let ((s, db), ops) := w1Opendb s dbnam a
  (s, ops ++ [.getTable db "select * from w1sensors order by device",
    .getTable db "select name,value,rmin,rmax from ratelimit", .close db])

/-- The handle is opened when there is none. -/
def openStatic (s : Statics) (dbnam : CString) (a : Opening) : Statics × List Op :=
  if s.db = none then
    let ((s, db), ops) := w1Opendb s dbnam a
    ({ s with db }, ops)
  else (s, [])

/-- The statement that `sqlite3_prepare` makes on the static handle, if it does. -/
def Statics.prepared (s : Statics) (ok : Bool) : Option Stmt :=
  if ok then s.db.map fun db => ⟨s.issued, db⟩ else none

theorem prepared_true {s : Statics} {db : Conn} (hd : s.db = some db) :
    s.prepared true = some ⟨s.issued, db⟩ := by
  simp [Statics.prepared, hd]

def insertSql (json : Bool) : String :=
  if json then "insert into readings(date,wxdata) values (?,?)"
  else "insert into readings(date,name,value) values (?,?,?)"

def prepareStmt (s : Statics) (ok : Bool) : Statics × List Op :=
  if s.stmt = none then
    let stmt := s.prepared ok
    ({ s with stmt, issued := s.issued + 1 }, [.prepare s.db (insertSql s.json) stmt])
  else (s, [])

def prepareStml (s : Statics) (ok : Bool) : Statics × List Op :=
  if s.stml = none then
    let stml := s.prepared ok
    ({ s with stml, issued := s.issued + 1 },
      [.prepare s.db "insert into replog(date,message) values (?,?)" stml])
  else (s, [])

/-- The date of the rows of one pass. -/
def Statics.date (s : Statics) (w1 : DevList) : Value :=
  if s.tstamp then .stamp (.text "%F %T%z" w1.forceUtc w1.logtime) else .int (wrapInt w1.logtime)

/-- The inserts of `w1_logger`: one for each sensor, or a single one with all of them. -/
def inserts (s : Statics) (w1 : DevList) : List Op :=
  if s.json then
    (if w1.logged ≠ [] then
      [.bind s.stmt 1 (s.date w1), .bind s.stmt 2 (.wxdata w1.wxdata), .step s.stmt]
    else []) ++ [.reset s.stmt]
  else
    w1.logged.flatMap fun e =>
      [.bind s.stmt 1 (s.date w1), .bind s.stmt 2 (.text e.abbrv), .bind s.stmt 3 (.real e.value),
        .step s.stmt, .reset s.stmt]

/-- `w1_logger`; nothing is done while the lock file exists. -/
def w1Logger (s : Statics) (w1 : DevList) (dbnam : CString) (locked : Bool) (a : Opening)
    (ok : Bool) : Statics × List Op :=
  if locked then (s, [])
  else
    let (s, opening) := openStatic s dbnam a
    let (s, preparing) := prepareStmt s ok
    (s, opening ++ preparing ++ [.exec s.db "begin"] ++ inserts s w1 ++ [.exec s.db "commit"])

def w1Report (s : Statics) (w1 : DevList) (lastmsg : Option CString) (dbnam : CString)
    (a : Opening) (ok : Bool) : Statics × List Op :=
  match lastmsg with
  | none => (s, [])
  | some msg =>
    let (s, opening) := openStatic s dbnam a
    let (s, preparing) := prepareStml s ok
    (s, opening ++ preparing ++ [.exec s.db "begin",
      .bind s.stml 1 (.stamp (.text "%F %T%z" false w1.logtime)), .bind s.stml 2 (.text (some msg)),
      .step s.stml, .reset s.stml, .exec s.db "commit"])

/-- `w1_cleanup`. After `stml` is finalized it is `stmt` that is set to `NULL` once more. -/
def w1Cleanup (s : Statics) : Statics × List Op :=
  match s.db with
  | none => (s, [])
  | some db =>
    ({ s with db := none, stmt := none },
      s.stmt.toList.map .finalize ++ s.stml.toList.map .finalize ++ [.close (some db)])

inductive Call where
  | init (dbnam : CString) (a : Opening)
  | logger (w1 : DevList) (dbnam : CString) (locked : Bool) (a : Opening) (ok : Bool)
  | report (w1 : DevList) (lastmsg : Option CString) (dbnam : CString) (a : Opening) (ok : Bool)
  | cleanup

def call (s : Statics) : Call → Statics × List Op
  | .init dbnam a => w1Init s dbnam a
  | .logger w1 dbnam locked a ok => w1Logger s w1 dbnam locked a ok
  | .report w1 lastmsg dbnam a ok => w1Report s w1 lastmsg dbnam a ok
  | .cleanup => w1Cleanup s

def Call.isCleanup : Call → Bool
  | .cleanup => true
  | _ => false

/-- Opening and preparing succeed in the call. -/
def Call.Succeeds : Call → Prop
  | .init _ a => a.isOpened
  | .logger _ _ _ a ok => a.isOpened ∧ ok = true
  | .report _ _ _ a ok => a.isOpened ∧ ok = true
  | .cleanup => True

/-- The database of the examples; it has a row for each reading. -/
def sensorsDb : CString := "/var/tmp/sensors.db".toList

def plainTable : Opening := .opened (some "integer".toList) none

end W1Retap.Sqlite

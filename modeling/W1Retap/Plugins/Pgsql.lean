import W1Retap.Plugins.Rows

/-!
# The PostgreSQL plugin

As for sqlite, a call is given what the library would answer and its outputs are the
library calls in their order. The plugin keeps the names of its prepared statements, not
the session in which they were prepared.
-/
namespace W1Retap.Pgsql

open Calls

/-- What `w1_opendb` finds: no connection, or one with the types of the columns `date`,
`wxdata` and `value` of the table `readings`, unless the query for them fails. -/
inductive Connecting where
  | failed
  | connected (types : Option (List CString))
  deriving DecidableEq, Repr

def Connecting.json : Connecting → Bool
  | .connected (some types) => types.any fun t => startsWith "json" t || startsWith "text" t
  | _ => false

def Connecting.tstamp : Connecting → Bool
  | .connected (some types) => types.any (startsWith "timestamp")
  | _ => false

/-- The answers of the library: of `PQconnectdb`, whether `PQstatus` finds an open connection in order,
and whether `PQprepare` succeeds. -/
structure Answers where
  connecting : Connecting
  good : Bool
  prepares : Bool
  deriving DecidableEq, Repr

inductive Value where
  | stamp (v : Stamp)
  | text (v : Option CString)
  | printed (v : Printed)
  | wxdata (v : List (Option CString × Printed))
  deriving DecidableEq, Repr

inductive Op where
  | connectdb (params : CString) (a : Connecting)
  | reset (db : Conn)
  | finish (db : Conn)
  | syslog (db : Conn)
  | prepare (db : Conn) (name sql : String) (ok : Bool)
  | exec (db : Conn) (sql : String)
  | insertInto (db : Conn) (table : CString) (date : Stamp) (value : Printed)
  | execPrepared (db : Conn) (name : Option String) (values : List Value)
  deriving DecidableEq, Repr

structure Statics where
  db : Option Conn := none
  stmt : Option String := none
  stml : Option String := none
  retry : ℕ := 0
  json : Bool := false
  tstamp : Bool := false
  issued : ℕ := 0
  deriving DecidableEq, Repr

/-! ## The functions of the plugin -/

/-- `w1_opendb`, which sets the flags that the table asks for and clears none. -/
def w1Opendb (s : Statics) (params : CString) (a : Connecting) :
    (Statics × Option Conn) × List Op :=
  let s' : Statics := { s with
    issued := s.issued + 1, tstamp := s.tstamp || a.tstamp, json := s.json || a.json }
  ((s', if a = .failed then none else some ⟨s.issued, params⟩), [.connectdb params a])

def w1Init (s : Statics) (dbnam : CString) (a : Connecting) : Statics × List Op :=
  let ((s, idb), ops) := w1Opendb s dbnam a
  match idb with
  | none => (s, ops)
  | some idb =>
    (s, ops ++ [.exec idb "select * from w1sensors order by device",
      .exec idb "select name,value,rmin,rmax from ratelimit", .finish idb])

/-- A connection that is lost is reset, and the statements are forgotten. -/
def dbStatus (s : Statics) (dbnam : CString) (a : Answers) : Statics × List Op :=
  let (s, ops) := match s.db with
    | none =>
      let ((s, db), ops) := w1Opendb s dbnam a.connecting
      ({ s with db }, ops)
    | some db =>
      if a.good then ({ s with retry := 0 }, [])
      else ({ s with stmt := none, stml := none, retry := s.retry + 1 }, [.reset db])
  match s.db with
  | some db => (s, ops ++ if s.retry % 10 = 1 then [.syslog db] else [])
  | none => (s, ops)

/-- The library calls of `db_status`. -/
theorem dbStatus_ops {s : Statics} {dbnam : CString} {a : Answers} {op : Op}
    (hop : op ∈ (dbStatus s dbnam a).2) :
    (∃ params a, op = .connectdb params a) ∨ (∃ db, op = .reset db) ∨ ∃ db, op = .syslog db := by
  have hsyslog : ∀ {retry : ℕ} {db : Conn},
      op ∈ (if retry % 10 = 1 then [Op.syslog db] else []) → ∃ db, op = .syslog db := by
    intro retry db hop
    split_ifs at hop
    · exact ⟨db, List.mem_singleton.mp hop⟩
    · cases hop
  unfold dbStatus at hop
  cases hd : s.db with
  | none =>
    by_cases ha : a.connecting = .failed
    · simp only [hd, w1Opendb, ha, if_true, List.mem_singleton] at hop
      exact Or.inl ⟨_, _, hop⟩
    · simp only [hd, w1Opendb, if_neg ha, List.singleton_append] at hop
      rcases List.mem_cons.mp hop with rfl | hop
      · exact Or.inl ⟨_, _, rfl⟩
      · exact Or.inr (Or.inr (hsyslog hop))
  | some db =>
    by_cases hg : a.good = true
    · simp only [hd, if_pos hg, List.nil_append] at hop
      exact Or.inr (Or.inr (hsyslog hop))
    · simp only [hd, if_neg hg, List.singleton_append] at hop
      rcases List.mem_cons.mp hop with rfl | hop
      · exact Or.inr (Or.inl ⟨db, rfl⟩)
      · exact Or.inr (Or.inr (hsyslog hop))

/-- The name is kept whether or not the statement could be prepared. -/
def prepareStmt (s : Statics) (db : Conn) (ok : Bool) : Statics × List Op :=
  if s.stmt = none then
    ({ s with stmt := some "insrt" }, [.prepare db "insrt"
      (if s.json then "insert into readings (date,wxdata) values ($1,$2)"
      else "insert into readings (date,name,value) values ($1,$2,$3)") ok])
  else (s, [])

def prepareStml (s : Statics) (db : Conn) (ok : Bool) : Statics × List Op :=
  if s.stml = none then
    ({ s with stml := some "insrl" },
      [.prepare db "insrl" "insert into replog(date,message) values ($1,$2)" ok])
  else (s, [])

def Statics.date (s : Statics) (w1 : DevList) : Stamp :=
  if s.tstamp then .text "%F %T%z" w1.forceUtc w1.logtime else .seconds w1.logtime

/-- The insert of one sensor; an abbreviation that starts with `>` names a table of its own. -/
def insertOp (s : Statics) (db : Conn) (w1 : DevList) (e : Logged) : Op :=
  match e.abbrv with
  | some ('>' :: table) => .insertInto db table (s.date w1) e.printed
  | _ => .execPrepared db s.stmt [.stamp (s.date w1), .text e.abbrv, .printed e.printed]

def inserts (s : Statics) (db : Conn) (w1 : DevList) : List Op :=
  if s.json then
    if w1.logged ≠ [] then [.execPrepared db s.stmt [.stamp (s.date w1), .wxdata w1.wxdata]] else []
  else w1.logged.map (insertOp s db w1)

/-- `w1_logger`; nothing is done while the lock file exists. -/
def w1Logger (s : Statics) (w1 : DevList) (dbnam : CString) (locked : Bool) (a : Answers) :
    Statics × List Op :=
  if locked then (s, [])
  else
    let (s, status) := dbStatus s dbnam a
    match s.db with
    | none => (s, status)
    | some db =>
      let (s, preparing) := prepareStmt s db a.prepares
      (s, status ++ preparing ++ [.exec db "begin"] ++ inserts s db w1 ++ [.exec db "commit"])

def w1Report (s : Statics) (w1 : DevList) (lastmsg : Option CString) (dbnam : CString)
    (a : Answers) : Statics × List Op :=
  match lastmsg with
  | none => (s, [])
  | some msg =>
    let (s, status) := dbStatus s dbnam a
    match s.db with
    | none => (s, status)
    | some db =>
      let (s, preparing) := prepareStml s db a.prepares
      (s, status ++ preparing ++ [.exec db "begin",
        .execPrepared db s.stml [.stamp (.text "%FT%T%z" w1.forceUtc w1.logtime), .text (some msg)],
        .exec db "commit"])

/-- After `db_status` a pass changes neither the flags nor the connection. -/
theorem w1Logger_after (s : Statics) (w1 : DevList) (dbnam : CString) (a : Answers) :
    (w1Logger s w1 dbnam false a).1.json = (dbStatus s dbnam a).1.json ∧
      (w1Logger s w1 dbnam false a).1.tstamp = (dbStatus s dbnam a).1.tstamp ∧
      (w1Logger s w1 dbnam false a).1.db = (dbStatus s dbnam a).1.db := by
  simp only [w1Logger, Bool.false_eq_true, if_false]
  cases hd : (dbStatus s dbnam a).1.db with
  | none => exact ⟨rfl, rfl, hd⟩
  | some db =>
    simp only [prepareStmt]
    split_ifs <;> exact ⟨rfl, rfl, hd⟩

theorem w1Report_after (s : Statics) (w1 : DevList) (msg dbnam : CString) (a : Answers) :
    (w1Report s w1 (some msg) dbnam a).1.json = (dbStatus s dbnam a).1.json ∧
      (w1Report s w1 (some msg) dbnam a).1.tstamp = (dbStatus s dbnam a).1.tstamp ∧
      (w1Report s w1 (some msg) dbnam a).1.db = (dbStatus s dbnam a).1.db := by
  simp only [w1Report]
  cases hd : (dbStatus s dbnam a).1.db with
  | none => exact ⟨rfl, rfl, hd⟩
  | some db =>
    simp only [prepareStml]
    split_ifs <;> exact ⟨rfl, rfl, hd⟩

def w1Cleanup (s : Statics) : Statics × List Op :=
  match s.db with
  | none => (s, [])
  | some db => ({ s with db := none, stmt := none, stml := none, retry := 0 }, [.finish db])

inductive Call where
  | init (dbnam : CString) (a : Answers)
  | logger (w1 : DevList) (dbnam : CString) (locked : Bool) (a : Answers)
  | report (w1 : DevList) (lastmsg : Option CString) (dbnam : CString) (a : Answers)
  | cleanup

def Call.isCleanup : Call → Bool
  | .cleanup => true
  | _ => false

def call (s : Statics) : Call → Statics × List Op
  | .init dbnam a => w1Init s dbnam a.connecting
  | .logger w1 dbnam locked a => w1Logger s w1 dbnam locked a
  | .report w1 lastmsg dbnam a => w1Report s w1 lastmsg dbnam a
  | .cleanup => w1Cleanup s

/-- The database of the examples; it has a row for each reading. -/
def weather : CString := "dbname=weather".toList

def narrowTable : Connecting := .connected (some ["integer".toList, "real".toList])

end W1Retap.Pgsql

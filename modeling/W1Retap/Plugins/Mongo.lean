import W1Retap.Plugins.Rows

/-!
# The MongoDB plugin

Connection and database name are static. A call is given what the library and `time` would
answer, and its outputs are the library calls. `ended` stands for the end of the
process: `exit`, or the `NULL` that `rset_free` does not expect.
-/
namespace W1Retap.Mongo

open CStrings Calls

structure Hport where
  host : CString
  port : Int
  deriving DecidableEq, Repr

structure Repset where
  setname : Option CString
  hp : List Hport
  deriving DecidableEq, Repr

/-- What `time` answers in `w1_id_new`, and the second that `mongo_util_oid_new` finds. -/
structure Clock where
  now : Int
  sec : Int
  deriving DecidableEq, Repr

/-- An id is known by its second and its sequence number. -/
@[ext] structure Oid where
  sec : Int
  seq : ℕ
  deriving DecidableEq, Repr

/-- The documents are known by their id, date, and values or message. -/
inductive Doc where
  | readings (id : Oid) (date : Int) (values : List (Option CString × ℚ))
  | message (id : Oid) (date : Int) (text : CString)
  deriving DecidableEq, Repr

inductive Op where
  | connect (hport : Hport) (conn : Option Conn)
  | autoReconnect (conn : Option Conn)
  | seedAdd (conn : Option Conn) (hport : Hport)
  | oidInit
  | oidNew (id : Oid)
  | query (conn : Conn) (collection : CString)
  | insert (conn : Option Conn) (collection : CString) (doc : Doc)
  | disconnect (conn : Option Conn)
  | syslog
  | exit (status : Int)
  deriving DecidableEq, Repr

/-- `last` and `seq` are the static variables of `w1_id_new`. -/
structure Statics where
  dbname : Option CString := none
  conn : Option Conn := none
  mkid : Bool := false
  last : Int := 0
  seq : ℕ := 0
  issued : ℕ := 0
  ended : Bool := false
  deriving DecidableEq, Repr

/-! ## The parameter string -/

def mdefPort : Int := 27017

structure Params where
  host : Option CString := none
  port : Int := 0
  dbname : Option CString := none
  repset : Option CString := none
  deriving DecidableEq, Repr

def Params.assign (p : Params) : CString × CString → Params
  | (t, v) =>
    if t = "host".toList then { p with host := some v }
    else if t = "port".toList then { p with port := wrapInt (strtolAny v) }
    else if t = "dbname".toList then { p with dbname := some v }
    else if t = "replica".toList then { p with repset := some v }
    else p

def portOr (port : Int) : Int := if port = 0 then mdefPort else port

/-- A member of a replica set, `host` or `host/port`. -/
def seedHost (s : CString) : Hport :=
  ⟨s.takeWhile (· ≠ '/'), portOr (wrapInt (strtolAny ((s.dropWhile (· ≠ '/')).drop 1)))⟩

def Params.rset (p : Params) : Option Repset :=
  match p.repset with
  | some repset =>
    let fields := strsep [','] repset
    some ⟨fields.head?, fields.tail.map seedHost⟩
  | none => p.host.map fun host => ⟨none, [⟨host, portOr p.port⟩]⟩

/-- `mongo_params`; a database that was named before keeps its name. -/
def mongoParams (s : Statics) (params : CString) : Statics × Option Repset :=
  let p := (assignments params).foldl Params.assign {}
  ({ s with dbname := p.dbname <|> s.dbname <|> some "wx".toList }, p.rset)

/-! ## The functions of the plugin -/

def oidInit (s : Statics) : Statics × List Op :=
  ({ s with mkid := true }, if s.mkid then [] else [.oidInit])

/-- `w1_opendb`, which leaves its result in `conn`. Without hosts there is no connection. -/
def w1Opendb (s : Statics) (params : CString) (connects : Bool) : Statics × List Op :=
  let (s, rset) := mongoParams s params
  match rset with
  | none => ({ s with ended := true }, [])
  | some ⟨_, []⟩ => oidInit s
  | some ⟨setname, hport :: seeds⟩ =>
    let conn := if connects then some ⟨s.issued, params⟩ else none
    let ops := .connect hport conn :: if setname.isSome then
      .autoReconnect conn :: seeds.map (.seedAdd conn) else []
    if connects then
      let (s, init) := oidInit { s with conn, issued := s.issued + 1 }
      (s, ops ++ init)
    else ({ s with ended := true }, ops ++ [.exit 1])

/-- The connection is opened when there is none. -/
def openStatic (s : Statics) (params : CString) (connects : Bool) : Statics × List Op :=
  if s.conn = none then w1Opendb s params connects else (s, [])

/-- `snprintf` into `collection`, which has room for 127 characters. -/
def Statics.collection (s : Statics) (name : String) : CString :=
  (s.dbname.getD "(null)".toList ++ '.' :: name.toList).take 127

def w1Init (s : Statics) (params : CString) (connects : Bool) : Statics × List Op :=
  let (s, ops) := openStatic s params connects
  if s.ended then (s, ops)
  else match s.conn with
    | some conn => (s, ops ++ [.query conn (s.collection "w1sensors"),
        .query conn (s.collection "ratelimit")])
    | none => ({ s with ended := true }, ops ++ [.exit 1])

def w1Cleanup (s : Statics) : Statics × List Op :=
  ({ s with dbname := none, conn := none }, [.disconnect s.conn])

/-- `w1_id_new`. Nothing is stored in `last`. -/
def w1IdNew (s : Statics) (clock : Clock) : Statics × Oid :=
  let seq := if clock.now = s.last then (s.seq + 1) % 2 ^ 32 else 0
  ({ s with seq }, ⟨clock.sec, seq⟩)

/-- A time as BSON has it, in milliseconds. -/
def millis (t : Int) : Int := (t * 1000).bmod (2 ^ 64)

/-- The document of a pass, which is sent only when it has a value. -/
def logReadings (s : Statics) (w1 : DevList) (clock : Clock) : Statics × List Op :=
  let (s, id) := w1IdNew s clock
  let doc := .readings id (millis w1.logtime) (w1.logged.map fun e => (e.abbrv, e.value))
  (s, .oidNew id ::
    if w1.logged ≠ [] then [.insert s.conn (s.collection "readings") doc] else [])

def w1Logger (s : Statics) (w1 : DevList) (params : CString) (locked connects : Bool)
    (clock : Clock) : Statics × List Op :=
  if locked then (s, [])
  else
    let (s, opening) := openStatic s params connects
    if s.ended then (s, opening)
    else if s.conn = none then (s, opening ++ [.syslog])
    else
      let (s, logging) := logReadings s w1 clock
      (s, opening ++ logging)

/-- `w1_report`, which does not ask whether there is a connection. -/
def w1Report (s : Statics) (lastmsg : Option CString) (clock : Clock) : Statics × List Op :=
  match lastmsg with
  | none => (s, [])
  | some msg =>
    let (s, id) := w1IdNew s clock
    (s, [.oidNew id,
      .insert s.conn (s.collection "replog") (.message id (millis clock.now) msg)])

inductive Call where
  | init (params : CString) (connects : Bool)
  | logger (w1 : DevList) (params : CString) (locked connects : Bool) (clock : Clock)
  | report (params : CString) (lastmsg : Option CString) (clock : Clock)
  | cleanup

def Call.isCleanup : Call → Bool
  | .cleanup => true
  | _ => false

def dispatch (s : Statics) : Call → Statics × List Op
  | .init params connects => w1Init s params connects
  | .logger w1 params locked connects clock => w1Logger s w1 params locked connects clock
  | .report _ lastmsg clock => w1Report s lastmsg clock
  | .cleanup => w1Cleanup s

/-- Nothing is called once the process has ended. -/
def call (s : Statics) (c : Call) : Statics × List Op :=
  if s.ended then (s, []) else dispatch s c

end W1Retap.Mongo

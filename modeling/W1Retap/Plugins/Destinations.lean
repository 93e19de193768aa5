import W1Retap.Plugins.Mongo
import W1Retap.Plugins.Mysql
import W1Retap.Plugins.Odbc
import W1Retap.Plugins.Pgsql
import W1Retap.Plugins.Sqlite
import W1Retap.Support.SharedHandle

/-!
# Where the rows go

Every `log` and `rep` line has a parameter string of its own, but each plugin keeps one
connection, which is opened with the string of the first call that needs it.
-/
namespace W1Retap

open Calls SharedHandle

namespace Sqlite

def Call.dbnam : Call → CString
  | .init dbnam _ => dbnam
  | .logger _ dbnam _ _ _ => dbnam
  | .report _ _ dbnam _ _ => dbnam
  | .cleanup => []

/-- Unlocked passes and messages go through the static handle. -/
def Call.usesHandle : Call → Bool
  | .logger _ _ locked _ _ => !locked
  | .report _ lastmsg _ _ _ => lastmsg.isSome
  | _ => false

def Call.writes : Call → Bool
  | .logger w1 _ locked _ _ => !locked && w1.logged ≠ []
  | .report _ lastmsg _ _ _ => lastmsg.isSome
  | _ => false

/-- The database to which a library call adds a row. -/
def Op.row : Op → Option Conn
  | .step stmt => stmt.map (·.db)
  | _ => none

def client : Client Statics Call Op Conn CString where
  step := call
  handle := Statics.db
  key := Conn.params
  param := Call.dbnam
  opens := Call.usesHandle
  writes := Call.writes
  row := Op.row

/-- The statements are those of the static handle. -/
def OnHandle (s : Statics) : Prop :=
  (∀ st, s.stmt = some st → s.db = some st.db) ∧ ∀ st, s.stml = some st → s.db = some st.db

variable {s : Statics} {c : Call} {cs : List Call}

theorem onHandle_none (h : OnHandle s) (hd : s.db = none) : s.stmt = none ∧ s.stml = none := by
  constructor
  · rw [Option.eq_none_iff_forall_ne_some]
    intro st hst
    rw [h.1 st hst] at hd
    cases hd
  · rw [Option.eq_none_iff_forall_ne_some]
    intro st hst
    rw [h.2 st hst] at hd
    cases hd

/-- The static handle after opening. -/
theorem OnHandle.openStatic (h : OnHandle s) {a : Opening} (ha : a.isOpened = true)
    (dbnam : CString) :
    OnHandle (openStatic s dbnam a).1 ∧
      (∃ db, (openStatic s dbnam a).1.db = some db ∧
        some db.params = (s.db.map Conn.params).or (some dbnam)) ∧
      ∀ op ∈ (openStatic s dbnam a).2, op.row = none := by
  unfold Sqlite.openStatic
  cases hd : s.db with
  | some db =>
    rw [if_neg (by simp)]
    exact ⟨h, ⟨db, hd, rfl⟩, by simp⟩
  | none =>
    have hne : a ≠ .failed false := by
      rintro rfl
      cases ha
    obtain ⟨hs, hm⟩ := onHandle_none h hd
    simp only [if_true, w1Opendb, if_neg hne]
    refine ⟨⟨?_, ?_⟩, ⟨_, rfl, rfl⟩, by simp [Op.row]⟩
    · intro st hst
      rw [show s.stmt = some st from hst] at hs
      cases hs
    · intro st hst
      rw [show s.stml = some st from hst] at hm
      cases hm

theorem OnHandle.prepareStmt (h : OnHandle s) {db : Conn} (hd : s.db = some db) :
    OnHandle (prepareStmt s true).1 ∧ (prepareStmt s true).1.db = some db ∧
      (∃ st, (prepareStmt s true).1.stmt = some st ∧ st.db = db) ∧
      ∀ op ∈ (prepareStmt s true).2, op.row = none := by
  unfold Sqlite.prepareStmt
  cases hst : s.stmt with
  | some st =>
    rw [if_neg (by simp)]
    have hdb := h.1 st hst
    exact ⟨h, hd, ⟨st, hst, Option.some.inj (hdb.symm.trans hd)⟩, by simp⟩
  | none =>
    simp only [if_true, prepared_true hd]
    refine ⟨⟨?_, h.2⟩, hd, ⟨_, rfl, rfl⟩, by simp [Op.row]⟩
    intro st hst
    obtain rfl := Option.some.inj hst
    exact hd

theorem OnHandle.prepareStml (h : OnHandle s) {db : Conn} (hd : s.db = some db) :
    OnHandle (prepareStml s true).1 ∧ (prepareStml s true).1.db = some db ∧
      (∃ st, (prepareStml s true).1.stml = some st ∧ st.db = db) ∧
      ∀ op ∈ (prepareStml s true).2, op.row = none := by
  unfold Sqlite.prepareStml
  cases hst : s.stml with
  | some st =>
    rw [if_neg (by simp)]
    have hdb := h.2 st hst
    exact ⟨h, hd, ⟨st, hst, Option.some.inj (hdb.symm.trans hd)⟩, by simp⟩
  | none =>
    simp only [if_true, prepared_true hd]
    refine ⟨⟨h.1, ?_⟩, hd, ⟨_, rfl, rfl⟩, by simp [Op.row]⟩
    intro st hst
    obtain rfl := Option.some.inj hst
    exact hd

/-- The rows of a pass go to the handle of `stmt`. -/
theorem row_inserts {st : Stmt} (hst : s.stmt = some st) (w1 : DevList) :
    (∀ op ∈ inserts s w1, ∀ db ∈ op.row, w1.logged ≠ [] ∧ db = st.db) ∧
      (w1.logged ≠ [] → ∃ op ∈ inserts s w1, op.row.isSome = true) := by
  unfold inserts
  by_cases hj : s.json = true
  · rw [if_pos hj]
    by_cases hl : w1.logged ≠ []
    · rw [if_pos hl]
      exact ⟨by simp [Op.row, hst, hl], fun _ => ⟨.step s.stmt, by simp, by simp [Op.row, hst]⟩⟩
    · rw [if_neg hl]
      exact ⟨by simp [Op.row], fun h => absurd h hl⟩
  · rw [if_neg hj]
    constructor
    · intro op hop db hdb
      obtain ⟨e, he, hop⟩ := List.mem_flatMap.mp hop
      have hl : w1.logged ≠ [] := List.ne_nil_of_mem he
      simp only [List.mem_cons, List.not_mem_nil, or_false] at hop
      rcases hop with rfl | rfl | rfl | rfl | rfl <;> simp_all [Op.row]
    · intro hl
      obtain ⟨e, he⟩ := List.exists_mem_of_ne_nil _ hl
      exact ⟨.step s.stmt, List.mem_flatMap.mpr ⟨e, he, by simp⟩, by simp [Op.row, hst]⟩

theorem shares_call (hc : c.isCleanup = false) (hok : c.Succeeds) (h : OnHandle s) :
    client.Shares OnHandle s c := by
  cases c with
  | cleanup => cases hc
  | init dbnam a => exact .idle rfl h rfl rfl rfl (by simp [client, Op.row])
  | logger w1 dbnam locked a ok =>
    obtain ⟨ha, rfl⟩ := hok
    cases locked with
    | true => exact .idle rfl h rfl rfl rfl (by simp)
    | false =>
      obtain ⟨hopen, ⟨db, hd, hparams⟩, hrows⟩ := h.openStatic ha dbnam
      obtain ⟨hprep, hdb, ⟨st, hst, rfl⟩, hrows'⟩ := hopen.prepareStmt hd
      obtain ⟨hins, hsome⟩ := row_inserts hst w1
      have hcall : call s (.logger w1 dbnam false a true) =
          ((prepareStmt (openStatic s dbnam a).1 true).1,
            (openStatic s dbnam a).2 ++ (prepareStmt (openStatic s dbnam a).1 true).2 ++
              [.exec (prepareStmt (openStatic s dbnam a).1 true).1.db "begin"] ++
              inserts (prepareStmt (openStatic s dbnam a).1 true).1 w1 ++
              [.exec (prepareStmt (openStatic s dbnam a).1 true).1.db "commit"]) := rfl
      refine .of_eq hcall hprep ?_ ?_ ?_
      · change (prepareStmt (openStatic s dbnam a).1 true).1.db.map Conn.params = _
        rw [hdb, Option.map_some, hparams]
        rfl
      · intro op hop db hrow
        change db ∈ op.row at hrow
        simp only [List.mem_append, List.mem_singleton] at hop
        rcases hop with (((hop | hop) | rfl) | hop) | rfl
        · rw [hrows op hop] at hrow
          cases hrow
        · rw [hrows' op hop] at hrow
          cases hrow
        · cases hrow
        · obtain ⟨hl, rfl⟩ := hins op hop db hrow
          exact ⟨by simp [client, Call.writes, hl], hdb⟩
        · cases hrow
      · intro hw _
        have hl : w1.logged ≠ [] := by simpa [client, Call.writes] using hw
        obtain ⟨op, hop, hrow⟩ := hsome hl
        exact ⟨op, by simp [hop], hrow⟩
  | report w1 lastmsg dbnam a ok =>
    obtain ⟨ha, rfl⟩ := hok
    cases lastmsg with
    | none => exact .idle rfl h rfl rfl rfl (by simp)
    | some msg =>
      obtain ⟨hopen, ⟨db, hd, hparams⟩, hrows⟩ := h.openStatic ha dbnam
      obtain ⟨hprep, hdb, ⟨st, hst, rfl⟩, hrows'⟩ := hopen.prepareStml hd
      have hcall : call s (.report w1 (some msg) dbnam a true) =
          ((prepareStml (openStatic s dbnam a).1 true).1,
            (openStatic s dbnam a).2 ++ (prepareStml (openStatic s dbnam a).1 true).2 ++
              [.exec (prepareStml (openStatic s dbnam a).1 true).1.db "begin",
                .bind (prepareStml (openStatic s dbnam a).1 true).1.stml 1
                  (.stamp (.text "%F %T%z" false w1.logtime)),
                .bind (prepareStml (openStatic s dbnam a).1 true).1.stml 2 (.text (some msg)),
                .step (prepareStml (openStatic s dbnam a).1 true).1.stml,
                .reset (prepareStml (openStatic s dbnam a).1 true).1.stml,
                .exec (prepareStml (openStatic s dbnam a).1 true).1.db "commit"]) := rfl
      refine .of_eq hcall hprep ?_ ?_ ?_
      · change (prepareStml (openStatic s dbnam a).1 true).1.db.map Conn.params = _
        rw [hdb, Option.map_some, hparams]
        rfl
      · intro op hop db hrow
        change db ∈ op.row at hrow
        simp only [List.mem_append, List.mem_cons, List.not_mem_nil, or_false] at hop
        rcases hop with (hop | hop) | rfl | rfl | rfl | rfl | rfl | rfl
        · rw [hrows op hop] at hrow
          cases hrow
        · rw [hrows' op hop] at hrow
          cases hrow
        · cases hrow
        · cases hrow
        · cases hrow
        · rw [hst] at hrow
          obtain rfl := Option.some.inj hrow
          exact ⟨rfl, hdb⟩
        · cases hrow
        · cases hrow
      · intro _ _
        refine ⟨.step (prepareStml (openStatic s dbnam a).1 true).1.stml, by simp, ?_⟩
        simp [client, Op.row, hst]

/-- The rows of all calls go to the databases that they name. -/
def RowsNamed {δ : Type} (names : CString → δ) (cs : List Call) : Prop :=
  client.RowsNamed names {} cs

/-- The calls that write name the database of the first that opens the handle. -/
def Agree {δ : Type} (names : CString → δ) (cs : List Call) : Prop :=
  client.Agree names none cs

theorem rowsNamed_iff {δ : Type} {names : CString → δ}
    (h : ∀ c ∈ cs, c.isCleanup = false ∧ c.Succeeds) : RowsNamed names cs ↔ Agree names cs := by
  have hinv : OnHandle {} := ⟨by simp, by simp⟩
  exact SharedHandle.rowsNamed_iff (fun _ => True) hinv
    (fun c hc s hs _ => shares_call (h c hc).1 (h c hc).2 hs) fun _ _ _ => True.intro

end Sqlite

namespace Pgsql

def Call.dbnam : Call → CString
  | .init dbnam _ => dbnam
  | .logger _ dbnam _ _ => dbnam
  | .report _ _ dbnam _ => dbnam
  | .cleanup => []

def Call.usesHandle : Call → Bool
  | .logger _ _ locked _ => !locked
  | .report _ lastmsg _ _ => lastmsg.isSome
  | _ => false

def Call.writes : Call → Bool
  | .logger w1 _ locked _ => !locked && w1.logged ≠ []
  | .report _ lastmsg _ _ => lastmsg.isSome
  | _ => false

def Op.row : Op → Option Conn
  | .insertInto db _ _ _ => some db
  | .execPrepared db _ _ => some db
  | _ => none

def client : Client Statics Call Op Conn CString where
  step := call
  handle := Statics.db
  key := Conn.params
  param := Call.dbnam
  opens := Call.usesHandle
  writes := Call.writes
  row := Op.row

/-- The connection can be made when the call needs to. -/
def Call.Connects : Call → Prop
  | .logger _ _ _ a => a.connecting ≠ .failed
  | .report _ _ _ a => a.connecting ≠ .failed
  | _ => True

variable {s : Statics} {c : Call} {cs : List Call}

/-- The connection after `db_status`. -/
theorem dbStatus_handle {a : Answers} (dbnam : CString)
    (ha : s.db = none → a.connecting ≠ .failed) :
    ∃ db, (dbStatus s dbnam a).1.db = some db ∧
      some db.params = (s.db.map Conn.params).or (some dbnam) := by
  unfold dbStatus
  cases hd : s.db with
  | none => exact ⟨⟨s.issued, dbnam⟩, by simp [w1Opendb, if_neg (ha hd)], rfl⟩
  | some db =>
    refine ⟨db, ?_, rfl⟩
    by_cases hg : a.good = true <;> simp [hg]

theorem row_status {dbnam : CString} {a : Answers} {op : Op} (hop : op ∈ (dbStatus s dbnam a).2) :
    op.row = none := by
  rcases dbStatus_ops hop with ⟨params, a, rfl⟩ | ⟨db, rfl⟩ | ⟨db, rfl⟩ <;> rfl

theorem row_prepareStmt {db : Conn} {ok : Bool} {op : Op} (hop : op ∈ (prepareStmt s db ok).2) :
    op.row = none := by
  unfold prepareStmt at hop
  by_cases hst : s.stmt = none
  · rw [if_pos hst, List.mem_singleton] at hop
    rw [hop]
    rfl
  · rw [if_neg hst] at hop
    cases hop

theorem row_prepareStml {db : Conn} {ok : Bool} {op : Op} (hop : op ∈ (prepareStml s db ok).2) :
    op.row = none := by
  unfold prepareStml at hop
  by_cases hst : s.stml = none
  · rw [if_pos hst, List.mem_singleton] at hop
    rw [hop]
    rfl
  · rw [if_neg hst] at hop
    cases hop

/-- The rows of a pass go to the connection. -/
theorem row_inserts (s : Statics) (db : Conn) (w1 : DevList) :
    (∀ op ∈ inserts s db w1, ∀ d ∈ op.row, w1.logged ≠ [] ∧ d = db) ∧
      (w1.logged ≠ [] → ∃ op ∈ inserts s db w1, op.row.isSome = true) := by
  have hrow : ∀ e, (insertOp s db w1 e).row = some db := by
    intro e
    unfold insertOp
    split <;> rfl
  unfold inserts
  by_cases hj : s.json = true
  · rw [if_pos hj]
    by_cases hl : w1.logged ≠ []
    · rw [if_pos hl]
      exact ⟨by simp [Op.row, hl], fun _ => ⟨_, List.mem_singleton_self _, rfl⟩⟩
    · rw [if_neg hl]
      exact ⟨by simp, fun h => absurd h hl⟩
  · rw [if_neg hj]
    constructor
    · intro op hop d hd
      obtain ⟨e, he, rfl⟩ := List.mem_map.mp hop
      rw [hrow] at hd
      exact ⟨List.ne_nil_of_mem he, (Option.some.inj hd).symm⟩
    · intro hl
      obtain ⟨e, he⟩ := List.exists_mem_of_ne_nil _ hl
      exact ⟨_, List.mem_map.mpr ⟨e, he, rfl⟩, by rw [hrow]; rfl⟩

theorem shares_call (hc : c.isCleanup = false)
    (hok : s.db = none → c.usesHandle = true → c.Connects) :
    client.Shares (fun _ => True) s c := by
  cases c with
  | cleanup => cases hc
  | init dbnam a =>
    by_cases ha : a.connecting = .failed
    · exact .idle rfl True.intro rfl rfl (by simp [client, ha])
        (by simp [client, ha, Op.row])
    · exact .idle rfl True.intro rfl rfl (by simp [client, ha])
        (by simp [client, ha, Op.row])
  | logger w1 dbnam locked a =>
    cases locked with
    | true => exact .idle rfl True.intro rfl rfl rfl (by simp)
    | false =>
      obtain ⟨db, hd, hparams⟩ := dbStatus_handle dbnam fun hnone => hok hnone rfl
      have hafter := (w1Logger_after s w1 dbnam a).2.2.trans hd
      obtain ⟨hins, hsome⟩ := row_inserts (prepareStmt (dbStatus s dbnam a).1 db a.prepares).1 db w1
      refine .of_eq rfl True.intro ?_ ?_ ?_
      · change (w1Logger s w1 dbnam false a).1.db.map Conn.params = _
        rw [hafter, Option.map_some, hparams]
        rfl
      · intro op hop d hrow
        change d ∈ op.row at hrow
        change op ∈ (w1Logger s w1 dbnam false a).2 at hop
        simp only [w1Logger, Bool.false_eq_true, if_false, hd, List.mem_append,
          List.mem_singleton] at hop
        rcases hop with (((hop | hop) | rfl) | hop) | rfl
        · rw [row_status hop] at hrow
          cases hrow
        · rw [row_prepareStmt hop] at hrow
          cases hrow
        · cases hrow
        · obtain ⟨hl, rfl⟩ := hins op hop d hrow
          exact ⟨by simp [client, Call.writes, hl], hafter⟩
        · cases hrow
      · intro hw _
        have hl : w1.logged ≠ [] := by simpa [client, Call.writes] using hw
        obtain ⟨op, hop, hrow⟩ := hsome hl
        refine ⟨op, ?_, hrow⟩
        change op ∈ (w1Logger s w1 dbnam false a).2
        simp only [w1Logger, Bool.false_eq_true, if_false, hd, List.mem_append]
        exact Or.inl (Or.inr hop)
  | report w1 lastmsg dbnam a =>
    cases lastmsg with
    | none => exact .idle rfl True.intro rfl rfl rfl (by simp)
    | some msg =>
      obtain ⟨db, hd, hparams⟩ := dbStatus_handle dbnam fun hnone => hok hnone rfl
      have hafter := (w1Report_after s w1 msg dbnam a).2.2.trans hd
      refine .of_eq rfl True.intro ?_ ?_ ?_
      · change (w1Report s w1 (some msg) dbnam a).1.db.map Conn.params = _
        rw [hafter, Option.map_some, hparams]
        rfl
      · intro op hop d hrow
        change d ∈ op.row at hrow
        change op ∈ (w1Report s w1 (some msg) dbnam a).2 at hop
        simp only [w1Report, hd, List.mem_append, List.mem_cons, List.not_mem_nil, or_false] at hop
        rcases hop with (hop | hop) | rfl | rfl | rfl
        · rw [row_status hop] at hrow
          cases hrow
        · rw [row_prepareStml hop] at hrow
          cases hrow
        · cases hrow
        · obtain rfl := Option.some.inj hrow
          exact ⟨rfl, hafter⟩
        · cases hrow
      · intro _ _
        refine ⟨.execPrepared db (prepareStml (dbStatus s dbnam a).1 db a.prepares).1.stml
          [.stamp (.text "%FT%T%z" w1.forceUtc w1.logtime), .text (some msg)], ?_, rfl⟩
        change _ ∈ (w1Report s w1 (some msg) dbnam a).2
        simp [w1Report, hd]

def RowsNamed {δ : Type} (names : CString → δ) (cs : List Call) : Prop :=
  client.RowsNamed names {} cs

def Agree {δ : Type} (names : CString → δ) (cs : List Call) : Prop :=
  client.Agree names none cs

theorem rowsNamed_iff {δ : Type} {names : CString → δ} (hc : ∀ c ∈ cs, c.isCleanup = false)
    (h : ∀ c, cs.find? Call.usesHandle = some c → c.Connects) :
    RowsNamed names cs ↔ Agree names cs :=
  SharedHandle.rowsNamed_iff Call.Connects True.intro
    (fun c hmem _ _ hok => shares_call (hc c hmem) hok) fun _ => h

end Pgsql

namespace Mysql

def Call.params : Call → CString
  | .init dbnam _ _ => dbnam
  | .logger _ params _ _ => params
  | .cleanup => []

def Call.usesHandle : Call → Bool
  | .logger _ _ locked _ => !locked
  | _ => false

def Call.writes : Call → Bool
  | .logger w1 _ locked _ => !locked && w1.logged ≠ []
  | _ => false

def Op.row : Op → Option Conn
  | .query conn (.insert ..) => conn
  | _ => none

def client : Client Statics Call Op Conn CString where
  step := call
  handle := Statics.conn
  key := Conn.params
  param := Call.params
  opens := Call.usesHandle
  writes := Call.writes
  row := Op.row

def Call.Connects : Call → Prop
  | .logger _ _ _ connects => connects = true
  | _ => True

variable {s : Statics} {c : Call} {cs : List Call}

theorem openStatic_handle {connects : Bool} (params : CString)
    (hok : s.conn = none → connects = true) :
    (∃ conn, (openStatic s params connects).1.conn = some conn ∧
      some conn.params = (s.conn.map Conn.params).or (some params)) ∧
      ∀ op ∈ (openStatic s params connects).2, op.row = none := by
  unfold openStatic
  cases hc : s.conn with
  | none =>
    rw [hok hc]
    exact ⟨⟨_, rfl, rfl⟩, by simp [w1Opendb, Op.row]⟩
  | some conn =>
    rw [if_neg (by simp)]
    exact ⟨⟨conn, hc, rfl⟩, by simp⟩

theorem row_queries (conn : Conn) (w1 : DevList) :
    (∀ op ∈ queries (some conn) w1, ∀ d ∈ op.row, w1.logged ≠ [] ∧ d = conn) ∧
      (w1.logged ≠ [] → ∃ op ∈ queries (some conn) w1, op.row.isSome = true) := by
  unfold queries inserts
  constructor
  · intro op hop d hd
    simp only [List.mem_append, List.mem_singleton, List.mem_map] at hop
    rcases hop with (rfl | ⟨e, he, rfl⟩) | rfl
    · cases hd
    · exact ⟨List.ne_nil_of_mem he, (Option.some.inj hd).symm⟩
    · cases hd
  · intro hl
    obtain ⟨e, he⟩ := List.exists_mem_of_ne_nil _ hl
    refine ⟨.query (some conn) (.insert (date w1) e.abbrv ⟨"%g", e.value⟩), ?_, rfl⟩
    simp only [List.mem_append, List.mem_map]
    exact Or.inl (Or.inr ⟨e, he, rfl⟩)

theorem shares_call (hc : c.isCleanup = false)
    (hok : s.conn = none → c.usesHandle = true → c.Connects) :
    client.Shares (fun _ => True) s c := by
  cases c with
  | cleanup => cases hc
  | init dbnam connects selects =>
    cases connects with
    | false => exact .idle rfl True.intro rfl rfl rfl (by simp [client, Op.row])
    | true =>
      refine .idle rfl True.intro rfl rfl rfl ?_
      cases selects <;> simp [client, Op.row]
  | logger w1 params locked connects =>
    cases locked with
    | true => exact .idle rfl True.intro rfl rfl rfl (by simp)
    | false =>
      obtain ⟨⟨conn, hconn, hparams⟩, hrows⟩ := openStatic_handle params fun hnone => hok hnone rfl
      obtain ⟨hins, hsome⟩ := row_queries conn w1
      have hcall : call s (.logger w1 params false connects) =
          ((openStatic s params connects).1,
            (openStatic s params connects).2 ++ queries (some conn) w1) := by
        simp [call, w1Logger, hconn]
      refine .of_eq hcall True.intro ?_ ?_ ?_
      · change (openStatic s params connects).1.conn.map Conn.params = _
        rw [hconn, Option.map_some, hparams]
        rfl
      · intro op hop d hrow
        rcases List.mem_append.mp hop with hop | hop
        · rw [show client.row op = none from hrows op hop] at hrow
          cases hrow
        · obtain ⟨hl, rfl⟩ := hins op hop d hrow
          exact ⟨by simp [client, Call.writes, hl], hconn⟩
      · intro hw _
        have hl : w1.logged ≠ [] := by simpa [client, Call.writes] using hw
        obtain ⟨op, hop, hrow⟩ := hsome hl
        exact ⟨op, List.mem_append_right _ hop, hrow⟩

def RowsNamed {δ : Type} (names : CString → δ) (cs : List Call) : Prop :=
  client.RowsNamed names {} cs

def Agree {δ : Type} (names : CString → δ) (cs : List Call) : Prop :=
  client.Agree names none cs

theorem rowsNamed_iff {δ : Type} {names : CString → δ} (hc : ∀ c ∈ cs, c.isCleanup = false)
    (h : ∀ c, cs.find? Call.usesHandle = some c → c.Connects) :
    RowsNamed names cs ↔ Agree names cs :=
  SharedHandle.rowsNamed_iff Call.Connects True.intro
    (fun c hmem _ _ hok => shares_call (hc c hmem) hok) fun _ => h

end Mysql

namespace Odbc

def Call.params : Call → CString
  | .init params _ => params
  | .logger _ params _ => params
  | .cleanup => []

def Call.usesHandle : Call → Bool
  | .logger .. => true
  | _ => false

def Call.writes : Call → Bool
  | .logger w1 _ _ => w1.logged ≠ []
  | _ => false

def Op.row : Op → Option Conn
  | .execute stmt _ _ _ => stmt
  | _ => none

def client : Client Statics Call Op Conn CString where
  step := call
  handle := Statics.dbc
  key := Conn.params
  param := Call.params
  opens := Call.usesHandle
  writes := Call.writes
  row := Op.row

def Call.Connects : Call → Prop
  | .logger _ _ connects => connects = true
  | _ => True

/-- The handles are allocated together. -/
def Together (s : Statics) : Prop := s.stmt = s.dbc ∧ (s.env = true ↔ s.dbc ≠ none)

variable {s : Statics} {c : Call} {cs : List Call}

theorem Together.openStatic {connects : Bool} (h : Together s) (params : CString)
    (hok : s.dbc = none → connects = true) :
    Together (openStatic s params connects).1 ∧
      (∃ dbc, (openStatic s params connects).1.dbc = some dbc ∧
        some dbc.params = (s.dbc.map Conn.params).or (some params)) ∧
      ∀ op ∈ (openStatic s params connects).2, op.row = none := by
  unfold Odbc.openStatic
  cases he : s.env with
  | true =>
    obtain ⟨dbc, hdbc⟩ := Option.ne_none_iff_exists'.mp (h.2.mp he)
    rw [if_pos rfl]
    exact ⟨h, ⟨dbc, hdbc, by rw [hdbc]; rfl⟩, by simp⟩
  | false =>
    have hnone : s.dbc = none := by
      by_contra hne
      have henv := h.2.mpr hne
      rw [he] at henv
      cases henv
    rw [if_neg Bool.false_ne_true, hok hnone]
    refine ⟨⟨rfl, ?_⟩, ⟨_, rfl, by rw [hnone]; rfl⟩, by simp [Op.row]⟩
    simp

theorem row_inserts (dbc : Conn) (w1 : DevList) :
    (∀ op ∈ inserts (some dbc) w1, ∀ d ∈ op.row, w1.logged ≠ [] ∧ d = dbc) ∧
      (w1.logged ≠ [] → ∃ op ∈ inserts (some dbc) w1, op.row.isSome = true) := by
  unfold inserts
  constructor
  · intro op hop d hd
    obtain ⟨e, he, rfl⟩ := List.mem_map.mp hop
    exact ⟨List.ne_nil_of_mem he, (Option.some.inj hd).symm⟩
  · intro hl
    obtain ⟨e, he⟩ := List.exists_mem_of_ne_nil _ hl
    exact ⟨_, List.mem_map.mpr ⟨e, he, rfl⟩, rfl⟩

theorem shares_call (hc : c.isCleanup = false) (h : Together s)
    (hok : s.dbc = none → c.usesHandle = true → c.Connects) : client.Shares Together s c := by
  cases c with
  | cleanup => cases hc
  | init params connects =>
    refine .idle rfl h rfl rfl rfl ?_
    cases connects <;> simp [client, Op.row]
  | logger w1 params connects =>
    obtain ⟨htog, ⟨dbc, hdbc, hparams⟩, hrows⟩ := h.openStatic params fun hnone => hok hnone rfl
    obtain ⟨hins, hsome⟩ := row_inserts dbc w1
    have hcall : call s (.logger w1 params connects) =
        ((openStatic s params connects).1,
          (openStatic s params connects).2 ++ inserts (some dbc) w1) := by
      simp [call, w1Logger, htog.1.trans hdbc]
    refine .of_eq hcall htog ?_ ?_ ?_
    · change (openStatic s params connects).1.dbc.map Conn.params = _
      rw [hdbc, Option.map_some, hparams]
      rfl
    · intro op hop d hrow
      rcases List.mem_append.mp hop with hop | hop
      · rw [show client.row op = none from hrows op hop] at hrow
        cases hrow
      · obtain ⟨hl, rfl⟩ := hins op hop d hrow
        exact ⟨by simp [client, Call.writes, hl], hdbc⟩
    · intro hw _
      have hl : w1.logged ≠ [] := by simpa [client, Call.writes] using hw
      obtain ⟨op, hop, hrow⟩ := hsome hl
      exact ⟨op, List.mem_append_right _ hop, hrow⟩

def RowsNamed {δ : Type} (names : CString → δ) (cs : List Call) : Prop :=
  client.RowsNamed names {} cs

def Agree {δ : Type} (names : CString → δ) (cs : List Call) : Prop :=
  client.Agree names none cs

theorem rowsNamed_iff {δ : Type} {names : CString → δ} (hc : ∀ c ∈ cs, c.isCleanup = false)
    (h : ∀ c, cs.find? Call.usesHandle = some c → c.Connects) :
    RowsNamed names cs ↔ Agree names cs := by
  have hinv : Together {} := ⟨rfl, by simp⟩
  exact SharedHandle.rowsNamed_iff Call.Connects hinv
    (fun c hmem _ hs hok => shares_call (hc c hmem) hs hok) fun _ => h

end Odbc

namespace Mongo

def Call.params : Call → CString
  | .init params _ => params
  | .logger _ params _ _ _ => params
  | .report params _ _ => params
  | .cleanup => []

/-- A message does not open the connection. -/
def Call.usesHandle : Call → Bool
  | .init .. => true
  | .logger _ _ locked _ _ => !locked
  | _ => false

def Call.writes : Call → Bool
  | .logger w1 _ locked _ _ => !locked && w1.logged ≠ []
  | .report _ lastmsg _ => lastmsg.isSome
  | _ => false

def Op.row : Op → Option Conn
  | .insert conn _ _ => conn
  | _ => none

def client : Client Statics Call Op Conn CString where
  step := call
  handle := Statics.conn
  key := Conn.params
  param := Call.params
  opens := Call.usesHandle
  writes := Call.writes
  row := Op.row

/-- The parameter string names a host, and it answers. -/
def Reaches (params : CString) (connects : Bool) : Prop :=
  connects = true ∧ ∃ setname hport seeds,
    (mongoParams {} params).2 = some ⟨setname, hport :: seeds⟩

def Call.Connects : Call → Prop
  | .init params connects => Reaches params connects
  | .logger _ params _ connects _ => Reaches params connects
  | _ => True

/-- The database that a parameter string names. -/
def dbnameOf (params : CString) : CString :=
  (((assignments params).foldl Params.assign {}).dbname).getD "wx".toList

/-- The process runs, and `dbname` is the one of the connection. -/
structure Running (s : Statics) : Prop where
  ended : s.ended = false
  unset : s.conn = none → s.dbname = none
  dbname : ∀ conn, s.conn = some conn → s.dbname = some (dbnameOf conn.params)

variable {s : Statics} {c : Call} {cs : List Call}

theorem Running.openStatic {connects : Bool} (h : Running s) (params : CString)
    (hok : s.conn = none → Reaches params connects) :
    Running (openStatic s params connects).1 ∧
      (∃ conn, (openStatic s params connects).1.conn = some conn ∧
        some conn.params = (s.conn.map Conn.params).or (some params)) ∧
      ∀ op ∈ (openStatic s params connects).2, op.row = none := by
  unfold Mongo.openStatic
  cases hc : s.conn with
  | some conn =>
    rw [if_neg (by simp)]
    exact ⟨h, ⟨conn, hc, rfl⟩, by simp⟩
  | none =>
    obtain ⟨rfl, setname, hport, seeds, hrset⟩ := hok hc
    have hdbname := h.unset hc
    simp only [mongoParams] at hrset
    simp only [if_true, w1Opendb, mongoParams, hrset, oidInit]
    refine ⟨⟨h.ended, ?_, ?_⟩, ⟨_, rfl, rfl⟩, ?_⟩
    · intro hnone
      cases hnone
    · intro conn hconn
      obtain rfl := Option.some.inj hconn
      simp only [hdbname, dbnameOf]
      cases ((assignments params).foldl Params.assign {}).dbname <;> rfl
    · intro op hop
      simp only [List.cons_append, List.mem_cons, List.mem_append] at hop
      rcases hop with rfl | hop | hop
      · rfl
      · split_ifs at hop
        · rcases List.mem_cons.mp hop with rfl | hop
          · rfl
          · obtain ⟨seed, -, rfl⟩ := List.mem_map.mp hop
            rfl
        · cases hop
      · split_ifs at hop
        · cases hop
        · rw [List.mem_singleton.mp hop]
          rfl

theorem call_running (h : Running s) (c : Call) : call s c = dispatch s c := by
  rw [call, if_neg (by simp [h.ended])]

/-- The document of a pass goes to the connection. -/
theorem row_logReadings {conn : Conn} (hconn : s.conn = some conn) (w1 : DevList) (clock : Clock) :
    (∀ op ∈ (logReadings s w1 clock).2, ∀ d ∈ op.row, w1.logged ≠ [] ∧ d = conn) ∧
      (w1.logged ≠ [] → ∃ op ∈ (logReadings s w1 clock).2, op.row.isSome = true) := by
  by_cases hl : w1.logged ≠ []
  · simp [logReadings, w1IdNew, hl, hconn, Op.row]
  · simp [logReadings, hl, Op.row]

theorem shares_call (hc : c.isCleanup = false) (h : Running s)
    (hok : s.conn = none → c.usesHandle = true → c.Connects) : client.Shares Running s c := by
  cases c with
  | cleanup => cases hc
  | init params connects =>
    obtain ⟨hopen, ⟨conn, hconn, hparams⟩, hrows⟩ := h.openStatic params fun hnone => hok hnone rfl
    have hcall : call s (.init params connects) = ((openStatic s params connects).1,
        (openStatic s params connects).2 ++
          [.query conn ((openStatic s params connects).1.collection "w1sensors"),
            .query conn ((openStatic s params connects).1.collection "ratelimit")]) := by
      simp [call_running h, dispatch, w1Init, hopen.ended, hconn]
    refine .of_eq hcall hopen ?_ ?_ fun hw => nomatch hw
    · change (openStatic s params connects).1.conn.map Conn.params = _
      rw [hconn, Option.map_some, hparams]
      rfl
    · intro op hop d hrow
      change d ∈ op.row at hrow
      simp only [List.mem_append, List.mem_cons, List.not_mem_nil, or_false] at hop
      rcases hop with hop | rfl | rfl
      · rw [hrows op hop] at hrow
        cases hrow
      · cases hrow
      · cases hrow
  | logger w1 params locked connects clock =>
    cases locked with
    | true =>
      have hcall : call s (.logger w1 params true connects clock) = (s, []) := by
        simp [call_running h, dispatch, w1Logger]
      exact .idle hcall h rfl rfl rfl (by simp)
    | false =>
      obtain ⟨hopen, ⟨conn, hconn, hparams⟩, hrows⟩ := h.openStatic params fun hnone => hok hnone rfl
      have hcall : call s (.logger w1 params false connects clock) =
          ((logReadings (openStatic s params connects).1 w1 clock).1,
            (openStatic s params connects).2 ++
              (logReadings (openStatic s params connects).1 w1 clock).2) := by
        simp [call_running h, dispatch, w1Logger, hopen.ended, hconn]
      obtain ⟨hins, hsome⟩ := row_logReadings hconn w1 clock
      refine .of_eq hcall ⟨hopen.ended, hopen.unset, hopen.dbname⟩ ?_ ?_ ?_
      · change (openStatic s params connects).1.conn.map Conn.params = _
        rw [hconn, Option.map_some, hparams]
        rfl
      · intro op hop d hrow
        rcases List.mem_append.mp hop with hop | hop
        · rw [show client.row op = none from hrows op hop] at hrow
          cases hrow
        · obtain ⟨hl, rfl⟩ := hins op hop d hrow
          exact ⟨by simp [client, Call.writes, hl], hconn⟩
      · intro hw _
        have hl : w1.logged ≠ [] := by simpa [client, Call.writes] using hw
        obtain ⟨op, hop, hrow⟩ := hsome hl
        exact ⟨op, List.mem_append_right _ hop, hrow⟩
  | report params lastmsg clock =>
    cases lastmsg with
    | none =>
      have hcall : call s (.report params none clock) = (s, []) := by simp [call_running h, dispatch, w1Report]
      exact .idle hcall h rfl rfl rfl (by simp)
    | some msg =>
      have hcall : call s (.report params (some msg) clock) = w1Report s (some msg) clock := by
        simp [call_running h, dispatch]
      refine .of_eq hcall ⟨h.ended, h.unset, h.dbname⟩ ?_ ?_ ?_
      · simp [client, Client.opener, Call.usesHandle]
      · intro op hop d hrow
        refine ⟨rfl, ?_⟩
        simp only [List.mem_cons, List.not_mem_nil, or_false] at hop
        rcases hop with rfl | rfl
        · cases hrow
        · exact hrow
      · -- without a connection the message is lost
        intro _ hconn
        exact ⟨_, List.mem_cons_of_mem _ List.mem_cons_self, hconn⟩

def RowsNamed {δ : Type} (names : CString → δ) (cs : List Call) : Prop :=
  client.RowsNamed names {} cs

def Agree {δ : Type} (names : CString → δ) (cs : List Call) : Prop :=
  client.Agree names none cs

theorem running_initial : Running {} := ⟨rfl, fun _ => rfl, fun _ hc => nomatch hc⟩

theorem rowsNamed_iff {δ : Type} {names : CString → δ} (hc : ∀ c ∈ cs, c.isCleanup = false)
    (h : ∀ c, cs.find? Call.usesHandle = some c → c.Connects) :
    RowsNamed names cs ↔ Agree names cs :=
  SharedHandle.rowsNamed_iff Call.Connects running_initial
    (fun c hmem _ hs hok => shares_call (hc c hmem) hs hok) fun _ => h

/-- The document goes to a collection of the database that its connection names. -/
def Op.InDatabase (op : Op) : Prop :=
  ∀ conn collection doc, op = .insert (some conn) collection doc →
    ∃ name : CString, collection = (dbnameOf conn.params ++ '.' :: name).take 127

theorem inDatabase_of_row {op : Op} (h : op.row = none) : op.InDatabase := by
  rintro conn collection doc rfl
  cases h

theorem Running.collection (h : Running s) {conn : Conn} (hconn : s.conn = some conn)
    (name : String) (doc : Doc) : (Op.insert s.conn (s.collection name) doc).InDatabase := by
  rintro conn' collection doc' heq
  simp only [Op.insert.injEq, hconn, Option.some.injEq] at heq
  obtain ⟨rfl, rfl, -⟩ := heq
  refine ⟨name.toList, ?_⟩
  simp [Statics.collection, h.dbname _ hconn]

theorem logReadings_inDatabase (h : Running s) {conn : Conn} (hconn : s.conn = some conn)
    (w1 : DevList) (clock : Clock) : ∀ op ∈ (logReadings s w1 clock).2, op.InDatabase := by
  intro op hop
  rcases List.mem_cons.mp hop with rfl | hop
  · exact inDatabase_of_row rfl
  · by_cases hl : w1.logged ≠ []
    · rw [if_pos hl, List.mem_singleton] at hop
      rw [hop]
      exact h.collection hconn "readings" _
    · rw [if_neg hl] at hop
      cases hop

theorem call_inDatabase (h : Running s) (hok : s.conn = none → c.usesHandle = true → c.Connects) :
    ∀ op ∈ (call s c).2, op.InDatabase := by
  rw [call_running h]
  cases c with
  | cleanup =>
    intro op hop
    rw [List.mem_singleton.mp hop]
    exact inDatabase_of_row rfl
  | init params connects =>
    obtain ⟨hopen, ⟨conn, hconn, -⟩, hrows⟩ := h.openStatic params fun hnone => hok hnone rfl
    intro op hop
    simp only [dispatch, w1Init, hopen.ended, Bool.false_eq_true, if_false, hconn, List.mem_append,
      List.mem_cons, List.not_mem_nil, or_false] at hop
    rcases hop with hop | rfl | rfl
    · exact inDatabase_of_row (hrows op hop)
    · exact inDatabase_of_row rfl
    · exact inDatabase_of_row rfl
  | logger w1 params locked connects clock =>
    cases locked with
    | true => exact fun op hop => nomatch hop
    | false =>
      obtain ⟨hopen, ⟨conn, hconn, -⟩, hrows⟩ := h.openStatic params fun hnone => hok hnone rfl
      intro op hop
      simp only [dispatch, w1Logger, Bool.false_eq_true, if_false, hopen.ended, hconn,
        reduceCtorEq, List.mem_append] at hop
      rcases hop with hop | hop
      · exact inDatabase_of_row (hrows op hop)
      · exact logReadings_inDatabase hopen hconn w1 clock op hop
  | report params lastmsg clock =>
    cases lastmsg with
    | none => exact fun op hop => nomatch hop
    | some msg =>
      intro op hop
      simp only [dispatch, w1Report, List.mem_cons, List.not_mem_nil, or_false] at hop
      rcases hop with rfl | rfl
      · exact inDatabase_of_row rfl
      · cases hconn : s.conn with
        | none => exact inDatabase_of_row hconn
        | some conn => exact h.collection hconn "replog" _

theorem documents_inDatabase (hc : ∀ c ∈ cs, c.isCleanup = false)
    (h : ∀ c, cs.find? Call.usesHandle = some c → c.Connects) :
    ∀ op ∈ outputs call {} cs, op.InDatabase := by
  intro op hop
  obtain ⟨t, ht, hop⟩ := List.mem_flatMap.mp hop
  have hturns : ∀ t ∈ turns client.step {} cs, Running t.before ∧
      (client.handle t.before = none → client.opens t.call = true → t.call.Connects) :=
    SharedHandle.turns_shares Call.Connects running_initial
      (fun c hmem _ hs hok => shares_call (hc c hmem) hs hok) fun _ => h
  obtain ⟨hrun, hok⟩ := hturns t ht
  rw [turns_outputs ht] at hop
  exact call_inDatabase hrun hok op hop

end Mongo

/-- In runs of `w1_init`, `w1_logger` and `w1_report` with the five plugins, the rows of every
call go to the database that its parameter string names exactly when the calls that write name
the database of the call that opened the connection. -/
theorem rows_named_iff {δ : Type} (names : CString → δ)
    {sqlite : List Sqlite.Call} (hs : ∀ c ∈ sqlite, c.isCleanup = false ∧ c.Succeeds)
    {pgsql : List Pgsql.Call} (hp : ∀ c ∈ pgsql, c.isCleanup = false)
    (hp' : ∀ c, pgsql.find? Pgsql.Call.usesHandle = some c → c.Connects)
    {mysql : List Mysql.Call} (hm : ∀ c ∈ mysql, c.isCleanup = false)
    (hm' : ∀ c, mysql.find? Mysql.Call.usesHandle = some c → c.Connects)
    {odbc : List Odbc.Call} (ho : ∀ c ∈ odbc, c.isCleanup = false)
    (ho' : ∀ c, odbc.find? Odbc.Call.usesHandle = some c → c.Connects)
    {mongo : List Mongo.Call} (hg : ∀ c ∈ mongo, c.isCleanup = false)
    (hg' : ∀ c, mongo.find? Mongo.Call.usesHandle = some c → c.Connects) :
    (Sqlite.RowsNamed names sqlite ↔ Sqlite.Agree names sqlite) ∧
    (Pgsql.RowsNamed names pgsql ↔ Pgsql.Agree names pgsql) ∧
    (Mysql.RowsNamed names mysql ↔ Mysql.Agree names mysql) ∧
    (Odbc.RowsNamed names odbc ↔ Odbc.Agree names odbc) ∧
    (Mongo.RowsNamed names mongo ↔ Mongo.Agree names mongo) ∧
    ∀ op ∈ outputs Mongo.call {} mongo, op.InDatabase := by
  refine ⟨Sqlite.rowsNamed_iff hs, Pgsql.rowsNamed_iff hp hp', Mysql.rowsNamed_iff hm hm',
    Odbc.rowsNamed_iff ho ho', Mongo.rowsNamed_iff hg hg', ?_⟩
  exact Mongo.documents_inDatabase hg hg'

/-- One database for everything. -/
theorem rows_named_iff_single :
    let w1 := readingsOf ["GHT".toList]
    let sqlite : List Sqlite.Call := [.init Sqlite.sensorsDb Sqlite.plainTable,
      .logger w1 Sqlite.sensorsDb false Sqlite.plainTable true]
    let pgsql : List Pgsql.Call := [.logger w1 Pgsql.weather false ⟨Pgsql.narrowTable, true, true⟩]
    let mysql : List Mysql.Call := [.logger w1 "dbname=wx".toList false true]
    let odbc : List Odbc.Call := [.logger w1 "DSN=w1retap".toList true]
    let mongo : List Mongo.Call := [.init "host=localhost".toList true,
      .logger w1 "host=localhost".toList false true ⟨1340000000, 1340000000⟩]
    (Sqlite.RowsNamed id sqlite ↔ Sqlite.Agree id sqlite) ∧
    (Pgsql.RowsNamed id pgsql ↔ Pgsql.Agree id pgsql) ∧
    (Mysql.RowsNamed id mysql ↔ Mysql.Agree id mysql) ∧
    (Odbc.RowsNamed id odbc ↔ Odbc.Agree id odbc) ∧
    (Mongo.RowsNamed id mongo ↔ Mongo.Agree id mongo) ∧
    ∀ op ∈ outputs Mongo.call {} mongo, op.InDatabase := by
  apply rows_named_iff
  · simp [Sqlite.Call.isCleanup, Sqlite.Call.Succeeds, Sqlite.plainTable, Sqlite.Opening.isOpened]
  · simp [Pgsql.Call.isCleanup]
  · simp [Pgsql.Call.usesHandle, Pgsql.Call.Connects, Pgsql.narrowTable]
  · simp [Mysql.Call.isCleanup]
  · simp [Mysql.Call.usesHandle, Mysql.Call.Connects]
  · simp [Odbc.Call.isCleanup]
  · simp [Odbc.Call.usesHandle, Odbc.Call.Connects]
  · simp [Mongo.Call.isCleanup]
  · intro c hc
    obtain rfl : .init "host=localhost".toList true = c := by simpa [Mongo.Call.usesHandle] using hc
    exact ⟨rfl, none, ⟨"localhost".toList, 27017⟩, [], by decide +kernel⟩

/-- Two lines as in a set-up with two servers: the readings for `mongo-host` go to `localhost`. -/
theorem rows_named_localhost :
    ¬ Mongo.RowsNamed id [.init "host=localhost".toList true,
      .logger (readingsOf ["GHT".toList]) "host=mongo-host dbname=sensors port=12345".toList false
        true ⟨1340000000, 1340000000⟩] := by
  unfold Mongo.RowsNamed
  decide +kernel

end W1Retap

import W1Retap.Config.Show
import W1Retap.Plugins.Mongo
import W1Retap.Plugins.Mysql
import W1Retap.Plugins.Pgsql
import W1Retap.Plugins.Sqlite
import W1Retap.Support.Printf

/-!
# The dates of the rows

With a date column of integers the time of a pass goes through `sqlite3_bind_int`, which takes
an `int`, through the text of `%ld`, and through the milliseconds of BSON.
-/
namespace W1Retap

open Printf

/-- The date is the text of a number, and the number is `t`. -/
def Stamp.Is (d : Stamp) (t : Int) : Prop := ∃ n, d = .seconds n ∧ Denotes (showInt n) t

/-- The dates that the loggers store in a pass at time `t`, where the column has integers. -/
structure DatesExact (t : Int) : Prop where
  sqlite : ∀ s (w1 : DevList) dbnam locked a ok, w1.logtime = t →
    (Sqlite.w1Logger s w1 dbnam locked a ok).1.tstamp = false →
    ∀ stmt v, .bind stmt 1 v ∈ (Sqlite.w1Logger s w1 dbnam locked a ok).2 → v = .int t
  pgsqlPrepared : ∀ s (w1 : DevList) dbnam locked a, w1.logtime = t →
    (Pgsql.w1Logger s w1 dbnam locked a).1.tstamp = false →
    ∀ db name vs, .execPrepared db name vs ∈ (Pgsql.w1Logger s w1 dbnam locked a).2 →
      ∃ d rest, vs = .stamp d :: rest ∧ d.Is t
  pgsqlTable : ∀ s (w1 : DevList) dbnam locked a, w1.logtime = t →
    (Pgsql.w1Logger s w1 dbnam locked a).1.tstamp = false →
    ∀ db table d value, .insertInto db table d value ∈ (Pgsql.w1Logger s w1 dbnam locked a).2 →
      d.Is t
  mysql : ∀ s (w1 : DevList) params locked connects, w1.logtime = t → w1.timestamp = 0 →
    ∀ conn d abbrv value, .query conn (.insert d abbrv value) ∈
      (Mysql.w1Logger s w1 params locked connects).2 → d.Is t
  mongo : ∀ s (w1 : DevList) params locked connects clock, w1.logtime = t →
    0 ≤ t → t < 2 ^ 63 / 1000 → ∀ conn collection id ms values,
      .insert conn collection (.readings id ms values) ∈
        (Mongo.w1Logger s w1 params locked connects clock).2 → ms = 1000 * t

/-! ## The text of a time -/

theorem showInt_eq (n : Int) : showInt n = (whole n).text := by
  have hrepr : showInt n = n.repr.toList := rfl
  rw [hrepr, Int.repr_eq_if]
  by_cases hn : 0 ≤ n
  · have habs : n.toNat = n.natAbs := by omega
    rw [if_pos hn, Nat.toList_repr, habs]
    simp [Numeral.text, whole, expText, hn]
  · have habs : (-n).toNat = n.natAbs := by omega
    rw [if_neg hn, String.toList_append, Nat.toList_repr, habs]
    simp [Numeral.text, whole, expText, not_le.mp hn]

theorem Stamp.is_seconds (t : Int) : (Stamp.seconds t).Is t :=
  ⟨t, rfl, showInt_eq t ▸ denotes_whole t⟩

/-! ## sqlite -/

section
variable {s : Sqlite.Statics} {w1 : DevList} {dbnam : CString} {a : Sqlite.Opening} {ok : Bool}
  {stmt : Option Sqlite.Stmt} {v : Sqlite.Value}

theorem sqlite_inserts_dates (h : .bind stmt 1 v ∈ Sqlite.inserts s w1) : v = s.date w1 := by
  unfold Sqlite.inserts at h
  by_cases hj : s.json = true
  · rw [if_pos hj] at h
    by_cases hl : w1.logged ≠ []
    · rw [if_pos hl] at h
      have hbind : stmt = s.stmt ∧ v = s.date w1 := by simpa using h
      exact hbind.2
    · rw [if_neg hl] at h
      simp at h
  · rw [if_neg hj] at h
    obtain ⟨e, -, hop⟩ := List.mem_flatMap.mp h
    have hbind : stmt = s.stmt ∧ v = s.date w1 := by simpa using hop
    exact hbind.2

theorem sqlite_openStatic_ops {op : Sqlite.Op} (h : op ∈ (Sqlite.openStatic s dbnam a).2) :
    ∃ db a, op = .openDb db a := by
  unfold Sqlite.openStatic at h
  by_cases hd : s.db = none
  · rw [if_pos hd] at h
    exact ⟨_, _, List.mem_singleton.mp h⟩
  · rw [if_neg hd] at h
    cases h

theorem sqlite_prepareStmt_ops {op : Sqlite.Op} (h : op ∈ (Sqlite.prepareStmt s ok).2) :
    ∃ db sql stmt, op = .prepare db sql stmt := by
  unfold Sqlite.prepareStmt at h
  by_cases hst : s.stmt = none
  · rw [if_pos hst] at h
    exact ⟨_, _, _, List.mem_singleton.mp h⟩
  · rw [if_neg hst] at h
    cases h

/-- The dates that sqlite is given in a pass. -/
theorem sqlite_dates {locked : Bool}
    (hts : (Sqlite.w1Logger s w1 dbnam locked a ok).1.tstamp = false)
    (h : .bind stmt 1 v ∈ (Sqlite.w1Logger s w1 dbnam locked a ok).2) :
    v = .int (wrapInt w1.logtime) := by
  unfold Sqlite.w1Logger at h hts
  cases locked with
  | true => cases h
  | false =>
    simp only [Bool.false_eq_true, if_false] at h hts
    simp only [List.mem_append, List.mem_singleton, reduceCtorEq, or_false] at h
    rcases h with (h | h) | h
    · obtain ⟨db, a, hop⟩ := sqlite_openStatic_ops h
      cases hop
    · obtain ⟨db, sql, stmt, hop⟩ := sqlite_prepareStmt_ops h
      cases hop
    · rw [sqlite_inserts_dates h, Sqlite.Statics.date, if_neg (by rw [hts]; decide)]

end

/-! ## The other loggers -/

theorem pgsql_inserts_dates {s : Pgsql.Statics} {db : Conn} {w1 : DevList} {op : Pgsql.Op}
    (h : op ∈ Pgsql.inserts s db w1) :
    (∃ table value, op = .insertInto db table (s.date w1) value) ∨
      ∃ rest, op = .execPrepared db s.stmt (.stamp (s.date w1) :: rest) := by
  unfold Pgsql.inserts at h
  by_cases hj : s.json = true
  · rw [if_pos hj] at h
    by_cases hl : w1.logged ≠ []
    · rw [if_pos hl] at h
      exact .inr ⟨_, List.mem_singleton.mp h⟩
    · rw [if_neg hl] at h
      cases h
  · rw [if_neg hj] at h
    obtain ⟨e, -, rfl⟩ := List.mem_map.mp h
    unfold Pgsql.insertOp
    split
    · exact .inl ⟨_, _, rfl⟩
    · exact .inr ⟨_, rfl⟩

theorem pgsql_prepareStmt_ops {s : Pgsql.Statics} {db : Conn} {ok : Bool} {op : Pgsql.Op}
    (h : op ∈ (Pgsql.prepareStmt s db ok).2) : ∃ db name sql ok, op = .prepare db name sql ok := by
  unfold Pgsql.prepareStmt at h
  by_cases hst : s.stmt = none
  · rw [if_pos hst] at h
    exact ⟨_, _, _, _, List.mem_singleton.mp h⟩
  · rw [if_neg hst] at h
    cases h

/-- The rows of a pass carry its date. -/
theorem pgsql_dates {s : Pgsql.Statics} {w1 : DevList} {dbnam : CString} {locked : Bool}
    {a : Pgsql.Answers} (hts : (Pgsql.w1Logger s w1 dbnam locked a).1.tstamp = false)
    {op : Pgsql.Op} (h : op ∈ (Pgsql.w1Logger s w1 dbnam locked a).2) :
    (∀ db name vs, op = .execPrepared db name vs →
      ∃ rest, vs = .stamp (.seconds w1.logtime) :: rest) ∧
      ∀ db table d value, op = .insertInto db table d value → d = .seconds w1.logtime := by
  cases locked with
  | true => cases h
  | false =>
    rw [(Pgsql.w1Logger_after s w1 dbnam a).2.1] at hts
    have hstatus : ∀ op ∈ (Pgsql.dbStatus s dbnam a).2,
        (∀ db name vs, op ≠ .execPrepared db name vs) ∧
          ∀ db table d value, op ≠ .insertInto db table d value := by
      intro op hop
      rcases Pgsql.dbStatus_ops hop with ⟨params, a, rfl⟩ | ⟨db, rfl⟩ | ⟨db, rfl⟩ <;> simp
    simp only [Pgsql.w1Logger, Bool.false_eq_true, if_false] at h
    cases hd : (Pgsql.dbStatus s dbnam a).1.db with
    | none =>
      simp only [hd] at h
      constructor
      · exact fun db name vs hop => absurd hop ((hstatus op h).1 db name vs)
      · exact fun db table d value hop => absurd hop ((hstatus op h).2 db table d value)
    | some db =>
      simp only [hd, List.mem_append, List.mem_singleton] at h
      rcases h with (((h | h) | rfl) | h) | rfl
      · constructor
        · exact fun db name vs hop => absurd hop ((hstatus op h).1 db name vs)
        · exact fun db table d value hop => absurd hop ((hstatus op h).2 db table d value)
      · obtain ⟨db, name, sql, ok, rfl⟩ := pgsql_prepareStmt_ops h
        simp
      · simp
      · have hdate : (Pgsql.prepareStmt (Pgsql.dbStatus s dbnam a).1 db a.prepares).1.date w1 =
            .seconds w1.logtime := by
          unfold Pgsql.prepareStmt
          split_ifs <;> exact if_neg (by rw [hts]; decide)
        rcases pgsql_inserts_dates h with ⟨table, value, rfl⟩ | ⟨rest, rfl⟩
        · rw [hdate]
          refine ⟨by simp, fun db table d value hop => ?_⟩
          cases hop
          rfl
        · rw [hdate]
          refine ⟨fun db name vs hop => ?_, by simp⟩
          cases hop
          exact ⟨rest, rfl⟩
      · simp

theorem mysql_dates {s : Mysql.Statics} {w1 : DevList} {params : CString} {locked connects : Bool}
    (hts : w1.timestamp = 0) {conn : Option Conn} {d : Stamp} {abbrv : Option CString}
    {value : Printed} (h : .query conn (.insert d abbrv value) ∈
      (Mysql.w1Logger s w1 params locked connects).2) : d = .seconds w1.logtime := by
  cases locked with
  | true => cases h
  | false =>
    simp only [Mysql.w1Logger, Bool.false_eq_true, if_false, Mysql.queries, List.mem_append,
      List.mem_singleton] at h
    rcases h with h | ((h | h) | h)
    · unfold Mysql.openStatic at h
      by_cases hc : s.conn = none
      · rw [if_pos hc] at h
        simp [Mysql.w1Opendb] at h
      · rw [if_neg hc] at h
        cases h
    · simp at h
    · obtain ⟨e, -, hop⟩ := List.mem_map.mp h
      have hdate : Mysql.date w1 = d := by
        simp only [Mysql.Op.query.injEq, Mysql.Query.insert.injEq] at hop
        exact hop.2.1
      rw [← hdate, Mysql.date, if_neg (not_not.mpr hts)]
    · simp at h

/-- Milliseconds fit into 64 bits. -/
theorem millis_eq {t : Int} (h : 0 ≤ t) (h' : t < 2 ^ 63 / 1000) : Mongo.millis t = 1000 * t := by
  have hlt : t * 1000 < 2 ^ 63 := by omega
  rw [Mongo.millis, Int.bmod_eq_of_le (by omega) (by omega), mul_comm]

theorem mongo_openStatic_ops {s : Mongo.Statics} {params : CString} {connects : Bool}
    {conn : Option Conn} {collection : CString} {doc : Mongo.Doc} :
    .insert conn collection doc ∉ (Mongo.openStatic s params connects).2 := by
  unfold Mongo.openStatic
  by_cases hc : s.conn = none
  · rw [if_pos hc]
    simp only [Mongo.w1Opendb, Mongo.mongoParams]
    rcases ((assignments params).foldl Mongo.Params.assign {}).rset with
      _ | ⟨setname, _ | ⟨hport, seeds⟩⟩
    · exact List.not_mem_nil
    · cases s.mkid <;> simp [Mongo.oidInit]
    · cases connects <;> cases setname <;> cases s.mkid <;> simp [Mongo.oidInit]
  · rw [if_neg hc]
    exact List.not_mem_nil

theorem mongo_dates {s : Mongo.Statics} {w1 : DevList} {params : CString} {locked connects : Bool}
    {clock : Mongo.Clock} {conn : Option Conn} {collection : CString} {id : Mongo.Oid} {ms : Int}
    {values : List (Option CString × ℚ)} (h : .insert conn collection (.readings id ms values) ∈
      (Mongo.w1Logger s w1 params locked connects clock).2) : ms = Mongo.millis w1.logtime := by
  cases locked with
  | true => cases h
  | false =>
    simp only [Mongo.w1Logger, Bool.false_eq_true, if_false] at h
    by_cases hended : (Mongo.openStatic s params connects).1.ended = true
    · rw [if_pos hended] at h
      exact absurd h mongo_openStatic_ops
    · rw [if_neg hended] at h
      by_cases hconn : (Mongo.openStatic s params connects).1.conn = none
      · rw [if_pos hconn] at h
        rcases List.mem_append.mp h with h | h
        · exact absurd h mongo_openStatic_ops
        · simp at h
      · rw [if_neg hconn] at h
        rcases List.mem_append.mp h with h | h
        · exact absurd h mongo_openStatic_ops
        · rcases List.mem_cons.mp h with h | h
          · cases h
          · by_cases hl : w1.logged ≠ []
            · rw [if_pos hl] at h
              have hdoc := List.mem_singleton.mp h
              simp only [Mongo.Op.insert.injEq, Mongo.Doc.readings.injEq] at hdoc
              exact hdoc.2.2.2.1
            · rw [if_neg hl] at h
              cases h

/-! ## The exact dates -/

/-- One reading at a time. -/
def readingAt (t : Int) : DevList := { readingsOf ["T0".toList] with logtime := t }

/-- What sqlite is given for it. -/
theorem sqlite_readingAt (t : Int) :
    let db : Conn := ⟨0, Sqlite.sensorsDb⟩
    let stmt : Sqlite.Stmt := ⟨1, db⟩
    (Sqlite.w1Logger {} (readingAt t) Sqlite.sensorsDb false Sqlite.plainTable true).2 =
      [.openDb db Sqlite.plainTable, .prepare db (Sqlite.insertSql false) stmt, .exec db "begin",
        .bind stmt 1 (.int (wrapInt t)), .bind stmt 2 (.text (some "T0".toList)),
        .bind stmt 3 (.real 21), .step stmt, .reset stmt, .exec db "commit"] := rfl

theorem sqlite_bind_readingAt (t : Int) :
    .bind (some ⟨1, ⟨0, Sqlite.sensorsDb⟩⟩) 1 (.int (wrapInt t)) ∈
      (Sqlite.w1Logger {} (readingAt t) Sqlite.sensorsDb false Sqlite.plainTable true).2 := by
  rw [sqlite_readingAt]
  simp

/-- Dates are exact as long as they fit into an `int`. -/
theorem dates_exact_iff (t : Int) : DatesExact t ↔ -2 ^ 31 ≤ t ∧ t < 2 ^ 31 := by
  rw [← wrapInt_eq_iff]
  constructor
  · intro h
    exact Sqlite.Value.int.inj
      (h.sqlite {} (readingAt t) _ _ _ _ rfl rfl _ _ (sqlite_bind_readingAt t))
  · intro h
    constructor
    case sqlite =>
      rintro s w1 dbnam locked a ok rfl hts stmt v hop
      rw [sqlite_dates hts hop, h]
    case pgsqlPrepared =>
      rintro s w1 dbnam locked a rfl hts db name vs hop
      obtain ⟨rest, hvs⟩ := (pgsql_dates hts hop).1 db name vs rfl
      exact ⟨_, rest, hvs, Stamp.is_seconds _⟩
    case pgsqlTable =>
      rintro s w1 dbnam locked a rfl hts db table d value hop
      rw [(pgsql_dates hts hop).2 db table d value rfl]
      exact Stamp.is_seconds _
    case mysql =>
      rintro s w1 params locked connects rfl hts conn d abbrv value hop
      rw [mysql_dates hts hop]
      exact Stamp.is_seconds _
    case mongo =>
      rintro s w1 params locked connects clock rfl hnonneg hlt conn collection id ms values hop
      rw [mongo_dates hop, millis_eq hnonneg hlt]

/-- In 2038 the dates of sqlite turn negative, and no others do. -/
theorem dates_wrap : ¬ DatesExact (2 ^ 31) ∧
    .bind (some ⟨1, ⟨0, Sqlite.sensorsDb⟩⟩) 1 (.int (-2 ^ 31)) ∈ (Sqlite.w1Logger {}
      (readingAt (2 ^ 31)) Sqlite.sensorsDb false Sqlite.plainTable true).2 ∧
    (Mysql.inserts none (readingAt (2 ^ 31)) =
      [.query none (.insert (.seconds (2 ^ 31)) (some "T0".toList) ⟨"%g", 21⟩)]) := by
  have hbind := sqlite_bind_readingAt (2 ^ 31)
  have hwrap : wrapInt (2 ^ 31) = -2 ^ 31 := by decide
  rw [hwrap] at hbind
  refine ⟨fun h => ?_, hbind, rfl⟩
  have hdate := h.sqlite {} (readingAt (2 ^ 31)) _ _ _ _ rfl rfl _ _ hbind
  exact absurd hdate (by decide)

end W1Retap

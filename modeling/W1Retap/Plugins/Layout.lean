import W1Retap.Plugins.Pgsql
import W1Retap.Plugins.Sqlite

/-!
# The layout of the rows

`json` and `tstamp` are set by every database that is opened, for `w1_init` or for logging,
and never cleared. They fit the database that `w1_logger` writes to when none of the
others has a flag that it lacks.
-/
namespace W1Retap

open Calls

/-- What the columns of `readings` ask for. -/
structure Layout where
  json : Bool
  tstamp : Bool
  deriving DecidableEq

/-- The second layout has the flags of the first. -/
def Layout.Within (f g : Layout) : Prop :=
  (f.json = true → g.json = true) ∧ (f.tstamp = true → g.tstamp = true)

section
variable {S C O : Type} {step : S → C → S × List O} {opens : S → C → List CString}
  {layout : S → Layout} {schema : CString → Layout} {s : S} {c : C} {pre : List C}

/-- The call sets the flags of the databases that it opens. -/
def SetsFlags (step : S → C → S × List O) (opens : S → C → List CString) (layout : S → Layout)
    (schema : CString → Layout) (c : C) : Prop :=
  ∀ s, (layout (step s c).1).json =
      ((layout s).json || (opens s c).any fun db => (schema db).json) ∧
    (layout (step s c).1).tstamp =
      ((layout s).tstamp || (opens s c).any fun db => (schema db).tstamp)

/-- From cleared flags the layout is that of one of the opened databases exactly when it has
the flags of the others. -/
theorem layout_eq_iff (h : ∀ c ∈ pre, SetsFlags step opens layout schema c)
    (hs : layout s = ⟨false, false⟩) {db : CString} (hdb : db ∈ eventsOf step opens s pre) :
    layout (final step s pre) = schema db ↔
      ∀ q ∈ eventsOf step opens s pre, (schema q).Within (schema db) := by
  have hj := final_or (s := s) opens (fun s => (layout s).json) (fun db => (schema db).json)
    fun c hc s => (h c hc s).1
  have ht := final_or (s := s) opens (fun s => (layout s).tstamp) (fun db => (schema db).tstamp)
    fun c hc s => (h c hc s).2
  simp only [hs, Bool.false_or] at hj ht
  have hext : layout (final step s pre) = schema db ↔
      (layout (final step s pre)).json = (schema db).json ∧
        (layout (final step s pre)).tstamp = (schema db).tstamp := by
    rw [← Layout.mk.injEq]
  rw [hext, hj, ht, any_eq_iff hdb fun db => (schema db).json,
    any_eq_iff hdb fun db => (schema db).tstamp]
  exact ⟨fun hboth q hq => ⟨hboth.1 q hq, hboth.2 q hq⟩,
    fun hboth => ⟨fun q hq => (hboth q hq).1, fun q hq => (hboth q hq).2⟩⟩

end

namespace Sqlite

/-- The databases that a call opens. -/
def Call.opens (s : Statics) : Call → List CString
  | .init dbnam _ => [dbnam]
  | .logger _ dbnam locked _ _ => if locked = false ∧ s.db = none then [dbnam] else []
  | .report _ lastmsg dbnam _ _ => if lastmsg.isSome ∧ s.db = none then [dbnam] else []
  | .cleanup => []

/-- The database that an unlocked `w1_logger` writes to. -/
def Call.logsTo (s : Statics) : Call → Option CString
  | .logger _ dbnam false a _ =>
    match s.db with
    | some db => some db.params
    | none => if a = .failed false then none else some dbnam
  | _ => none

/-- The call finds the databases as `schema` has them. -/
def Call.Finds (schema : CString → Opening) : Call → Prop
  | .init dbnam a => a = schema dbnam
  | .logger _ dbnam _ a _ => a = schema dbnam
  | .report _ _ dbnam a _ => a = schema dbnam
  | .cleanup => True

/-- The databases that a run opens. -/
def opened (cs : List Call) : List CString := eventsOf call Call.opens {} cs

def Statics.layout (s : Statics) : Layout := ⟨s.json, s.tstamp⟩

def Opening.layout (a : Opening) : Layout := ⟨a.json, a.tstamp⟩

variable {schema : CString → Opening} {s : Statics} {c : Call} {cs : List Call}

theorem openStatic_flags (s : Statics) (dbnam : CString) (a : Opening) :
    (openStatic s dbnam a).1.json = (s.json || (s.db = none && a.json)) ∧
      (openStatic s dbnam a).1.tstamp = (s.tstamp || (s.db = none && a.tstamp)) := by
  unfold openStatic
  cases s.db <;> simp [w1Opendb]

/-- The static handle was open before, or is opened with this name. -/
theorem openStatic_db {s : Statics} {dbnam : CString} {a : Opening} {db : Conn}
    (h : (openStatic s dbnam a).1.db = some db) :
    s.db = some db ∨ s.db = none ∧ db.params = dbnam := by
  unfold openStatic at h
  cases hd : s.db with
  | some d =>
    rw [if_neg (by simp [hd])] at h
    exact Or.inl (hd.symm.trans h)
  | none =>
    rw [if_pos hd] at h
    by_cases ha : a = .failed false
    · simp [w1Opendb, ha] at h
    · simp only [w1Opendb, if_neg ha, Option.some.injEq] at h
      exact Or.inr ⟨rfl, by rw [← h]⟩

theorem prepareStmt_flags (s : Statics) (ok : Bool) :
    (prepareStmt s ok).1.json = s.json ∧ (prepareStmt s ok).1.tstamp = s.tstamp ∧
      (prepareStmt s ok).1.db = s.db := by
  unfold prepareStmt
  split_ifs <;> exact ⟨rfl, rfl, rfl⟩

theorem prepareStml_flags (s : Statics) (ok : Bool) :
    (prepareStml s ok).1.json = s.json ∧ (prepareStml s ok).1.tstamp = s.tstamp ∧
      (prepareStml s ok).1.db = s.db := by
  unfold prepareStml
  split_ifs <;> exact ⟨rfl, rfl, rfl⟩

theorem setsFlags_call (h : c.Finds schema) :
    SetsFlags call Call.opens Statics.layout (fun db => (schema db).layout) c := by
  intro s
  simp only [Statics.layout, Opening.layout]
  cases c with
  | init dbnam a =>
    obtain rfl : a = schema dbnam := h
    simp [call, w1Init, w1Opendb, Call.opens]
  | logger w1 dbnam locked a ok =>
    obtain rfl : a = schema dbnam := h
    cases locked with
    | true => simp [call, w1Logger, Call.opens]
    | false =>
      obtain ⟨hj, ht, -⟩ := prepareStmt_flags (openStatic s dbnam (schema dbnam)).1 ok
      obtain ⟨hj', ht'⟩ := openStatic_flags s dbnam (schema dbnam)
      simp only [call, w1Logger, Bool.false_eq_true, if_false, hj, ht, hj', ht', Call.opens]
      cases s.db <;> simp
  | report w1 lastmsg dbnam a ok =>
    obtain rfl : a = schema dbnam := h
    cases lastmsg with
    | none => simp [call, w1Report, Call.opens]
    | some msg =>
      obtain ⟨hj, ht, -⟩ := prepareStml_flags (openStatic s dbnam (schema dbnam)).1 ok
      obtain ⟨hj', ht'⟩ := openStatic_flags s dbnam (schema dbnam)
      simp only [call, w1Report, hj, ht, hj', ht', Call.opens]
      cases s.db <;> simp
  | cleanup => cases hd : s.db <;> simp [call, w1Cleanup, Call.opens, hd]

theorem call_db {db : Conn} (s : Statics) (c : Call) (h : (call s c).1.db = some db) :
    s.db = some db ∨ db.params ∈ c.opens s := by
  cases c with
  | init dbnam a => exact Or.inl h
  | logger w1 dbnam locked a ok =>
    cases locked with
    | true => exact Or.inl h
    | false =>
      simp only [call, w1Logger, Bool.false_eq_true, if_false, (prepareStmt_flags _ ok).2.2] at h
      rcases openStatic_db h with hdb | ⟨hdb, hname⟩
      · exact Or.inl hdb
      · exact Or.inr (by simp [Call.opens, hdb, hname])
  | report w1 lastmsg dbnam a ok =>
    cases lastmsg with
    | none => exact Or.inl h
    | some msg =>
      simp only [call, w1Report, (prepareStml_flags _ ok).2.2] at h
      rcases openStatic_db h with hdb | ⟨hdb, hname⟩
      · exact Or.inl hdb
      · exact Or.inr (by simp [Call.opens, hdb, hname])
  | cleanup =>
    left
    cases hd : s.db with
    | none => simp [call, w1Cleanup, hd] at h
    | some d => simp [call, w1Cleanup, hd] at h

/-- A database that is logged to was opened. -/
theorem mem_opened {pre : List Call} {db : CString} (h : c.logsTo (final call {} pre) = some db) :
    db ∈ opened (pre ++ [c]) := by
  rw [opened, eventsOf_append, List.mem_append]
  have hstep : ∀ (s : Statics) (c : Call) (e : CString),
      (∃ d, (call s c).1.db = some d ∧ d.params = e) →
        (∃ d, s.db = some d ∧ d.params = e) ∨ e ∈ c.opens s := by
    rintro s c e ⟨d, hd, rfl⟩
    exact (call_db s c hd).imp_left fun hdb => ⟨d, hdb, rfl⟩
  cases c with
  | logger w1 dbnam locked a ok =>
    cases locked with
    | true => cases h
    | false =>
      simp only [Call.logsTo] at h
      cases hd : (final call {} pre).db with
      | some d =>
        rw [hd] at h
        obtain rfl := Option.some.inj h
        rcases final_holds Call.opens (fun s e => ∃ d, s.db = some d ∧ d.params = e) hstep
          ⟨d, hd, rfl⟩ with ⟨d', hd', -⟩ | hmem
        · cases hd'
        · exact Or.inl hmem
      | none =>
        rw [hd] at h
        right
        simp only at h
        split_ifs at h
        obtain rfl := Option.some.inj h
        simp [eventsOf, Call.opens, hd]
  | init dbnam a => cases h
  | report w1 lastmsg dbnam a ok => cases h
  | cleanup => cases h

/-- The layout in which `c` writes its rows, after the calls `pre`, is that of the database
that it writes to. -/
def RightLayout (schema : CString → Opening) (pre : List Call) (c : Call) : Prop :=
  ∀ db, c.logsTo (final call {} pre) = some db →
    (final call {} (pre ++ [c])).layout = (schema db).layout

/-- No database that was opened so far has a flag that the one of `c` lacks. -/
def Covered (schema : CString → Opening) (pre : List Call) (c : Call) : Prop :=
  ∀ db, c.logsTo (final call {} pre) = some db →
    ∀ q ∈ opened (pre ++ [c]), (schema q).layout.Within (schema db).layout

theorem rightLayout_iff {pre : List Call} (h : ∀ d ∈ pre ++ [c], d.Finds schema) :
    RightLayout schema pre c ↔ Covered schema pre c := by
  refine forall_congr' fun db => forall_congr' fun hdb => ?_
  exact layout_eq_iff (fun d hd => setsFlags_call (h d hd)) rfl (mem_opened hdb)

end Sqlite

namespace Pgsql

/-- The databases that a call opens, when their servers answer. -/
def Call.opens (s : Statics) : Call → List CString
  | .init dbnam a => if a.connecting = .failed then [] else [dbnam]
  | .logger _ dbnam locked a =>
    if locked = false ∧ s.db = none ∧ a.connecting ≠ .failed then [dbnam] else []
  | .report _ lastmsg dbnam a =>
    if lastmsg.isSome ∧ s.db = none ∧ a.connecting ≠ .failed then [dbnam] else []
  | .cleanup => []

def Call.logsTo (s : Statics) : Call → Option CString
  | .logger _ dbnam false a =>
    match s.db with
    | some db => some db.params
    | none => if a.connecting = .failed then none else some dbnam
  | _ => none

/-- The call finds the databases as `schema` has them, if it can connect. -/
def Call.Finds (schema : CString → Connecting) : Call → Prop
  | .init dbnam a => a.connecting = .failed ∨ a.connecting = schema dbnam
  | .logger _ dbnam _ a => a.connecting = .failed ∨ a.connecting = schema dbnam
  | .report _ _ dbnam a => a.connecting = .failed ∨ a.connecting = schema dbnam
  | .cleanup => True

def opened (cs : List Call) : List CString := eventsOf call Call.opens {} cs

def Statics.layout (s : Statics) : Layout := ⟨s.json, s.tstamp⟩

def Connecting.layout (a : Connecting) : Layout := ⟨a.json, a.tstamp⟩

variable {schema : CString → Connecting} {s : Statics} {c : Call} {cs : List Call}

/-- What `db_status` sets: the flags of a database that it connects to. -/
theorem dbStatus_layout (s : Statics) (dbnam : CString) (a : Answers) :
    (dbStatus s dbnam a).1.json = (s.json || (s.db = none && a.connecting.json)) ∧
      (dbStatus s dbnam a).1.tstamp = (s.tstamp || (s.db = none && a.connecting.tstamp)) := by
  unfold dbStatus
  cases hd : s.db with
  | none => by_cases ha : a.connecting = .failed <;> simp [w1Opendb, ha]
  | some db => by_cases hg : a.good = true <;> simp [hg]

/-- The connection was open before, or is opened with this name. -/
theorem dbStatus_db {dbnam : CString} {a : Answers} {db : Conn}
    (h : (dbStatus s dbnam a).1.db = some db) :
    s.db = some db ∨ s.db = none ∧ a.connecting ≠ .failed ∧ db.params = dbnam := by
  unfold dbStatus at h
  cases hd : s.db with
  | some d =>
    by_cases hg : a.good = true
    · simp only [hd, hg, if_true] at h
      exact Or.inl h
    · simp only [hd, hg, if_false, Bool.false_eq_true] at h
      exact Or.inl h
  | none =>
    by_cases ha : a.connecting = .failed
    · simp [hd, w1Opendb, ha] at h
    · simp only [hd, w1Opendb, if_neg ha, Option.some.injEq] at h
      exact Or.inr ⟨rfl, ha, by rw [← h]⟩

/-- A database that cannot be reached sets nothing. -/
theorem dbStatus_sets (s : Statics) {dbnam : CString} {a : Answers}
    (ha : a.connecting = .failed ∨ a.connecting = schema dbnam) :
    let opens := if s.db = none ∧ a.connecting ≠ .failed then [dbnam] else []
    (dbStatus s dbnam a).1.layout.json =
        (s.layout.json || opens.any fun db => (schema db).layout.json) ∧
      (dbStatus s dbnam a).1.layout.tstamp =
        (s.layout.tstamp || opens.any fun db => (schema db).layout.tstamp) := by
  obtain ⟨hj, ht⟩ := dbStatus_layout s dbnam a
  simp only [Statics.layout, hj, ht, Connecting.layout]
  by_cases hfail : a.connecting = .failed
  · simp [hfail, Connecting.json, Connecting.tstamp]
  · have hfind := ha.resolve_left hfail
    cases s.db <;> simp [hfail, ← hfind]

theorem setsFlags_call (h : c.Finds schema) :
    SetsFlags call Call.opens Statics.layout (fun db => (schema db).layout) c := by
  intro s
  cases c with
  | init dbnam a =>
    rcases h with ha | ha
    · simp [call, w1Init, w1Opendb, Call.opens, Statics.layout, ha, Connecting.json, Connecting.tstamp]
    · by_cases hfail : a.connecting = .failed
      · simp [call, w1Init, w1Opendb, Call.opens, Statics.layout, hfail, Connecting.json,
          Connecting.tstamp]
      · simp [call, w1Init, w1Opendb, Call.opens, Statics.layout, hfail, ← ha, Connecting.layout]
  | logger w1 dbnam locked a =>
    cases locked with
    | true => simp [call, w1Logger, Call.opens]
    | false =>
      have hsets := dbStatus_sets s h
      obtain ⟨hj, ht, -⟩ := w1Logger_after s w1 dbnam a
      have hlayout : (w1Logger s w1 dbnam false a).1.layout = (dbStatus s dbnam a).1.layout := by
        simp only [Statics.layout, hj, ht]
      rw [← hlayout] at hsets
      simpa [call, Call.opens] using hsets
  | report w1 lastmsg dbnam a =>
    cases lastmsg with
    | none => simp [call, w1Report, Call.opens]
    | some msg =>
      have hsets := dbStatus_sets s h
      obtain ⟨hj, ht, -⟩ := w1Report_after s w1 msg dbnam a
      have hlayout : (w1Report s w1 (some msg) dbnam a).1.layout = (dbStatus s dbnam a).1.layout := by
        simp only [Statics.layout, hj, ht]
      rw [← hlayout] at hsets
      simpa [call, Call.opens] using hsets
  | cleanup => cases hd : s.db <;> simp [call, w1Cleanup, Call.opens, hd, Statics.layout]

theorem call_db {db : Conn} (s : Statics) (c : Call) (h : (call s c).1.db = some db) :
    s.db = some db ∨ db.params ∈ c.opens s := by
  cases c with
  | init dbnam a =>
    left
    by_cases ha : a.connecting = .failed <;> simpa [call, w1Init, w1Opendb, ha] using h
  | logger w1 dbnam locked a =>
    cases locked with
    | true => exact Or.inl h
    | false =>
      simp only [call, (w1Logger_after s w1 dbnam a).2.2] at h
      rcases dbStatus_db h with hdb | ⟨hdb, ha, hname⟩
      · exact Or.inl hdb
      · exact Or.inr (by simp [Call.opens, hdb, ha, hname])
  | report w1 lastmsg dbnam a =>
    cases lastmsg with
    | none => exact Or.inl h
    | some msg =>
      simp only [call, (w1Report_after s w1 msg dbnam a).2.2] at h
      rcases dbStatus_db h with hdb | ⟨hdb, ha, hname⟩
      · exact Or.inl hdb
      · exact Or.inr (by simp [Call.opens, hdb, ha, hname])
  | cleanup =>
    left
    cases hd : s.db with
    | none => simp [call, w1Cleanup, hd] at h
    | some d => simp [call, w1Cleanup, hd] at h

theorem mem_opened {pre : List Call} {db : CString} (h : c.logsTo (final call {} pre) = some db) :
    db ∈ opened (pre ++ [c]) := by
  rw [opened, eventsOf_append, List.mem_append]
  have hstep : ∀ (s : Statics) (c : Call) (e : CString),
      (∃ d, (call s c).1.db = some d ∧ d.params = e) →
        (∃ d, s.db = some d ∧ d.params = e) ∨ e ∈ c.opens s := by
    rintro s c e ⟨d, hd, rfl⟩
    exact (call_db s c hd).imp_left fun hdb => ⟨d, hdb, rfl⟩
  cases c with
  | logger w1 dbnam locked a =>
    cases locked with
    | true => cases h
    | false =>
      simp only [Call.logsTo] at h
      cases hd : (final call {} pre).db with
      | some d =>
        rw [hd] at h
        obtain rfl := Option.some.inj h
        rcases final_holds Call.opens (fun s e => ∃ d, s.db = some d ∧ d.params = e) hstep
          ⟨d, hd, rfl⟩ with ⟨d', hd', -⟩ | hmem
        · cases hd'
        · exact Or.inl hmem
      | none =>
        rw [hd] at h
        right
        simp only at h
        split_ifs at h with ha
        obtain rfl := Option.some.inj h
        simp [eventsOf, Call.opens, hd, ha]
  | init dbnam a => cases h
  | report w1 lastmsg dbnam a => cases h
  | cleanup => cases h

def RightLayout (schema : CString → Connecting) (pre : List Call) (c : Call) : Prop :=
  ∀ db, c.logsTo (final call {} pre) = some db →
    (final call {} (pre ++ [c])).layout = (schema db).layout

def Covered (schema : CString → Connecting) (pre : List Call) (c : Call) : Prop :=
  ∀ db, c.logsTo (final call {} pre) = some db →
    ∀ q ∈ opened (pre ++ [c]), (schema q).layout.Within (schema db).layout

theorem rightLayout_iff {pre : List Call} (h : ∀ d ∈ pre ++ [c], d.Finds schema) :
    RightLayout schema pre c ↔ Covered schema pre c := by
  refine forall_congr' fun db => forall_congr' fun hdb => ?_
  exact layout_eq_iff (fun d hd => setsFlags_call (h d hd)) rfl (mem_opened hdb)

end Pgsql

/-- In a run of sqlite, and in one of PostgreSQL, all passes have the layout of the database
that they write to exactly when none of the databases that were opened before them has a
flag that it lacks. -/
theorem layouts_right_iff {schema : CString → Sqlite.Opening} {cs : List Sqlite.Call}
    (h : ∀ c ∈ cs, c.Finds schema) {schema' : CString → Pgsql.Connecting} {cs' : List Pgsql.Call}
    (h' : ∀ c ∈ cs', c.Finds schema') :
    ((∀ pre c post, cs = pre ++ c :: post → Sqlite.RightLayout schema pre c) ↔
      ∀ pre c post, cs = pre ++ c :: post → Sqlite.Covered schema pre c) ∧
    ((∀ pre c post, cs' = pre ++ c :: post → Pgsql.RightLayout schema' pre c) ↔
      ∀ pre c post, cs' = pre ++ c :: post → Pgsql.Covered schema' pre c) := by
  constructor
  · refine forall_congr' fun pre => forall_congr' fun c => forall_congr' fun post =>
      forall_congr' fun hcs => Sqlite.rightLayout_iff fun d hd => h d ?_
    rw [hcs, List.append_cons]
    exact List.mem_append_left post hd
  · refine forall_congr' fun pre => forall_congr' fun c => forall_congr' fun post =>
      forall_congr' fun hcs => Pgsql.rightLayout_iff fun d hd => h' d ?_
    rw [hcs, List.append_cons]
    exact List.mem_append_left post hd

/-- A wide table with timestamps next to the narrow one of `sensorsDb`. -/
def twoTables (db : CString) : Sqlite.Opening :=
  if db = Sqlite.sensorsDb then Sqlite.plainTable
  else .opened (some "timestamp".toList) (some "text".toList)

/-- The devices are read from the narrow database and the rows go to the wide one. -/
theorem layouts_right_wide :
    let cs : List Sqlite.Call := [.init Sqlite.sensorsDb (twoTables Sqlite.sensorsDb),
      .logger (readingsOf ["GHT".toList]) "wx.db".toList false (twoTables "wx.db".toList) true]
    let cs' : List Pgsql.Call := [.init Pgsql.weather ⟨Pgsql.narrowTable, true, true⟩,
      .logger (readingsOf ["GHT".toList]) Pgsql.weather false ⟨Pgsql.narrowTable, true, true⟩]
    ((∀ pre c post, cs = pre ++ c :: post → Sqlite.RightLayout twoTables pre c) ↔
      ∀ pre c post, cs = pre ++ c :: post → Sqlite.Covered twoTables pre c) ∧
    ((∀ pre c post, cs' = pre ++ c :: post → Pgsql.RightLayout (fun _ => Pgsql.narrowTable) pre c) ↔
      ∀ pre c post, cs' = pre ++ c :: post → Pgsql.Covered (fun _ => Pgsql.narrowTable) pre c) :=
  layouts_right_iff (by simp [Sqlite.Call.Finds]) (by simp [Pgsql.Call.Finds])

/-- The other way round the rows for the narrow table are made for the wide one. -/
theorem layouts_right_narrow :
    ¬ Sqlite.RightLayout twoTables [.init "wx.db".toList (twoTables "wx.db".toList)]
      (.logger (readingsOf ["GHT".toList]) Sqlite.sensorsDb false (twoTables Sqlite.sensorsDb)
        true) := by
  intro h
  have hright := h Sqlite.sensorsDb (by decide +kernel)
  revert hright
  decide +kernel

end W1Retap
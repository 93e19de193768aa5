import W1Retap.Plugins.Odbc
import W1Retap.Support.Words

/-!
# What ODBC inserts

`SQLBindParameter` is given pointers. The variables behind them are read when `SQLExecute` runs,
with the type and the length that the parameter then has. Memory is that of a machine with
64-bit words, least significant byte first.
-/
namespace W1Retap.Odbc

open CStrings Words

/-! ## Memory -/

/-- `struct tm`, as `localtime` fills it. -/
structure Tm where
  year : Int
  mon : Int
  mday : Int
  hour : Int
  min : Int
  sec : Int
  deriving DecidableEq, Repr

/-- The bytes of an integer of `k` bytes. -/
def intBytes (k : ℕ) (n : Int) : List UInt8 := leBytes k (n % 256 ^ k).toNat

/-- The `SQL_TIMESTAMP_STRUCT` that is made of it. -/
def Tm.sqlts (tm : Tm) : List UInt8 :=
  intBytes 2 (tm.year + 1900) ++ intBytes 2 (tm.mon + 1) ++ intBytes 2 tm.mday ++
    intBytes 2 tm.hour ++ intBytes 2 tm.min ++ intBytes 2 tm.sec ++ intBytes 4 0

/-- The C types of the parameters. -/
inductive ValueType where
  | long | timestamp | char | float
  deriving DecidableEq, Repr

/-- The variables that are bound. -/
inductive Var where
  | logtime
  | sqlts
  | abbrv (e : Logged)
  | value (e : Logged)
  deriving DecidableEq, Repr

/-- What a parameter becomes in the row. -/
inductive Datum where
  | int (n : Int)
  | timestamp (bytes : List UInt8)
  | text (bytes : List UInt8)
  | real (x : Option ℚ)
  deriving DecidableEq, Repr

structure Row where
  date : Datum
  name : Datum
  value : Datum
  deriving DecidableEq, Repr

/-- The variables of the loop, and the parameters of the statement. All three have `psz` as
their length. -/
structure Frame where
  psz : ℕ := 0
  sqlts : List UInt8 := []
  params : ℕ → Option (ValueType × Var) := fun _ => none

/-- `SQLBindParameter` -/
def Frame.bindParameter (f : Frame) (n : ℕ) (type : ValueType) (var : Var) : Frame :=
  { f with params := Function.update f.params n (some (type, var)) }

/-- The bytes from a variable on. What follows a string is not known. -/
def Frame.memory (f : Frame) (w1 : DevList) : Var → List UInt8
  | .logtime => intBytes 8 w1.logtime
  | .sqlts => f.sqlts
  | .abbrv e => bytes (e.abbrv.getD []) ++ [0]
  | .value e => leBytes 8 (double.encode e.value)

/-- How many bytes are read. -/
def ValueType.size (psz : ℕ) : ValueType → ℕ
  | .long => 4
  | .timestamp => 16
  | .char => psz
  | .float => 4

def ValueType.datum (bs : List UInt8) : ValueType → Datum
  | .long => .int (wrapInt (leVal bs))
  | .timestamp => .timestamp bs
  | .char => .text bs
  | .float => .real (single.decode (leVal bs))

def Frame.read (f : Frame) (w1 : DevList) (n : ℕ) : Except Stop Datum :=
  match f.params n with
  | none => .error .nullDeref
  | some (type, var) =>
    let mem := f.memory w1 var
    if type.size f.psz ≤ mem.length then .ok (type.datum (mem.take (type.size f.psz)))
    else .error .outOfBounds

/-- `SQLExecute` -/
def Frame.execute (f : Frame) (w1 : DevList) : Except Stop Row := do
  return ⟨← f.read w1 1, ← f.read w1 2, ← f.read w1 3⟩

def strlen : Option CString → Except Stop ℕ
  | none => .error .nullDeref
  | some s => .ok (bytes s).length

/-! ## The loop of `w1_logger` -/

section
variable (localtime : Int → Tm)

/-- The body of the loop, for a valid sensor. -/
def logSensor (w1 : DevList) (f : Frame) (e : Logged) : Except Stop (Row × Frame) := do
  let f : Frame :=
    if w1.timestamp ≠ 0 then
      ({ f with sqlts := (localtime w1.logtime).sqlts, psz := 16 } : Frame).bindParameter
        1 .timestamp .sqlts
    else ({ f with psz := 8 } : Frame).bindParameter 1 .long .logtime
  let psz ← strlen e.abbrv
  let f := ({ f with psz } : Frame).bindParameter 2 .char (.abbrv e)
  let f := ({ f with psz := 4 } : Frame).bindParameter 3 .float (.value e)
  return (← f.execute w1, f)

def logSensors (w1 : DevList) : Frame → List Logged → Except Stop (List Row)
  | _, [] => .ok []
  | f, e :: es => do
    let (row, f) ← logSensor localtime w1 f e
    return row :: (← logSensors w1 f es)

/-- The rows that a pass inserts. -/
def rows (w1 : DevList) : Except Stop (List Row) := logSensors localtime w1 {} w1.logged

def stampDatum : Stamp → Datum
  | .seconds t => .int t
  | .text _ _ t => .timestamp (localtime t).sqlts

/-- The row that an execution is meant to insert. -/
def Op.meant : Op → Option Row
  | .execute _ date abbrv value =>
    some ⟨stampDatum localtime date, .text (bytes (abbrv.getD [])), .real (some value)⟩
  | _ => none

/-- Each execution inserts what its variables hold. -/
def Faithful (w1 : DevList) : Prop :=
  rows localtime w1 = .ok ((inserts none w1).filterMap (Op.meant localtime))

/-! ## One execution -/

/-- The date that is read, in four bytes if it is a number. -/
def dateRead (w1 : DevList) : Datum :=
  if w1.timestamp ≠ 0 then .timestamp (localtime w1.logtime).sqlts else .int (wrapInt w1.logtime)

/-- What an execution inserts: each length is that of a float. -/
def inserted (w1 : DevList) (e : Logged) : Except Stop Row :=
  match e.abbrv with
  | none => .error .nullDeref
  | some a =>
    if 3 ≤ (bytes a).length then
      .ok ⟨dateRead localtime w1, .text ((bytes a ++ [0]).take 4),
        .real (single.decode (double.encode e.value % 2 ^ 32))⟩
    else .error .outOfBounds

theorem length_sqlts (tm : Tm) : tm.sqlts.length = 16 := by
  simp [Tm.sqlts, intBytes]

theorem wrapInt_low (t : Int) : wrapInt (leVal ((intBytes 8 t).take 4)) = wrapInt t := by
  rw [intBytes, take_leBytes (by norm_num), leVal_leBytes, wrapInt, wrapInt]
  have hmod : (((t % 256 ^ 8).toNat % 256 ^ 4 : ℕ) : Int) = t % 2 ^ 32 := by omega
  rw [hmod]
  exact_mod_cast Int.emod_bmod (x := t) (n := 2 ^ 32)

/-- The three parameters, as they are when the statement is executed. -/
theorem execute_bound {w1 : DevList} {f : Frame} {e : Logged} {a : CString} (ha : e.abbrv = some a)
    (hpsz : f.psz = 4) (hname : f.params 2 = some (.char, .abbrv e))
    (hvalue : f.params 3 = some (.float, .value e))
    (hdate : f.read w1 1 = .ok (dateRead localtime w1)) :
    f.execute w1 = inserted localtime w1 e := by
  have hmemory : f.memory w1 (.abbrv e) = bytes a ++ [0] := by rw [Frame.memory, ha, Option.getD_some]
  have hreal : f.read w1 3 = .ok (.real (single.decode (double.encode e.value % 2 ^ 32))) := by
    have hlow : leVal ((leBytes 8 (double.encode e.value)).take 4) =
        double.encode e.value % 2 ^ 32 := by
      rw [take_leBytes (by norm_num), leVal_leBytes]
      norm_num
    rw [Frame.read, hvalue]
    simp [ValueType.size, Frame.memory, ValueType.datum, hlow]
  rw [Frame.execute, hdate, hreal, inserted, ha, Frame.read, hname]
  simp only [ValueType.size, hpsz, hmemory, List.length_append, List.length_singleton]
  by_cases hlen : 3 ≤ (bytes a).length
  · rw [if_pos (by omega)]
    simp [hlen, ValueType.datum]
    rfl
  · rw [if_neg (by omega)]
    simp [hlen]
    rfl

theorem map_fst_bind {ε α β : Type} (x : Except ε α) (b : β) :
    (x >>= fun a => pure (a, b)).map Prod.fst = x := by
  cases x <;> rfl

theorem read_sqlts {w1 : DevList} {f : Frame} {tm : Tm}
    (hparam : f.params 1 = some (.timestamp, .sqlts)) (hsqlts : f.sqlts = tm.sqlts) : f.read w1 1 = .ok (.timestamp tm.sqlts) := by
  have hlen := length_sqlts tm
  rw [Frame.read, hparam]
  simp only [ValueType.size, Frame.memory, hsqlts, hlen, le_refl, if_true, ValueType.datum]
  rw [← hlen, List.take_length]

theorem read_logtime {w1 : DevList} {f : Frame} (hparam : f.params 1 = some (.long, .logtime)) :
    f.read w1 1 = .ok (.int (wrapInt w1.logtime)) := by
  have hlen : 4 ≤ (intBytes 8 w1.logtime).length := by simp [intBytes]
  rw [Frame.read, hparam]
  simp only [ValueType.size, Frame.memory, if_pos hlen, ValueType.datum, wrapInt_low]

/-- The row does not depend on what the parameters were before. -/
theorem logSensor_fst (w1 : DevList) (f : Frame) (e : Logged) :
    (logSensor localtime w1 f e).map Prod.fst = inserted localtime w1 e := by
  cases ha : e.abbrv with
  | none =>
    rw [logSensor, inserted, ha]
    rfl
  | some a =>
    rw [logSensor, ha]
    by_cases hts : w1.timestamp ≠ 0
    · rw [if_pos hts]
      refine (map_fst_bind _ _).trans (execute_bound localtime ha rfl rfl rfl ?_)
      rw [dateRead, if_pos hts]
      exact read_sqlts rfl rfl
    · rw [if_neg hts]
      refine (map_fst_bind _ _).trans (execute_bound localtime ha rfl rfl rfl ?_)
      rw [dateRead, if_neg hts]
      exact read_logtime rfl

theorem logSensors_eq (w1 : DevList) (f : Frame) (es : List Logged) :
    logSensors localtime w1 f es = es.mapM (inserted localtime w1) := by
  induction es generalizing f with
  | nil => rfl
  | cons e es ih =>
    have hfst := logSensor_fst localtime w1 f e
    rw [logSensors, List.mapM_cons, ← hfst]
    cases logSensor localtime w1 f e with
    | error stop => rfl
    | ok r =>
      obtain ⟨row, f⟩ := r
      simp [ih, Except.map, bind, Except.bind]

/-- A loop that does not fail. -/
theorem mapM_eq_ok_iff {ε α β : Type} {f : α → Except ε β} {g : α → β} {l : List α} :
    l.mapM f = .ok (l.map g) ↔ ∀ a ∈ l, f a = .ok (g a) := by
  induction l with
  | nil => simp [pure, Except.pure]
  | cons a l ih =>
    rw [List.mapM_cons, List.map_cons, List.forall_mem_cons, ← ih]
    cases hf : f a with
    | error stop => simp [bind, Except.bind]
    | ok b =>
      cases hl : l.mapM f with
      | error stop => simp [bind, Except.bind]
      | ok bs => simp [bind, Except.bind, pure, Except.pure]

/-! ## The rows of a pass -/

/-- The conditions under which an execution inserts what it should. -/
def Fits (w1 : DevList) (e : Logged) : Prop :=
  (w1.timestamp ≠ 0 ∨ -2 ^ 31 ≤ w1.logtime ∧ w1.logtime < 2 ^ 31) ∧
    (∃ a, e.abbrv = some a ∧ (bytes a).length = 4) ∧ e.value = 0

/-- The row that a sensor should have. -/
def rowOf (w1 : DevList) (e : Logged) : Row :=
  ⟨stampDatum localtime (date w1), .text (bytes (e.abbrv.getD [])), .real (some e.value)⟩

theorem dateRead_eq_iff (w1 : DevList) : dateRead localtime w1 = stampDatum localtime (date w1) ↔
    w1.timestamp ≠ 0 ∨ -2 ^ 31 ≤ w1.logtime ∧ w1.logtime < 2 ^ 31 := by
  rw [dateRead, date]
  by_cases hts : w1.timestamp ≠ 0
  · rw [if_pos hts, if_pos hts]
    exact iff_of_true rfl (Or.inl hts)
  · rw [if_neg hts, if_neg hts, stampDatum, Datum.int.injEq, wrapInt_eq_iff, or_iff_right hts]

/-- Four bytes of a string are all of it. -/
theorem take_four_iff (bs : List UInt8) (h : 3 ≤ bs.length) :
    (bs ++ [0]).take 4 = bs ↔ bs.length = 4 := by
  constructor
  · intro heq
    have hlen := congrArg List.length heq
    rw [List.length_take, List.length_append, List.length_singleton] at hlen
    omega
  · intro hlen
    rw [← hlen, List.take_left]

theorem inserted_eq_iff {w1 : DevList} {e : Logged} (h : single.Has e.value) :
    inserted localtime w1 e = .ok (rowOf localtime w1 e) ↔ Fits w1 e := by
  cases ha : e.abbrv with
  | none => simp [inserted, Fits, ha]
  | some a =>
    rw [inserted, ha]
    by_cases hlen : 3 ≤ (bytes a).length
    · simp only [if_pos hlen, rowOf, ha, Option.getD_some, Except.ok.injEq, Row.mk.injEq,
        dateRead_eq_iff, Datum.text.injEq, Datum.real.injEq, take_four_iff _ hlen, decode_low_iff h,
        Fits, Option.some.injEq, exists_eq_left']
    · simp only [if_neg hlen, Fits, ha, Option.some.injEq, exists_eq_left', reduceCtorEq, false_iff]
      omega

/-- The rows are right if and only if every sensor has an abbreviation of four bytes and the
value zero, and the time is a timestamp or fits into four bytes. -/
theorem odbc_rows_iff (w1 : DevList) (h : ∀ e ∈ w1.logged, single.Has e.value) :
    Faithful localtime w1 ↔ ∀ e ∈ w1.logged, Fits w1 e := by
  have hmeant : (inserts none w1).filterMap (Op.meant localtime) =
      w1.logged.map (rowOf localtime w1) := by
    rw [inserts, List.filterMap_map, ← List.filterMap_eq_map]
    rfl
  rw [Faithful, hmeant, rows, logSensors_eq, mapM_eq_ok_iff]
  exact forall₂_congr fun e he => inserted_eq_iff localtime (h e he)

end

/-- One reading. -/
def reading (abbrv : CString) (value : ℚ) : DevList where
  devs := [{ init := 1, stype := .temp, s := [{ abbrv := some abbrv, value, valid := true }]
             ns := 1, ns_le := Nat.one_pos }]

/-- `localtime` at the start of 1970. -/
def epoch : Tm := ⟨70, 0, 1, 0, 0, 0⟩

/-- A value of zero under a name of four bytes. -/
theorem odbc_rows_zero : (∀ e ∈ (reading "RAIN".toList 0).logged, single.Has e.value) ∧
    Faithful (fun _ => epoch) (reading "RAIN".toList 0) := by
  have hlogged : (reading "RAIN".toList 0).logged = [⟨.temp, some "RAIN".toList, 0, none⟩] := rfl
  have hhas : ∀ e ∈ (reading "RAIN".toList 0).logged, single.Has e.value := by
    intro e he
    rw [hlogged, List.mem_singleton] at he
    rw [he]
    exact ⟨0, 0, by decide, by decide, by decide, by simp⟩
  refine ⟨hhas, (odbc_rows_iff _ _ hhas).mpr ?_⟩
  intro e he
  rw [hlogged, List.mem_singleton] at he
  rw [he]
  exact ⟨Or.inr (by decide), ⟨_, rfl, by decide⟩, rfl⟩

/-- A temperature loses the end of its name, and its value. -/
theorem odbc_rows_wrong : ¬ Faithful (fun _ => epoch) (reading "TEMP_1".toList 21) ∧
    rows (fun _ => epoch) (reading "TEMP_1".toList 21) =
      .ok [⟨.int 0, .text (bytes "TEMP".toList), .real (some 0)⟩] := by
  unfold Faithful
  decide +kernel

end W1Retap.Odbc

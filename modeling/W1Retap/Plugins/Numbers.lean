import W1Retap.Plugins.Mysql
import W1Retap.Plugins.Pgsql
import W1Retap.Plugins.Sqlite
import W1Retap.Plugins.TextLoggers
import W1Retap.Support.Printf

/-!
# The numbers of a counter

Each logger prints a value with a conversion of its own. Counters are printed as whole
numbers where a logger knows that the device is a counter, with a fixed number of places by
the loggers that write text, and with `%g` in the queries of MySQL.
-/
namespace W1Retap

open Printf

/-- The text that `printf` makes. -/
def Printed.text (p : Printed) : CString :=
  match p.format with
  | "%g" => (general p.value).text
  | "%.0f" => (fixed 0 p.value).text
  | _ => (fixed 6 p.value).text

/-- The formats with the conversion of `printf` for numbers. -/
def Formats.withPrintf (fmt : Formats) : Formats := { fmt with fixed := fun n x => (Printf.fixed n x).text }

/-- What a logger prints for a sensor. -/
def TextLogger.line (logger : TextLogger) (fmt : Formats) (timb : CString) (w1 : DevList) :
    Sensor → CString :=
  match logger with
  | .file => w1fileLine fmt timb w1
  | .csv => w1csvLine fmt
  | .xml => w1xmlLine fmt
  | .tmpfile => tmpfileLine fmt

/-- How many places a logger prints. -/
def TextLogger.places : TextLogger → ℕ
  | .file | .csv => 6
  | .xml => 4
  | .tmpfile => 2

/-- A counter with this value. -/
def Logged.counts (n : UInt32) (e : Logged) : Prop := e.stype = .counter ∧ e.value = n.toNat

/-- The number that each logger writes for a counter with value `n` denotes `n`. -/
structure CounterKept (n : UInt32) : Prop where
  mysql : ∀ conn w1, List.Forall₂ (fun e op => e.counts n → ∃ p,
      op = .query conn (.insert (Mysql.date w1) e.abbrv p) ∧ Denotes p.text n.toNat)
    w1.logged (Mysql.inserts conn w1)
  pgsqlRows : ∀ s db w1, s.json = false → List.Forall₂ (fun e op => e.counts n → ∃ p,
      ((∃ table, op = .insertInto db table (s.date w1) p) ∨
        op = .execPrepared db s.stmt [.stamp (s.date w1), .text e.abbrv, .printed p]) ∧
      Denotes p.text n.toNat) w1.logged (Pgsql.inserts s db w1)
  pgsqlJson : ∀ s db w1, s.json = true → w1.logged ≠ [] →
    Pgsql.inserts s db w1 = [.execPrepared db s.stmt [.stamp (s.date w1), .wxdata w1.wxdata]]
  sqliteRows : ∀ s w1, s.json = false → ∃ rows, Sqlite.inserts s w1 = rows.flatten ∧
    List.Forall₂ (fun e row => e.counts n → row = [.bind s.stmt 1 (s.date w1),
      .bind s.stmt 2 (.text e.abbrv), .bind s.stmt 3 (.real n.toNat), .step s.stmt, .reset s.stmt])
      w1.logged rows
  sqliteJson : ∀ s w1, s.json = true → w1.logged ≠ [] → Sqlite.inserts s w1 =
    [.bind s.stmt 1 (s.date w1), .bind s.stmt 2 (.wxdata w1.wxdata), .step s.stmt, .reset s.stmt]
  json : ∀ w1 : DevList, List.Forall₂ (fun e m => e.counts n → m.1 = e.abbrv ∧
    Denotes m.2.text n.toNat) w1.logged w1.wxdata
  text : ∀ (logger : TextLogger) (fmt : Formats) timb w1 (x : Sensor), x.value = n.toNat →
    ∃ before num after, logger.line fmt.withPrintf timb w1 x = before ++ num ++ after ∧
      num = (fixed logger.places x.value).text ∧ Denotes num n.toNat

/-! ## Whole numbers and fixed places -/

theorem denotes_fixed_nat (p n : ℕ) : Denotes (fixed p n).text n := by
  have h := denotes_fixed p n
  rwa [roundTo_nat] at h

theorem Logged.counts.printed {n : UInt32} {e : Logged} (h : e.counts n) :
    Denotes e.printed.text n.toNat := by
  rw [Logged.printed, if_pos (Or.inl h.1), h.2]
  exact denotes_fixed_nat 0 n.toNat

theorem forall₂_map_right {α β : Type} {R : α → β → Prop} {l : List α} {f : α → β}
    (h : ∀ a ∈ l, R a (f a)) : List.Forall₂ R l (l.map f) := by
  rw [List.forall₂_map_right_iff]
  exact List.forall₂_same.mpr h

/-- What a logger prints around the number. -/
theorem line_split (logger : TextLogger) (fmt : Formats) (timb : CString) (w1 : DevList) (x : Sensor) :
    ∃ before after, logger.line fmt.withPrintf timb w1 x =
      before ++ (fixed logger.places x.value).text ++ after := by
  cases logger with
  | file =>
    refine ⟨timb ++ [w1.logDelim] ++ showStr x.abbrv ++ [w1.logDelim], [w1.logDelim] ++ x.units.getD [] ++
      (if w1.logTimet then [w1.logDelim] ++ showInt w1.logtime else []) ++ ['\n'], ?_⟩
    simp only [TextLogger.line, w1fileLine, Formats.withPrintf, TextLogger.places, List.append_assoc]
  | csv =>
    refine ⟨",\"".toList ++ showStr x.abbrv ++ "\",".toList, ",\"".toList ++ x.units.getD [] ++ ['"'], ?_⟩
    simp only [TextLogger.line, w1csvLine, Formats.withPrintf, TextLogger.places, List.append_assoc]
  | xml =>
    have hassoc : ∀ a b c d e : CString, a ++ b ++ c ++ d ++ e = a ++ b ++ (c ++ d ++ e) := by simp
    exact ⟨_, _, hassoc _ _ _ _ _⟩
  | tmpfile =>
    refine ⟨showStr x.abbrv ++ ['='], [' '] ++ x.units.getD [] ++ ['\n'], ?_⟩
    simp only [TextLogger.line, tmpfileLine, Formats.withPrintf, TextLogger.places, List.append_assoc]

/-! ## The queries of MySQL -/

/-- A rain counter that has been read. -/
def rainCount (n : UInt32) : DevList where
  devs := [{ init := 1, stype := .counter
             s := [{ abbrv := some "RGC0".toList, value := n.toNat, valid := true }], ns := 1
             ns_le := Nat.one_pos }]

theorem rainCount_logged (n : UInt32) :
    (rainCount n).logged = [⟨.counter, some "RGC0".toList, n.toNat, none⟩] := rfl

theorem CounterKept.denotes {n : UInt32} (h : CounterKept n) :
    Denotes (general n.toNat).text n.toNat := by
  have hrow := h.mysql none (rainCount n)
  rw [Mysql.inserts, rainCount_logged] at hrow
  cases hrow with
  | cons hop _ =>
    obtain ⟨p, hp, hdenotes⟩ := hop ⟨rfl, rfl⟩
    rw [Mysql.Op.query.injEq, Mysql.Query.insert.injEq] at hp
    obtain ⟨-, -, -, rfl⟩ := hp
    exact hdenotes

theorem denotes_general_iff (n : ℕ) :
    Denotes (general n).text n ↔ ∃ m k, m < 10 ^ 6 ∧ n = m * 10 ^ k := by
  rw [← roundSix_nat_iff]
  constructor
  · exact fun h => denotes_unique (denotes_general n) h
  · intro h
    have hdenotes := denotes_general n
    rwa [h] at hdenotes

/-- The count survives every logger if it has six significant digits at most. -/
theorem counter_kept_iff (n : UInt32) :
    CounterKept n ↔ ∃ m k, m < 10 ^ 6 ∧ n.toNat = m * 10 ^ k := by
  rw [← denotes_general_iff]
  refine ⟨CounterKept.denotes, fun h => ?_⟩
  constructor
  case mysql =>
    intro conn w1
    refine forall₂_map_right fun e _ he => ⟨_, rfl, ?_⟩
    rw [he.2]
    exact h
  case pgsqlRows =>
    intro s db w1 hjson
    rw [Pgsql.inserts, if_neg (by rw [hjson]; decide)]
    refine forall₂_map_right fun e _ he => ⟨e.printed, ?_, he.printed⟩
    unfold Pgsql.insertOp
    split
    · exact .inl ⟨_, rfl⟩
    · exact .inr rfl
  case pgsqlJson =>
    intro s db w1 hjson hlogged
    rw [Pgsql.inserts, if_pos hjson, if_pos hlogged]
  case sqliteRows =>
    intro s w1 hjson
    refine ⟨w1.logged.map fun e => [.bind s.stmt 1 (s.date w1), .bind s.stmt 2 (.text e.abbrv),
      .bind s.stmt 3 (.real e.value), .step s.stmt, .reset s.stmt], ?_, ?_⟩
    · rw [Sqlite.inserts, if_neg (by rw [hjson]; decide), List.flatMap_def]
    · refine forall₂_map_right fun e _ he => ?_
      rw [he.2]
  case sqliteJson =>
    intro s w1 hjson hlogged
    rw [Sqlite.inserts, if_pos hjson, if_pos hlogged]
    rfl
  case json =>
    intro w1
    exact forall₂_map_right fun e _ he => ⟨rfl, he.printed⟩
  case text =>
    intro logger fmt timb w1 x hx
    obtain ⟨before, after, hline⟩ := line_split logger fmt timb w1 x
    refine ⟨before, _, after, hline, rfl, ?_⟩
    rw [hx]
    exact denotes_fixed_nat _ n.toNat

/-- In the queries of MySQL a count of seven digits is rounded. -/
theorem counter_not_kept : ¬ CounterKept 1234567 ∧
    Mysql.inserts none (rainCount 1234567) =
      [.query none (.insert (.seconds 0) (some "RGC0".toList) ⟨"%g", 1234567⟩)] ∧
    (Printed.mk "%g" 1234567).text = "1.23457e+06".toList := by
  refine ⟨?_, rfl, by decide +kernel⟩
  intro h
  obtain ⟨m, k, hm, hmk⟩ := (denotes_general_iff _).mp h.denotes
  have hcount : (1234567 : UInt32).toNat = 1234567 := rfl
  cases k with
  | zero =>
    rw [hcount, pow_zero] at hmk
    omega
  | succ k =>
    rw [hcount, pow_succ, ← mul_assoc] at hmk
    omega

end W1Retap

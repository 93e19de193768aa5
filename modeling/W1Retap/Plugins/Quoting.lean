import W1Retap.Plugins.Dates
import W1Retap.Plugins.Numbers
import W1Retap.Support.Csv
import W1Retap.Support.Json
import W1Retap.Support.SqlText
import W1Retap.Support.Xml

/-!
# What readers of the texts find

`w1csv`, `w1xml` without libxml2 and the queries of MySQL put names and units between quotes
as they are. Readers of the three formats find them again if they have no character with a
meaning of its own.
-/
namespace W1Retap

open CStrings Printf

/-! ## Readers -/

/-- What is found about a sensor. -/
structure XmlSensor where
  name : CString
  value : CString
  units : CString
  deriving DecidableEq, Repr

structure XmlReport where
  timestamp : CString
  unixepoch : CString
  sensors : List XmlSensor
  deriving DecidableEq, Repr

def foundIn (attrs : List Xml.Attr) : Option XmlSensor := do
  return ⟨← attrs.lookup "name".toList, ← attrs.lookup "value".toList, ← attrs.lookup "units".toList⟩

/-- The sensors up to the end of the report. -/
def foundAll : List Xml.Event → Option (List XmlSensor)
  | [.finish name] => if name = "report".toList then some [] else none
  | .start name attrs :: .finish _ :: events =>
    if name = "sensor".toList then
      (foundIn attrs).bind fun f => (foundAll events).map (f :: ·)
    else none
  | _ => none

def reportOf : List Xml.Event → Option XmlReport
  | .start name attrs :: events =>
    if name = "report".toList then do
      return ⟨← attrs.lookup "timestamp".toList, ← attrs.lookup "unixepoch".toList, ← foundAll events⟩
    else none
  | _ => none

def readReport (s : CString) : Option XmlReport := (Xml.readEvents s.length s).bind reportOf

/-- The fields of a line. -/
def readLine (s : CString) : Option (List CString) := Csv.readRecord s.length s

def insertHead : CString := "INSERT into readings(date,name,value) VALUES(".toList

/-- The values of a query. -/
def readInsert (s : CString) : Option (List SqlText.Value) :=
  if insertHead.isPrefixOf s then SqlText.readValues s.length (s.drop insertHead.length) else none

/-! ## The texts of the queries -/

/-- What `strftime` makes of the time of a pass with `%FT%T%z` and with `%F %T`: digits with signs between
them. -/
structure PassTime where
  timb : CString
  tval : CString
  timb_chars : ∀ c ∈ timb, isdigit c = true ∨ c ∈ "-+:T".toList
  tval_chars : ∀ c ∈ tval, isdigit c = true ∨ c ∈ "-: ".toList

/-- `tval` in `w1_logger` of `w1mysql.c` -/
def Stamp.tval (time : PassTime) : Stamp → CString
  | .seconds t => showInt t
  | .text _ _ _ => '\'' :: (time.tval ++ ['\''])

/-- The text of a query. -/
def Mysql.Op.sql (time : PassTime) : Mysql.Op → Option CString
  | .query _ (.text sql) => some sql.toList
  | .query _ (.insert date abbrv value) =>
    some (insertHead ++ date.tval time ++ ",'".toList ++ showStr abbrv ++ "',".toList ++ value.text ++ [')'])
  | _ => none

/-! ## What should be found -/

def Sensor.csvFields (x : Sensor) : List CString :=
  [showStr x.abbrv, (fixed 6 x.value).text, x.units.getD []]

def Sensor.found (x : Sensor) : XmlSensor := ⟨showStr x.abbrv, (fixed 4 x.value).text, x.units.getD []⟩

def Stamp.sqlValue (time : PassTime) : Stamp → SqlText.Value
  | .seconds t => .number (showInt t)
  | .text _ _ _ => .string time.tval

def Sensor.sqlValues (time : PassTime) (date : Stamp) (x : Sensor) : List SqlText.Value :=
  [date.sqlValue time, .string (showStr x.abbrv), .number (general x.value).text]

/-- Readers of the three texts find the time and the valid sensors, and nothing else. -/
structure Recovered (fmt : Formats) (time : PassTime) (conn : Option Conn) (w1 : DevList) : Prop where
  csv : readLine (w1csvText fmt.withPrintf time.timb w1) =
    some (time.timb :: w1.validSensors.flatMap Sensor.csvFields)
  xml : ∃ text, w1xmlText fmt.withPrintf time.timb w1 = .ok text ∧
    readReport text = some ⟨time.timb, showInt w1.logtime, w1.validSensors.map Sensor.found⟩
  sql : (Mysql.inserts conn w1).map (fun op => (op.sql time).bind readInsert) =
    w1.validSensors.map fun x => some (x.sqlValues time (Mysql.date w1))

/-- No character of the name and the units has a meaning in one of the formats. -/
structure Sensor.Quotable (x : Sensor) : Prop where
  name_quote : '"' ∉ showStr x.abbrv
  name_xml : Xml.Plain (showStr x.abbrv)
  name_sql : SqlText.Clean (showStr x.abbrv)
  units_quote : '"' ∉ x.units.getD []
  units_xml : Xml.Plain (x.units.getD [])

/-! ## Characters of numbers and times -/

def inertChars : List Char := "0123456789-+.e:T ".toList

/-- A character without a meaning in any of the formats. -/
structure Inert (c : Char) : Prop where
  csv : Csv.isText c = true
  quote : c ≠ '"'
  apostrophe : c ≠ '\''
  backslash : c ≠ '\\'
  number : SqlText.endsNumber c = false
  xml : c ≠ '&' ∧ c ≠ '<' ∧ Xml.isChar c = true ∧ (Xml.isSpace c = true → c = ' ')

section
variable {c : Char} {s signs : CString} {time : PassTime} {x : Sensor}

theorem inert_of_mem (hc : c ∈ inertChars) : Inert c := by
  have hcsv : ∀ d ∈ inertChars, Csv.isText d = true ∧ d ≠ '"' := by decide
  have hsql : ∀ d ∈ inertChars, d ≠ '\'' ∧ d ≠ '\\' ∧ SqlText.endsNumber d = false := by decide
  have hxml : ∀ d ∈ inertChars,
      d ≠ '&' ∧ d ≠ '<' ∧ Xml.isChar d = true ∧ (Xml.isSpace d = true → d = ' ') := by decide
  exact ⟨(hcsv c hc).1, (hcsv c hc).2, (hsql c hc).1, (hsql c hc).2.1, (hsql c hc).2.2, hxml c hc⟩

theorem mem_of_isdigit (hc : isdigit c = true) : c ∈ inertChars := by
  simp only [isdigit, Bool.and_eq_true, decide_eq_true_eq] at hc
  have hlow : 48 ≤ c.toNat := hc.1
  have hhigh : c.toNat ≤ 57 := hc.2
  have hnat : ∀ n : ℕ, 48 ≤ n → n ≤ 57 → Char.ofNat n ∈ inertChars := by
    intro n hn hn'
    interval_cases n <;> decide
  have hchar := hnat c.toNat hlow hhigh
  rwa [Char.ofNat_toNat] at hchar

theorem inert_of_signs (hsigns : ∀ d ∈ signs, d ∈ inertChars) (h : isdigit c = true ∨ c ∈ signs) :
    Inert c := by
  rcases h with hdigit | hsign
  · exact inert_of_mem (mem_of_isdigit hdigit)
  · exact inert_of_mem (hsigns c hsign)

theorem inert_numeral {n : Numeral} (hn : n.Proper) : ∀ c ∈ n.text, Inert c :=
  fun _ hc => inert_of_signs (by decide) (Json.mem_text hn hc)

theorem inert_showInt (t : Int) : ∀ c ∈ showInt t, Inert c := by
  rw [showInt_eq]
  exact inert_numeral (proper_whole t)

theorem PassTime.timb_inert (time : PassTime) : ∀ c ∈ time.timb, Inert c :=
  fun c hc => inert_of_signs (by decide) (time.timb_chars c hc)

theorem PassTime.tval_inert (time : PassTime) : ∀ c ∈ time.tval, Inert c :=
  fun c hc => inert_of_signs (by decide) (time.tval_chars c hc)

theorem notMem_quote (hs : ∀ c ∈ s, Inert c) : '"' ∉ s := fun h => (hs '"' h).quote rfl

theorem notMem_apostrophe (hs : ∀ c ∈ s, Inert c) : '\'' ∉ s := fun h => (hs '\'' h).apostrophe rfl

theorem plain_xml (hs : ∀ c ∈ s, Inert c) : Xml.Plain s := fun c hc => (hs c hc).xml

theorem clean_sql (hs : ∀ c ∈ s, Inert c) : SqlText.Clean s := by
  induction s with
  | nil => trivial
  | cons c s ih =>
    obtain ⟨hc, hrest⟩ := List.forall_mem_cons.mp hs
    rw [SqlText.clean_cons hc.apostrophe hc.backslash]
    exact ih hrest

end

/-! ## The line of `w1csv` -/

section
variable {fmt : Formats} {time : PassTime} {w1 : DevList}

def Sensor.csvCells (x : Sensor) : List Csv.Cell :=
  [.text (showStr x.abbrv), .number (fixed 6 x.value).text, .text (x.units.getD [])]

def csvCells (timb : CString) (xs : List Sensor) : List Csv.Cell := .text timb :: xs.flatMap Sensor.csvCells

theorem printed_eq (es : List LogEntry) : printed es = (es.map LogEntry.text).flatten := by
  rw [printed, List.flatMap_def]

theorem w1csvText_eq (timb : CString) : w1csvText fmt.withPrintf timb w1 = Csv.record (csvCells timb w1.validSensors) := by
  have hline : ∀ x : Sensor, w1csvLine fmt.withPrintf x = x.csvCells.flatMap fun cell => ',' :: cell.written := by
    intro x
    simp [w1csvLine, Sensor.csvCells, Csv.Cell.written, Formats.withPrintf]
  have hlines : w1.validSensors.map (w1csvLine fmt.withPrintf) =
      w1.validSensors.map fun x => x.csvCells.flatMap fun cell => ',' :: cell.written :=
    List.map_congr_left fun x _ => hline x
  rw [w1csvText, printed_eq, entries_text, hlines, csvCells, Csv.record_cons, List.flatMap_assoc, ← List.flatMap_def]
  simp [Csv.Cell.written]

theorem readLine_iff :
    readLine (w1csvText fmt.withPrintf time.timb w1) = some (time.timb :: w1.validSensors.flatMap Sensor.csvFields) ↔
      ∀ x ∈ w1.validSensors, '"' ∉ showStr x.abbrv ∧ '"' ∉ x.units.getD [] := by
  have hproper : ∀ cell ∈ csvCells time.timb w1.validSensors, cell.Proper := by
    intro cell hcell
    rcases List.mem_cons.mp hcell with rfl | hcell
    · trivial
    · obtain ⟨x, -, hx⟩ := List.mem_flatMap.mp hcell
      simp only [Sensor.csvCells, List.mem_cons, List.not_mem_nil, or_false] at hx
      rcases hx with rfl | rfl | rfl
      · trivial
      · exact fun c hc => (inert_numeral (proper_fixed 6 x.value) c hc).csv
      · trivial
  have hcontent : (csvCells time.timb w1.validSensors).map Csv.Cell.content =
      time.timb :: w1.validSensors.flatMap Sensor.csvFields := by
    rw [csvCells, List.map_cons, List.map_flatMap]
    rfl
  have hplain : (∀ cell ∈ csvCells time.timb w1.validSensors, cell.Plain) ↔
      ∀ x ∈ w1.validSensors, '"' ∉ showStr x.abbrv ∧ '"' ∉ x.units.getD [] := by
    have htimb : (Csv.Cell.text time.timb).Plain := notMem_quote time.timb_inert
    rw [csvCells, List.forall_mem_cons, and_iff_right htimb]
    simp only [List.mem_flatMap, Sensor.csvCells]
    constructor
    · intro h x hx
      exact ⟨h (.text (showStr x.abbrv)) ⟨x, hx, by simp⟩, h (.text (x.units.getD [])) ⟨x, hx, by simp⟩⟩
    · rintro h cell ⟨x, hx, hcell⟩
      simp only [List.mem_cons, List.not_mem_nil, or_false] at hcell
      rcases hcell with rfl | rfl | rfl
      · exact (h x hx).1
      · trivial
      · exact (h x hx).2
  rw [w1csvText_eq, readLine, ← hcontent, ← hplain]
  exact Csv.readRecord_record_iff (List.cons_ne_nil _ _) hproper (Csv.length_le_record _)

end

/-! ## The queries of MySQL -/

section
variable {fmt : Formats} {time : PassTime} {conn : Option Conn} {w1 : DevList} {d : Stamp} {x : Sensor}

theorem logged_eq {α : Type} (f : Option CString → ℚ → α) :
    (w1.logged.map fun e => f e.abbrv e.value) = w1.validSensors.map fun x => f x.abbrv x.value := by
  rw [DevList.logged, DevList.validSensors, List.map_flatMap, List.map_flatMap]
  congr 1
  funext d
  unfold Device.logged Device.validSensors
  split
  · rw [List.map_map]
    rfl
  · rfl

theorem tval_eq : d.tval time = (d.sqlValue time).written := by
  cases d <;> rfl

/-- The date comes back. -/
theorem readValue_date {more : List Char} :
    SqlText.readValue (d.tval time ++ ',' :: more) = some (d.sqlValue time, ',' :: more) := by
  rw [tval_eq]
  cases d with
  | seconds t =>
    exact SqlText.readValue_number (fun c hc => ⟨(inert_showInt t c hc).apostrophe, (inert_showInt t c hc).number⟩) rfl
  | text format utc t => exact SqlText.readValue_string (clean_sql time.tval_inert) (by decide)

/-- A query comes back if the name is clean. -/
theorem readInsert_iff :
    readInsert (insertHead ++ d.tval time ++ ",'".toList ++ showStr x.abbrv ++ "',".toList ++ (general x.value).text ++ [')']) =
        some (x.sqlValues time d) ↔ SqlText.Clean (showStr x.abbrv) := by
  have hnumber := inert_numeral (proper_general x.value)
  have htext : insertHead ++ d.tval time ++ ",'".toList ++ showStr x.abbrv ++ "',".toList ++ (general x.value).text ++ [')'] =
      insertHead ++ (d.tval time ++ ',' :: ((SqlText.Value.string (showStr x.abbrv)).written ++
        ',' :: ((general x.value).text ++ [')']))) := by
    simp [SqlText.Value.written]
  have hfuel : ∃ fuel, (insertHead ++ (d.tval time ++ ',' :: ((SqlText.Value.string (showStr x.abbrv)).written ++
      ',' :: ((general x.value).text ++ [')'])))).length = fuel + 3 := by
    refine Nat.exists_eq_add_of_le' ?_
    simp only [List.length_append, List.length_cons]
    omega
  obtain ⟨fuel, hfuel⟩ := hfuel
  have hprefix : insertHead.isPrefixOf (insertHead ++ (d.tval time ++ ',' ::
      ((SqlText.Value.string (showStr x.abbrv)).written ++ ',' :: ((general x.value).text ++ [')'])))) = true := by
    rw [List.isPrefixOf_iff_prefix]
    exact List.prefix_append _ _
  have hlast : SqlText.readValues (fuel + 1) ((general x.value).text ++ [')']) = some [.number (general x.value).text] :=
    SqlText.readValues_last
      (SqlText.readValue_number (fun c hc => ⟨(hnumber c hc).apostrophe, (hnumber c hc).number⟩) rfl)
  rw [htext, readInsert, if_pos hprefix, hfuel, List.drop_left, SqlText.readValues_comma readValue_date]
  constructor
  · intro h
    obtain ⟨vs, hvs, heq⟩ := Option.map_eq_some_iff.mp h
    obtain rfl := (List.cons.inj heq).2
    obtain ⟨rest, hread⟩ := SqlText.readValue_of_readValues hvs
    refine SqlText.clean_of_readValue (fun hmem => ?_) hread
    rcases List.mem_cons.mp hmem with hcomma | hmem
    · exact absurd hcomma (by decide)
    · rcases List.mem_append.mp hmem with hmem | hmem
      · exact notMem_apostrophe hnumber hmem
      · exact absurd hmem (by decide)
  · intro h
    rw [SqlText.readValues_comma (SqlText.readValue_string h (by decide)), hlast]
    rfl

theorem inserts_iff :
    ((Mysql.inserts conn w1).map (fun op => (op.sql time).bind readInsert) =
        w1.validSensors.map fun x => some (x.sqlValues time (Mysql.date w1))) ↔
      ∀ x ∈ w1.validSensors, SqlText.Clean (showStr x.abbrv) := by
  have hops : (Mysql.inserts conn w1).map (fun op => (op.sql time).bind readInsert) =
      w1.validSensors.map fun x => readInsert (insertHead ++ (Mysql.date w1).tval time ++ ",'".toList ++
        showStr x.abbrv ++ "',".toList ++ (general x.value).text ++ [')']) := by
    rw [Mysql.inserts, List.map_map]
    exact logged_eq fun abbrv value => readInsert (insertHead ++ (Mysql.date w1).tval time ++ ",'".toList ++
      showStr abbrv ++ "',".toList ++ (general value).text ++ [')'])
  rw [hops, List.map_inj_left]
  exact forall₂_congr fun x _ => readInsert_iff

end

/-! ## The document of `w1xml` -/

section
variable {fmt : Formats} {time : PassTime} {w1 : DevList} {x : Sensor} {xs : List Sensor} {s t : CString} {fuel : ℕ}

def Sensor.xmlAttrs (x : Sensor) : List Xml.Attr :=
  [("name".toList, showStr x.abbrv), ("value".toList, (fixed 4 x.value).text), ("units".toList, x.units.getD [])]

/-- No name and no units end the text they stand in. -/
def Sensor.Unquoted (x : Sensor) : Prop := '"' ∉ showStr x.abbrv ∧ '"' ∉ x.units.getD []

/-- A sensor as it is read. -/
def Sensor.decoded (x : Sensor) : Option XmlSensor := do
  return ⟨← Xml.decode none (showStr x.abbrv), ← Xml.decode none (fixed 4 x.value).text,
    ← Xml.decode none (x.units.getD [])⟩

/-- The text around a sensor is that of two tags. -/
theorem sensor_tags (name value units : CString) :
    "  <sensor name=\"".toList ++ name ++ "\" value=\"".toList ++ value ++ "\" units=\"".toList ++ units ++
        "\"></sensor>\n".toList =
      "  ".toList ++ (Xml.startTag "sensor".toList
        [("name".toList, name), ("value".toList, value), ("units".toList, units)] ++
        (Xml.finishTag "sensor".toList ++ ['\n'])) := by
  simp [Xml.startTag, Xml.finishTag, Xml.attrsText, Xml.Attr.written]

theorem w1xmlLine_eq : w1xmlLine fmt.withPrintf x =
    "  ".toList ++ (Xml.startTag "sensor".toList x.xmlAttrs ++ (Xml.finishTag "sensor".toList ++ ['\n'])) :=
  sensor_tags (showStr x.abbrv) (fixed 4 x.value).text (x.units.getD [])

theorem proper_xmlAttrs (hx : x.Unquoted) : ∀ a ∈ x.xmlAttrs, a.Proper := by
  have hvalue := notMem_quote (inert_numeral (proper_fixed 4 x.value))
  have hnames : ∀ name ∈ ["name".toList, "value".toList, "units".toList],
      name ≠ [] ∧ ∀ c ∈ name, Xml.isName c = true := by decide
  intro a ha
  simp only [Sensor.xmlAttrs, List.mem_cons, List.not_mem_nil, or_false] at ha
  rcases ha with rfl | rfl | rfl
  · exact ⟨(hnames _ (by simp)).1, (hnames _ (by simp)).2, hx.1⟩
  · exact ⟨(hnames _ (by simp)).1, (hnames _ (by simp)).2, hvalue⟩
  · exact ⟨(hnames _ (by simp)).1, (hnames _ (by simp)).2, hx.2⟩

theorem foundIn_three (name value units : CString) :
    foundIn [("name".toList, name), ("value".toList, value), ("units".toList, units)] = some ⟨name, value, units⟩ := by
  have hvalue : ("value".toList == "name".toList) = false := by decide
  have hunits : ("units".toList == "name".toList) = false := by decide
  have hunits' : ("units".toList == "value".toList) = false := by decide
  simp only [foundIn, List.lookup_cons, beq_self_eq_true, hvalue, hunits, hunits']
  rfl

theorem foundIn_decoded : (x.xmlAttrs.mapM Xml.Attr.decoded).bind foundIn = x.decoded := by
  unfold Sensor.xmlAttrs Sensor.decoded Xml.Attr.decoded
  simp only [List.mapM_cons, List.mapM_nil]
  generalize Xml.decode none (showStr x.abbrv) = name
  generalize Xml.decode none (fixed 4 x.value).text = value
  generalize Xml.decode none (x.units.getD []) = units
  cases name with
  | none => rfl
  | some name =>
    cases value with
    | none => rfl
    | some value =>
      cases units with
      | none => rfl
      | some units => exact foundIn_three name value units

/-- The events of a line. -/
theorem readEvents_line (hx : x.Unquoted) (hs : '<' ∉ s) :
    Xml.readEvents (fuel + 2) (s ++ (w1xmlLine fmt.withPrintf x ++ t)) =
      (x.xmlAttrs.mapM Xml.Attr.decoded).bind fun as =>
        (Xml.readEvents fuel ('\n' :: t)).map fun events =>
          .start "sensor".toList as :: .finish "sensor".toList :: events := by
  have hassoc : s ++ (w1xmlLine fmt.withPrintf x ++ t) = (s ++ "  ".toList) ++
      (Xml.startTag "sensor".toList x.xmlAttrs ++ ([] ++ (Xml.finishTag "sensor".toList ++ '\n' :: t))) := by
    rw [w1xmlLine_eq]
    simp only [List.append_assoc, List.nil_append, List.singleton_append]
  have hblanks : '<' ∉ s ++ "  ".toList := by
    intro h
    rcases List.mem_append.mp h with h | h
    · exact hs h
    · exact absurd h (by decide)
  have hnodup : (x.xmlAttrs.map Prod.fst).Nodup := by
    change ["name".toList, "value".toList, "units".toList].Nodup
    decide
  rw [hassoc, Xml.readEvents_start hblanks (by decide) (by decide) (proper_xmlAttrs hx) hnodup,
    Xml.readEvents_finish List.not_mem_nil (by decide)]
  simp only [Option.map_map, Function.comp_def]

/-- The lines are read one by one. -/
theorem foundAll_lines (hxs : ∀ x ∈ xs, x.Unquoted) (hs : '<' ∉ s) (hfuel : 2 * xs.length + 2 ≤ fuel) :
    (Xml.readEvents fuel (s ++ ((xs.map (w1xmlLine fmt.withPrintf)).flatten ++ "</report>\n".toList))).bind foundAll =
      xs.mapM Sensor.decoded := by
  induction xs generalizing fuel s with
  | nil =>
    obtain ⟨fuel, rfl⟩ := Nat.exists_eq_add_of_le' (Nat.le_trans (Nat.le_add_left 2 _) hfuel)
    have htail : s ++ ((([] : List Sensor).map (w1xmlLine fmt.withPrintf)).flatten ++ "</report>\n".toList) =
        s ++ (Xml.finishTag "report".toList ++ ['\n']) := rfl
    have hname : ∀ c ∈ "report".toList, Xml.isName c = true := by decide
    have hnewline : '<' ∉ ['\n'] := by decide
    rw [htail, Xml.readEvents_finish hs hname, Xml.readEvents_text hnewline]
    rfl
  | cons x xs ih =>
    obtain ⟨hx, hxs⟩ := List.forall_mem_cons.mp hxs
    obtain ⟨fuel, rfl⟩ := Nat.exists_eq_add_of_le' (Nat.le_trans (Nat.le_add_left 2 _) hfuel)
    have hnewline : '<' ∉ ['\n'] := by decide
    have hfuel : 2 * xs.length + 2 ≤ fuel := by
      rw [List.length_cons] at hfuel
      omega
    have hrest := ih hxs hnewline hfuel
    rw [List.map_cons, List.flatten_cons, List.append_assoc, readEvents_line hx hs, List.mapM_cons, ← hrest,
      ← foundIn_decoded]
    cases x.xmlAttrs.mapM Xml.Attr.decoded with
    | none => rfl
    | some as =>
      rw [Option.bind_some, Option.bind_some, List.singleton_append]
      cases Xml.readEvents fuel _ with
      | none => cases foundIn as <;> rfl
      | some events =>
        change (foundIn as).bind _ = _
        cases foundIn as with
        | none => rfl
        | some f =>
          change (foundAll events).map (f :: ·) = _
          cases h : foundAll events <;> simp [h]

def reportAttrs (timb : CString) (w1 : DevList) : List Xml.Attr :=
  [("timestamp".toList, timb), ("unixepoch".toList, showInt w1.logtime), ("sane".toList, "no".toList)]

theorem report_tag (timb epoch : CString) :
    "<?xml version=\"1.0\" encoding=\"utf-8\"?>\n".toList ++ "<report timestamp=\"".toList ++ timb ++
        "\" unixepoch=\"".toList ++ epoch ++ "\" sane=\"no\">\n".toList =
      '<' :: '?' :: ("xml version=\"1.0\" encoding=\"utf-8\"?".toList ++ '>' :: ('\n' ::
        (Xml.startTag "report".toList
          [("timestamp".toList, timb), ("unixepoch".toList, epoch), ("sane".toList, "no".toList)] ++ ['\n']))) := by
  simp [Xml.startTag, Xml.attrsText, Xml.Attr.written]

/-- The time of a pass comes back. -/
theorem decoded_reportAttrs :
    (reportAttrs time.timb w1).mapM Xml.Attr.decoded = some (reportAttrs time.timb w1) := by
  have htimb := Xml.decode_self (plain_xml time.timb_inert)
  have hepoch := Xml.decode_self (plain_xml (inert_showInt w1.logtime))
  have hsane : Xml.decode none "no".toList = some "no".toList := by decide
  unfold reportAttrs Xml.Attr.decoded
  simp only [List.mapM_cons, List.mapM_nil, htimb, hepoch, hsane]
  rfl

theorem proper_reportAttrs : ∀ a ∈ reportAttrs time.timb w1, a.Proper := by
  have hnames : ∀ name ∈ ["timestamp".toList, "unixepoch".toList, "sane".toList],
      name ≠ [] ∧ ∀ c ∈ name, Xml.isName c = true := by decide
  intro a ha
  simp only [reportAttrs, List.mem_cons, List.not_mem_nil, or_false] at ha
  rcases ha with rfl | rfl | rfl
  · exact ⟨(hnames _ (by simp)).1, (hnames _ (by simp)).2, notMem_quote time.timb_inert⟩
  · exact ⟨(hnames _ (by simp)).1, (hnames _ (by simp)).2, notMem_quote (inert_showInt w1.logtime)⟩
  · exact ⟨(hnames _ (by simp)).1, (hnames _ (by simp)).2, (by decide : '"' ∉ "no".toList)⟩

theorem two_le_lines : 2 * xs.length ≤ (xs.map (w1xmlLine fmt.withPrintf)).flatten.length := by
  induction xs with
  | nil => exact le_rfl
  | cons x xs ih =>
    have hline : 2 ≤ (w1xmlLine fmt.withPrintf x).length := by
      rw [w1xmlLine_eq, List.length_append]
      exact Nat.le_add_right 2 _
    rw [List.map_cons, List.flatten_cons, List.length_append, List.length_cons]
    omega

theorem reportOf_start {attrs : List Xml.Attr} {events : List Xml.Event} {timestamp epoch : CString}
    (htimestamp : attrs.lookup "timestamp".toList = some timestamp) (hepoch : attrs.lookup "unixepoch".toList = some epoch) :
    reportOf (.start "report".toList attrs :: events) =
      (foundAll events).map fun sensors => ⟨timestamp, epoch, sensors⟩ := by
  rw [reportOf, if_pos rfl, htimestamp, hepoch]
  cases foundAll events <;> rfl

/-- The report that is read. -/
theorem readReport_text (hxs : ∀ x ∈ xs, x.Unquoted) :
    readReport (xmlHead time.timb w1 ++ (xs.map (w1xmlLine fmt.withPrintf)).flatten ++ "</report>\n".toList) =
      (xs.mapM Sensor.decoded).map fun sensors => ⟨time.timb, showInt w1.logtime, sensors⟩ := by
  have hnodup : ((reportAttrs time.timb w1).map Prod.fst).Nodup := by
    change ["timestamp".toList, "unixepoch".toList, "sane".toList].Nodup
    decide
  have hlookup : (reportAttrs time.timb w1).lookup "timestamp".toList = some time.timb ∧
      (reportAttrs time.timb w1).lookup "unixepoch".toList = some (showInt w1.logtime) := by
    have hne : ("unixepoch".toList == "timestamp".toList) = false := by decide
    simp only [reportAttrs, List.lookup_cons, beq_self_eq_true, hne, and_self]
  have htext : xmlHead time.timb w1 ++ (xs.map (w1xmlLine fmt.withPrintf)).flatten ++ "</report>\n".toList =
      '<' :: '?' :: ("xml version=\"1.0\" encoding=\"utf-8\"?".toList ++ '>' :: ('\n' ::
        (Xml.startTag "report".toList (reportAttrs time.timb w1) ++
          (['\n'] ++ ((xs.map (w1xmlLine fmt.withPrintf)).flatten ++ "</report>\n".toList))))) := by
    unfold xmlHead reportAttrs
    rw [report_tag]
    simp only [List.append_assoc, List.cons_append]
  have hlength : ∃ fuel, 2 * xs.length + 2 ≤ fuel ∧
      (xmlHead time.timb w1 ++ (xs.map (w1xmlLine fmt.withPrintf)).flatten ++ "</report>\n".toList).length = fuel + 2 := by
    have htwo : 2 * xs.length ≤ (xs.map (w1xmlLine fmt.withPrintf)).flatten.length := two_le_lines
    have htail : "</report>\n".toList.length = 10 := by decide
    refine ⟨_, ?_, (Nat.sub_add_cancel ?_).symm⟩
    all_goals
      rw [List.length_append, List.length_append, htail]
      omega
  obtain ⟨fuel, hfuel, hlength⟩ := hlength
  have hdeclaration : '>' ∉ "xml version=\"1.0\" encoding=\"utf-8\"?".toList := by decide
  have hskip : '<' ∉ ['>', '\n'] := by decide
  have hname : "report".toList ≠ [] ∧ ∀ c ∈ "report".toList, Xml.isName c = true := by decide
  have hnewline : '<' ∉ ['\n'] := by decide
  have hevents : Xml.readEvents (fuel + 2) (xmlHead time.timb w1 ++ (xs.map (w1xmlLine fmt.withPrintf)).flatten ++
      "</report>\n".toList) = (Xml.readEvents fuel (['\n'] ++ ((xs.map (w1xmlLine fmt.withPrintf)).flatten ++
        "</report>\n".toList))).map (.start "report".toList (reportAttrs time.timb w1) :: ·) := by
    rw [htext, Xml.readEvents_declaration hdeclaration]
    refine (Xml.readEvents_start hskip hname.1 hname.2 proper_reportAttrs hnodup).trans ?_
    rw [decoded_reportAttrs]
    rfl
  rw [readReport, hlength, hevents, ← foundAll_lines hxs hnewline hfuel]
  cases Xml.readEvents fuel _ with
  | none => rfl
  | some events =>
    rw [Option.map_some, Option.bind_some, Option.bind_some]
    exact reportOf_start hlookup.1 hlookup.2

end

/-! ## What comes back as it was -/

section
variable {α β : Type} {f : α → Option β} {g : α → β} {xs : List α} {ys : List β}

theorem length_mapM (h : xs.mapM f = some ys) : ys.length = xs.length := by
  induction xs generalizing ys with
  | nil =>
    obtain rfl := Option.some.inj h
    rfl
  | cons x xs ih =>
    rw [List.mapM_cons] at h
    obtain ⟨y, -, h⟩ := Option.bind_eq_some_iff.mp h
    obtain ⟨rest, hrest, h⟩ := Option.bind_eq_some_iff.mp h
    obtain rfl := Option.some.inj h
    rw [List.length_cons, List.length_cons, ih hrest]

theorem mapM_eq_map_iff : xs.mapM f = some (xs.map g) ↔ ∀ x ∈ xs, f x = some (g x) := by
  induction xs with
  | nil => exact iff_of_true rfl fun _ h => nomatch h
  | cons x xs ih =>
    rw [List.mapM_cons, List.forall_mem_cons, ← ih]
    constructor
    · intro h
      obtain ⟨y, hy, h⟩ := Option.bind_eq_some_iff.mp h
      obtain ⟨rest, hrest, h⟩ := Option.bind_eq_some_iff.mp h
      obtain ⟨rfl, rfl⟩ := List.cons.inj (Option.some.inj h)
      exact ⟨hy, hrest⟩
    · rintro ⟨hx, hrest⟩
      rw [hx, hrest]
      rfl

end

section
variable {fmt : Formats} {time : PassTime} {conn : Option Conn} {w1 : DevList} {d : Device} {x : Sensor}

theorem decoded_eq_iff : x.decoded = some x.found ↔ Xml.Plain (showStr x.abbrv) ∧ Xml.Plain (x.units.getD []) := by
  have hvalue := Xml.decode_self (plain_xml (inert_numeral (proper_fixed 4 x.value)))
  rw [← Xml.decode_eq_self_iff, ← Xml.decode_eq_self_iff]
  unfold Sensor.decoded Sensor.found
  rw [hvalue]
  constructor
  · intro h
    obtain ⟨name, hname, h⟩ := Option.bind_eq_some_iff.mp h
    obtain ⟨value, -, h⟩ := Option.bind_eq_some_iff.mp h
    obtain ⟨units, hunits, h⟩ := Option.bind_eq_some_iff.mp h
    obtain ⟨rfl, -, rfl⟩ := XmlSensor.mk.inj (Option.some.inj h)
    exact ⟨hname, hunits⟩
  · rintro ⟨hname, hunits⟩
    rw [hname, hunits]
    rfl

/-- The slots behind `ns` are as `w1_alloc_sensor` cleared them. -/
def Device.SlotsCleared (d : Device) : Prop := ∀ (j : ℕ) x, d.s[j]? = some x → x.valid = true → j < d.ns

/-- What the loop of `w1xml` does not come to. -/
def Device.otherSensors (d : Device) : List Sensor := if d.init ≠ 0 then (d.s.drop 2).filter (·.valid) else []

theorem validSensors_eq (hcleared : d.init ≠ 0 → d.SlotsCleared) :
    d.validSensors = d.firstSensors ++ d.otherSensors := by
  unfold Device.validSensors Device.firstSensors Device.otherSensors
  by_cases hinit : d.init ≠ 0
  · have hrest : (d.s.drop d.ns).filter (·.valid) = [] := by
      rw [List.filter_eq_nil_iff]
      intro x hx hvalid
      obtain ⟨j, hj⟩ := List.getElem?_of_mem hx
      rw [List.getElem?_drop] at hj
      exact absurd (hcleared hinit _ x hj hvalid) (by omega)
    have hall : (d.s.take d.ns).filter (·.valid) = d.s.filter (·.valid) := by
      conv_rhs => rw [← List.take_append_drop d.ns d.s, List.filter_append, hrest, List.append_nil]
    rw [if_pos hinit, if_pos hinit, if_pos hinit, hall, ← List.filter_append, List.take_append_drop]
  · rw [if_neg hinit, if_neg hinit, if_neg hinit]
    rfl

theorem otherSensors_eq_nil_iff :
    d.otherSensors = [] ↔ (d.init ≠ 0 → ∀ (j : ℕ) x, d.s[j]? = some x → x.valid = true → j < 2) := by
  unfold Device.otherSensors
  by_cases hinit : d.init ≠ 0
  · rw [if_pos hinit, List.filter_eq_nil_iff, forall_prop_of_true hinit]
    constructor
    · intro h j x hx hvalid
      by_contra hj
      have hmem : x ∈ d.s.drop 2 := by
        refine List.mem_of_getElem? (i := j - 2) ?_
        rw [List.getElem?_drop, ← hx]
        congr 1
        omega
      exact h x hmem hvalid
    · intro h x hx hvalid
      obtain ⟨j, hj⟩ := List.getElem?_of_mem hx
      rw [List.getElem?_drop] at hj
      exact absurd (h _ x hj hvalid) (by omega)
  · rw [if_neg hinit]
    exact iff_of_true rfl fun h => absurd h hinit

/-- The valid sensors that `w1xml` prints are all of them exactly when there are as many. -/
theorem length_firstSensors_iff (hcleared : ∀ d ∈ w1.devs, d.init ≠ 0 → d.SlotsCleared) :
    w1.firstSensors.length = w1.validSensors.length ↔ ∀ d ∈ w1.devs, d.otherSensors = [] := by
  have hcount : ∀ ds : List Device, (∀ d ∈ ds, d.init ≠ 0 → d.SlotsCleared) →
      (ds.flatMap Device.validSensors).length =
        (ds.flatMap Device.firstSensors).length + (ds.flatMap Device.otherSensors).length := by
    intro ds hds
    induction ds with
    | nil => rfl
    | cons d ds ih =>
      obtain ⟨hd, hds⟩ := List.forall_mem_cons.mp hds
      simp only [List.flatMap_cons, List.length_append, ih hds, validSensors_eq hd]
      omega
  have hsum := hcount w1.devs hcleared
  rw [DevList.firstSensors, DevList.validSensors, hsum, ← List.flatMap_eq_nil_iff, ← List.length_eq_zero_iff]
  omega

theorem firstSensors_eq (hcleared : ∀ d ∈ w1.devs, d.init ≠ 0 → d.SlotsCleared)
    (hother : ∀ d ∈ w1.devs, d.otherSensors = []) : w1.firstSensors = w1.validSensors := by
  unfold DevList.firstSensors DevList.validSensors
  rw [List.flatMap_def, List.flatMap_def]
  congr 1
  refine List.map_congr_left fun d hd => ?_
  rw [validSensors_eq (hcleared d hd), hother d hd, List.append_nil]

theorem mem_validSensors_of_first (hcleared : ∀ d ∈ w1.devs, d.init ≠ 0 → d.SlotsCleared)
    (hx : x ∈ w1.firstSensors) : x ∈ w1.validSensors := by
  obtain ⟨d, hd, hx⟩ := List.mem_flatMap.mp hx
  refine List.mem_flatMap.mpr ⟨d, hd, ?_⟩
  rw [validSensors_eq (hcleared d hd)]
  exact List.mem_append_left _ hx

theorem w1xmlText_eq_ok {text : CString} :
    w1xmlText fmt time.timb w1 = .ok text ↔ (∀ d ∈ w1.devs, d.init ≠ 0 → 2 ≤ d.s.length) ∧
      text = xmlHead time.timb w1 ++ (w1.firstSensors.map (w1xmlLine fmt)).flatten ++ "</report>\n".toList := by
  unfold w1xmlText
  constructor
  · intro h
    cases hes : w1.firstTwo (w1xmlLine fmt) with
    | error e =>
      rw [hes] at h
      exact nomatch h
    | ok es =>
      rw [hes] at h
      obtain rfl := Except.ok.inj h
      refine ⟨(allFirstTwo_eq_ok.mp hes).1, ?_⟩
      rw [printed_eq, firstTwo_text hes]
  · rintro ⟨hlen, rfl⟩
    have hes : w1.firstTwo (w1xmlLine fmt) = .ok _ := allFirstTwo_eq_ok.mpr ⟨hlen, rfl⟩
    rw [← firstTwo_text hes, ← printed_eq, hes]
    rfl

/-- The document gives the valid sensors, where no text ends early. -/
theorem report_iff (hcleared : ∀ d ∈ w1.devs, d.init ≠ 0 → d.SlotsCleared) (hquotes : ∀ x ∈ w1.validSensors, x.Unquoted) :
    (∃ text, w1xmlText fmt.withPrintf time.timb w1 = .ok text ∧
        readReport text = some ⟨time.timb, showInt w1.logtime, w1.validSensors.map Sensor.found⟩) ↔
      (∀ d ∈ w1.devs, d.init ≠ 0 → 2 ≤ d.s.length) ∧ (∀ d ∈ w1.devs, d.otherSensors = []) ∧
        ∀ x ∈ w1.validSensors, Xml.Plain (showStr x.abbrv) ∧ Xml.Plain (x.units.getD []) := by
  have hfirst : ∀ x ∈ w1.firstSensors, x.Unquoted := fun x hx => hquotes x (mem_validSensors_of_first hcleared hx)
  have hfound : readReport (xmlHead time.timb w1 ++ (w1.firstSensors.map (w1xmlLine fmt.withPrintf)).flatten ++
      "</report>\n".toList) = some ⟨time.timb, showInt w1.logtime, w1.validSensors.map Sensor.found⟩ ↔
        w1.firstSensors.mapM Sensor.decoded = some (w1.validSensors.map Sensor.found) := by
    rw [readReport_text hfirst, Option.map_eq_some_iff]
    constructor
    · rintro ⟨sensors, hsensors, heq⟩
      rw [hsensors, (XmlReport.mk.inj heq).2.2]
    · exact fun h => ⟨_, h, rfl⟩
  have hdecoded : (∀ x ∈ w1.validSensors, x.decoded = some x.found) ↔
      ∀ x ∈ w1.validSensors, Xml.Plain (showStr x.abbrv) ∧ Xml.Plain (x.units.getD []) :=
    forall₂_congr fun x _ => decoded_eq_iff
  simp only [w1xmlText_eq_ok]
  constructor
  · rintro ⟨_, ⟨hlen, rfl⟩, hreport⟩
    rw [hfound] at hreport
    have hother : ∀ d ∈ w1.devs, d.otherSensors = [] := by
      refine (length_firstSensors_iff hcleared).mp ?_
      have hcount := length_mapM hreport
      rw [List.length_map] at hcount
      exact hcount.symm
    rw [firstSensors_eq hcleared hother, mapM_eq_map_iff] at hreport
    exact ⟨hlen, hother, hdecoded.mp hreport⟩
  · rintro ⟨hlen, hother, hplain⟩
    refine ⟨_, ⟨hlen, rfl⟩, ?_⟩
    rw [hfound, firstSensors_eq hcleared hother, mapM_eq_map_iff]
    exact hdecoded.mpr hplain

end

/-- The texts come back exactly when no character of a name or of units has a meaning in a format, the
initialised devices have two slots, and no other slot is valid. -/
theorem texts_recovered_iff (fmt : Formats) (time : PassTime) (conn : Option Conn) (w1 : DevList)
    (hcleared : ∀ d ∈ w1.devs, d.init ≠ 0 → d.SlotsCleared) :
    Recovered fmt time conn w1 ↔
      (∀ d ∈ w1.devs, d.init ≠ 0 → 2 ≤ d.s.length ∧ ∀ (j : ℕ) x, d.s[j]? = some x → x.valid = true → j < 2) ∧
        ∀ x ∈ w1.validSensors, x.Quotable := by
  constructor
  · intro h
    have hquotes := readLine_iff.mp h.csv
    have hsql := inserts_iff.mp h.sql
    obtain ⟨hlen, hother, hplain⟩ := (report_iff hcleared hquotes).mp h.xml
    constructor
    · intro d hd hinit
      exact ⟨hlen d hd hinit, otherSensors_eq_nil_iff.mp (hother d hd) hinit⟩
    · intro x hx
      exact ⟨(hquotes x hx).1, (hplain x hx).1, hsql x hx, (hquotes x hx).2, (hplain x hx).2⟩
  · rintro ⟨hslots, hquotable⟩
    have hquotes : ∀ x ∈ w1.validSensors, x.Unquoted :=
      fun x hx => ⟨(hquotable x hx).name_quote, (hquotable x hx).units_quote⟩
    constructor
    case csv => exact readLine_iff.mpr hquotes
    case sql => exact inserts_iff.mpr fun x hx => (hquotable x hx).name_sql
    case xml =>
      refine (report_iff hcleared hquotes).mpr ⟨fun d hd hinit => (hslots d hd hinit).1, ?_, ?_⟩
      · exact fun d hd => otherSensors_eq_nil_iff.mpr fun hinit => (hslots d hd hinit).2
      · exact fun x hx => ⟨(hquotable x hx).name_xml, (hquotable x hx).units_xml⟩

/-- Noon on the tenth of August. -/
def noon : PassTime where
  timb := "2008-08-10T12:00:00+0000".toList
  tval := "2008-08-10 12:00:00".toList
  timb_chars := by decide
  tval_chars := by decide

/-- A labelledBarometer of which the name and the units are given. -/
def labelledBarometer (abbrv units : CString) : DevList where
  devs := [{ init := 1, stype := .pres, ns := 1, ns_le := Nat.le_succ 1
             s := [{ abbrv := some abbrv, units := some units, value := 29, valid := true }, {}] }]
  logtime := 1218369600

theorem labelledBarometer_cleared (abbrv units : CString) :
    ∀ d ∈ (labelledBarometer abbrv units).devs, d.init ≠ 0 → d.SlotsCleared := by
  intro d hd _ j x hx hvalid
  obtain rfl := List.mem_singleton.mp hd
  match j with
  | 0 => exact Nat.one_pos
  | 1 =>
    obtain rfl := Option.some.inj hx
    exact absurd hvalid (by decide)
  | j + 2 => exact nomatch hx

theorem texts_recovered_sample : Recovered Formats.plain noon none (labelledBarometer "OPRS".toList "inHg".toList) := by
  refine (texts_recovered_iff _ _ _ _ (labelledBarometer_cleared _ _)).mpr ⟨?_, ?_⟩
  · intro d hd hinit
    obtain rfl := List.mem_singleton.mp hd
    exact ⟨le_rfl, fun j x hx hvalid => Nat.lt_succ_of_lt (labelledBarometer_cleared _ _ _ hd hinit j x hx hvalid)⟩
  · intro x hx
    obtain rfl := List.mem_singleton.mp hx
    exact ⟨by decide, by decide, trivial, by decide, by decide⟩

/-- A quote ends the field that it stands in. -/
theorem texts_lost : ¬ ∀ (fmt : Formats) (time : PassTime) (conn : Option Conn) (w1 : DevList),
    (∀ d ∈ w1.devs, d.init ≠ 0 → d.SlotsCleared) → Recovered fmt time conn w1 := by
  intro h
  have hcsv := (h Formats.plain noon none (labelledBarometer "Bob's".toList "\"Hg".toList) (labelledBarometer_cleared _ _)).csv
  have hunits := (readLine_iff.mp hcsv _ (List.mem_singleton.mpr rfl)).2
  exact absurd hunits (by decide)

end W1Retap

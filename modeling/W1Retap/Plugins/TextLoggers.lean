import W1Retap.Config.Show
import W1Retap.Main.Freshness

/-!
# Loggers that write text

`w1file`, `w1csv`, `w1xml` without libxml2 and `w1_tmpfilelog` each go through the devices
and their sensors with a loop of their own. Three of the loops stop at `ns`. The loop of
`w1xml` always looks at the first two sensors.
-/
namespace W1Retap

open Programs

/-- What is printed for a sensor. -/
structure LogEntry where
  reading : Reading
  text : CString
  deriving DecidableEq, Repr

/-! ## Loops -/

section
variable (line : Sensor → CString)

/-- The entry of sensor `j`, if it is valid. -/
def Device.entry (n : ℕ) (d : Device) (j : ℕ) : Option LogEntry :=
  (d.s[j]?).bind fun x => if x.valid then some ⟨⟨n, j, x.value⟩, line x⟩ else none

/-- The inner loop up to `devs->ns`. -/
def Device.entries (n : ℕ) (d : Device) : List LogEntry := (List.range d.ns).filterMap (d.entry line n)

/-- The loop over the devices that are initialised. -/
def DevList.entries (w1 : DevList) : List LogEntry :=
  (w1.devs.mapIdx fun n d => if d.init ≠ 0 then d.entries line n else []).flatten

/-- A slot that is read whether or not it is in use must be allocated. -/
def Device.slotEntry (n : ℕ) (d : Device) (j : ℕ) : Except Stop (Option LogEntry) :=
  if j < d.s.length then .ok (d.entry line n j) else .error .noSlot

/-- The inner loop of `w1xml`, for `j < 2`. -/
def Device.firstTwo (n : ℕ) (d : Device) : Except Stop (List LogEntry) :=
  ((List.range 2).mapM (d.slotEntry line n)).map List.reduceOption

/-- The outer loop of `w1xml`. -/
def Device.ifInit (d : Device) (n : ℕ) : Except Stop (List LogEntry) :=
  if d.init ≠ 0 then d.firstTwo line n else .ok []

def DevList.firstTwo (w1 : DevList) : Except Stop (List LogEntry) :=
  (w1.devs.zipIdx.mapM fun p : Device × ℕ => p.1.ifInit line p.2).map List.flatten

end

/-! ## Texts -/

/-- The texts of the entries, one after the other. -/
def printed (es : List LogEntry) : CString := es.flatMap LogEntry.text

section
variable (fmt : Formats) (timb : CString) (w1 : DevList)

def w1fileLine (x : Sensor) : CString :=
  timb ++ [w1.logDelim] ++ showStr x.abbrv ++ [w1.logDelim] ++ fmt.fixed 6 x.value ++
    [w1.logDelim] ++ x.units.getD [] ++
    (if w1.logTimet then [w1.logDelim] ++ showInt w1.logtime else []) ++ ['\n']

def w1csvLine (x : Sensor) : CString :=
  ",\"".toList ++ showStr x.abbrv ++ "\",".toList ++ fmt.fixed 6 x.value ++ ",\"".toList ++
    x.units.getD [] ++ ['"']

def w1xmlLine (x : Sensor) : CString :=
  "  <sensor name=\"".toList ++ showStr x.abbrv ++ "\" value=\"".toList ++ fmt.fixed 4 x.value ++
    "\" units=\"".toList ++ x.units.getD [] ++ "\"></sensor>\n".toList

def tmpfileLine (x : Sensor) : CString :=
  showStr x.abbrv ++ ['='] ++ fmt.fixed 2 x.value ++ [' '] ++ x.units.getD [] ++ ['\n']

/-- `w1_logger` of `w1file.c`, from the file it has opened on; `timb` is the time of the pass. -/
def w1fileText : CString := printed (w1.entries (w1fileLine fmt timb w1))

/-- `w1_logger` of `w1csv.c` -/
def w1csvText : CString :=
  ['"'] ++ timb ++ ['"'] ++ printed (w1.entries (w1csvLine fmt)) ++ ['\n']

def xmlHead : CString :=
  "<?xml version=\"1.0\" encoding=\"utf-8\"?>\n".toList ++ "<report timestamp=\"".toList ++ timb ++
    "\" unixepoch=\"".toList ++ showInt w1.logtime ++ "\" sane=\"no\">\n".toList

/-- `w1_logger` of `w1xml.c` without libxml2 -/
def w1xmlText : Except Stop CString := do
  let es ← w1.firstTwo (w1xmlLine fmt)
  return xmlHead timb w1 ++ printed es ++ "</report>\n".toList

/-- What `w1_tmpfilelog` writes, if it writes. -/
def tmpfileText : Option CString :=
  let es := w1.entries (tmpfileLine fmt)
  if printed es ≠ [] then
    some (printed es ++ ("udate=".toList ++ showInt w1.logtime ++ "\ndate=".toList ++ timb ++ ['\n']))
  else none

/-- The loggers that write text. -/
inductive TextLogger where
  | file | csv | xml | tmpfile
  deriving DecidableEq, Repr

/-- The entries that a logger prints. -/
def TextLogger.entries : TextLogger → Except Stop (List LogEntry)
  | .file => .ok (w1.entries (w1fileLine fmt timb w1))
  | .csv => .ok (w1.entries (w1csvLine fmt))
  | .xml => w1.firstTwo (w1xmlLine fmt)
  | .tmpfile => .ok (w1.entries (tmpfileLine fmt))

/-- What a logger writes. -/
def TextLogger.text : TextLogger → Except Stop CString
  | .file => .ok (w1fileText fmt timb w1)
  | .csv => .ok (w1csvText fmt timb w1)
  | .xml => w1xmlText fmt timb w1
  | .tmpfile => .ok ((tmpfileText fmt timb w1).getD [])

/-- One entry for each valid sensor in use of each initialised device, in order, and no other. -/
def TextLogger.Complete (logger : TextLogger) : Prop :=
  ∃ es, logger.entries fmt timb w1 = .ok es ∧ es.map LogEntry.reading = w1.snapshot

variable {fmt timb w1}

/-- The entries are written one after the other. -/
theorem TextLogger.text_of_entries {logger : TextLogger} {es : List LogEntry}
    (h : logger.entries fmt timb w1 = .ok es) :
    ∃ head tail, logger.text fmt timb w1 = .ok (head ++ printed es ++ tail) := by
  cases logger with
  | file =>
    obtain rfl := Except.ok.inj h
    exact ⟨[], [], by simp [text, w1fileText]⟩
  | csv =>
    obtain rfl := Except.ok.inj h
    exact ⟨['"'] ++ timb ++ ['"'], ['\n'], rfl⟩
  | xml =>
    change w1.firstTwo (w1xmlLine fmt) = .ok es at h
    refine ⟨xmlHead timb w1, "</report>\n".toList, ?_⟩
    rw [text, w1xmlText, h]
    rfl
  | tmpfile =>
    obtain rfl := Except.ok.inj h
    rw [text, tmpfileText]
    by_cases hprinted : printed (w1.entries (tmpfileLine fmt)) = []
    · exact ⟨[], [], by simp [hprinted]⟩
    · rw [if_pos hprinted]
      exact ⟨[], _, rfl⟩

end

/-! ## The loops up to `ns` -/

section
variable {line : Sensor → CString} {w1 : DevList} {d : Device} {n j : ℕ} {e : LogEntry}

theorem entry_eq_some :
    d.entry line n j = some e ↔
      ∃ x, d.s[j]? = some x ∧ x.valid = true ∧ e = ⟨⟨n, j, x.value⟩, line x⟩ := by
  unfold Device.entry
  rw [Option.bind_eq_some_iff]
  constructor
  · rintro ⟨x, hx, h⟩
    by_cases hvalid : x.valid = true
    · rw [if_pos hvalid] at h
      exact ⟨x, hx, hvalid, (Option.some.inj h).symm⟩
    · rw [if_neg hvalid] at h
      cases h
  · rintro ⟨x, hx, hvalid, rfl⟩
    exact ⟨x, hx, if_pos hvalid⟩

theorem entries_reading : (d.entries line n).map LogEntry.reading = d.readings n := by
  unfold Device.entries Device.readings
  rw [List.map_filterMap]
  congr 1
  funext j
  unfold Device.entry
  cases d.s[j]? with
  | none => rfl
  | some x =>
    rw [Option.bind_some, Option.bind_some]
    split <;> rfl

/-- A loop up to `ns` finds the snapshot. -/
theorem entries_snapshot : (w1.entries line).map LogEntry.reading = w1.snapshot := by
  unfold DevList.entries DevList.snapshot
  rw [List.map_flatten]
  congr 1
  refine (List.mapIdx_eq_iff.mpr fun n => ?_).symm
  rw [List.getElem?_map, List.getElem?_mapIdx, Option.map_map]
  congr 1
  funext d
  rw [Function.comp_apply]
  split
  · exact entries_reading
  · rfl

/-- The sensors that a loop up to `ns` prints. -/
def Device.validSensors (d : Device) : List Sensor :=
  if d.init ≠ 0 then (d.s.take d.ns).filter (·.valid) else []

def DevList.validSensors (w1 : DevList) : List Sensor := w1.devs.flatMap Device.validSensors

/-- The first `k` entries of a list, one by one. -/
theorem filterMap_range_getElem? {α β : Type} (f : α → Option β) (l : List α) (k : ℕ) :
    ((List.range k).filterMap fun j => (l[j]?).bind f) = (l.take k).filterMap f := by
  induction k with
  | zero => rfl
  | succ k ih =>
    rw [List.range_succ, List.filterMap_append, ih, List.take_add_one, List.filterMap_append]
    congr 1
    cases h : l[k]? <;> simp [List.filterMap_cons, h]

/-- A loop up to `k` prints the valid sensors before slot `k`. -/
theorem entry_text (k : ℕ) :
    ((List.range k).filterMap (d.entry line n)).map LogEntry.text = ((d.s.take k).filter (·.valid)).map line := by
  have hentry : ∀ j, (d.entry line n j).map LogEntry.text =
      (d.s[j]?).bind fun x => if x.valid then some (line x) else none := by
    intro j
    unfold Device.entry
    cases d.s[j]? with
    | none => rfl
    | some x =>
      rw [Option.bind_some, Option.bind_some]
      split <;> rfl
  have hpick : ∀ xs : List Sensor, (xs.filterMap fun x => if x.valid then some (line x) else none) =
      (xs.filter (·.valid)).map line := by
    intro xs
    rw [← List.filterMap_eq_map, ← List.filterMap_eq_filter, List.filterMap_filterMap]
    congr 1
    funext x
    by_cases hx : x.valid = true <;> simp [Option.guard, hx]
  rw [List.map_filterMap]
  simp only [hentry]
  rw [filterMap_range_getElem?, hpick]

/-- What the inner loop prints for each device is what the outer loop prints. -/
theorem flatten_text {seen : ℕ → Device → List LogEntry} {sensors : Device → List Sensor}
    (h : ∀ n d, (seen n d).map LogEntry.text = (sensors d).map line) :
    (w1.devs.mapIdx seen).flatten.map LogEntry.text = (w1.devs.flatMap sensors).map line := by
  have hdevs : w1.devs = w1.devs.zipIdx.map Prod.fst := by simp
  rw [List.mapIdx_eq_zipIdx_map, List.map_flatten, List.map_map]
  conv_rhs => rw [hdevs, List.flatMap_map, List.map_flatMap, List.flatMap_def]
  exact congrArg List.flatten (List.map_congr_left fun p _ => h p.2 p.1)

/-- A loop up to `ns` prints the valid sensors in use. -/
theorem entries_text : (w1.entries line).map LogEntry.text = w1.validSensors.map line := by
  refine flatten_text fun n d => ?_
  unfold Device.validSensors
  split
  · exact entry_text d.ns
  · rfl

/-! ## The loop of `w1xml` -/

theorem slotEntry_eq_ok {r : Option LogEntry} :
    d.slotEntry line n j = .ok r ↔ j < d.s.length ∧ r = d.entry line n j := by
  unfold Device.slotEntry
  by_cases hj : j < d.s.length
  · rw [if_pos hj, Except.ok.injEq, and_iff_right hj, eq_comm]
  · rw [if_neg hj]
    constructor
    · exact nofun
    · exact fun h => absurd h.1 hj

theorem firstTwo_eq_ok {es : List LogEntry} :
    d.firstTwo line n = .ok es ↔
      2 ≤ d.s.length ∧ es = (List.range 2).filterMap (d.entry line n) := by
  have hmap : ((List.range 2).map (d.entry line n)).reduceOption =
      (List.range 2).filterMap (d.entry line n) := by
    rw [List.reduceOption, List.filterMap_map]
    rfl
  have hall : (∀ j ∈ List.range 2, j < d.s.length) ↔ 2 ≤ d.s.length := by
    constructor
    · exact fun h => h 1 (by simp)
    · intro h j hj
      have := List.mem_range.mp hj
      omega
  unfold Device.firstTwo
  simp only [map_ok, mapM_ok_iff fun _ _ => slotEntry_eq_ok, hall]
  constructor
  · rintro ⟨_, ⟨hlen, rfl⟩, rfl⟩
    exact ⟨hlen, hmap⟩
  · rintro ⟨hlen, rfl⟩
    exact ⟨_, ⟨hlen, rfl⟩, hmap⟩

/-- What an inner loop up to `k` finds in a device. -/
def Device.seen (line : Sensor → CString) (k n : ℕ) (d : Device) : List LogEntry :=
  if d.init ≠ 0 then (List.range k).filterMap (d.entry line n) else []

theorem ifInit_eq_ok {es : List LogEntry} :
    d.ifInit line n = .ok es ↔ (d.init ≠ 0 → 2 ≤ d.s.length) ∧ es = d.seen line 2 n := by
  unfold Device.ifInit Device.seen
  by_cases hinit : d.init ≠ 0
  · rw [if_pos hinit, if_pos hinit, firstTwo_eq_ok]
    exact and_congr_left fun _ => ⟨fun h _ => h, fun h => h hinit⟩
  · rw [if_neg hinit, if_neg hinit, Except.ok.injEq, eq_comm]
    exact ⟨fun h => ⟨fun hi => absurd hi hinit, h⟩, fun h => h.2⟩

/-- The loop of `w1xml` ends when the initialised devices have two slots. -/
theorem allFirstTwo_eq_ok {es : List LogEntry} :
    w1.firstTwo line = .ok es ↔ (∀ d ∈ w1.devs, d.init ≠ 0 → 2 ≤ d.s.length) ∧
      es = (w1.devs.mapIdx (Device.seen line 2)).flatten := by
  have hall : (∀ p ∈ w1.devs.zipIdx, p.1.init ≠ 0 → 2 ≤ p.1.s.length) ↔
      ∀ d ∈ w1.devs, d.init ≠ 0 → 2 ≤ d.s.length := by
    constructor
    · intro h d hd
      obtain ⟨n, hn⟩ := List.getElem?_of_mem hd
      exact h (d, n) (List.mk_mem_zipIdx_iff_getElem?.mpr hn)
    · rintro h ⟨d, n⟩ hp
      exact h d (List.mem_of_getElem? (List.mk_mem_zipIdx_iff_getElem?.mp hp))
  unfold DevList.firstTwo
  rw [map_ok, List.mapIdx_eq_zipIdx_map]
  have hpass : ∀ ess, (w1.devs.zipIdx.mapM fun p : Device × ℕ => p.1.ifInit line p.2) = .ok ess ↔
      (∀ p ∈ w1.devs.zipIdx, p.1.init ≠ 0 → 2 ≤ p.1.s.length) ∧
        ess = w1.devs.zipIdx.map fun p => p.1.seen line 2 p.2 :=
    fun ess => mapM_ok_iff fun p es => ifInit_eq_ok
  simp only [hpass, hall]
  constructor
  · rintro ⟨_, ⟨hlen, rfl⟩, rfl⟩
    exact ⟨hlen, rfl⟩
  · rintro ⟨hlen, rfl⟩
    exact ⟨_, ⟨hlen, rfl⟩, rfl⟩

/-- The sensors that the loop of `w1xml` prints. -/
def Device.firstSensors (d : Device) : List Sensor := if d.init ≠ 0 then (d.s.take 2).filter (·.valid) else []

def DevList.firstSensors (w1 : DevList) : List Sensor := w1.devs.flatMap Device.firstSensors

theorem firstTwo_text {es : List LogEntry} (h : w1.firstTwo line = .ok es) :
    es.map LogEntry.text = w1.firstSensors.map line := by
  obtain ⟨-, rfl⟩ := allFirstTwo_eq_ok.mp h
  refine flatten_text fun n d => ?_
  unfold Device.seen Device.firstSensors
  split
  · exact entry_text 2
  · rfl

/-! ## What the first two slots show -/

theorem mem_flatten_mapIdx {α β : Type} {f : ℕ → α → List β} {l : List α} {b : β} :
    b ∈ (l.mapIdx f).flatten ↔ ∃ n a, l[n]? = some a ∧ b ∈ f n a := by
  rw [List.mem_flatten]
  constructor
  · rintro ⟨bs, hbs, hb⟩
    obtain ⟨n, hn, rfl⟩ := List.mem_mapIdx.mp hbs
    exact ⟨n, _, List.getElem?_eq_getElem hn, hb⟩
  · rintro ⟨n, a, ha, hb⟩
    obtain ⟨hn, rfl⟩ := List.getElem?_eq_some_iff.mp ha
    exact ⟨_, List.mem_mapIdx.mpr ⟨n, hn, rfl⟩, hb⟩

/-- A sensor is reported when it is valid and comes before the bound of its device. -/
theorem mem_seen (line : Sensor → CString) (bound : Device → ℕ) {x : Sensor}
    (hd : w1.devs[n]? = some d) (hinit : d.init ≠ 0) (hx : d.s[j]? = some x) :
    (⟨n, j, x.value⟩ : Reading) ∈
        ((w1.devs.mapIdx fun n d => d.seen line (bound d) n).flatten.map LogEntry.reading) ↔
      j < bound d ∧ x.valid = true := by
  rw [List.mem_map]
  simp only [mem_flatten_mapIdx]
  constructor
  · rintro ⟨e, ⟨m, d', hd', he⟩, hreading⟩
    unfold Device.seen at he
    split at he
    · obtain ⟨i, hi, he⟩ := List.mem_filterMap.mp he
      obtain ⟨y, hy, hvalid, rfl⟩ := entry_eq_some.mp he
      obtain ⟨rfl, rfl, -⟩ := Reading.mk.inj hreading
      obtain rfl := Option.some.inj (hd.symm.trans hd')
      obtain rfl := Option.some.inj (hx.symm.trans hy)
      exact ⟨List.mem_range.mp hi, hvalid⟩
    · cases he
  · rintro ⟨hj, hvalid⟩
    refine ⟨⟨⟨n, j, x.value⟩, line x⟩, ⟨n, d, hd, ?_⟩, rfl⟩
    unfold Device.seen
    rw [if_pos hinit]
    exact List.mem_filterMap.mpr ⟨j, List.mem_range.mpr hj, entry_eq_some.mpr ⟨x, hx, hvalid, rfl⟩⟩

/-- Two bounds that agree where there is something to find. -/
theorem filterMap_range_congr {α : Type} {f : ℕ → Option α} {k m : ℕ}
    (h : ∀ j, (f j).isSome = true → (j < k ↔ j < m)) :
    (List.range k).filterMap f = (List.range m).filterMap f := by
  have hle : ∀ k m, (∀ j, (f j).isSome = true → (j < k ↔ j < m)) → k ≤ m →
      (List.range k).filterMap f = (List.range m).filterMap f := by
    intro k m h hkm
    obtain ⟨r, rfl⟩ := Nat.exists_eq_add_of_le hkm
    rw [List.range_add, List.filterMap_append]
    have hrest : ((List.range r).map (k + ·)).filterMap f = [] := by
      rw [List.filterMap_eq_nil_iff]
      intro j hj
      obtain ⟨i, hi, rfl⟩ := List.mem_map.mp hj
      by_contra hne
      have hsome := h (k + i) (Option.isSome_iff_ne_none.mpr hne)
      have := List.mem_range.mp hi
      omega
    rw [hrest, List.append_nil]
  rcases Nat.le_total k m with hkm | hmk
  · exact hle k m h hkm
  · exact (hle m k (fun j hj => (h j hj).symm) hmk).symm

end

/-- A converter of which three channels were read. -/
def threeChannels : DevList where
  devs := [{ init := 1, stype := .ds2450, ns := 3
             s := [{ abbrv := some "ADA".toList, valid := true, value := 1 },
               { abbrv := some "ADB".toList, valid := true, value := 2 },
               { abbrv := some "ADC".toList, valid := true, value := 3 }] }]

end W1Retap

import W1Retap.Sensors.Setup
import W1Retap.Support.Hex

/-!
# Serial numbers from listing to selection

`w1find` prints the ROM code of every device it finds, and the table of sensors holds what was
printed. The serial number that `w1_make_serial` reads from such a text is the ROM code, so that
a selection accepts the device that was listed and no other.
-/
namespace W1Retap

open CStrings Programs

/-! ## The listing -/

/-- `w1devs_t` -/
structure W1Devs where
  dev : Option String
  name : String
  family : UInt8

def devlist : List W1Devs :=
  [⟨"2401", "silicon serial number", 1⟩,
   ⟨"2411", "silicon serial number Vcc input", 1⟩,
   ⟨"1425", "multikey 1153bit secure", 2⟩,
   ⟨"2404", "econoram time chip", 4⟩,
   ⟨"2405", "Addresable Switch", 5⟩,
   ⟨none, "4k memory ibutton", 6⟩,
   ⟨none, "1k memory ibutton", 8⟩,
   ⟨"2502", "1k add-only memory", 9⟩,
   ⟨none, "16k memory ibutton", 0xA⟩,
   ⟨"2505", "16k add-only memory", 0x0B⟩,
   ⟨none, "64k memory ibutton", 0xC⟩,
   ⟨"2506", "64k add-only  memory", 0x0F⟩,
   ⟨"18S20", "high precision digital thermometer", 0x10⟩,
   ⟨"2406", "dual addressable switch plus 1k memory", 0x12⟩,
   ⟨"2407", "dual addressable switch plus 1k memory", 0x12⟩,
   ⟨"2430A", "256 eeprom", 0x14⟩,
   ⟨none, "4k Monetary", 0x1A⟩,
   ⟨"2436", "battery id/monitor chip", 0x1B⟩,
   ⟨"28E04-100", "4k EEPROM with PIO", 0x1C⟩,
   ⟨"2423", "4k ram with counter", 0x1D⟩,
   ⟨"2409", "microlan coupler", 0x1F⟩,
   ⟨"2450", "quad a/d converter", 0x20⟩,
   ⟨none, "Thermachron", 0x21⟩,
   ⟨"1822", "Econo Digital Thermometer", 0x22⟩,
   ⟨"2433", "4k eeprom", 0x23⟩,
   ⟨"2415", "time chip", 0x24⟩,
   ⟨"2438", "smart battery monitor", 0x26⟩,
   ⟨"2417", "time chip with interrupt", 0x27⟩,
   ⟨"18B20", "programmable resolution digital thermometer", 0x28⟩,
   ⟨"2408", "8-channel addressable switch", 0x29⟩,
   ⟨"2890", "digital potentiometer", 0x2C⟩,
   ⟨"2431", "1k eeprom", 0x2D⟩,
   ⟨"2770", "battery monitor and charge controller", 0x2E⟩,
   ⟨"2760", "high-precision li+ battery monitor", 0x30⟩,
   ⟨"2761", "high precision li+ battery monitor", 0x30⟩,
   ⟨"2762", "high precision li+ battery monitor with alerts", 0x30⟩,
   ⟨"2720", "efficient addressable single-cell rechargable lithium protection ic", 0x31⟩,
   ⟨"2432", "1k protected eeprom with SHA-1", 0x33⟩,
   ⟨"2740", "high precision coulomb counter", 0x36⟩,
   ⟨none, "Password protected 32k eeprom", 0x37⟩,
   ⟨"2413", "dual channel addressable switch", 0x3A⟩,
   ⟨"2422", "Temperature Logger 8k mem", 0x41⟩,
   ⟨"2751", "multichemistry battery fuel gauge", 0x51⟩,
   ⟨none, "Serial ID Button", 0x81⟩,
   ⟨"2404S", "dual port plus time", 0x84⟩,
   ⟨"2502-E48 2502-UNW", "48 bit node address chip", 0x89⟩,
   ⟨"2505-UNW", "16k add-only uniqueware", 0x8B⟩,
   ⟨"2506-UNW", "64k add-only uniqueware", 0x8F⟩,
   ⟨"HB1WT", "Hobbyboards with temperature", 0xEE⟩,
   ⟨"HB1W", "Hobbyboards without temperature", 0xEF⟩,
   ⟨"LCD", "LCD (Swart)", 0xFF⟩]

/-- What `listdev` prints: the first entry of the family, if there is one. -/
def listdev (id : Serno) : CString :=
  match devlist.find? (·.family == id.family) with
  | some w => '\t' :: (w.dev.getD "").toList ++ ':' :: w.name.toList
  | none => []

/-- What `showid` prints. -/
def showid (id : Serno) : CString := id.toList.flatMap Hex.byteText ++ listdev id ++ ['\n']

/-! ## The digits -/

theorem of_ascii {p : Char → Prop} (h : ∀ n < 128, p (Char.ofNat n)) {c : Char} (hc : c ≤ 'z') :
    p c := by
  have hlt : c.toNat ≤ 122 := hc
  have hp := h c.toNat (by omega)
  rwa [Char.ofNat_toNat] at hp

theorem toHex_of_not (c : Char) (h : isxdigit c = false) : toHex c = 0 := by
  simp only [isxdigit, Bool.or_eq_false_iff, Bool.and_eq_false_iff, decide_eq_false_iff_not] at h
  unfold toHex
  grind

theorem isxdigit_le {c : Char} (h : isxdigit c = true) : c ≤ 'z' := by
  simp only [isxdigit, Bool.or_eq_true, Bool.and_eq_true, decide_eq_true_eq] at h
  rcases h with (⟨-, h⟩ | ⟨-, h⟩) | ⟨-, h⟩ <;> exact h.trans (by decide)

theorem reads_toHex : Hex.Reads toHex where
  lt := by
    intro c
    by_cases hc : isxdigit c = true
    · exact of_ascii (p := fun c => toHex c < 16) (by decide +kernel) (isxdigit_le hc)
    · rw [toHex_of_not c (by simpa using hc)]
      decide
  digit := by decide +kernel
  caseless := by
    intro c
    by_cases hc : 'A' ≤ c ∧ c ≤ 'Z'
    · exact of_ascii (p := fun c => toHex (tolower c) = toHex c) (by decide +kernel)
        (hc.2.trans (by decide))
    · rw [tolower, if_neg hc]
  inj := by
    intro c c' hc hc'
    -- a digit in lower case is told by its value
    have hlower : ∀ c, isxdigit c = true → tolower c = tolower (Hex.digit (toHex c).toNat) := by
      intro c hc
      exact of_ascii (p := fun c => isxdigit c = true → tolower c = tolower (Hex.digit (toHex c).toNat))
        (by decide +kernel) (isxdigit_le hc) hc
    intro h
    rw [hlower c hc, hlower c' hc', h]
  other := by
    intro c hc
    rw [toHex_of_not c hc]
    rfl

/-! ## Serial texts -/

/-- The first sixteen characters are hexadecimal digits. -/
def HexDigits (t : CString) : Prop := 16 ≤ t.length ∧ ∀ c ∈ t.take 16, isxdigit c = true

/-- The sixteen characters that `w1_make_serial` reads, of which the last may be the NUL. -/
def serialChars (t : CString) : CString := (List.range 16).map fun j => t.getD j '\x00'

/-- The digits that they count as. -/
def digitsRead (t : CString) : CString := (serialChars t).map Hex.counted

section
variable {t t' : CString} {id : Serno}

theorem length_serialChars : (serialChars t).length = 2 * 8 := by
  rw [serialChars, List.length_map, List.length_range]

theorem serialChars_eq (h : 16 ≤ t.length) : serialChars t = t.take 16 := by
  apply List.ext_getElem
  · rw [length_serialChars, List.length_take]
    omega
  · intro j hj _
    rw [length_serialChars] at hj
    have hlt : j < t.length := by omega
    simp [serialChars, hlt]

theorem HexDigits.digitsRead_eq (h : HexDigits t) : digitsRead t = t.take 16 := by
  rw [digitsRead, serialChars_eq h.1, Hex.map_counted h.2]

/-- The serial number is read two characters at a time. -/
theorem w1MakeSerial_ok : w1MakeSerial (some t) = .ok id ↔
    15 ≤ t.length ∧ id.toList = Hex.readPairs toHex (serialChars t) := by
  have hread : Hex.readPairs toHex (serialChars t) = (Vector.ofFn fun i : Fin 8 =>
      (toHex (t.getD (2 * i) '\x00') <<< 4) + toHex (t.getD (2 * i + 1) '\x00')).toList := by
    rw [Hex.readPairs_eq_ofFn '\x00' 8 length_serialChars, Vector.toList_ofFn]
    congr 1
    funext i
    have hchar : ∀ j < 16, (serialChars t).getD j '\x00' = t.getD j '\x00' := by
      intro j hj
      simp [serialChars, hj]
    rw [hchar _ (by omega), hchar _ (by omega)]
    rfl
  rw [hread, Vector.toList_inj, w1MakeSerial]
  by_cases hlt : t.length < 15
  · simp [hlt]
  · rw [if_neg hlt, Except.ok.injEq, eq_comm]
    exact (and_iff_right (by omega)).symm

/-- Texts have one serial number when the digits that are read are equal up to case. -/
theorem w1MakeSerial_inj (h : w1MakeSerial (some t) = .ok id) :
    w1MakeSerial (some t') = .ok id ↔
      15 ≤ t'.length ∧ strcaseeq (digitsRead t) (digitsRead t') = true := by
  rw [w1MakeSerial_ok, (w1MakeSerial_ok.mp h).2, digitsRead, digitsRead,
    ← Hex.map_value_eq_iff reads_toHex]
  rw [Hex.readPairs_inj reads_toHex 8 length_serialChars length_serialChars]

/-! ## What is listed -/

theorem take_showid (id : Serno) : (showid id).take 16 = id.toList.flatMap Hex.byteText := by
  have hlen : (id.toList.flatMap Hex.byteText).length = 16 := by
    rw [Hex.length_flatMap, Vector.length_toList]
  rw [showid, List.append_assoc, List.take_append_of_le_length hlen.ge, ← hlen, List.take_length]

/-- A listed line begins with sixteen digits. -/
theorem hexDigits_showid (id : Serno) : HexDigits (showid id) := by
  constructor
  · have hlen : ((showid id).take 16).length = 16 := by
      rw [take_showid, Hex.length_flatMap, Vector.length_toList]
    rw [List.length_take] at hlen
    omega
  · rw [take_showid]
    exact Hex.isxdigit_flatMap _

/-- The text that is listed, in any case, has the serial number of the device. -/
theorem w1MakeSerial_listed (h : strcaseeq (t.take 16) ((showid id).take 16) = true) :
    w1MakeSerial (some t) = .ok id := by
  have hlen : 16 ≤ t.length := by
    rw [strcaseeq, beq_iff_eq] at h
    have hlen := congrArg List.length h
    rw [List.length_map, List.length_map, List.length_take, List.length_take] at hlen
    have hid := (hexDigits_showid id).1
    omega
  have hsame : Hex.readPairs toHex (serialChars t) = Hex.readPairs toHex ((showid id).take 16) := by
    apply (Hex.readPairs_inj reads_toHex 8 length_serialChars ?_).mpr
    · rw [serialChars_eq hlen]
      exact Hex.map_value_congr reads_toHex h
    · rw [take_showid, Hex.length_flatMap, Vector.length_toList]
  rw [w1MakeSerial_ok, hsame, take_showid, Hex.readPairs_flatMap reads_toHex]
  exact ⟨by omega, rfl⟩

theorem w1MakeSerial_showid (id : Serno) : w1MakeSerial (some (showid id)) = .ok id :=
  w1MakeSerial_listed (beq_self_eq_true _)

/-- A text has the serial number of a device when the digits that are read are those listed. -/
theorem w1MakeSerial_iff_listed (ht : 15 ≤ t.length) :
    w1MakeSerial (some t) = .ok id ↔ strcaseeq (digitsRead t) ((showid id).take 16) = true := by
  rw [w1MakeSerial_inj (w1MakeSerial_showid id), (hexDigits_showid id).digitsRead_eq,
    and_iff_right ht, strcaseeq, strcaseeq, beq_iff_eq, beq_iff_eq, eq_comm]

end

/-! ## Selection -/

section
variable {σ : Type} {drv : Driver σ} {s s' : Machine σ} {n : ℕ} {d : Device} {found : Bool}

/-- A selection tells whether the search delivers the serial number of the device. -/
theorem w1SelectDevice_ok (hd : s.w1.devs[n]? = some d)
    (h : (w1SelectDevice drv n).run s = .ok (found, s')) :
    ∃ b, s'.bus = (drv.owSearch d.serno.family d.serno b).2 ∧
      found = (drv.owSearch d.serno.family d.serno b).1.contains d.serno := by
  rw [w1SelectDevice, run_getW1_bind, run_dev_bind hd] at h
  obtain ⟨_, s₁, -, h⟩ := run_bind_ok.mp h
  obtain ⟨_, s₂, -, h⟩ := run_bind_ok.mp h
  rw [run_event_bind, run_call_bind] at h
  obtain ⟨hfound, rfl⟩ := run_pure_ok.mp h
  exact ⟨s₂.bus, rfl, hfound⟩

/-- The serial number of a device that has been read before is that of its text. -/
def Device.Made (d : Device) : Prop := d.init = 0 ∨ w1MakeSerial d.serial = .ok d.serno

theorem makeSerial_ok {u : Unit} (hd : s.w1.devs[n]? = some d) (hmade : d.Made)
    (h : (makeSerial n).run s = .ok (u, s')) :
    ∃ d', s'.w1.devs[n]? = some d' ∧ w1MakeSerial d.serial = .ok d'.serno := by
  rw [makeSerial, run_dev_bind hd] at h
  by_cases hinit : d.init = 0
  · rw [if_pos hinit] at h
    obtain ⟨serno, s₁, hlift, hmodify⟩ := run_bind_ok.mp h
    obtain ⟨hserno, rfl⟩ := run_lift_ok.mp hlift
    obtain rfl := run_modifyDev_ok.mp hmodify
    refine ⟨{ d with serno, init := 1 }, ?_, hserno⟩
    rw [Machine.modifyDev_getElem?, if_pos rfl, hd, Option.map_some]
  · rw [if_neg hinit] at h
    obtain ⟨-, rfl⟩ := run_pure_ok.mp h
    exact ⟨d, hd, hmade.resolve_left hinit⟩

/-- The device whose serial number is made and that is then selected is found when the search
delivers a device that is listed under its text. -/
theorem select_listed {t : CString} (hd : s.w1.devs[n]? = some d) (hserial : d.serial = some t)
    (hmade : d.Made) (h : (do makeSerial n; w1SelectDevice drv n).run s = .ok (found, s')) :
    ∃ (serno : Serno) (b : σ), w1MakeSerial (some t) = .ok serno ∧
      s'.bus = (drv.owSearch serno.family serno b).2 ∧
      (found = true ↔ ∃ id ∈ (drv.owSearch serno.family serno b).1,
        strcaseeq (digitsRead t) ((showid id).take 16) = true) := by
  obtain ⟨_, s₁, hmake, hselect⟩ := run_bind_ok.mp h
  obtain ⟨d', hd', hserno⟩ := makeSerial_ok hd hmade hmake
  rw [hserial] at hserno
  obtain ⟨b, hbus, hfound⟩ := w1SelectDevice_ok hd' hselect
  refine ⟨d'.serno, b, hserno, hbus, ?_⟩
  have hlen := (w1MakeSerial_ok.mp hserno).1
  rw [hfound, List.contains_iff_mem]
  constructor
  · intro hmem
    exact ⟨d'.serno, hmem, (w1MakeSerial_iff_listed hlen).mp hserno⟩
  · rintro ⟨id, hmem, hlisted⟩
    have hid := (w1MakeSerial_iff_listed hlen).mpr hlisted
    obtain rfl := Except.ok.inj (hid.symm.trans hserno)
    exact hmem

end

/-- The serial number made from the text that is listed for a device, in any case, is the ROM code
of the device. Two texts have the same serial number only if the sixteen digits that are read, where
any other character counts as zero, are equal up to case; in texts that begin with sixteen digits
these are their first sixteen characters. And a selection accepts exactly the device that was listed. -/
theorem serial_text_round_trip :
    (∀ (id : Serno) (t : CString), HexDigits (showid id) ∧
      (strcaseeq (t.take 16) ((showid id).take 16) = true → w1MakeSerial (some t) = .ok id)) ∧
    (∀ (t t' : CString) (id : Serno), w1MakeSerial (some t) = .ok id → w1MakeSerial (some t') = .ok id →
      strcaseeq (digitsRead t) (digitsRead t') = true ∧
        (HexDigits t → HexDigits t' → strcaseeq (t.take 16) (t'.take 16) = true)) ∧
    (∀ {σ : Type} (drv : Driver σ) (s s' : Machine σ) (n : ℕ) (d : Device) (t : CString) (found : Bool),
      s.w1.devs[n]? = some d → d.serial = some t → d.Made →
      (do makeSerial n; w1SelectDevice drv n).run s = .ok (found, s') →
      ∃ (serno : Serno) (b : σ), w1MakeSerial (some t) = .ok serno ∧
        s'.bus = (drv.owSearch serno.family serno b).2 ∧
        (found = true ↔ ∃ id ∈ (drv.owSearch serno.family serno b).1,
          strcaseeq (digitsRead t) ((showid id).take 16) = true)) := by
  refine ⟨?_, ?_, ?_⟩
  · intro id t
    exact ⟨hexDigits_showid id, w1MakeSerial_listed⟩
  · intro t t' id ht ht'
    have hsame := ((w1MakeSerial_inj ht).mp ht').2
    refine ⟨hsame, fun hhex hhex' => ?_⟩
    rwa [hhex.digitsRead_eq, hhex'.digitsRead_eq] at hsame
  · intro σ drv s s' n d t found hd hserial hmade h
    exact select_listed hd hserial hmade h

theorem serial_text_sample : w1MakeSerial (some "10f5C2be000800A4\tgarden".toList) =
    .ok #v[0x10, 0xF5, 0xC2, 0xBE, 0x00, 0x08, 0x00, 0xA4] :=
  (serial_text_round_trip.1 _ _).2 (by decide +kernel)

/-- A thermometer that is configured in lower case is found. -/
example : ((do makeSerial 0; w1SelectDevice { Driver.silent with owSearch := fun _ _ b =>
      ([#v[0x10, 0xF5, 0xC2, 0xBE, 0x00, 0x08, 0x00, 0xA4]], b) } 0).run
    { w1 := { devs := [{ serial := some "10f5c2be000800a4".toList, stype := .temp }] },
      bus := () }).toOption.map Prod.fst = some true := by decide +kernel

end W1Retap

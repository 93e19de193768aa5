import W1Retap.Sensors.Alone
import W1Retap.Sensors.Params
import W1Retap.Sensors.ReadAll

/-!
# Sensor slots

Five readers go to a fixed slot of their device, whatever sensors it has, and most search for
sensors by name. A device without sensors has no slots, and a search stops the process at a
sensor without a name unless it has found one before.
-/
namespace W1Retap

open Programs

/-- The process goes to a slot that is not allocated, or searches in a name that is not set. -/
def SlotStop (e : Stop) : Prop := e = .noSlot ∨ e = .noName

/-- The readers that go to slot 0 and slot 1 of any device. -/
def W1Type.usesSlots : W1Type → Bool
  | .temp | .counter | .humid | .hih | .windvane => true
  | _ => false

def channelNames : List String := ["vdd", "vad", "vsens", "temp"]

/-- The names that the readers search for. `Solar`, `ultra` and `violet` are left out: when one
of them is searched for, a search has come to the end, and all sensors have names. With two
parameters `w1_read_bray` gets no further than the third one. -/
def searchedNames (params : Option (List ℚ)) : W1Type → List String
  | .humid => channelNames ++ ["Temp", "Humidity"]
  | .hih => channelNames ++ ["Humidity"]
  | .bray => channelNames ++ if (params.getD []).length = 2 then [] else ["Pres"]
  | .hbbaro => channelNames ++ ["Pres"]
  | .msTc => channelNames ++ ["current"]
  | .ds2438v => channelNames
  | .pres => ["Temp", "Pres"]
  | .sht11 | .ds1923 | .hbht => ["Temp", "Humidity"]
  | .ds2760 => ["Temp", "Current", "Volt", "Accumulator"]
  | .ds2450 => ["ADA", "ADB", "ADC", "ADD"]
  | .ds1921 => ["Temp"]
  | .hbuv => ["Temp", "uv"]
  | .temp | .counter | .windvane | .invalid | .coupler => []

/-- A search for `name` does not come to a sensor without a name. -/
def Device.Searchable (d : Device) (name : String) : Prop :=
  w1MatchSensor d name.toList ≠ .error .noName

/-- The device has the slots that the reader of a type goes to, and can be searched for its
names. -/
structure Device.Readable (d : Device) (stype : W1Type) : Prop where
  slots : stype.usesSlots = true → d.s ≠ []
  names : ∀ name ∈ searchedNames d.params stype, d.Searchable name

/-! ## Searches -/

/-- A search that finds nothing has been through all names. -/
theorem matchFrom_none {name : CString} {xs : List Sensor} {j : ℕ}
    (h : matchFrom name xs j = .ok none) : ∀ x ∈ xs, x.abbrv.isSome → x.name.isSome := by
  induction xs generalizing j with
  | nil => simp
  | cons x xs ih =>
    rw [matchFrom] at h
    rw [List.forall_mem_cons]
    split at h
    · rename_i habbrv
      exact ⟨fun hx => by simp [habbrv] at hx, ih h⟩
    · cases h
    · rename_i hname
      split at h
      · cases h
      · exact ⟨fun _ => by rw [hname]; rfl, ih h⟩

theorem matchFrom_named_ne {name : CString} {xs : List Sensor} {j : ℕ}
    (h : ∀ x ∈ xs, x.abbrv.isSome → x.name.isSome) : matchFrom name xs j ≠ .error .noName := by
  induction xs generalizing j with
  | nil => exact fun he => by cases he
  | cons x xs ih =>
    obtain ⟨hx, hxs⟩ := List.forall_mem_cons.mp h
    rw [matchFrom]
    split
    · exact ih hxs
    · rename_i habbrv hname
      simp [habbrv, hname] at hx
    · split
      · exact fun he => by cases he
      · exact ih hxs

section
variable {w : Device} {name : String} {j : ℕ}

theorem Device.searchable_of_none (h : w1MatchSensor w name.toList = .ok none) (other : String) :
    w.Searchable other :=
  matchFrom_named_ne (matchFrom_none h)

theorem match_lt_slots (h : w1MatchSensor w name.toList = .ok (some j)) : j < w.s.length := by
  have hlt := (matchFrom_lt h).2
  have hle := w.ns_le
  rw [List.length_take] at hlt
  omega

end

/-! ## The readers of a readable device -/

section
variable {σ : Type} (drv : Driver σ) {w : Device} {n : ℕ}

theorem guard_slots (w : Device) (n : ℕ) : Guard (σ := σ) SlotStop w n (SetUp w n) where
  bad := fun _ he => he
  setUp := fun _ hs => hs
  setBus := fun _ _ hs => hs
  log := fun _ _ _ hs => hs
  modifyDev := fun _ _ _ hf hs => hs.modifyDev hf

theorem avoids_search {name : String} (hname : w.Searchable name) :
    Avoids SlotStop (SetUp w n) (matchSensor (σ := σ) n name.toList) fun r s =>
      SetUp w n s ∧ w1MatchSensor w name.toList = .ok r :=
  avoids_matchSensor (guard_slots w n) name.toList fun _ => hname

theorem avoids_storeSlot {j : ℕ} (hj : j < w.s.length) {f : Sensor → Sensor}
    (hf : ∀ x, (f x).label = x.label) :
    Avoids SlotStop (SetUp w n) (store (σ := σ) n j f) fun _ => SetUp w n :=
  avoids_store (guard_slots w n) (fun _ => hj) hf fun _ _ _ _ _ hs => hs

theorem avoids_clearSlot {j : ℕ} (hj : j < w.s.length) :
    Avoids SlotStop (SetUp w n) (clearValid (σ := σ) n j) fun _ => SetUp w n :=
  avoids_clearValid (guard_slots w n) fun _ => hj

theorem avoids_offer {name : String} (hname : w.Searchable name) (value : ℚ) :
    Avoids SlotStop (SetUp w n) (offer (σ := σ) n name value) fun _ => SetUp w n := by
  refine .bind (avoids_search hname) fun j => .given fun hj => ?_
  cases j with
  | none => exact .pure fun _ hs => hs
  | some j => exact avoids_storeSlot (match_lt_slots hj) fun _ => rfl

/-! ### Slots -/

theorem avoids_w1ReadTemp (hslot : 0 < w.s.length) :
    Avoids SlotStop (SetUp w n) (w1ReadTemp drv n) fun _ => SetUp w n := by
  have hguard := guard_slots (σ := σ) w n
  have hend :
    Avoids SlotStop (SetUp w n) (do return if (← slot n 0).valid then (1 : Int) else 0 : M σ Int)
      fun _ => SetUp w n :=
    .bind (avoids_slot hguard fun _ => hslot) fun x => .given fun _ => .pure fun _ hs => hs
  refine .bind (avoids_makeSerial hguard) fun _ =>
    .bind (avoids_w1SelectDevice drv hguard) fun found => ?_
  refine .ite (fun _ => ?_) fun _ => .bind (avoids_clearSlot hslot) fun _ => hend
  refine .bind (avoids_dev hguard n) fun d => .given fun _ => .bind avoids_getW1 fun w1 => ?_
  refine .bind (avoids_call hguard _) fun temp => ?_
  cases temp with
  | none => exact hend
  | some temp => exact .bind (avoids_storeSlot hslot fun _ => rfl) fun _ => hend

theorem doubleToInt_error {x : ℚ} {e : Stop} (h : doubleToInt x = .error e) : e = .intOverflow := by
  unfold doubleToInt at h
  generalize (if 0 ≤ x then x.floor else x.ceil) = i at h
  by_cases hi : intMin ≤ i ∧ i ≤ intMax
  · simp [hi] at h
  · simpa [hi, eq_comm] using h

theorem avoids_counterSlot (page : ℕ) {j : ℕ} (hj : j < w.s.length) (offset : Option ℚ) :
    Avoids SlotStop (SetUp w n) (readCounterPage drv n page j offset) fun _ => SetUp w n := by
  have hguard := guard_slots (σ := σ) w n
  refine .bind (avoids_slot hguard fun _ => hj) fun x => .given fun _ => .ite (fun _ => ?_) fun _ =>
    .pure fun _ hs => hs
  refine .bind (avoids_dev hguard n) fun d => .given fun _ =>
    .bind (avoids_call hguard _) fun cnt => ?_
  cases cnt with
  | none => exact .bind (avoids_clearSlot hj) fun _ => .pure fun _ hs => hs
  | some cnt =>
    cases offset with
    | none => exact avoids_storeSlot hj fun _ => rfl
    | some x =>
      refine .bind (Q := fun _ => SetUp w n) (.lift (fun e he hstop => ?_) fun _ _ _ hs => hs)
        fun off =>
        avoids_storeSlot hj fun _ => rfl
      obtain rfl := doubleToInt_error he
      rcases hstop with h | h <;> cases h

theorem avoids_counters (hslots : 2 ≤ w.s.length) :
    Avoids SlotStop (SetUp w n) (w1ReadCounter drv n) fun _ => SetUp w n := by
  have hguard := guard_slots (σ := σ) w n
  refine .bind (avoids_makeSerial hguard) fun _ => .bind (avoids_w1SetInvalid hguard) fun _ => ?_
  refine .bind (avoids_w1SelectDevice drv hguard) fun found => .ite (fun _ => ?_) fun _ =>
    .pure fun _ hs => hs
  refine .bind (avoids_dev hguard n) fun d => .given fun _ => ?_
  refine .bind (avoids_counterSlot drv 14 (by omega) _) fun _ => ?_
  exact .bind (avoids_counterSlot drv 15 (by omega) _) fun _ => .pure fun _ hs => hs

theorem avoids_firstTwoInvalid (hslots : 2 ≤ w.s.length) :
    Avoids SlotStop (SetUp w n) (firstTwoInvalid (σ := σ) n) fun _ => SetUp w n := by
  have hguard := guard_slots (σ := σ) w n
  refine .bind (avoids_slot hguard (j := 0) fun _ => by omega) fun x => .given fun _ =>
    .ite (fun _ => ?_) fun _ => .pure fun _ hs => hs
  exact .bind (avoids_slot hguard (j := 1) fun _ => by omega) fun y => .given fun _ =>
    .pure fun _ hs => hs

theorem avoids_reportHumidity (hslots : 2 ≤ w.s.length) :
    Avoids SlotStop (SetUp w n) (reportHumidity (σ := σ) n) fun _ => SetUp w n :=
  .bind (avoids_firstTwoInvalid hslots) fun _ =>
    .ite (fun _ => avoids_w1Replog (guard_slots w n)) fun _ => .pure fun _ hs => hs

theorem avoids_clearUnlessBoth (hslots : 2 ≤ w.s.length) :
    Avoids SlotStop (SetUp w n) (clearUnlessBoth (σ := σ) n) fun _ => SetUp w n := by
  refine .bind (avoids_firstTwoInvalid hslots) fun _ => .ite (fun _ => ?_) fun _ =>
    .pure fun _ hs => hs
  refine .bind (avoids_w1Replog (guard_slots w n)) fun _ =>
    .bind (avoids_clearSlot (by omega)) fun _ => ?_
  exact avoids_clearSlot (by omega)

theorem avoids_makeVane : Avoids SlotStop (SetUp w n) (makeVane (σ := σ) n) fun _ => SetUp w n := by
  have hguard := guard_slots (σ := σ) w n
  refine .bind (avoids_dev hguard n) fun d => .given fun _ =>
    .bind (avoids_makeSerial hguard) fun _ => ?_
  exact .ite (fun _ => avoids_modifyDev hguard n fun _ => rfl) fun _ => .pure fun _ hs => hs

theorem avoids_setupVane : Avoids SlotStop (SetUp w n) (setupVane drv n) fun _ => SetUp w n := by
  have hguard := guard_slots (σ := σ) w n
  refine .bind (avoids_dev hguard n) fun d => .given fun _ => .ite (fun _ => ?_) fun _ =>
    .pure fun _ hs => hs
  refine .bind (avoids_call hguard _) fun setup =>
    .bind (avoids_modifyDev hguard n fun _ => rfl) fun _ => ?_
  refine .ite (fun _ => .bind (avoids_call hguard _) fun ok => ?_) fun _ => .pure fun _ hs => hs
  exact .ite (fun _ => avoids_modifyDev hguard n fun _ => rfl) fun _ => .pure fun _ hs => hs

theorem avoids_storeDirection (hslot : 0 < w.s.length) (analogue : Vector ℚ 4) :
    Avoids SlotStop (SetUp w n) (storeDirection (σ := σ) n analogue) fun _ => SetUp w n := by
  refine .bind avoids_getW1 fun w1 => ?_
  refine .bind (avoids_modifySlot (guard_slots w n) (fun _ => hslot) fun _ _ => rfl) fun _ => ?_
  split
  · exact avoids_storeSlot hslot fun _ => rfl
  · exact .pure fun _ hs => hs

theorem avoids_w1ReadWindvane (hslots : 2 ≤ w.s.length) :
    Avoids SlotStop (SetUp w n) (w1ReadWindvane drv n) fun _ => SetUp w n := by
  have hguard := guard_slots (σ := σ) w n
  refine .bind avoids_makeVane fun _ => .bind (avoids_clearSlot (by omega)) fun _ => ?_
  refine .bind (avoids_clearSlot (by omega)) fun _ =>
    .bind (avoids_w1SelectDevice drv hguard) fun found => ?_
  refine .ite (fun _ => .bind (avoids_dev hguard n) fun d => .given fun _ => ?_) fun _ =>
    .pure fun _ hs => hs
  refine .ite (fun _ => .bind (avoids_setupVane drv) fun _ => ?_) fun _ => .pure fun _ hs => hs
  refine .bind (avoids_dev hguard n) fun d => .given fun _ => .ite (fun _ => ?_) fun _ =>
    .pure fun _ hs => hs
  refine .bind (avoids_call hguard _) fun ok => .ite (fun _ => ?_) fun _ => .pure fun _ hs => hs
  refine .bind (avoids_call hguard _) fun analogue => ?_
  cases analogue with
  | none => exact .pure fun _ hs => hs
  | some analogue =>
    exact .bind (avoids_storeDirection (by omega) analogue) fun _ => .pure fun _ hs => hs

/-! ### Names -/

theorem avoids_readAndOffer {α : Type} {read : Device → σ → Option α × σ} {offers : α → M σ ℕ}
    (hoffers : ∀ v, Avoids SlotStop (SetUp w n) (offers v) fun _ => SetUp w n) :
    Avoids SlotStop (SetUp w n) (readAndOffer drv n read offers) fun _ => SetUp w n := by
  have hguard := guard_slots (σ := σ) w n
  refine .bind (avoids_makeSerial hguard) fun _ => .bind (avoids_w1SetInvalid hguard) fun _ => ?_
  refine .bind (avoids_w1SelectDevice drv hguard) fun found => .ite (fun _ => ?_) fun _ =>
    .pure fun _ hs => hs
  refine .bind (avoids_dev hguard n) fun d => .given fun _ =>
    .bind (avoids_call hguard _) fun v => ?_
  cases v with
  | none => exact .pure fun _ hs => hs
  | some v => exact .bind (hoffers v) fun _ => .pure fun _ hs => hs

theorem avoids_two {a b : String} (ha : w.Searchable a) (hb : w.Searchable b) (u v : ℚ) :
    Avoids SlotStop (SetUp w n) (do return (← offer n a u) + (← offer n b v) : M σ ℕ)
      fun _ => SetUp w n :=
  .bind (avoids_offer ha u) fun _ => .bind (avoids_offer hb v) fun _ => .pure fun _ hs => hs

theorem avoids_four {a b c d : String} (ha : w.Searchable a) (hb : w.Searchable b)
    (hc : w.Searchable c) (hd : w.Searchable d) (t u v x : ℚ) :
    Avoids SlotStop (SetUp w n) (do
      return (← offer n a t) + (← offer n b u) + (← offer n c v) + (← offer n d x) : M σ ℕ)
      fun _ => SetUp w n :=
  .bind (avoids_offer ha t) fun _ => .bind (avoids_offer hb u) fun _ =>
    .bind (avoids_offer hc v) fun _ => .bind (avoids_offer hd x) fun _ => .pure fun _ hs => hs

/-- The other two names are searched for when all sensors have names. -/
theorem avoids_matchUv (huv : w.Searchable "uv") :
    Avoids SlotStop (SetUp w n) (matchUv (σ := σ) n) fun r s => SetUp w n s ∧
      ∀ j, r = some j → j < w.s.length := by
  refine .bind (avoids_search huv) fun r => .given fun hr => ?_
  cases r with
  | some j =>
    refine .pure fun _ hs => ⟨hs, fun i hi => ?_⟩
    obtain rfl := Option.some.inj hi
    exact match_lt_slots hr
  | none =>
    refine .bind (avoids_search (w.searchable_of_none hr "ultra")) fun r => .given fun hr' => ?_
    cases r with
    | some j =>
      refine .pure fun _ hs => ⟨hs, fun i hi => ?_⟩
      obtain rfl := Option.some.inj hi
      exact match_lt_slots hr'
    | none =>
      refine (avoids_search (w.searchable_of_none hr "violet")).conseq (fun _ hs => hs)
        fun r s hs =>
        ⟨hs.1, fun i hi => ?_⟩
      rw [hi] at hs
      exact match_lt_slots hs.2

theorem avoids_readChannel {name : String} (hname : w.Searchable name) (wanted : Bool)
    (read : σ → ℚ × σ) :
    Avoids SlotStop (SetUp w n) (readChannel n name wanted read) fun r s => SetUp w n s ∧
      (r.2 = none → w1MatchSensor w name.toList = .ok none) := by
  have hguard := guard_slots (σ := σ) w n
  refine .bind (avoids_search hname) fun j => .given fun hj => .ite (fun _ => ?_) fun hnot => ?_
  · refine .bind (avoids_call hguard read) fun val => ?_
    cases j with
    | none => exact .pure fun _ hs => ⟨hs, fun _ => hj⟩
    | some j =>
      refine .ite (fun _ => ?_) fun _ => ?_
      · exact .bind (avoids_storeSlot (match_lt_slots hj) fun _ => rfl) fun _ =>
          .pure fun _ hs => ⟨hs, fun h => by cases h⟩
      · exact .bind (avoids_clearSlot (match_lt_slots hj)) fun _ =>
          .pure fun _ hs => ⟨hs, fun h => by cases h⟩
  · refine .pure fun _ hs => ⟨hs, fun _ => ?_⟩
    cases j with
    | none => exact hj
    | some j => simp at hnot

theorem avoids_reportSolar {vdd : Option ℚ}
    (h : vdd = none → w1MatchSensor w "vdd".toList = .ok none) :
    Avoids SlotStop (SetUp w n) (reportSolar drv n vdd) fun _ => SetUp w n := by
  have hguard := guard_slots (σ := σ) w n
  refine .ite (fun hnone => ?_) fun _ => .pure fun _ hs => hs
  have hsolar := w.searchable_of_none (h (Option.isNone_iff_eq_none.mp hnone)) "Solar"
  refine .bind (avoids_search hsolar) fun r => .given fun _ => .ite (fun _ => ?_) fun _ =>
    .pure fun _ hs => hs
  refine .bind (avoids_dev hguard n) fun d => .given fun _ => ?_
  exact .bind (avoids_call hguard _) fun _ => avoids_w1Replog hguard

theorem avoids_readTempChannel (hname : w.Searchable "temp") (v : Option Ds2438v) :
    Avoids SlotStop (SetUp w n) (readTempChannel drv n v) fun _ => SetUp w n := by
  have hguard := guard_slots (σ := σ) w n
  refine .bind (avoids_search hname) fun j => .given fun hj => ?_
  refine .bind (avoids_dev hguard n) fun d => .given fun _ => .ite (fun _ => ?_) fun _ =>
    .pure fun _ hs => hs
  refine .bind (avoids_call hguard _) fun val => ?_
  split
  · exact .bind (avoids_storeSlot (match_lt_slots hj) fun _ => rfl) fun _ => .pure fun _ hs => hs
  · exact .pure fun _ hs => hs

theorem avoids_w1ReadVoltages (hnames : ∀ name ∈ channelNames, w.Searchable name)
    (v : Option Ds2438v) :
    Avoids SlotStop (SetUp w n) (w1ReadVoltages drv n v) fun _ => SetUp w n := by
  have hguard := guard_slots (σ := σ) w n
  have hselect : Avoids SlotStop (SetUp w n) (selectUnless drv n v) fun _ => SetUp w n := by
    cases v with
    | none => exact avoids_w1SelectDevice drv hguard
    | some v => exact .pure fun _ hs => hs
  refine .bind (avoids_makeSerial hguard) fun _ => .bind hselect fun sel => ?_
  refine .bind (avoids_w1SetInvalid hguard) fun _ => .ite (fun _ => ?_) fun _ =>
    .pure fun _ hs => hs
  refine .bind (avoids_dev hguard n) fun d => .given fun _ => ?_
  refine .bind (avoids_readChannel (hnames "vdd" (by decide)) _ _) fun vdd => .given fun hvdd => ?_
  refine .bind (avoids_reportSolar drv hvdd) fun _ => ?_
  refine .bind (avoids_readChannel (hnames "vad" (by decide)) _ _) fun vad => .given fun _ => ?_
  refine .bind (avoids_readChannel (hnames "vsens" (by decide)) _ _) fun vsens => .given fun _ => ?_
  exact .bind (avoids_readTempChannel drv (hnames "temp" (by decide)) _) fun _ =>
    .pure fun _ hs => hs

theorem avoids_voltages (hnames : ∀ name ∈ channelNames, w.Searchable name) (req : ℕ) :
    Avoids SlotStop (SetUp w n) (voltages drv n req) fun _ => SetUp w n :=
  .bind (avoids_w1ReadVoltages drv hnames _) fun _ => .pure fun _ hs => hs

theorem avoids_w1ReadBray (hnames : ∀ name ∈ searchedNames w.params .bray, w.Searchable name) :
    Avoids SlotStop (SetUp w n) (w1ReadBray drv n) fun _ => SetUp w n := by
  have hguard := guard_slots (σ := σ) w n
  have hvolts : ∀ name ∈ channelNames, w.Searchable name :=
    fun name hname => hnames name (List.mem_append_left _ hname)
  refine .bind (avoids_makeSerial hguard) fun _ =>
    .bind (avoids_w1SelectDevice drv hguard) fun found => ?_
  refine .ite (fun _ => .bind (avoids_voltages drv hvolts _) fun r => ?_) fun _ =>
    .bind (avoids_w1SetInvalid hguard) fun _ => .pure fun _ hs => hs
  refine .ite (fun _ => .bind (avoids_dev hguard n) fun d => .given fun hd => ?_) fun _ =>
    .pure fun _ hs => hs
  have hparams : d.params = w.params := congrArg (·.2.1) (hd rfl)
  refine .bind avoids_getW1 fun w1 => ?_
  by_cases htwo : (w.params.getD []).length = 2
  · -- the third parameter is missing
    rw [hparams, brayParams_two htwo]
    refine .bind (Q := fun _ _ => False) (.lift (fun e he hstop => ?_) fun p s hp => by cases hp)
      fun p => ?_
    · obtain rfl := Except.error.inj he
      rcases hstop with h | h <;> cases h
    · exact fun _ hs => hs.elim
  · have hother : ∀ values, w.params = some values → values.length ≠ 2 := by
      intro values hvalues
      rwa [hvalues] at htwo
    rw [hparams, brayParams_eq hother]
    refine .bind (Q := fun _ => SetUp w n) (.lift (fun e he => ?_) fun p s _ hs => hs) fun p => ?_
    · cases he
    · refine .bind (avoids_offer (hnames "Pres" ?_) _) fun _ => .pure fun _ hs => hs
      exact List.mem_append_right _ (by rw [if_neg htwo]; exact List.mem_singleton_self _)

theorem avoids_w1ReadHbPressure
    (hnames : ∀ name ∈ searchedNames w.params .hbbaro, w.Searchable name) :
    Avoids SlotStop (SetUp w n) (w1ReadHbPressure drv n) fun _ => SetUp w n := by
  have hguard := guard_slots (σ := σ) w n
  have hvolts : ∀ name ∈ channelNames, w.Searchable name :=
    fun name hname => hnames name (List.mem_append_left _ hname)
  refine .bind (avoids_makeSerial hguard) fun _ => .bind (avoids_w1SetInvalid hguard) fun _ => ?_
  refine .bind (avoids_w1SelectDevice drv hguard) fun found => .ite (fun _ => ?_) fun _ =>
    .pure fun _ hs => hs
  refine .bind (avoids_voltages drv hvolts _) fun r => .ite (fun _ => ?_) fun _ =>
    .pure fun _ hs => hs
  refine .bind (avoids_dev hguard n) fun d => .given fun _ => ?_
  exact .bind (avoids_offer (hnames "Pres" (by simp [searchedNames])) _) fun _ =>
    .pure fun _ hs => hs

theorem avoids_w1ReadCurrent (hnames : ∀ name ∈ searchedNames w.params .msTc, w.Searchable name) :
    Avoids SlotStop (SetUp w n) (w1ReadCurrent drv n) fun _ => SetUp w n := by
  have hguard := guard_slots (σ := σ) w n
  have hvolts : ∀ name ∈ channelNames, w.Searchable name :=
    fun name hname => hnames name (List.mem_append_left _ hname)
  refine .bind (avoids_makeSerial hguard) fun _ => .bind (avoids_w1SetInvalid hguard) fun _ => ?_
  refine .bind (avoids_w1SelectDevice drv hguard) fun found => .ite (fun _ => ?_) fun _ =>
    .pure fun _ hs => hs
  refine .bind (avoids_voltages drv hvolts _) fun r => .ite (fun _ => ?_) fun _ =>
    .pure fun _ hs => hs
  exact .bind (avoids_offer (hnames "current" (by simp [searchedNames])) _) fun _ =>
    .pure fun _ hs => hs

theorem avoids_w1ReadHumidity (hslots : 2 ≤ w.s.length)
    (hnames : ∀ name ∈ searchedNames w.params .humid, w.Searchable name) :
    Avoids SlotStop (SetUp w n) (w1ReadHumidity drv n) fun _ => SetUp w n := by
  have hguard := guard_slots (σ := σ) w n
  have hvolts : ∀ name ∈ channelNames, w.Searchable name :=
    fun name hname => hnames name (List.mem_append_left _ hname)
  refine .bind (avoids_makeSerial hguard) fun _ => .bind (avoids_w1SetInvalid hguard) fun _ => ?_
  refine .bind (avoids_w1SelectDevice drv hguard) fun found => .ite (fun _ => ?_) fun _ =>
    .bind (avoids_reportHumidity hslots) fun _ => .pure fun _ hs => hs
  refine .bind (avoids_voltages drv hvolts _) fun r => ?_
  refine .bind (avoids_offer (hnames "Temp" (by simp [searchedNames])) _) fun _ => ?_
  refine .bind (avoids_offer (hnames "Humidity" (by simp [searchedNames])) _) fun _ => ?_
  exact .bind (avoids_reportHumidity hslots) fun _ => .pure fun _ hs => hs

theorem avoids_w1ReadHih (hslots : 2 ≤ w.s.length)
    (hnames : ∀ name ∈ searchedNames w.params .hih, w.Searchable name) :
    Avoids SlotStop (SetUp w n) (w1ReadHih drv n) fun _ => SetUp w n := by
  have hguard := guard_slots (σ := σ) w n
  have hvolts : ∀ name ∈ channelNames, w.Searchable name :=
    fun name hname => hnames name (List.mem_append_left _ hname)
  refine .bind (avoids_makeSerial hguard) fun _ => .bind (avoids_w1SetInvalid hguard) fun _ => ?_
  refine .bind (avoids_w1SelectDevice drv hguard) fun found => .ite (fun _ => ?_) fun _ =>
    .pure fun _ hs => hs
  refine .bind (avoids_voltages drv hvolts _) fun r => .ite (fun _ => ?_) fun _ =>
    .bind (avoids_clearUnlessBoth hslots) fun _ => .pure fun _ hs => hs
  refine .bind (avoids_offer (hnames "Humidity" (by simp [searchedNames])) _) fun _ => ?_
  exact .bind (avoids_clearUnlessBoth hslots) fun _ => .pure fun _ hs => hs

theorem avoids_w1ReadPressure (htemp : w.Searchable "Temp") (hpres : w.Searchable "Pres") :
    Avoids SlotStop (SetUp w n) (w1ReadPressure drv n) fun _ => SetUp w n := by
  have hguard := guard_slots (σ := σ) w n
  have hcalibrate : Avoids SlotStop (SetUp w n) (calibrate drv n) fun _ => SetUp w n := by
    refine .bind (avoids_dev hguard n) fun d => .given fun _ => .ite (fun _ => ?_) fun _ =>
      .pure fun _ hs => hs
    refine .bind (avoids_call hguard _) fun ok => .ite (fun _ => ?_) fun _ => .pure fun _ hs => hs
    exact avoids_modifyDev hguard n fun _ => rfl
  refine .bind (avoids_makeSerial hguard) fun _ =>
    .bind (avoids_w1SelectDevice drv hguard) fun found => ?_
  refine .ite (fun _ => .bind hcalibrate fun _ => ?_) fun _ =>
    .bind (avoids_modifyDev hguard n fun _ => rfl) fun _ => .pure fun _ hs => hs
  refine .bind (avoids_dev hguard n) fun d => .given fun _ => .ite (fun _ => ?_) fun _ =>
    .pure fun _ hs => hs
  refine .bind (avoids_call hguard _) fun v => ?_
  cases v with
  | none => exact .bind (avoids_modifyDev hguard n fun _ => rfl) fun _ => .pure fun _ hs => hs
  | some v =>
    refine .bind avoids_getW1 fun w1 => .bind (avoids_offer htemp _) fun _ => ?_
    exact .bind (avoids_offer hpres _) fun _ => .pure fun _ hs => hs

theorem avoids_w1ReadDs2450 (hnames : ∀ name ∈ searchedNames w.params .ds2450, w.Searchable name) :
    Avoids SlotStop (SetUp w n) (w1ReadDs2450 drv n) fun _ => SetUp w n := by
  have hguard := guard_slots (σ := σ) w n
  refine .bind (avoids_makeSerial hguard) fun _ => .bind (avoids_w1SetInvalid hguard) fun _ => ?_
  refine .bind (avoids_w1SelectDevice drv hguard) fun found => .ite (fun _ => ?_) fun _ =>
    .pure fun _ hs => hs
  refine .bind (avoids_dev hguard n) fun d => .given fun _ =>
    .bind (avoids_call hguard _) fun setup => ?_
  refine .bind (avoids_call hguard _) fun _ => .bind (avoids_call hguard _) fun advolts => ?_
  cases advolts with
  | none => exact .pure fun _ hs => hs
  | some advolts =>
    refine .bind (avoids_offer (hnames "ADA" (by simp [searchedNames])) _) fun _ => ?_
    refine .bind (avoids_offer (hnames "ADB" (by simp [searchedNames])) _) fun _ => ?_
    refine .bind (avoids_offer (hnames "ADC" (by simp [searchedNames])) _) fun _ => ?_
    exact .bind (avoids_offer (hnames "ADD" (by simp [searchedNames])) _) fun _ =>
      .pure fun _ hs => hs

theorem avoids_w1ReadHbuv (htemp : w.Searchable "Temp") (huv : w.Searchable "uv") :
    Avoids SlotStop (SetUp w n) (w1ReadHbuv drv n) fun _ => SetUp w n := by
  refine avoids_readAndOffer drv fun hb => .bind (avoids_offer htemp _) fun _ => ?_
  refine .bind (avoids_matchUv huv) fun r => ?_
  cases r with
  | none => exact .pure fun _ hs => hs.1
  | some j =>
    refine (Avoids.given (φ := j < w.s.length) fun hj => ?_).conseq
      (fun _ hs => ⟨hs.1, hs.2 j rfl⟩) fun _ _ hs => hs
    exact .bind (avoids_storeSlot hj fun _ => rfl) fun _ => .pure fun _ hs => hs

/-- The reader of a readable device goes to no slot that is not there. -/
theorem avoids_readSensors (hblock : w.s ≠ [] → 2 ≤ w.s.length) {stype : W1Type}
    (hw : w.Readable stype) :
    Avoids SlotStop (SetUp w n) (readSensors drv n stype) fun _ => SetUp w n := by
  have hslots : stype.usesSlots = true → 2 ≤ w.s.length := fun h => hblock (hw.slots h)
  have hnames := hw.names
  cases stype with
  | temp => exact avoids_w1ReadTemp drv (Nat.zero_lt_of_lt (hslots rfl))
  | humid => exact avoids_w1ReadHumidity drv (hslots rfl) hnames
  | pres =>
    obtain ⟨htemp, hpres⟩ : w.Searchable "Temp" ∧ w.Searchable "Pres" := by
      simpa [searchedNames] using hnames
    exact avoids_w1ReadPressure drv htemp hpres
  | counter => exact avoids_counters drv (hslots rfl)
  | bray => exact avoids_w1ReadBray drv hnames
  | hbbaro => exact avoids_w1ReadHbPressure drv hnames
  | windvane => exact avoids_w1ReadWindvane drv (hslots rfl)
  | ds2438v => exact .bind (avoids_w1ReadVoltages drv hnames none) fun _ => .pure fun _ hs => hs
  | hih => exact avoids_w1ReadHih drv (hslots rfl) hnames
  | ds2450 => exact avoids_w1ReadDs2450 drv hnames
  | msTc => exact avoids_w1ReadCurrent drv hnames
  | sht11 | ds1923 | hbht =>
    obtain ⟨htemp, hhumid⟩ : w.Searchable "Temp" ∧ w.Searchable "Humidity" := by
      simpa [searchedNames] using hnames
    exact avoids_readAndOffer drv fun v => avoids_two htemp hhumid _ _
  | ds2760 =>
    obtain ⟨htemp, hcurrent, hvolt, haccum⟩ : w.Searchable "Temp" ∧ w.Searchable "Current" ∧
        w.Searchable "Volt" ∧ w.Searchable "Accumulator" := by
      simpa [searchedNames] using hnames
    exact avoids_readAndOffer drv fun v => avoids_four htemp hcurrent hvolt haccum _ _ _ _
  | ds1921 =>
    have htemp : w.Searchable "Temp" := by simpa [searchedNames] using hnames
    exact avoids_readAndOffer drv fun temp => avoids_offer htemp _
  | hbuv =>
    obtain ⟨htemp, huv⟩ : w.Searchable "Temp" ∧ w.Searchable "uv" := by
      simpa [searchedNames] using hnames
    exact avoids_w1ReadHbuv drv htemp huv
  | invalid => exact .pure fun _ hs => hs
  | coupler => exact .pure fun _ hs => hs

end
end W1Retap

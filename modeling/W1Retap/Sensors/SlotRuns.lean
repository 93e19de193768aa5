import W1Retap.Sensors.Slots
import W1Retap.Sensors.Stores

/-!
# Readings that go to every slot

On a bus where everything is found and answered, the reader of a device alone on it searches
for all the names that its type has, and goes to its slots. It ends only if the device is
readable.
-/
namespace W1Retap

open Programs

/-- A bus on which every device is found, and all instruments that are searched by name show
the same. -/
def meter (reading : ℚ) : Driver Unit :=
  { Driver.silent with
    owSearch := fun _ serno b => ([serno], b)
    readAtoDResults := fun _ _ b => (some (Vector.replicate 4 reading), b)
    readAtoD := fun _ _ b => (reading, b)
    readVsens := fun _ b => (reading, b)
    getTemperature := fun _ b => (reading, b)
    readSHT11 := fun _ b => (some (reading, reading), b)
    readPressureValues := fun b => (some (reading, reading), b)
    readDS2760 := fun _ b => (some ⟨reading, reading, reading, reading⟩, b)
    readDS1923 := fun _ _ b => (some ⟨reading, reading⟩, b)
    readDS1921 := fun _ _ b => (some reading, b)
    hbuvReadData := fun _ b => (some ⟨0, 0⟩, b)
    hbhtReadData := fun _ b => (some ⟨reading, reading⟩, b) }

theorem meter_selects (reading : ℚ) : (meter reading).Finds := fun _ _ => by simp [meter]

section
variable {w : Device} {name : String} {j : ℕ} {reading : ℚ}

/-- A search finds a sensor with an abbreviation. -/
theorem matchFrom_abbrv {name : CString} {xs : List Sensor} {i k : ℕ}
    (h : matchFrom name xs i = .ok (some k)) : ((xs[k - i]?).bind Sensor.abbrv).isSome := by
  induction xs generalizing i with
  | nil => cases h
  | cons x xs ih =>
    have hle := (matchFrom_lt h).1
    rw [matchFrom] at h
    have hnext : matchFrom name xs (i + 1) = .ok (some k) →
        (((x :: xs)[k - i]?).bind Sensor.abbrv).isSome := by
      intro hrest
      have hlt := (matchFrom_lt hrest).1
      rw [show k - i = k - (i + 1) + 1 by omega, List.getElem?_cons_succ]
      exact ih hrest
    split at h
    · exact hnext h
    · cases h
    · rename_i habbrv _
      split at h
      · obtain rfl := Option.some.inj (Except.ok.inj h)
        simp [habbrv]
      · exact hnext h

theorem match_abbrv (h : w1MatchSensor w name.toList = .ok (some j)) :
    ((w.s[j]?).bind Sensor.abbrv).isSome := by
  have habbrv := matchFrom_abbrv h
  have hlt := (matchFrom_lt h).2
  rw [List.length_take] at hlt
  rwa [Nat.sub_zero, List.getElem?_take_of_lt (by omega)] at habbrv

theorem searchable_of_ok {r : Option ℕ} (h : w1MatchSensor w name.toList = .ok r) :
    w.Searchable name := by
  rw [Device.Searchable, h]
  exact fun he => by cases he

/-! ## The steps of a device alone on the bus -/

theorem settles_search (name : String) :
    Settles SlotStop (Alone w []) (matchSensor (σ := Unit) 0 name.toList) fun r s =>
      Alone w [] s ∧ w1MatchSensor w name.toList = .ok r := by
  refine .bind (.of_completes completes_dev) fun d => .given fun hd => ?_
  rw [w1MatchSensor_setup hd.1]
  exact .lift fun e he => Or.inr (matchFrom_error he)

theorem settles_slot (j : ℕ) :
    Settles SlotStop (Alone w []) (slot (σ := Unit) 0 j)
      fun _ s => Alone w [] s ∧ j < w.s.length := by
  by_cases hj : j < w.s.length
  · exact .of_completes ((completes_slot hj).conseq (fun _ hs => hs) fun _ _ hs => ⟨hs.1, hj⟩)
  · intro s hs
    obtain ⟨d, hd, -⟩ := hs.dev
    have hlabel := hs.setUp.slot? j
    rw [List.getElem?_eq_none (not_lt.mp hj), Option.map_none, Option.map_eq_none_iff,
      Machine.slot?, hd] at hlabel
    refine Or.inl ⟨.noSlot, Or.inl rfl, ?_⟩
    have hnone : d.s[j]? = none := hlabel
    rw [slot, run_dev_bind (by rw [hd]; rfl)]
    simp only [hnone]
    rfl

theorem settles_clearSlot (j : ℕ) :
    Settles SlotStop (Alone w []) (clearValid (σ := Unit) 0 j) fun _ s =>
      Alone w [] s ∧ j < w.s.length := by
  by_cases hj : j < w.s.length
  · exact .of_completes ((completes_clearValid hj).conseq (fun _ hs => hs) fun _ _ hs => ⟨hs, hj⟩)
  · refine .bind (settles_slot j) fun x => ?_
    rintro s ⟨-, hlt⟩
    exact absurd hlt hj

/-- A sensor that was found is given a verdict. -/
theorem completes_found (h : w1MatchSensor w name.toList = .ok (some j)) {f : Sensor → Sensor}
    (hf : ∀ x, (f x).label = x.label) :
    Completes (Alone w []) (store (σ := Unit) 0 j f) fun _ => Alone w [] := by
  refine (completes_store (match_abbrv h) hf).conseq (fun _ hs => hs) fun _ s hs => ?_
  obtain ⟨_, _, _, hs⟩ := hs
  exact hs.tail

theorem settles_offer (name : String) (value : ℚ) :
    Settles SlotStop (Alone w []) (offer (σ := Unit) 0 name value) fun _ s =>
      Alone w [] s ∧ w.Searchable name := by
  refine .bind (settles_search name) fun r => .given fun hr => ?_
  have hname := searchable_of_ok hr
  cases r with
  | none => exact .pure fun _ hs => ⟨hs, hname⟩
  | some j =>
    have hstore := completes_found hr (f := fun x => { x with value }) fun _ => rfl
    exact .of_completes (hstore.conseq (fun _ hs => hs) fun _ _ hs => ⟨hs, hname⟩)

/-! ## Readers of one call -/

theorem completes_select (hw : w.stype ≠ .coupler) :
    Completes (Alone w []) (w1SelectDevice (meter reading) 0) fun found s =>
      Alone w [] s ∧ found = true :=
  completes_w1SelectDevice (meter_selects reading) hw

/-- The readings are offered, and what is known after that is known of the reader. -/
theorem settles_readAndOffer {α : Type} {read : Device → Unit → Option α × Unit}
    {offers : α → M Unit ℕ}
    {φ : Prop} (hw : w.stype ≠ .coupler) (hread : ∀ d b, (read d b).1.isSome)
    (hoffers : ∀ v, Settles SlotStop (Alone w []) (offers v) fun _ s => Alone w [] s ∧ φ) :
    Settles SlotStop (Alone w []) (readAndOffer (meter reading) 0 read offers) fun _ _ => φ := by
  refine .bind (.of_completes completes_makeSerial) fun _ => ?_
  refine .bind (.of_completes completes_w1SetInvalid) fun _ => ?_
  refine .bind (.of_completes (completes_select hw)) fun found => .given fun hfound => ?_
  refine .ite (fun _ => ?_) fun h => absurd hfound h
  refine .bind (.of_completes completes_dev) fun d => .given fun _ => ?_
  refine .bind (.of_completes (completes_call _)) fun v => .given ?_
  rintro ⟨b, rfl⟩
  obtain ⟨v, hv⟩ := Option.isSome_iff_exists.mp (hread d b)
  rw [hv]
  exact .bind (hoffers v) fun _ => .pure fun _ hs => hs.2

theorem settles_two (a b : String) (u v : ℚ) :
    Settles SlotStop (Alone w []) (do return (← offer 0 a u) + (← offer 0 b v) : M Unit ℕ)
      fun _ s =>
      Alone w [] s ∧ ∀ name ∈ [a, b], w.Searchable name := by
  refine .bind (settles_offer a u) fun _ => .given fun ha => .bind (settles_offer b v) fun _ => ?_
  exact .given fun hb => .pure fun _ hs => ⟨hs, by simp [ha, hb]⟩

theorem settles_four (a b c d : String) (t u v x : ℚ) :
    Settles SlotStop (Alone w []) (do
      return (← offer 0 a t) + (← offer 0 b u) + (← offer 0 c v) + (← offer 0 d x) : M Unit ℕ)
        fun _ s =>
      Alone w [] s ∧ ∀ name ∈ [a, b, c, d], w.Searchable name := by
  refine .bind (settles_offer a t) fun _ => .given fun ha => .bind (settles_offer b u) fun _ => ?_
  refine .given fun hb => .bind (settles_offer c v) fun _ => .given fun hc => ?_
  refine .bind (settles_offer d x) fun _ => .given fun hd => .pure fun _ hs => ⟨hs, ?_⟩
  simp [ha, hb, hc, hd]

theorem settles_matchUv :
    Settles SlotStop (Alone w []) (matchUv (σ := Unit) 0) fun r s =>
      (Alone w [] s ∧ ∀ j, r = some j → ((w.s[j]?).bind Sensor.abbrv).isSome) ∧
        w.Searchable "uv" := by
  refine .bind (settles_search "uv") fun r => .given fun hr => ?_
  have huv := searchable_of_ok hr
  cases r with
  | some j =>
    refine .pure fun _ hs => ⟨⟨hs, fun i hi => ?_⟩, huv⟩
    obtain rfl := Option.some.inj hi
    exact match_abbrv hr
  | none =>
    refine .bind (settles_search "ultra") fun r => .given fun hr => ?_
    cases r with
    | some j =>
      refine .pure fun _ hs => ⟨⟨hs, fun i hi => ?_⟩, huv⟩
      obtain rfl := Option.some.inj hi
      exact match_abbrv hr
    | none =>
      refine (settles_search "violet").conseq (fun _ hs => hs) fun r s hs =>
        ⟨⟨hs.1, fun i hi => ?_⟩, huv⟩
      rw [hi] at hs
      exact match_abbrv hs.2

theorem settles_w1ReadHbuv (hw : w.stype ≠ .coupler) :
    Settles SlotStop (Alone w []) (w1ReadHbuv (meter reading) 0) fun _ _ =>
      ∀ name ∈ ["Temp", "uv"], w.Searchable name := by
  refine settles_readAndOffer hw (fun _ _ => rfl) fun hb => ?_
  refine .bind (settles_offer "Temp" _) fun _ => .given fun htemp => ?_
  refine .bind settles_matchUv fun r => .given fun huv => ?_
  have hnames : ∀ name ∈ ["Temp", "uv"], w.Searchable name := by simp [htemp, huv]
  cases r with
  | none => exact .pure fun _ hs => ⟨hs.1, hnames⟩
  | some j =>
    refine (Settles.given fun hj => ?_).conseq (fun _ hs => ⟨hs.1, hs.2 j rfl⟩) fun _ _ hs => hs
    refine .bind (.of_completes (completes_store hj fun _ => rfl)) fun _ => .pure fun _ hs =>
      ⟨?_, hnames⟩
    obtain ⟨_, _, _, hs⟩ := hs
    exact hs.tail

theorem settles_w1ReadDs2450 (hw : w.stype ≠ .coupler) :
    Settles SlotStop (Alone w []) (w1ReadDs2450 (meter reading) 0) fun _ _ =>
      ∀ name ∈ ["ADA", "ADB", "ADC", "ADD"], w.Searchable name := by
  refine .bind (.of_completes completes_makeSerial) fun _ => ?_
  refine .bind (.of_completes completes_w1SetInvalid) fun _ => ?_
  refine .bind (.of_completes (completes_select hw)) fun found => .given fun hfound => ?_
  refine .ite (fun _ => ?_) fun h => absurd hfound h
  refine .bind (.of_completes completes_dev) fun d => .given fun _ => ?_
  refine .bind (.of_completes (completes_call _)) fun setup => .given fun _ => ?_
  refine .bind (.of_completes (completes_call _)) fun _ => .given fun _ => ?_
  refine .bind (.of_completes (completes_call _)) fun advolts => .given ?_
  rintro ⟨b, rfl⟩
  refine .bind (settles_offer "ADA" _) fun _ => .given fun ha =>
    .bind (settles_offer "ADB" _) fun _ => ?_
  refine .given fun hb => .bind (settles_offer "ADC" _) fun _ => .given fun hc => ?_
  refine .bind (settles_offer "ADD" _) fun _ => .given fun hd => .pure fun _ _ => ?_
  simp [ha, hb, hc, hd]

theorem settles_w1ReadPressure (hw : w.stype ≠ .coupler) :
    Settles SlotStop (Alone w []) (w1ReadPressure (meter reading) 0) fun _ _ =>
      ∀ name ∈ ["Temp", "Pres"], w.Searchable name := by
  have hcalibrate : Completes (Alone w []) (calibrate (meter reading) 0) fun _ => Alone w [] := by
    refine .bind completes_dev fun d => .given fun hd => .ite (fun h => ?_) fun _ =>
      .pure fun _ hs => hs
    exact absurd (hd.2.2.2.symm.trans h) (by decide)
  refine .bind (.of_completes completes_makeSerial) fun _ => ?_
  refine .bind (.of_completes (completes_select hw)) fun found => .given fun hfound => ?_
  refine .ite (fun _ => .bind (.of_completes hcalibrate) fun _ => ?_) fun h => absurd hfound h
  refine .bind (.of_completes completes_dev) fun d => .given fun hd => ?_
  refine .ite (fun _ => ?_) fun h => absurd hd.2.2.2 h
  refine .bind (.of_completes (completes_call _)) fun v => .given ?_
  rintro ⟨b, rfl⟩
  refine .bind (.of_completes completes_getW1) fun w1 => ?_
  refine .bind (settles_offer "Temp" _) fun _ => .given fun ht =>
    .bind (settles_offer "Pres" _) fun _ => ?_
  exact .given fun hp => .pure fun _ _ => by simp [ht, hp]

/-! ## Readers that go to fixed slots -/

theorem settles_w1ReadTemp (hw : w.stype ≠ .coupler) :
    Settles SlotStop (Alone w []) (w1ReadTemp (meter reading) 0) fun _ _ => 0 < w.s.length := by
  refine .bind (.of_completes completes_makeSerial) fun _ => ?_
  refine .bind (.of_completes (completes_select hw)) fun found => .given fun hfound => ?_
  refine .ite (fun _ => ?_) fun h => absurd hfound h
  refine .bind (.of_completes completes_dev) fun d => .given fun _ => ?_
  refine .bind (.of_completes completes_getW1) fun w1 => ?_
  refine .bind (.of_completes (completes_call _)) fun temp => .given ?_
  rintro ⟨b, rfl⟩
  exact .bind (settles_slot 0) fun x => .pure fun _ hs => hs.2

theorem settles_counterSlot (page j : ℕ) (offset : Option ℚ) :
    Settles SlotStop (Alone w []) (readCounterPage (meter reading) 0 page j offset) fun _ s =>
      Alone w [] s ∧ j < w.s.length := by
  refine .bind (settles_slot j) fun x => .given fun hj => .ite (fun _ => ?_) fun _ =>
    .pure fun _ hs => ⟨hs, hj⟩
  refine .bind (.of_completes completes_dev) fun d => .given fun _ => ?_
  refine .bind (.of_completes (completes_call _)) fun cnt => .given ?_
  rintro ⟨b, rfl⟩
  exact .bind (settles_clearSlot j) fun _ => .pure fun _ hs => hs

theorem settles_w1ReadCounter (hw : w.stype ≠ .coupler) :
    Settles SlotStop (Alone w []) (w1ReadCounter (meter reading) 0) fun _ _ => 0 < w.s.length := by
  refine .bind (.of_completes completes_makeSerial) fun _ => ?_
  refine .bind (.of_completes completes_w1SetInvalid) fun _ => ?_
  refine .bind (.of_completes (completes_select hw)) fun found => .given fun hfound => ?_
  refine .ite (fun _ => ?_) fun h => absurd hfound h
  refine .bind (.of_completes completes_dev) fun d => .given fun _ => ?_
  refine .bind (settles_counterSlot 14 0 _) fun _ => .given fun hj => ?_
  exact .bind (settles_counterSlot 15 1 _) fun _ => .pure fun _ _ => hj

theorem settles_w1ReadWindvane (hw : w.stype ≠ .coupler) :
    Settles SlotStop (Alone w []) (w1ReadWindvane (meter reading) 0) fun _ _ => 0 < w.s.length := by
  have hmake : Completes (Alone w []) (makeVane (σ := Unit) 0) fun _ => Alone w [] := by
    refine .bind completes_dev fun d => .given fun hd => .bind completes_makeSerial fun _ => ?_
    exact .ite (fun h => absurd (hd.2.2.2.symm.trans h.1) (by decide)) fun _ => .pure fun _ hs => hs
  have hsetup : Completes (Alone w []) (setupVane (meter reading) 0) fun _ => Alone w [] := by
    refine .bind completes_dev fun d => .given fun hd => .ite (fun h => ?_) fun _ =>
      .pure fun _ hs => hs
    exact absurd (hd.2.2.2.symm.trans h) (by decide)
  refine .bind (.of_completes hmake) fun _ => .bind (settles_clearSlot 1) fun _ => .given fun _ =>
    ?_
  refine .bind (settles_clearSlot 0) fun _ => .given fun hslot => ?_
  refine .bind (.of_completes (completes_select hw)) fun found => .given fun hfound => ?_
  refine .ite (fun _ => ?_) fun h => absurd hfound h
  refine .bind (.of_completes completes_dev) fun d => .given fun _ => .ite (fun _ => ?_) fun _ =>
    .pure fun _ _ => hslot
  refine .bind (.of_completes hsetup) fun _ => .bind (.of_completes completes_dev) fun d =>
    .given fun _ => ?_
  refine .ite (fun _ => ?_) fun _ => .pure fun _ _ => hslot
  refine .bind (.of_completes (completes_call _)) fun ok => .given ?_
  rintro ⟨b, rfl⟩
  exact .pure fun _ _ => hslot

/-! ## Voltages -/

/-- The device is alone, and its sensors take what the instruments show. -/
structure Bench (reading : ℚ) (w : Device) (s : Machine Unit) : Prop where
  alone : Alone w [] s
  willing : ∀ j x, s.slot? 0 j = some x → x.flags = 0 ∧ x.lval ≤ reading

/-- Bus traffic leaves the sensors as they are. -/
theorem bench_quiet {α : Type} {m : M Unit α} {φ : α → Prop} (hq : Does Quiet m)
    (hm : Settles SlotStop (Alone w []) m fun a s => Alone w [] s ∧ φ a) :
    Settles SlotStop (Bench reading w) m fun a s => Bench reading w s ∧ φ a := by
  intro s hs
  rcases hm s hs.alone with hstop | ⟨a, s', hrun, halone, hφ⟩
  · exact Or.inl hstop
  · have hsame : ∀ j, s'.slot? 0 j = s.slot? 0 j := by
      refine hq.keeps (P := fun t => ∀ j, t.slot? 0 j = s.slot? 0 j) ?_ hrun fun _ => rfl
      exact fun t t' hstep ht j => (hstep.slot?_eq 0 j).trans (ht j)
    exact Or.inr ⟨a, s', hrun, ⟨halone, fun j x hx => hs.willing j x (hsame j ▸ hx)⟩, hφ⟩

theorem bench_w1SetInvalid :
    Completes (Bench reading w) (w1SetInvalid 0) fun _ => Bench reading w := by
  intro s hs
  obtain ⟨u, s', hrun, halone⟩ := completes_w1SetInvalid s hs.alone
  refine ⟨u, s', hrun, halone, fun j x hx => ?_⟩
  obtain rfl := run_modifyDev_ok.mp hrun
  obtain ⟨d, hd, -⟩ := hs.alone.dev
  have hwilling := hs.willing j
  rw [Machine.slot?, Machine.modifyDev_getElem?, if_pos rfl, hd] at hx
  rw [Machine.slot?, hd] at hwilling
  simp only [List.getElem?_cons_zero, Option.map_some, Option.bind_some,
    Device.setInvalid_getElem?] at hx hwilling
  split at hx
  · obtain ⟨y, hy, rfl⟩ := Option.map_eq_some_iff.mp hx
    exact hwilling y hy
  · exact hwilling x hx

theorem bench_makeSerial :
    Settles SlotStop (Bench reading w) (makeSerial 0) fun _ => Bench reading w :=
  (bench_quiet (φ := fun _ => True) (does_makeSerial 0) (.of_completes (completes_makeSerial.conseq
    (fun _ hs => hs) fun _ _ hs => ⟨hs, trivial⟩))).conseq (fun _ hs => hs) fun _ _ hs => hs.1

theorem bench_dev : Settles SlotStop (Bench reading w) (dev 0) fun _ => Bench reading w :=
  (bench_quiet (does_dev 0) (.of_completes completes_dev)).conseq (fun _ hs => hs) fun _ _ hs =>
    hs.1

theorem bench_select (hw : w.stype ≠ .coupler) :
    Settles SlotStop (Bench reading w) (w1SelectDevice (meter reading) 0) fun found s =>
      Bench reading w s ∧ found = true :=
  bench_quiet (does_w1SelectDevice _ 0) (.of_completes (completes_select hw))

/-- A willing sensor accepts what is shown. -/
theorem bench_found (h : w1MatchSensor w name.toList = .ok (some j)) :
    Completes (Bench reading w) (store 0 j fun x => { x with value := reading }) fun nv s =>
      Alone w [] s ∧ nv = 1 := by
  intro s hs
  obtain ⟨nv, s', hrun, halone⟩ := completes_found h (f := fun x => { x with value := reading })
    (fun _ => rfl) s hs.alone
  obtain ⟨x, x', _, hx, hx', -, hnv, -⟩ := run_store_ok hrun
  obtain ⟨hflags, hlval⟩ := hs.willing j x hx
  have haccepts : Accepts s.w1.logtime { x with value := reading } reading := by
    refine ⟨fun h => ?_, fun h => ?_, fun h => ?_, fun _ _ _ => hlval⟩ <;>
      simp [Sensor.has, hflags] at h
  refine ⟨nv, s', hrun, halone, ?_⟩
  rcases w1Validate_cases hx' with ⟨-, rfl⟩ | ⟨hrej, -⟩
  · exact hnv
  · exact absurd haccepts hrej

/-- A channel that shows `reading`; what is known of a verdict is known of the count when
there is a sensor. -/
theorem settles_readChannel {P : Machine Unit → Prop} {φ : ℕ → Prop} (hreading : reading ≠ -1)
    (wanted : Bool) {read : Unit → ℚ × Unit} (hread : ∀ b, (read b).1 = reading)
    (hP : ∀ s, P s → Alone w [] s)
    (hsearch : Settles SlotStop P (matchSensor 0 name.toList) fun r s =>
      P s ∧ w1MatchSensor w name.toList = .ok r)
    (hcall : Settles SlotStop P (call read) fun a s => P s ∧ ∃ b, a = (read b).1)
    (hstore : ∀ j, w1MatchSensor w name.toList = .ok (some j) → Settles SlotStop P
      (store 0 j fun x => { x with value := reading }) fun nv s => Alone w [] s ∧ φ nv) :
    Settles SlotStop P (readChannel 0 name wanted read) fun r s => Alone w [] s ∧
      w.Searchable name ∧ (wanted = true → r.2 = some reading) ∧
      (w1MatchSensor w name.toList = .ok none ∨ φ r.1) := by
  refine .bind hsearch fun r => .given fun hr => .ite (fun _ => ?_) fun hnot => ?_
  · refine .bind hcall fun val => .given ?_
    rintro ⟨b, rfl⟩
    rw [hread b]
    cases r with
    | none => exact .pure fun s hs => ⟨hP s hs, searchable_of_ok hr, fun _ => rfl, Or.inl hr⟩
    | some j =>
      refine .ite (fun _ => ?_) fun h => absurd hreading h
      refine .bind (hstore j hr) fun nv => .given fun hnv => ?_
      exact .pure fun s hs => ⟨hs, searchable_of_ok hr, fun _ => rfl, Or.inr hnv⟩
  · refine .pure fun s hs => ⟨hP s hs, searchable_of_ok hr, fun hw => absurd hw ?_, Or.inl ?_⟩
    · rintro rfl
      simp at hnot
    · cases r with
      | none => exact hr
      | some j => simp at hnot

theorem settles_channel (hreading : reading ≠ -1) (name : String) (wanted : Bool)
    {read : Unit → ℚ × Unit} (hread : ∀ b, (read b).1 = reading) :
    Settles SlotStop (Alone w []) (readChannel 0 name wanted read) fun r s => Alone w [] s ∧
      w.Searchable name ∧ (wanted = true → r.2 = some reading) := by
  have hchannel := settles_readChannel (φ := fun _ => True) (w := w) hreading wanted hread
    (fun _ hs => hs) (settles_search name) (.of_completes (completes_call read)) fun j hj => by
      have hstore := completes_found hj (f := fun x => { x with value := reading }) fun _ => rfl
      exact .of_completes (hstore.conseq (fun _ hs => hs) fun _ _ hs => ⟨hs, trivial⟩)
  exact hchannel.conseq (fun _ hs => hs) fun _ _ hs => ⟨hs.1, hs.2.1, hs.2.2.1⟩

/-- The first channel, whose sensor is willing. -/
theorem bench_channel (hreading : reading ≠ -1) (name : String) (wanted : Bool)
    {read : Unit → ℚ × Unit} (hread : ∀ b, (read b).1 = reading) :
    Settles SlotStop (Bench reading w) (readChannel 0 name wanted read) fun r s => Alone w [] s ∧
      w.Searchable name ∧ (wanted = true → r.2 = some reading) ∧
      (w1MatchSensor w name.toList = .ok none ∨ r.1 = 1) :=
  settles_readChannel hreading wanted hread (fun _ hs => hs.alone)
    (bench_quiet (does_matchSensor 0 _) (settles_search name))
    (bench_quiet (does_anyCall read) (.of_completes (completes_call read)))
    fun _ hj => .of_completes (bench_found hj)

theorem settles_reportSolar (vdd : Option ℚ) :
    Settles SlotStop (Alone w []) (reportSolar (meter reading) 0 vdd) fun _ => Alone w [] := by
  refine .ite (fun _ => .bind (settles_search "Solar") fun r => .given fun _ => ?_) fun _ =>
    .pure fun _ hs => hs
  refine .ite (fun _ => .bind (.of_completes completes_dev) fun d => .given fun _ => ?_) fun _ =>
    .pure fun _ hs => hs
  exact .bind (.of_completes (completes_call _)) fun _ => .given fun _ =>
    .of_completes completes_w1Replog

theorem settles_readTempChannel (v : Option Ds2438v) :
    Settles SlotStop (Alone w []) (readTempChannel (meter reading) 0 v) fun r s => Alone w [] s ∧
      w.Searchable "temp" ∧ r.2.map Ds2438v.vad = v.map Ds2438v.vad := by
  refine .bind (settles_search "temp") fun j => .given fun hj => ?_
  have hname := searchable_of_ok hj
  refine .bind (.of_completes completes_dev) fun d => .given fun _ => .ite (fun _ => ?_) fun _ =>
    .pure fun _ hs => ⟨hs, hname, rfl⟩
  refine .bind (.of_completes (completes_call _)) fun val => .given fun _ => ?_
  split
  · refine .bind (.of_completes (completes_found hj fun _ => rfl)) fun nv => .pure fun _ hs =>
      ⟨hs, hname, ?_⟩
    cases v with
    | none => rfl
    | some v =>
      by_cases hnv : nv = 1
      · simp [hnv]
      · simp [hnv]
  · exact .pure fun _ hs => ⟨hs, hname, rfl⟩

/-- What a reading of the voltages shows: all names are searched for, and it counts nothing only
without a sensor for the supply voltage. -/
theorem settles_w1ReadVoltages (hw : w.stype ≠ .coupler) (hreading : reading ≠ -1)
    (v : Option Ds2438v) :
    Settles SlotStop (Bench reading w) (w1ReadVoltages (meter reading) 0 v) fun r s =>
      Alone w [] s ∧
      (∀ name ∈ channelNames, w.Searchable name) ∧
      (Ds2438v.wants v ds2438Vad = true → r.2.map Ds2438v.vad = some reading) ∧
      (w1MatchSensor w "vdd".toList = .ok none ∨ 1 ≤ r.1) := by
  have hselect :
    Settles SlotStop (Bench reading w) (selectUnless (meter reading) 0 v) fun found s =>
      Bench reading w s ∧ found = true := by
    cases v with
    | none => exact bench_select hw
    | some v => exact .pure fun _ hs => ⟨hs, rfl⟩
  refine .bind (bench_makeSerial) fun _ => .bind hselect fun sel => .given fun hsel => ?_
  refine .bind (.of_completes bench_w1SetInvalid) fun _ => .ite (fun _ => ?_) fun h => absurd hsel h
  refine .bind bench_dev fun d => ?_
  refine .bind (bench_channel hreading "vdd" _ fun _ => rfl) fun vdd => .given ?_
  rintro ⟨hvdd, -, hcount⟩
  refine .bind (settles_reportSolar _) fun _ => ?_
  refine .bind (settles_channel hreading "vad" _ fun _ => rfl) fun vad => .given ?_
  rintro ⟨hvad, hwanted⟩
  refine .bind (settles_channel hreading "vsens" _ fun _ => rfl) fun vsens => .given ?_
  rintro ⟨hvsens, -⟩
  refine .bind (settles_readTempChannel _) fun temp => .given ?_
  rintro ⟨htemp, hv⟩
  refine .pure fun _ hs => ⟨hs, by simp [channelNames, hvdd, hvad, hvsens, htemp], fun h => ?_, ?_⟩
  · rw [hv, hwanted h]
    cases v with
    | none => cases h
    | some v => rfl
  · exact hcount.imp_right fun h => by simp only [h]; omega

theorem settles_voltages (hw : w.stype ≠ .coupler) (hreading : reading ≠ -1) {req : ℕ}
    (hreq : req &&& ds2438Vad ≠ 0) :
    Settles SlotStop (Bench reading w) (voltages (meter reading) 0 req) fun r s => Alone w [] s ∧
      (∀ name ∈ channelNames, w.Searchable name) ∧ r.2.vad = reading ∧
      (w1MatchSensor w "vdd".toList = .ok none ∨ 1 ≤ r.1) := by
  refine .bind (settles_w1ReadVoltages hw hreading _) fun r => .given ?_
  rintro ⟨hnames, hvad, hcount⟩
  refine .pure fun _ hs => ⟨hs, hnames, ?_, hcount⟩
  obtain ⟨v, hr, rfl⟩ := Option.map_eq_some_iff.mp (hvad (by simpa [Ds2438v.wants] using hreq))
  rw [hr]
  rfl

theorem settles_w1ReadBray (hw : w.stype ≠ .coupler) (hreading : reading ≠ -1)
    (hpositive : (w.params.getD []).length ≠ 2 ↔ 0 < reading) :
    Settles SlotStop (Bench reading w) (w1ReadBray (meter reading) 0) fun _ _ =>
      ∀ name ∈ searchedNames w.params .bray, w.Searchable name := by
  refine .bind bench_makeSerial fun _ => .bind (bench_select hw) fun found => .given fun hfound =>
    ?_
  refine .ite (fun _ => ?_) fun h => absurd hfound h
  refine .bind (settles_voltages hw hreading (by decide)) fun r => .given ?_
  rintro ⟨hnames, hvad, -⟩
  refine .ite (fun hpos => ?_) fun hnot => ?_
  · have htwo := hpositive.mpr (hvad ▸ hpos)
    have hother : ∀ values, w.params = some values → values.length ≠ 2 := by
      intro values hvalues
      rwa [hvalues] at htwo
    refine .bind (.of_completes completes_dev) fun d => .given fun hd => ?_
    have hparams : d.params = w.params := congrArg (·.2.1) hd.1
    rw [hparams, brayParams_eq hother]
    refine .bind (.of_completes completes_getW1) fun w1 => ?_
    refine .bind (.of_completes (.lift rfl)) fun p => .given fun _ => ?_
    refine .bind (settles_offer "Pres" _) fun _ => .given fun hpres => .pure fun _ _ => ?_
    rw [searchedNames, if_neg htwo, List.forall_mem_append]
    exact ⟨hnames, by simpa using hpres⟩
  · have htwo : (w.params.getD []).length = 2 := by
      by_contra h
      exact hnot (hvad ▸ hpositive.mp h)
    refine .pure fun _ _ => ?_
    rw [searchedNames, if_pos htwo, List.append_nil]
    exact hnames

theorem settles_w1ReadHbPressure (hw : w.stype ≠ .coupler) (hreading : 0 < reading) :
    Settles SlotStop (Bench reading w) (w1ReadHbPressure (meter reading) 0) fun _ _ =>
      ∀ name ∈ channelNames ++ ["Pres"], w.Searchable name := by
  refine .bind bench_makeSerial fun _ => .bind (.of_completes bench_w1SetInvalid) fun _ => ?_
  refine .bind (bench_select hw) fun found => .given fun hfound => .ite (fun _ => ?_) fun h =>
    absurd hfound h
  refine .bind (settles_voltages hw (by linarith) (by decide)) fun r => .given ?_
  rintro ⟨hnames, hvad, -⟩
  refine .ite (fun _ => ?_) fun h => absurd hreading (hvad ▸ h)
  refine .bind (.of_completes completes_dev) fun d => .given fun _ => ?_
  refine .bind (settles_offer "Pres" _) fun _ => .given fun hpres => .pure fun _ _ => ?_
  exact List.forall_mem_append.mpr ⟨hnames, by simpa using hpres⟩

theorem settles_w1ReadCurrent (hw : w.stype ≠ .coupler) (hreading : 0 < reading) :
    Settles SlotStop (Bench reading w) (w1ReadCurrent (meter reading) 0) fun _ _ =>
      ∀ name ∈ channelNames ++ ["current"], w.Searchable name := by
  refine .bind bench_makeSerial fun _ => .bind (.of_completes bench_w1SetInvalid) fun _ => ?_
  refine .bind (bench_select hw) fun found => .given fun hfound => .ite (fun _ => ?_) fun h =>
    absurd hfound h
  refine .bind (settles_voltages hw (by linarith) (by decide)) fun r => .given ?_
  rintro ⟨hnames, hvad, -⟩
  refine .ite (fun _ => ?_) fun h => absurd (by rw [hvad]; linarith) h
  refine .bind (settles_offer "current" _) fun _ => .given fun hcurrent => .pure fun _ _ => ?_
  exact List.forall_mem_append.mpr ⟨hnames, by simpa using hcurrent⟩

theorem settles_firstTwoInvalid :
    Settles SlotStop (Alone w []) (firstTwoInvalid (σ := Unit) 0) fun _ s =>
      Alone w [] s ∧ 0 < w.s.length := by
  refine .bind (settles_slot 0) fun x => .given fun hslot => .ite (fun _ => ?_) fun _ =>
    .pure fun _ hs => ⟨hs, hslot⟩
  exact .bind (settles_slot 1) fun y => .pure fun _ hs => ⟨hs.1, hslot⟩

theorem settles_w1ReadHumidity (hw : w.stype ≠ .coupler) (hreading : 0 < reading) :
    Settles SlotStop (Bench reading w) (w1ReadHumidity (meter reading) 0) fun _ _ =>
      0 < w.s.length ∧ ∀ name ∈ channelNames ++ ["Temp", "Humidity"], w.Searchable name := by
  refine .bind bench_makeSerial fun _ => .bind (.of_completes bench_w1SetInvalid) fun _ => ?_
  refine .bind (bench_select hw) fun found => .given fun hfound => .ite (fun _ => ?_) fun h =>
    absurd hfound h
  refine .bind (settles_voltages hw (by linarith) (by decide)) fun r => .given ?_
  rintro ⟨hnames, -, -⟩
  refine .bind (settles_offer "Temp" _) fun _ => .given fun htemp => ?_
  refine .bind (settles_offer "Humidity" _) fun _ => .given fun hhumid => ?_
  have hall : ∀ name ∈ channelNames ++ ["Temp", "Humidity"], w.Searchable name :=
    List.forall_mem_append.mpr ⟨hnames, by simp [htemp, hhumid]⟩
  refine .bind (Q := fun _ _ => 0 < w.s.length) ?_ fun _ => .pure fun _ hslot => ⟨hslot, hall⟩
  refine .bind settles_firstTwoInvalid fun _ => .given fun hslot => .ite (fun _ => ?_) fun _ =>
    .pure fun _ _ => hslot
  exact .of_completes (completes_w1Replog.conseq (fun _ hs => hs) fun _ _ _ => hslot)

theorem settles_clearUnlessBoth :
    Settles SlotStop (Alone w []) (clearUnlessBoth (σ := Unit) 0) fun _ _ => 0 < w.s.length := by
  refine .bind settles_firstTwoInvalid fun _ => .given fun hslot => .ite (fun _ => ?_) fun _ =>
    .pure fun _ _ => hslot
  refine .bind (.of_completes completes_w1Replog) fun _ => .bind (settles_clearSlot 1) fun _ =>
    .given fun _ => ?_
  exact (settles_clearSlot 0).conseq (fun _ hs => hs) fun _ _ hs => hs.2

/-- Without a sensor for the supply voltage all sensors have names, and with one the reading
counts. -/
theorem settles_w1ReadHih (hw : w.stype ≠ .coupler) (hreading : 0 < reading) :
    Settles SlotStop (Bench reading w) (w1ReadHih (meter reading) 0) fun _ _ =>
      0 < w.s.length ∧ ∀ name ∈ channelNames ++ ["Humidity"], w.Searchable name := by
  refine .bind bench_makeSerial fun _ => .bind (.of_completes bench_w1SetInvalid) fun _ => ?_
  refine .bind (bench_select hw) fun found => .given fun hfound => .ite (fun _ => ?_) fun h =>
    absurd hfound h
  refine .bind (settles_voltages hw (by linarith) (by decide)) fun r => .given ?_
  rintro ⟨hnames, -, hcount⟩
  refine .ite (fun _ => ?_) fun hzero => ?_
  · refine .bind (settles_offer "Humidity" _) fun _ => .given fun hhumid => ?_
    refine .bind settles_clearUnlessBoth fun _ => .pure fun _ hslot => ⟨hslot, ?_⟩
    exact List.forall_mem_append.mpr ⟨hnames, by simpa using hhumid⟩
  · have hnone := hcount.resolve_right fun h => hzero (by omega)
    refine .bind settles_clearUnlessBoth fun _ => .pure fun _ hslot => ⟨hslot, ?_⟩
    exact List.forall_mem_append.mpr ⟨hnames, fun name _ => w.searchable_of_none hnone name⟩

/-! ## All readers -/

/-- The device with these sensors, fresh and initialised. -/
def Device.fresh (w : Device) : Device :=
  { w with
    s := w.s.map fun x => { abbrv := x.abbrv, name := x.name }
    ns_le := by simpa using w.ns_le
    init := 2
    coupler := none }

def freshMachine (w : Device) : Machine Unit where
  w1 := { devs := [w.fresh] }
  bus := ()

theorem fresh_setup (w : Device) : w.fresh.setup = w.setup := by
  have hlabels : w.fresh.s.map Sensor.label = w.s.map Sensor.label := by
    rw [Device.fresh, List.map_map]
    rfl
  simp only [Device.setup, hlabels]
  rfl

theorem fresh_bench (hreading : 0 ≤ reading) : Bench reading w (freshMachine w) where
  alone := ⟨⟨w.fresh, rfl, fresh_setup w, rfl, rfl, rfl⟩, by simp⟩
  willing := by
    intro j x hx
    have hx' : w.fresh.s[j]? = some x := hx
    rw [Device.fresh, List.getElem?_map] at hx'
    obtain ⟨y, -, rfl⟩ := Option.map_eq_some_iff.mp hx'
    exact ⟨rfl, hreading⟩

theorem readable_of_slot {stype : W1Type} (hslot : 0 < w.s.length)
    (hnames : ∀ name ∈ searchedNames w.params stype, w.Searchable name) : w.Readable stype :=
  ⟨fun _ => List.ne_nil_of_length_pos hslot, hnames⟩

theorem readable_of_names {stype : W1Type} (hstype : stype.usesSlots = false)
    (hnames : ∀ name ∈ searchedNames w.params stype, w.Searchable name) : w.Readable stype :=
  ⟨fun h => absurd (hstype.symm.trans h) (by decide), hnames⟩

/-- A reading that is not stopped shows that the device is readable. The instruments show one
volt, unless `w1_read_bray` would go on to a parameter that is not there. -/
theorem settles_readSensors {stype : W1Type} (hstype : w.stype = stype) : ∃ reading, 0 ≤ reading ∧
    Settles SlotStop (Bench reading w) (readSensors (meter reading) 0 stype) fun _ _ =>
      w.Readable stype := by
  have halone : ∀ (s : Machine Unit), Bench 1 w s → Alone w [] s := fun _ hs => hs.alone
  have hnot : stype ≠ .coupler → w.stype ≠ .coupler := fun h => hstype ▸ h
  have hnone : ∀ stype, searchedNames w.params stype = [] →
      ∀ name ∈ searchedNames w.params stype, w.Searchable name := by
    intro stype h
    simp [h]
  cases stype with
  | temp =>
    exact ⟨1, zero_le_one, (settles_w1ReadTemp (hnot (by decide))).conseq halone fun _ _ hs =>
      readable_of_slot hs (hnone _ rfl)⟩
  | counter =>
    exact ⟨1, zero_le_one, (settles_w1ReadCounter (hnot (by decide))).conseq halone fun _ _ hs =>
      readable_of_slot hs (hnone _ rfl)⟩
  | windvane =>
    exact ⟨1, zero_le_one, (settles_w1ReadWindvane (hnot (by decide))).conseq halone fun _ _ hs =>
      readable_of_slot hs (hnone _ rfl)⟩
  | humid => exact ⟨1, zero_le_one,
    (settles_w1ReadHumidity (hnot (by decide)) one_pos).conseq (fun _ hs => hs)
      fun _ _ hs => readable_of_slot hs.1 hs.2⟩
  | hih => exact ⟨1, zero_le_one,
    (settles_w1ReadHih (hnot (by decide)) one_pos).conseq (fun _ hs => hs)
      fun _ _ hs => readable_of_slot hs.1 hs.2⟩
  | bray =>
    by_cases htwo : (w.params.getD []).length = 2
    · exact ⟨0, le_rfl,
        (settles_w1ReadBray (hnot (by decide)) (by norm_num) (by simp [htwo])).conseq
        (fun _ hs => hs) fun _ _ hs => readable_of_names rfl hs⟩
    · exact ⟨1, zero_le_one,
        (settles_w1ReadBray (hnot (by decide)) (by norm_num) (by simp [htwo])).conseq
        (fun _ hs => hs) fun _ _ hs => readable_of_names rfl hs⟩
  | hbbaro => exact ⟨1, zero_le_one,
    (settles_w1ReadHbPressure (hnot (by decide)) one_pos).conseq (fun _ hs => hs)
      fun _ _ hs => readable_of_names rfl hs⟩
  | msTc => exact ⟨1, zero_le_one,
    (settles_w1ReadCurrent (hnot (by decide)) one_pos).conseq (fun _ hs => hs)
      fun _ _ hs => readable_of_names rfl hs⟩
  | ds2438v =>
    refine ⟨1, zero_le_one,
      .bind (settles_w1ReadVoltages (hnot (by decide)) (by norm_num) none) fun r => ?_⟩
    exact .pure fun _ hs => readable_of_names rfl hs.2.1
  | pres =>
    exact ⟨1, zero_le_one, (settles_w1ReadPressure (hnot (by decide))).conseq halone fun _ _ hs =>
      readable_of_names rfl hs⟩
  | ds2450 =>
    exact ⟨1, zero_le_one, (settles_w1ReadDs2450 (hnot (by decide))).conseq halone fun _ _ hs =>
      readable_of_names rfl hs⟩
  | hbuv =>
    exact ⟨1, zero_le_one, (settles_w1ReadHbuv (hnot (by decide))).conseq halone fun _ _ hs =>
      readable_of_names rfl hs⟩
  | sht11 | ds1923 | hbht =>
    refine ⟨1, zero_le_one, (settles_readAndOffer (hnot (by decide)) (fun _ _ => rfl) fun v =>
      settles_two "Temp" "Humidity" _ _).conseq halone fun _ _ hs => readable_of_names rfl hs⟩
  | ds2760 =>
    refine ⟨1, zero_le_one, (settles_readAndOffer (hnot (by decide)) (fun _ _ => rfl) fun v =>
      settles_four "Temp" "Current" "Volt" "Accumulator" _ _ _ _).conseq halone fun _ _ hs =>
        readable_of_names rfl hs⟩
  | ds1921 =>
    refine ⟨1, zero_le_one, (settles_readAndOffer (hnot (by decide)) (fun _ _ => rfl) fun temp =>
      settles_offer "Temp" _).conseq halone fun _ _ hs =>
        readable_of_names rfl (by simpa [searchedNames] using hs)⟩
  | invalid => exact ⟨1, zero_le_one, .pure fun _ _ => readable_of_names rfl (hnone _ rfl)⟩
  | coupler => exact ⟨1, zero_le_one, .pure fun _ _ => readable_of_names rfl (hnone _ rfl)⟩

end

/-! ## When the slots are safe -/

/-- No reading of a device that has been set up like this goes to a slot that is not there or
searches in a name that is not set, whatever the bus answers. -/
def SlotsSafe (w : Device) : Prop :=
  ∀ (σ : Type) (drv : Driver σ) (n : ℕ) (s : Machine σ) (e : Stop), SetUp w n s →
    (readSensors drv n w.stype).run s = .error e → e ≠ .noSlot ∧ e ≠ .noName

theorem slots_safe_iff {w : Device} (hblock : w.s ≠ [] → 2 ≤ w.s.length) :
    SlotsSafe w ↔ w.Readable w.stype := by
  constructor
  · intro hsafe
    obtain ⟨reading, hreading, hsettles⟩ := settles_readSensors (w := w) rfl
    have hbench : Bench reading w (freshMachine w) := fresh_bench hreading
    rcases hsettles _ hbench with ⟨e, he, hrun⟩ | ⟨_, _, -, hw⟩
    · obtain ⟨hslot, hname⟩ := hsafe Unit (meter reading) 0 _ e hbench.alone.setUp hrun
      exact absurd he (not_or.mpr ⟨hslot, hname⟩)
    · exact hw
  · intro hw σ drv n s e hs hrun
    exact not_or.mp ((avoids_readSensors drv hblock hw s hs).1 e hrun)

end W1Retap

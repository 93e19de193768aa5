import W1Retap.Pressure.Conversions
import W1Retap.Pressure.Sharing
import W1Retap.Sensors.ReadAll
import W1Retap.Sensors.Serials

/-!
# Beside a pressure sensor

Reading another device leaves a pressure sensor alone: its record, the settings it is read by,
its two switches and, while its serial number is in place, what the static variables keep of
it. Another pressure sensor may take the static variables over, but only as a whole.
-/
namespace W1Retap

open Programs Tai8570

/-- The device `k`, if it is a pressure sensor. -/
def Machine.pres? {σ : Type} (s : Machine σ) (k : ℕ) : Option Device :=
  (s.w1.devs[k]?).filter fun d => d.stype = .pres

/-- What tells which switches a pressure sensor is read by. -/
def Device.identity (d : Device) : W1Type × Option CString × Serno × ℕ :=
  (d.stype, d.serial, d.serno, d.init)

/-- The settings of a reading. -/
def DevList.settings (w1 : DevList) : Int × Option ℚ × Int :=
  (w1.altitude, w1.presReductionTemp, w1.logtime)

section
variable {σ : Type} {s : Machine σ} {k m : ℕ} {f : Device → Device} {d : Device}

theorem Machine.pres?_eq_some :
    s.pres? k = some d ↔ s.w1.devs[k]? = some d ∧ d.stype = .pres := by
  simp [Machine.pres?, Option.filter_eq_some_iff]

theorem Machine.pres?_modifyDev_of_ne (h : m ≠ k) : (s.modifyDev m f).pres? k = s.pres? k := by
  rw [Machine.pres?, Machine.modifyDev_getElem?, if_neg h]
  rfl

/-- A change that keeps the kind of the device. -/
theorem Machine.pres?_modifyDev_self (hf : ∀ d, (f d).stype = d.stype) :
    (s.modifyDev m f).pres? m = (s.pres? m).map f := by
  rw [Machine.pres?, Machine.modifyDev_getElem?, if_pos rfl, Machine.pres?]
  cases s.w1.devs[m]? with
  | none => rfl
  | some d => simp only [Option.map_some, Option.filter_some, hf, apply_ite (Option.map f), Option.map_none]

theorem Machine.pres?_modifyDev_of_some (hd : s.pres? m = some d)
    (hf : ∀ d, (f d).stype = d.stype) : (s.modifyDev m f).pres? m = some (f d) := by
  rw [Machine.pres?_modifyDev_self hf, hd, Option.map_some]

end

namespace Tai8570

/-- The state of the program on a shared bus. -/
abbrev State (τ ρ : Type) := Machine (Statics (Shared τ ρ))

/-- The row of another pressure sensor names none of the two switches. -/
structure Stranger {τ : Type} (c : Chips τ) (e : Device) : Prop where
  serial : ∀ serno, w1MakeSerial e.serial = .ok serno → ¬ c.Own serno
  serno : e.init ≠ 0 → ¬ c.Own e.serno

/-- The row of the sensor names the first switch. -/
structure Owner {τ : Type} (c : Chips τ) (d : Device) : Prop where
  serial : ∀ serno, w1MakeSerial d.serial = .ok serno → serno = c.first
  serno : d.init ≠ 0 → d.serno = c.first

section
variable {τ ρ : Type}

/-- Device `n` has the two switches, no other pressure sensor names one of them, and the static
variables are for its switches or for others. -/
structure Standing (c : Chips τ) (n : ℕ) (s : State τ ρ) : Prop where
  owner : ∃ d, s.pres? n = some d ∧ Owner c d
  strangers : ∀ k e, k ≠ n → s.pres? k = some e → Stranger c e
  below : ¬ c.Own s.bus.below
  tidy : s.bus.switchSN.head = c.first ∨
    ¬ c.Own (s.bus.switch s.bus.reader) ∧ ¬ c.Own (s.bus.switch s.bus.writer)

/-- The sensor `n` is left alone. -/
structure Steady (c : Chips τ) (n : ℕ) (s t : State τ ρ) : Prop where
  record : t.pres? n = s.pres? n
  settings : t.w1.settings = s.w1.settings
  chips : t.bus.bus.chips = s.bus.bus.chips
  kit : t.bus.switchSN.head = c.first → t.bus.kit = s.bus.kit
  standing : Standing c n t

/-- The sensors of device `m` may have changed, and anything of a device of another kind. -/
structure Idle (m : Option ℕ) (s t : State τ ρ) : Prop where
  kit : t.bus.kit = s.bus.kit
  below : t.bus.below = s.bus.below
  chips : t.bus.bus.chips = s.bus.bus.chips
  settings : t.w1.settings = s.w1.settings
  identities : ∀ k, (t.pres? k).map Device.identity = (s.pres? k).map Device.identity
  records : ∀ k, m ≠ some k → t.pres? k = s.pres? k

section
variable {c : Chips τ} {n m : ℕ} {k : Option ℕ} {s t u : State τ ρ}

theorem Idle.refl (k : Option ℕ) (s : State τ ρ) : Idle k s s :=
  ⟨rfl, rfl, rfl, rfl, fun _ => rfl, fun _ _ => rfl⟩

/-- Only the other devices on the bus have moved. -/
theorem Idle.setBus {p : Statics (Shared τ ρ)} (hkit : p.kit = s.bus.kit)
    (hbelow : p.below = s.bus.below) (hchips : p.bus.chips = s.bus.bus.chips) :
    Idle k s (s.setBus p) :=
  ⟨hkit, hbelow, hchips, rfl, fun _ => rfl, fun _ _ => rfl⟩

theorem Idle.log (s : State τ ρ) (e : Event) : Idle k s (s.log e) :=
  ⟨rfl, rfl, rfl, rfl, fun _ => rfl, fun _ _ => rfl⟩

theorem Idle.modifyDev (s : State τ ρ) {f : Device → Device}
    (hf : ∀ d, (f d).identity = d.identity) : Idle (some m) s (s.modifyDev m f) := by
  have hstype : ∀ d, (f d).stype = d.stype := fun d => congrArg Prod.fst (hf d)
  refine ⟨rfl, rfl, rfl, rfl, fun i => ?_, fun i hi => ?_⟩
  · by_cases him : m = i
    · subst him
      rw [Machine.pres?_modifyDev_self hstype, Option.map_map]
      exact congrArg (fun g => (s.pres? m).map g) (funext hf)
    · rw [Machine.pres?_modifyDev_of_ne him]
  · exact Machine.pres?_modifyDev_of_ne fun him => hi (congrArg some him)

/-- A device of another kind. -/
theorem Idle.modifyPlain {f : Device → Device} (hm : s.pres? m = none)
    (hf : ∀ d, (f d).stype = d.stype) : Idle k s (s.modifyDev m f) := by
  have hsame : ∀ i, (s.modifyDev m f).pres? i = s.pres? i := by
    intro i
    by_cases him : m = i
    · subst him
      rw [Machine.pres?_modifyDev_self hf, hm]
      rfl
    · exact Machine.pres?_modifyDev_of_ne him
  exact ⟨rfl, rfl, rfl, rfl, fun i => congrArg _ (hsame i), fun i _ => hsame i⟩

theorem Idle.trans (h : Idle k s t) (h' : Idle k t u) : Idle k s u :=
  ⟨h'.kit.trans h.kit, h'.below.trans h.below, h'.chips.trans h.chips,
    h'.settings.trans h.settings, fun i => (h'.identities i).trans (h.identities i),
    fun i hi => (h'.records i hi).trans (h.records i hi)⟩

theorem Idle.switchSN (h : Idle k s t) : t.bus.switchSN = s.bus.switchSN :=
  congrArg Kit.switchSN h.kit

/-- A pressure sensor is still there, with the same identity. -/
theorem Idle.forward {e : Device} {i : ℕ} (h : Idle k s t) (he : s.pres? i = some e) :
    ∃ e', t.pres? i = some e' ∧ e'.identity = e.identity := by
  have hi := h.identities i
  rw [he, Option.map_some] at hi
  obtain ⟨e', he', hsame⟩ := Option.map_eq_some_iff.mp hi
  exact ⟨e', he', hsame⟩

theorem Idle.backward {e : Device} {i : ℕ} (h : Idle k s t) (he : t.pres? i = some e) :
    ∃ e', s.pres? i = some e' ∧ e.identity = e'.identity := by
  have hi := h.identities i
  rw [he, Option.map_some] at hi
  obtain ⟨e', he', hsame⟩ := Option.map_eq_some_iff.mp hi.symm
  exact ⟨e', he', hsame.symm⟩

theorem Stranger.congr {e e' : Device} (h : Stranger c e') (he : e.identity = e'.identity) :
    Stranger c e := by
  simp only [Device.identity, Prod.mk.injEq] at he
  obtain ⟨-, hserial, hserno, hinit⟩ := he
  refine ⟨?_, ?_⟩
  · rw [hserial]
    exact h.serial
  · rw [hserno, hinit]
    exact h.serno

theorem Standing.idle (h : Standing c n s) (hidle : Idle k s t) (hk : k ≠ some n) :
    Standing c n t := by
  obtain ⟨d, hd, howner⟩ := h.owner
  have hswitch : ∀ i, t.bus.switch i = s.bus.switch i := by
    intro i
    simp only [Statics.switch, hidle.switchSN, hidle.below]
  have hreader : t.bus.reader = s.bus.reader := congrArg Kit.reader hidle.kit
  have hwriter : t.bus.writer = s.bus.writer := congrArg Kit.writer hidle.kit
  refine ⟨⟨d, (hidle.records n hk).trans hd, howner⟩, ?_, ?_, ?_⟩
  · intro i e hi he
    obtain ⟨e', he', hsame⟩ := hidle.backward he
    exact (h.strangers i e' hi he').congr hsame
  · rw [hidle.below]
    exact h.below
  · rw [hidle.switchSN, hswitch, hswitch, hreader, hwriter]
    exact h.tidy

theorem Steady.refl (h : Standing c n s) : Steady c n s s := ⟨rfl, rfl, rfl, fun _ => rfl, h⟩

theorem Steady.trans (h : Steady c n s t) (h' : Steady c n t u) : Steady c n s u := by
  refine ⟨h'.record.trans h.record, h'.settings.trans h.settings, h'.chips.trans h.chips, ?_,
    h'.standing⟩
  intro hfirst
  have hkit := h'.kit hfirst
  have hfirst' : t.bus.switchSN.head = c.first := by
    rw [← hfirst]
    exact congrArg (fun k => k.switchSN.head) hkit.symm
  exact hkit.trans (h.kit hfirst')

theorem Steady.idle (h : Steady c n s t) (hidle : Idle k t u) (hk : k ≠ some n) :
    Steady c n s u :=
  h.trans ⟨hidle.records n hk, hidle.settings, hidle.chips, fun _ => hidle.kit,
    h.standing.idle hidle hk⟩

/-- A change of another pressure sensor that names none of the two switches. -/
theorem Steady.modifyDev (h : Steady c n s t) (hmn : m ≠ n) {f : Device → Device}
    (hstype : ∀ d, (f d).stype = d.stype)
    (hf : ∀ e, t.pres? m = some e → Stranger c e → Stranger c (f e)) :
    Steady c n s (t.modifyDev m f) := by
  obtain ⟨d, hd, howner⟩ := h.standing.owner
  have hn : (t.modifyDev m f).pres? n = t.pres? n := Machine.pres?_modifyDev_of_ne hmn
  refine ⟨hn.trans h.record, h.settings, h.chips, h.kit, ⟨d, hn.trans hd, howner⟩, ?_,
    h.standing.below, h.standing.tidy⟩
  intro i e hi he
  by_cases him : m = i
  · subst him
    rw [Machine.pres?_modifyDev_self hstype] at he
    obtain ⟨e', he', rfl⟩ := Option.map_eq_some_iff.mp he
    exact hf e' he' (h.standing.strangers m e' hi he')
  · rw [Machine.pres?_modifyDev_of_ne him] at he
    exact h.standing.strangers i e hi he

/-- The functions of `pressure.c` on other switches. -/
theorem Steady.elsewhere {serno : Serno} {p : Statics (Shared τ ρ)} (h : Steady c n s t)
    (hserno : ¬ c.Own serno) (hp : Elsewhere c t.bus.bus.chips serno p) :
    Steady c n s (t.setBus p) := by
  refine ⟨h.record, h.settings, hp.chips.trans h.chips, ?_, h.standing.owner,
    h.standing.strangers, hp.below, Or.inr ⟨hp.reader, hp.writer⟩⟩
  intro hfirst
  exact absurd (Or.inl (hp.first.symm.trans hfirst)) hserno

end

/-! ## Other kinds of devices -/

/-- The library without the pressure sensors. -/
def withoutPressure {σ : Type} (drv : Driver σ) : Driver σ :=
  { drv with initPressure := fun _ b => (false, b), readPressureValues := fun b => (none, b) }

/-- Readers of other kinds do not call them. -/
theorem readSensors_withoutPressure {σ : Type} (drv : Driver σ) (m : ℕ) {stype : W1Type}
    (h : stype ≠ .pres) : readSensors (withoutPressure drv) m stype = readSensors drv m stype := by
  cases stype <;> first | rfl | exact absurd rfl h

section
variable {c : Chips τ} {exp : ℚ → ℚ} {o : Others ρ} {n m : ℕ} {k : Option ℕ}

instance : DriverSteps (withoutPressure (sharedDriver c exp o)) (Idle (τ := τ) (ρ := ρ) k) where
  setSwitch1F _ _ _ := .setBus rfl rfl rfl
  owSearch _ _ _ := .setBus rfl rfl rfl
  readTemperature _ _ _ := .setBus rfl rfl rfl
  readCounter _ _ _ := .setBus rfl rfl rfl
  setupAtoDControl _ _ := .setBus rfl rfl rfl
  writeAtoD _ _ _ := .setBus rfl rfl rfl
  doAtoDConversion _ _ := .setBus rfl rfl rfl
  readAtoDResults _ _ _ := .setBus rfl rfl rfl
  readAtoD _ _ _ := .setBus rfl rfl rfl
  readVsens _ _ := .setBus rfl rfl rfl
  getTemperature _ _ := .setBus rfl rfl rfl
  readSHT11 _ _ := .setBus rfl rfl rfl
  initPressure _ s := .refl k s
  readPressureValues s := .refl k s
  readDS2760 _ _ := .setBus rfl rfl rfl
  readDS1923 _ _ _ := .setBus rfl rfl rfl
  readDS1921 _ _ _ := .setBus rfl rfl rfl
  hbuvReadData _ _ := .setBus rfl rfl rfl
  hbhtReadData _ _ := .setBus rfl rfl rfl

instance : PortSteps (Idle (τ := τ) (ρ := ρ) k) := ⟨fun _ _ => ⟨rfl, rfl, rfl, rfl, fun _ => rfl, fun _ _ => rfl⟩⟩

instance : WireSteps (Idle (τ := τ) (ρ := ρ) k) where
  wire s e _ := .log s e
  lines s m d lines hd hstype := by
    refine .modifyPlain ?_ fun _ => rfl
    rw [Machine.pres?, hd]
    simp [hstype]
  replog := does_reports fun s _ _ => .log s _

instance : ReaderSteps m (Idle (τ := τ) (ρ := ρ) (some m)) where
  clear s := .modifyDev s fun _ => rfl
  assign s _ _ _ := .modifyDev s fun _ => rfl
  validate s j f x x' _ _ _ := by
    have hassign : Idle (some m) s (s.modifyDev m (·.modifySlot j f)) := .modifyDev s fun _ => rfl
    have hverdict := Idle.modifyDev (m := m) (s.modifyDev m (·.modifySlot j f))
      (f := (·.modifySlot j fun _ => x')) fun _ => rfl
    exact (hassign.trans hverdict).trans (.log _ _)

/-! ## Readers of other kinds -/

/-- Steps of the reader of a device that is no pressure sensor. -/
def PlainStep (m : ℕ) (s t : State τ ρ) : Prop := s.pres? m = none → Idle none s t

instance : DriverSteps (withoutPressure (sharedDriver c exp o)) (PlainStep (τ := τ) (ρ := ρ) m) where
  setSwitch1F _ _ _ _ := .setBus rfl rfl rfl
  owSearch _ _ _ _ := .setBus rfl rfl rfl
  readTemperature _ _ _ _ := .setBus rfl rfl rfl
  readCounter _ _ _ _ := .setBus rfl rfl rfl
  setupAtoDControl _ _ _ := .setBus rfl rfl rfl
  writeAtoD _ _ _ _ := .setBus rfl rfl rfl
  doAtoDConversion _ _ _ := .setBus rfl rfl rfl
  readAtoDResults _ _ _ _ := .setBus rfl rfl rfl
  readAtoD _ _ _ _ := .setBus rfl rfl rfl
  readVsens _ _ _ := .setBus rfl rfl rfl
  getTemperature _ _ _ := .setBus rfl rfl rfl
  readSHT11 _ _ _ := .setBus rfl rfl rfl
  initPressure _ s _ := .refl none s
  readPressureValues s _ := .refl none s
  readDS2760 _ _ _ := .setBus rfl rfl rfl
  readDS1923 _ _ _ _ := .setBus rfl rfl rfl
  readDS1921 _ _ _ _ := .setBus rfl rfl rfl
  hbuvReadData _ _ _ := .setBus rfl rfl rfl
  hbhtReadData _ _ _ := .setBus rfl rfl rfl

instance : WireSteps (PlainStep (τ := τ) (ρ := ρ) m) where
  wire s e he _ := WireSteps.wire s e he
  lines s k d lines hd hstype _ := WireSteps.lines s k d lines hd hstype
  replog := WireSteps.replog.mono fun _ _ h _ => h

instance : TouchSteps m (PlainStep (τ := τ) (ρ := ρ) m) where
  touch _ _ hf hm := .modifyPlain hm fun d => congrArg Prod.fst (hf d)

instance : ReaderSteps m (PlainStep (τ := τ) (ρ := ρ) m) where
  clear _ hm := .modifyPlain hm fun _ => rfl
  assign _ _ _ _ hm := .modifyPlain hm fun _ => rfl
  validate s j f x x' _ _ _ hm := by
    have hassign : Idle none s (s.modifyDev m (·.modifySlot j f)) := .modifyPlain hm fun _ => rfl
    have hm' : (s.modifyDev m (·.modifySlot j f)).pres? m = none := by
      rw [Machine.pres?_modifyDev_self (f := (·.modifySlot j f)) fun _ => rfl, hm]
      rfl
    have hverdict := Idle.modifyPlain (k := none) (f := (·.modifySlot j fun _ => x')) hm' fun _ => rfl
    exact (hassign.trans hverdict).trans (.log _ _)

theorem does_mark (e : Event) : Does (Idle (τ := τ) (ρ := ρ) k) (event e) := by
  intro s u s' h
  obtain rfl := run_event_ok.mp h
  exact .single (.log s e)

/-- Selecting a device, of any kind, is one of the idle things to do. -/
theorem does_select (k : Option ℕ) (m : ℕ) :
    Does (Idle (τ := τ) (ρ := ρ) k) (w1SelectDevice (sharedDriver c exp o) m) :=
  does_w1SelectDevice (withoutPressure (sharedDriver c exp o)) m

theorem idle_of_does {α : Type} {s t : State τ ρ} {a : α} {prog : M (Statics (Shared τ ρ)) α}
    (h : Does (Idle k) prog) (hrun : prog.run s = .ok (a, t)) : Idle k s t :=
  h.keeps (P := fun u => Idle k s u) (fun _ _ hstep hs => hs.trans hstep) hrun (.refl k s)

/-- A selection that works leaves the device selected. -/
theorem selected_of_found {s t : State τ ρ} {d : Device} (hd : s.w1.devs[m]? = some d)
    (h : (w1SelectDevice (sharedDriver c exp o) m).run s = .ok (true, t)) :
    t.bus.bus.selected = d.serno := by
  obtain ⟨b, hbus, hfound⟩ := w1SelectDevice_ok hd h
  rw [hbus]
  exact if_pos hfound.symm

/-! ## Another pressure sensor -/

/-- While another pressure sensor is read, what is set up to read it with is its own. -/
structure Aside (c : Chips τ) (n m : ℕ) (s t : State τ ρ) : Prop where
  steady : Steady c n s t
  current : ∃ e, t.pres? m = some e ∧ (e.init = 2 → t.bus.switchSN.head = e.serno)

/-- Its serial number has been made. -/
def Made (m : ℕ) (t : State τ ρ) : Prop := ∀ e, t.pres? m = some e → e.init ≠ 0

section
variable {s t u : State τ ρ} {d : Device}

theorem Aside.known (h : Aside c n m s t) (hd : t.w1.devs[m]? = some d) :
    t.pres? m = some d ∧ (d.init = 2 → t.bus.switchSN.head = d.serno) := by
  obtain ⟨e, he, hcurrent⟩ := h.current
  obtain rfl : e = d := Option.some.inj ((Machine.pres?_eq_some.mp he).1.symm.trans hd)
  exact ⟨he, hcurrent⟩

theorem Aside.idle (h : Aside c n m s t) (hmn : m ≠ n) (hidle : Idle (some m) t u) :
    Aside c n m s u := by
  obtain ⟨e, he, hcurrent⟩ := h.current
  obtain ⟨e', he', hsame⟩ := hidle.forward he
  refine ⟨h.steady.idle hidle fun hm => hmn (Option.some.inj hm), e', he', ?_⟩
  simp only [Device.identity, Prod.mk.injEq] at hsame
  obtain ⟨-, -, hserno, hinit⟩ := hsame
  rw [hidle.switchSN, hserno, hinit]
  exact hcurrent

theorem Made.idle (h : Made m t) (hidle : Idle k t u) : Made m u := by
  intro e he
  obtain ⟨e', he', hsame⟩ := hidle.backward he
  simp only [Device.identity, Prod.mk.injEq] at hsame
  rw [hsame.2.2.2]
  exact h e' he'

theorem Made.modifyDev {f : Device → Device} (hd : t.pres? m = some d)
    (hstype : ∀ d, (f d).stype = d.stype) (hf : (f d).init ≠ 0) : Made m (t.modifyDev m f) := by
  intro e he
  rw [Machine.pres?_modifyDev_of_some hd hstype] at he
  obtain rfl := Option.some.inj he
  exact hf

theorem Aside.stranger (h : Aside c n m s t) (hmn : m ≠ n) (hd : t.pres? m = some d) :
    Stranger c d :=
  h.steady.standing.strangers m d hmn hd

theorem Aside.modifyDev (h : Aside c n m s t) (hmn : m ≠ n) (hd : t.pres? m = some d)
    {f : Device → Device} (hstype : ∀ d, (f d).stype = d.stype) (hf : Stranger c (f d))
    (hcurrent : (f d).init = 2 → t.bus.switchSN.head = (f d).serno) :
    Aside c n m s (t.modifyDev m f) := by
  refine ⟨h.steady.modifyDev hmn hstype fun e he _ => ?_, f d,
    Machine.pres?_modifyDev_of_some hd hstype, hcurrent⟩
  obtain rfl := Option.some.inj (hd.symm.trans he)
  exact hf

theorem Aside.elsewhere {p : Statics (Shared τ ρ)} (h : Aside c n m s t)
    (hd : t.pres? m = some d) (hserno : ¬ c.Own d.serno)
    (hp : Elsewhere c t.bus.bus.chips d.serno p) : Aside c n m s (t.setBus p) :=
  ⟨h.steady.elsewhere hserno hp, d, hd, fun _ => hp.first⟩

theorem ends_idle {α : Type} {prog : M (Statics (Shared τ ρ)) α} (hmn : m ≠ n)
    (h : Does (Idle (some m)) prog) : Ends (Aside c n m s) prog fun _ => Aside c n m s :=
  .of_does h fun _ _ hstep ht => ht.idle hmn hstep

theorem ends_makeSerial (hmn : m ≠ n) :
    Ends (Aside c n m s) (makeSerial m) fun _ t => Aside c n m s t ∧ Made m t := by
  intro t u t' h hrun
  obtain ⟨d, hd, hrun⟩ := run_dev_bind_ok.mp hrun
  have hpres := (h.known hd).1
  split at hrun
  · obtain ⟨serno, t₁, hlift, hmodify⟩ := run_bind_ok.mp hrun
    obtain ⟨hserno, rfl⟩ := run_lift_ok.mp hlift
    obtain rfl := run_modifyDev_ok.mp hmodify
    have hmade : Stranger c { d with serno, init := 1 } :=
      ⟨(h.stranger hmn hpres).serial, fun _ => (h.stranger hmn hpres).serial serno hserno⟩
    exact ⟨h.modifyDev hmn hpres (fun _ => rfl) hmade fun hinit => by simp at hinit,
      .modifyDev hpres (fun _ => rfl) Nat.one_ne_zero⟩
  · rename_i hinit
    obtain ⟨-, rfl⟩ := run_pure_ok.mp hrun
    refine ⟨h, fun e he => ?_⟩
    obtain rfl := Option.some.inj (hpres.symm.trans he)
    exact hinit

theorem ends_select (hmn : m ≠ n) :
    Ends (fun t => Aside c n m s t ∧ Made m t) (w1SelectDevice (sharedDriver c exp o) m)
      fun found t => (Aside c n m s t ∧ Made m t) ∧
        (found = true → ¬ c.Own t.bus.bus.selected) := by
  rintro t found t' ⟨h, hmade⟩ hrun
  have hidle := idle_of_does (does_select (some m) m) hrun
  refine ⟨⟨h.idle hmn hidle, hmade.idle hidle⟩, ?_⟩
  rintro rfl
  obtain ⟨d, hd, -⟩ := h.current
  rw [selected_of_found (Machine.pres?_eq_some.mp hd).1 hrun]
  exact (h.stranger hmn hd).serno (hmade d hd)

/-- It takes the static variables over. -/
theorem ends_calibrate (hmn : m ≠ n) (hapart : o.Apart c) :
    Ends (fun t => Aside c n m s t ∧ ¬ c.Own t.bus.bus.selected)
      (calibrate (sharedDriver c exp o) m)
      fun _ t => Aside c n m s t ∧ ¬ c.Own t.bus.bus.selected := by
  rintro t u t' ⟨h, hselected⟩ hrun
  obtain ⟨d, hd, hrun⟩ := run_dev_bind_ok.mp hrun
  have hpres := (h.known hd).1
  split at hrun
  · rename_i hinit
    have hserno : ¬ c.Own d.serno := (h.stranger hmn hpres).serno (by omega)
    rw [run_call_bind] at hrun
    have helse : Elsewhere c t.bus.bus.chips d.serno
        ((sharedDriver c exp o).initPressure d.serno t.bus).2 :=
      keeps_initPressure hapart hserno t.bus ⟨rfl, h.steady.standing.below⟩
    have haside := h.elsewhere hpres hserno helse
    split at hrun
    · obtain rfl := run_modifyDev_ok.mp hrun
      have hready : Stranger c { d with init := 2 } :=
        ⟨(h.stranger hmn hpres).serial, fun _ => hserno⟩
      exact ⟨haside.modifyDev hmn hpres (fun _ => rfl) hready fun _ => helse.first, helse.selected⟩
    · obtain ⟨-, rfl⟩ := run_pure_ok.mp hrun
      exact ⟨haside, helse.selected⟩
  · obtain ⟨-, rfl⟩ := run_pure_ok.mp hrun
    exact ⟨h, hselected⟩

/-- It is read by its own switches. -/
theorem ends_reading (hmn : m ≠ n) :
    Ends (fun t => Aside c n m s t ∧ ¬ c.Own t.bus.bus.selected ∧
        ∃ e, t.pres? m = some e ∧ e.init = 2)
      (call (sharedDriver c exp o).readPressureValues) fun _ => Aside c n m s := by
  rintro t v t' ⟨h, hselected, d, hpres, hinit⟩ hrun
  obtain ⟨-, rfl⟩ := run_call_ok.mp hrun
  have hserno : ¬ c.Own d.serno := (h.stranger hmn hpres).serno (by omega)
  have hfirst : t.bus.switchSN.head = d.serno :=
    (h.known (Machine.pres?_eq_some.mp hpres).1).2 hinit
  have hroles := h.steady.standing.tidy.resolve_left
    fun hown => hserno (Or.inl (hfirst.symm.trans hown))
  have helse : Elsewhere c t.bus.bus.chips d.serno
      ((sharedDriver c exp o).readPressureValues t.bus).2 :=
    keeps_readPressureValues o.wire t.bus
      ⟨rfl, hselected, hroles.1, hroles.2, h.steady.standing.below, hfirst⟩
  exact h.elsewhere hpres hserno helse

/-- Reading another pressure sensor. -/
theorem ends_w1ReadPressure (hmn : m ≠ n) (hapart : o.Apart c) :
    Ends (Aside c n m s) (w1ReadPressure (sharedDriver c exp o) m) fun _ => Aside c n m s := by
  refine .bind (ends_makeSerial hmn) fun _ => .bind (ends_select hmn) fun found => ?_
  refine .ite (fun htrue => ?_) fun _ => ?_
  · refine .bind ((ends_calibrate hmn hapart).conseq (fun t h => ⟨h.1.1, h.2 htrue⟩) fun _ _ h => h)
      fun _ => ?_
    intro t r t' h hrun
    obtain ⟨d, hd, hrun⟩ := run_dev_bind_ok.mp hrun
    have hpres := (h.1.known hd).1
    split at hrun
    · rename_i hinit
      obtain ⟨v, t₁, hread, hrun⟩ := run_bind_ok.mp hrun
      have h₁ := ends_reading hmn t v t₁ ⟨h.1, h.2, d, hpres, hinit⟩ hread
      cases v with
      | none =>
        obtain ⟨_, t₂, hmodify, hrun⟩ := run_bind_ok.mp hrun
        obtain rfl := run_modifyDev_ok.mp hmodify
        obtain ⟨-, rfl⟩ := run_pure_ok.mp hrun
        obtain ⟨e, he, -⟩ := h₁.current
        have hagain : Stranger c { e with init := 0 } :=
          ⟨(h₁.stranger hmn he).serial, fun hinit => absurd rfl hinit⟩
        exact h₁.modifyDev hmn he (fun _ => rfl) hagain fun hinit => by simp at hinit
      | some v =>
        have hoffers : Does (Idle (τ := τ) (ρ := ρ) (some m))
            (offerValues (sharedDriver c exp o) m v.1 v.2) :=
          .bind does_getW1 fun w1 => .bind (does_offer _ _) fun _ => .bind (does_offer _ _) fun _ =>
            .pure _
        exact ends_idle hmn hoffers t₁ r t' h₁ hrun
    · obtain ⟨-, rfl⟩ := run_pure_ok.mp hrun
      exact h.1
  · intro t r t' h hrun
    obtain ⟨_, t₁, hmodify, hrun⟩ := run_bind_ok.mp hrun
    obtain rfl := run_modifyDev_ok.mp hmodify
    obtain ⟨-, rfl⟩ := run_pure_ok.mp hrun
    obtain ⟨e, he, -⟩ := h.1.1.current
    have hagain : Stranger c { e with init := 1 } :=
      ⟨(h.1.1.stranger hmn he).serial, fun _ => (h.1.1.stranger hmn he).serno (h.1.2 e he)⟩
    exact h.1.1.modifyDev hmn he (fun _ => rfl) hagain fun hinit => by simp at hinit

theorem ends_readRetrying (hmn : m ≠ n) (hapart : o.Apart c) (rtry : ℕ) :
    Ends (Aside c n m s) (readRetrying (sharedDriver c exp o) m .pres rtry)
      fun _ => Aside c n m s := by
  induction rtry with
  | zero => exact .pure fun _ h => h
  | succ rtry ih =>
    refine .bind (ends_w1ReadPressure hmn hapart) fun r => .ite (fun _ => .pure fun _ h => h)
      fun _ => ?_
    exact .bind (ends_idle hmn does_w1Replog) fun _ => ih

/-! ## One device of a pass -/

/-- A pressure sensor that is due and initialised is the one that was initialised last. -/
def LastInitialised (secs : Int) (m : ℕ) (s : State τ ρ) : Prop :=
  ∀ e, s.pres? m = some e → e.due secs = true → e.init = 2 → s.bus.switch 0 = e.serno

theorem ends_plain {α : Type} {prog : M (Statics (Shared τ ρ)) α} (h : Does (PlainStep m) prog) :
    Ends (fun t => Idle none s t ∧ t.pres? m = none) prog
      fun _ t => Idle none s t ∧ t.pres? m = none := by
  refine .of_does h fun t u hstep ht => ?_
  have hidle := hstep ht.2
  refine ⟨ht.1.trans hidle, ?_⟩
  rw [hidle.records m (by simp)]
  exact ht.2

theorem readRetrying_withoutPressure {σ : Type} (drv : Driver σ) (m : ℕ) {stype : W1Type}
    (h : stype ≠ .pres) (rtry : ℕ) :
    readRetrying (withoutPressure drv) m stype rtry = readRetrying drv m stype rtry := by
  induction rtry with
  | zero => rfl
  | succ rtry ih => rw [readRetrying, readRetrying, readSensors_withoutPressure drv m h, ih]

/-- Reading a device of another kind. -/
theorem ends_readPlain (secs : Int) :
    Ends (fun t => Idle none s t ∧ t.pres? m = none) (readDevice (sharedDriver c exp o) secs m)
      fun _ t => Idle none s t ∧ t.pres? m = none := by
  refine .bind (ends_plain does_w1SetInvalid) fun _ => ?_
  intro t r u h hrun
  obtain ⟨d, hd, hrun⟩ := run_dev_bind_ok.mp hrun
  have hstype : d.stype ≠ .pres := by
    intro hpres
    have hsome := Machine.pres?_eq_some.mpr ⟨hd, hpres⟩
    rw [h.2] at hsome
    cases hsome
  have hmark : Does (PlainStep (τ := τ) (ρ := ρ) m) (event (.read m secs)) :=
    (does_mark _).mono fun _ _ h _ => h
  have hretry : Does (PlainStep (τ := τ) (ρ := ρ) m)
      (readRetrying (sharedDriver c exp o) m d.stype w1Retry) := by
    rw [← readRetrying_withoutPressure _ m hstype]
    exact does_readRetrying d.stype w1Retry
  have hrest : Does (PlainStep (τ := τ) (ρ := ρ) m) (if d.due secs = true then do
        event (.read m secs)
        let r ← readRetrying (sharedDriver c exp o) m d.stype w1Retry
        return if 0 ≤ r then r else 0
      else return 0) :=
    .ite (fun _ => .bind hmark fun _ => .bind hretry fun _ => .pure _) fun _ => .pure _
  exact ends_plain hrest t r u h hrun

/-- Reading another device leaves the sensor alone. -/
theorem steady_readDevice {secs r : Int} (hmn : m ≠ n) (hapart : o.Apart c)
    (hs : Standing c n s) (hlast : LastInitialised secs m s)
    (h : (readDevice (sharedDriver c exp o) secs m).run s = .ok (r, t)) : Steady c n s t := by
  cases hm : s.pres? m with
  | none =>
    have hidle := (ends_readPlain secs s r t ⟨.refl none s, hm⟩ h).1
    exact (Steady.refl hs).idle hidle (by simp)
  | some e =>
    obtain ⟨_, s₁, hclear, hrun⟩ := run_bind_ok.mp h
    obtain rfl := run_modifyDev_ok.mp hclear
    have hidle : Idle (some m) s (s.modifyDev m Device.setInvalid) := .modifyDev s fun _ => rfl
    have hsteady := (Steady.refl hs).idle hidle fun hm => hmn (Option.some.inj hm)
    have hcleared := Machine.pres?_modifyDev_of_some (f := Device.setInvalid) hm fun _ => rfl
    obtain ⟨d, hd, hrun⟩ := run_dev_bind_ok.mp hrun
    obtain rfl := Option.some.inj ((Machine.pres?_eq_some.mp hcleared).1.symm.trans hd)
    split at hrun
    · rename_i hdue
      rw [run_event_bind] at hrun
      obtain ⟨r', t', hretry, hrun⟩ := run_bind_ok.mp hrun
      obtain ⟨-, rfl⟩ := run_pure_ok.mp hrun
      have hstype : e.setInvalid.stype = .pres := (Machine.pres?_eq_some.mp hcleared).2
      rw [hstype] at hretry
      have hstart : Aside c n m s ((s.modifyDev m Device.setInvalid).log (.read m secs)) :=
        ⟨hsteady.idle (.log _ _) (k := none) (by simp), _, hcleared, hlast e hm hdue⟩
      exact (ends_readRetrying hmn hapart w1Retry _ _ _ hstart hretry).steady
    · obtain ⟨-, rfl⟩ := run_pure_ok.mp hrun
      exact hsteady

end

end
end
end Tai8570
end W1Retap

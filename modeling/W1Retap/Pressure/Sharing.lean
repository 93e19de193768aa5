import W1Retap.Pressure.Interface
import W1Retap.Support.Lockstep

/-!
# One pressure sensor among others

The two switches of a pressure sensor hang on a bus with everything else. They answer from
what they have been told themselves, the rest answers as it likes, and a call goes to one side
or the other by the serial number that is selected. The functions of `pressure.c` that work on
the two switches do the same whatever the rest is, and those that work on other switches
leave the two alone.
-/
namespace W1Retap.Tai8570

open Programs

/-- The two switches of a pressure sensor: how they answer, and whether a search finds them.
The file of the first one names the second. -/
structure Chips (τ : Type) where
  first : Serno
  second : Serno
  wire : Wire τ
  present : τ → Bool
  named : ∀ hnd u, (wire.owReadFile first hnd u).1 = second

/-- The other devices, and the calls of the library that are not made by `pressure.c`. -/
structure Others (ρ : Type) where
  wire : Wire ρ
  drv : Driver ρ

/-- The bus of both; `selected` is the serial number that the port holds. -/
structure Shared (τ ρ : Type) where
  chips : τ
  others : ρ
  selected : Serno

section
variable {τ ρ ρ' α : Type}

/-- A serial number of the two switches. -/
def Chips.Own (c : Chips τ) (serno : Serno) : Prop := serno = c.first ∨ serno = c.second

instance (c : Chips τ) (serno : Serno) : Decidable (c.Own serno) :=
  inferInstanceAs (Decidable (serno = c.first ∨ serno = c.second))

def Shared.onOthers (g : ρ → α × ρ) (b : Shared τ ρ) : α × Shared τ ρ :=
  let r := g b.others
  (r.1, { b with others := r.2 })

/-- A call to the device `serno`. -/
def Chips.route (c : Chips τ) (serno : Serno) (f : τ → α × τ) (g : ρ → α × ρ) (b : Shared τ ρ) :
    α × Shared τ ρ :=
  if c.Own serno then
    let r := f b.chips
    (r.1, { b with chips := r.2 })
  else b.onOthers g

/-- A call that selects its device. -/
def Chips.routeTo (c : Chips τ) (serno : Serno) (f : τ → α × τ) (g : ρ → α × ρ)
    (b : Shared τ ρ) : α × Shared τ ρ :=
  let r := c.route serno f g b
  (r.1, { r.2 with selected := serno })

def silently {σ : Type} (f : σ → σ) (s : σ) : Unit × σ := ((), f s)

/-- The calls of `pressure.c` on the shared bus. -/
def share (c : Chips τ) (o : Wire ρ) : Wire (Shared τ ρ) where
  owSerialNum serno b :=
    (c.routeTo serno (silently (c.wire.owSerialNum serno)) (silently (o.owSerialNum serno)) b).2
  owAccess b := c.route b.selected c.wire.owAccess o.owAccess b
  owBlock sent b := c.route b.selected (c.wire.owBlock sent) (o.owBlock sent) b
  owTouchByte sent b := c.route b.selected (c.wire.owTouchByte sent) (o.owTouchByte sent) b
  owTouchBit sent b := c.route b.selected (c.wire.owTouchBit sent) (o.owTouchBit sent) b
  owReadByte b := c.route b.selected c.wire.owReadByte o.owReadByte b
  owWriteByte sent b :=
    (c.route b.selected (silently (c.wire.owWriteByte sent)) (silently (o.owWriteByte sent)) b).2
  owOpenFile serno name b :=
    c.routeTo serno (c.wire.owOpenFile serno name) (o.owOpenFile serno name) b
  owReadFile serno hnd b := c.routeTo serno (c.wire.owReadFile serno hnd) (o.owReadFile serno hnd) b
  owCloseFile serno hnd b :=
    (c.routeTo serno (silently (c.wire.owCloseFile serno hnd))
      (silently (o.owCloseFile serno hnd)) b).2

/-- A search for one of the switches finds it if it is there, whatever else it comes by; the
search ends with the device that is wanted. -/
def shareSearch (c : Chips τ) (drv : Driver ρ) (family : UInt8) (serno : Serno)
    (b : Shared τ ρ) : List Serno × Shared τ ρ :=
  let r := drv.owSearch family serno b.others
  let listed :=
    if c.Own serno then
      r.1.filter (· ≠ serno) ++ if c.present b.chips then [serno] else []
    else r.1
  (listed,
    { b with others := r.2, selected := if listed.contains serno then serno else b.selected })

/-- The other calls of the library are for other kinds of devices. -/
def shareDriver (c : Chips τ) (exp : ℚ → ℚ) (drv : Driver ρ) : Driver (Shared τ ρ) where
  owAcquireEx iface := Shared.onOthers (drv.owAcquireEx iface)
  owRelease portnum b := (b.onOthers (silently (drv.owRelease portnum))).2
  setSwitch1F serno lines := Shared.onOthers (drv.setSwitch1F serno lines)
  owSearch := shareSearch c drv
  readTemperature serno scan := Shared.onOthers (drv.readTemperature serno scan)
  readCounter serno page := Shared.onOthers (drv.readCounter serno page)
  setupAtoDControl serno := Shared.onOthers (drv.setupAtoDControl serno)
  writeAtoD serno control := Shared.onOthers (drv.writeAtoD serno control)
  doAtoDConversion serno := Shared.onOthers (drv.doAtoDConversion serno)
  readAtoDResults serno control := Shared.onOthers (drv.readAtoDResults serno control)
  readAtoD vdd serno := Shared.onOthers (drv.readAtoD vdd serno)
  readVsens serno := Shared.onOthers (drv.readVsens serno)
  getTemperature serno := Shared.onOthers (drv.getTemperature serno)
  readSHT11 serno := Shared.onOthers (drv.readSHT11 serno)
  initPressure serno := Shared.onOthers (drv.initPressure serno)
  readPressureValues := Shared.onOthers drv.readPressureValues
  readDS2760 serno := Shared.onOthers (drv.readDS2760 serno)
  readDS1923 serno log := Shared.onOthers (drv.readDS1923 serno log)
  readDS1921 serno log := Shared.onOthers (drv.readDS1921 serno log)
  hbuvReadData serno := Shared.onOthers (drv.hbuvReadData serno)
  hbhtReadData serno := Shared.onOthers (drv.hbhtReadData serno)
  exp := exp

/-- The library on the shared bus, `exp` being that of the mathematics library. -/
def sharedDriver (c : Chips τ) (exp : ℚ → ℚ) (o : Others ρ) : Driver (Statics (Shared τ ρ)) :=
  driver (share c o.wire) (shareDriver c exp o.drv)

/-- No file of another device names one of the two switches. -/
def Others.Apart (o : Others ρ) (c : Chips τ) : Prop :=
  ∀ serno hnd v, ¬ c.Own (o.wire.owReadFile serno hnd v).1

/-! ## What the static variables keep of a device -/

/-- The static variables that outlast a reading. -/
structure Kit where
  switchSN : Vector Serno 2
  reader : Int
  writer : Int
  coeffs : Coefficients

def Statics.kit {σ : Type} (p : Statics σ) : Kit := ⟨p.switchSN, p.reader, p.writer, p.coeffs⟩

/-- The serial numbers and roles are those of the two switches. -/
structure Kit.For (c : Chips τ) (k : Kit) : Prop where
  first : k.switchSN.head = c.first
  second : k.switchSN.back = c.second
  reader : k.reader = 0 ∨ k.reader = 1
  writer : k.writer = 0 ∨ k.writer = 1

/-- They are so in both, and the same. -/
structure RolesAlike (c : Chips τ) (k k' : Kit) : Prop where
  left : k.For c
  switchSN : k'.switchSN = k.switchSN
  reader : k'.reader = k.reader
  writer : k'.writer = k.writer

theorem Kit.For.own {σ : Type} {c : Chips τ} {p : Statics σ} (h : p.kit.For c) {i : Int}
    (hi : i = 0 ∨ i = 1) : c.Own (p.switch i) := by
  rcases hi with rfl | rfl
  · exact Or.inl h.first
  · exact Or.inr h.second

/-! ## On the two switches -/

/-- Two processes whose selected switch is the same one of the two, whose memory before the
serial numbers holds none of them, and whose static variables `Φ` relates. -/
structure Paired (c : Chips τ) (Φ : Kit → Kit → Prop) (p : Statics (Shared τ ρ))
    (p' : Statics (Shared τ ρ')) : Prop where
  chips : p'.bus.chips = p.bus.chips
  selected : p'.bus.selected = p.bus.selected
  own : c.Own p.bus.selected
  below : ¬ c.Own p.below ∧ ¬ c.Own p'.below
  kits : Φ p.kit p'.kit

section
variable {c : Chips τ} {Φ : Kit → Kit → Prop} {p : Statics (Shared τ ρ)}
  {p' : Statics (Shared τ ρ')}

/-- Both processes see the same roles. -/
theorem Paired.switch (h : Paired c Φ p p') (hΦ : ∀ k k', Φ k k' → RolesAlike c k k') :
    p'.switch p'.reader = p.switch p.reader ∧ p'.switch p'.writer = p.switch p.writer ∧
      c.Own (p.switch p.reader) ∧ c.Own (p.switch p.writer) := by
  obtain ⟨hroles, hswitch, hreader, hwriter⟩ := hΦ _ _ h.kits
  change p'.switchSN = p.switchSN at hswitch
  change p'.reader = p.reader at hreader
  change p'.writer = p.writer at hwriter
  have hsame : ∀ i : Int, i = 0 ∨ i = 1 → p'.switch i = p.switch i := by
    rintro i (rfl | rfl)
    · exact congrArg Vector.head hswitch
    · exact congrArg Vector.back hswitch
  rw [hreader, hwriter]
  exact ⟨hsame _ hroles.reader, hsame _ hroles.writer, hroles.own hroles.reader,
    hroles.own hroles.writer⟩

theorem lockstep_call {α : Type} (f : τ → α × τ) (g : ρ → α × ρ) (g' : ρ' → α × ρ') :
    Lockstep (Paired c Φ) (Statics.call fun b => c.route b.selected f g b)
      (Statics.call fun b => c.route b.selected f g' b) := by
  intro p p' h
  have hown : c.Own p'.bus.selected := h.selected ▸ h.own
  simp only [Statics.call, Chips.route, if_pos h.own, if_pos hown, h.chips, true_and]
  exact ⟨rfl, h.selected, h.own, h.below, h.kits⟩

theorem lockstep_send (f : τ → τ) (g : ρ → ρ) (g' : ρ' → ρ') :
    Lockstep (Paired c Φ)
      (Statics.send fun b => (c.route b.selected (silently f) (silently g) b).2)
      (Statics.send fun b => (c.route b.selected (silently f) (silently g') b).2) :=
  fun p p' h => lockstep_call (silently f) (silently g) (silently g') p p' h

/-- A call that selects one of the two. -/
theorem lockstep_callTo {α : Type} {serno : Serno} (hown : c.Own serno) (f : τ → α × τ)
    (g : ρ → α × ρ) (g' : ρ' → α × ρ') :
    Lockstep (Paired c Φ) (Statics.call fun b => c.routeTo serno f g b)
      (Statics.call fun b => c.routeTo serno f g' b) := by
  intro p p' h
  simp only [Statics.call, Chips.routeTo, Chips.route, if_pos hown, h.chips, true_and]
  exact ⟨rfl, rfl, hown, h.below, h.kits⟩

theorem lockstep_sendTo {serno : Serno} (hown : c.Own serno) (f : τ → τ) (g : ρ → ρ)
    (g' : ρ' → ρ') :
    Lockstep (Paired c Φ)
      (Statics.send fun b => (c.routeTo serno (silently f) (silently g) b).2)
      (Statics.send fun b => (c.routeTo serno (silently f) (silently g') b).2) :=
  fun p p' h => lockstep_callTo hown (silently f) (silently g) (silently g') p p' h

variable (o : Wire ρ) (o' : Wire ρ')

theorem lockstep_readSwitch12 :
    Lockstep (Paired c Φ) (readSwitch12 (share c o)) (readSwitch12 (share c o')) := by
  refine .bind (lockstep_call _ _ _) fun ok => .ite (fun _ => ?_) fun _ => .pure _
  refine .bind (lockstep_call _ _ _) fun transfer => ?_
  cases transfer with
  | none => exact .pure _
  | some transfer => exact .ite (fun _ => .pure _) fun _ => .pure _

theorem lockstep_writeSwitch12 {serno : Serno} (hown : c.Own serno) (st : UInt8) :
    Lockstep (Paired c Φ) (writeSwitch12 (share c o) serno st)
      (writeSwitch12 (share c o') serno st) := by
  refine .bind (lockstep_sendTo hown _ _ _) fun _ => .bind (lockstep_call _ _ _) fun ok => ?_
  refine .ite (fun _ => .bind (lockstep_call _ _ _) fun block => ?_) fun _ => .pure _
  cases block with
  | none => exact .pure _
  | some block => exact .pure _

theorem lockstep_openChannel (set keep : UInt8) {serno : Serno} (hown : c.Own serno) (rounds : ℕ) :
    Lockstep (Paired c Φ) (openChannel (share c o) set keep serno rounds)
      (openChannel (share c o') set keep serno rounds) := by
  induction rounds with
  | zero => exact .pure _
  | succ rounds ih =>
    refine .bind (lockstep_sendTo hown _ _ _) fun _ => .bind (lockstep_readSwitch12 o o') fun i => ?_
    refine .bind (lockstep_writeSwitch12 o o' hown _) fun _ => ?_
    exact .bind (lockstep_readSwitch12 o o') fun i => .ite (fun _ => .pure _) fun _ => ih

theorem lockstep_channelAccess {serno : Serno} (hown : c.Own serno) (c₁ c₂ : UInt8) :
    Lockstep (Paired c Φ) (channelAccess (share c o) serno c₁ c₂)
      (channelAccess (share c o') serno c₁ c₂) := by
  refine .bind (lockstep_sendTo hown _ _ _) fun _ => .bind (lockstep_call _ _ _) fun ok => ?_
  refine .ite (fun _ => ?_) fun _ => .pure _
  refine .bind (lockstep_call _ _ _) fun _ => .bind (lockstep_call _ _ _) fun _ => ?_
  exact .bind (lockstep_call _ _ _) fun _ => .bind (lockstep_call _ _ _) fun _ => .pure _

theorem lockstep_sendPressureBit (i : Bool) :
    Lockstep (Paired c Φ) (sendPressureBit (share c o) i) (sendPressureBit (share c o') i) :=
  .bind (lockstep_call _ _ _) fun _ => .pure _

theorem lockstep_readPressureBits (count : ℕ) :
    Lockstep (Paired c Φ) (readPressureBits (share c o) count)
      (readPressureBits (share c o') count) := by
  have hbit : Lockstep (Paired c Φ) (readPressureBit (share c o)) (readPressureBit (share c o')) :=
    .bind (lockstep_call _ _ _) fun res => .bind (lockstep_send _ _ _) fun _ => .pure _
  induction count with
  | zero => exact .pure _
  | succ count ih =>
    exact .bind hbit fun b => .bind ih fun bits => .pure _

theorem lockstep_awaitLow (rounds : ℕ) :
    Lockstep (Paired c Φ) (awaitLow (share c o) rounds) (awaitLow (share c o') rounds) := by
  induction rounds with
  | zero => exact .pure _
  | succ rounds ih => exact .bind (lockstep_call _ _ _) fun b => .ite (fun _ => ih) fun _ => .pure _

section
variable (hΦ : ∀ k k', Φ k k' → RolesAlike c k k')
include hΦ

/-- Both roles, with the static variables set up for them. -/
theorem lockstep_openPios {f : Serno → PM (Shared τ ρ) Bool} {g : Serno → PM (Shared τ ρ') Bool}
    (h : ∀ serno, c.Own serno → Lockstep (Paired c Φ) (f serno) (g serno)) :
    Lockstep (Paired c Φ) (openPios f) (openPios g) := by
  refine .reads fun p p' hp => ?_
  obtain ⟨hreader, hwriter, hown, hown'⟩ := hp.switch hΦ
  rw [hreader, hwriter]
  exact .bind (h _ hown) fun ok => .ite (fun _ => h _ hown') fun _ => .pure _

theorem lockstep_openPiosA :
    Lockstep (Paired c Φ) (openPiosA (share c o)) (openPiosA (share c o')) :=
  lockstep_openPios hΦ fun _ hown => lockstep_openChannel o o' _ _ hown 5

theorem lockstep_openPiosB :
    Lockstep (Paired c Φ) (openPiosB (share c o)) (openPiosB (share c o')) :=
  lockstep_openPios hΦ fun _ hown => lockstep_openChannel o o' _ _ hown 5

theorem lockstep_configWrite :
    Lockstep (Paired c Φ) (configWrite (share c o)) (configWrite (share c o')) := by
  refine .reads fun p p' hp => ?_
  obtain ⟨-, hwriter, -, hown⟩ := hp.switch hΦ
  rw [hwriter]
  exact lockstep_channelAccess o o' hown _ _

theorem lockstep_configRead :
    Lockstep (Paired c Φ) (configRead (share c o)) (configRead (share c o')) := by
  refine .reads fun p p' hp => ?_
  obtain ⟨hreader, -, hown, -⟩ := hp.switch hΦ
  rw [hreader]
  exact lockstep_channelAccess o o' hown _ _

theorem lockstep_configReadPulse :
    Lockstep (Paired c Φ) (configReadPulse (share c o)) (configReadPulse (share c o')) := by
  refine .reads fun p p' hp => ?_
  obtain ⟨hreader, -, hown, -⟩ := hp.switch hΦ
  rw [hreader]
  exact lockstep_channelAccess o o' hown _ _

theorem lockstep_writePressureSensor (cmd : CString) :
    Lockstep (Paired c Φ) (writePressureSensor (share c o) cmd)
      (writePressureSensor (share c o') cmd) := by
  refine .bind (lockstep_configWrite o o' hΦ) fun ok => .ite (fun _ => ?_) fun _ => .pure _
  refine .bind (.forM fun b => lockstep_sendPressureBit o o' _) fun _ => ?_
  exact .bind (lockstep_sendPressureBit o o' false) fun _ => .pure _

theorem lockstep_readPressureSensor (count : ℕ) :
    Lockstep (Paired c Φ) (readPressureSensor (share c o) count)
      (readPressureSensor (share c o') count) :=
  .bind (lockstep_configRead o o' hΦ) fun _ => .ite (fun _ => lockstep_readPressureBits o o' count)
    fun _ => .pure _

theorem lockstep_checkConversion :
    Lockstep (Paired c Φ) (checkConversion (share c o)) (checkConversion (share c o')) :=
  .bind (lockstep_configReadPulse o o' hΦ) fun _ => .ite (fun _ => lockstep_awaitLow o o' 100)
    fun _ => .pure _

theorem lockstep_pressureReset :
    Lockstep (Paired c Φ) (pressureReset (share c o)) (pressureReset (share c o')) := by
  refine .bind (lockstep_openPiosA o o' hΦ) fun ok => .ite (fun _ => ?_) fun _ => .pure _
  exact .bind (lockstep_configWrite o o' hΦ) fun ok =>
    .ite (fun _ => lockstep_writePressureSensor o o' hΦ secReset) fun _ => .pure _

theorem lockstep_sensorValue (comm : CString) :
    Lockstep (Paired c Φ) (sensorValue (share c o) comm) (sensorValue (share c o') comm) := by
  refine .bind (lockstep_pressureReset o o' hΦ) fun _ => .ite (fun _ => .pure _) fun _ => ?_
  refine .bind (lockstep_writePressureSensor o o' hΦ comm) fun _ => .ite (fun _ => .pure _) fun _ => ?_
  refine .bind (lockstep_checkConversion o o' hΦ) fun _ => .ite (fun _ => .pure _) fun _ => ?_
  refine .bind (lockstep_openPiosA o o' hΦ) fun _ => .ite (fun _ => .pure _) fun _ => ?_
  refine .bind (lockstep_readPressureSensor o o' hΦ 16) fun lect => ?_
  refine .bind (lockstep_openPiosB o o' hΦ) fun _ => .ite (fun _ => .pure _) fun _ => ?_
  exact .ite (fun _ => .pure _) fun _ => .pure _

theorem lockstep_readSensorValue (comm : CString) :
    Lockstep (Paired c Φ) (readSensorValue (share c o) comm)
      (readSensorValue (share c o') comm) :=
  .bind (lockstep_sensorValue o o' hΦ comm) fun _ => .pure _

/-- A reading of the sensor. -/
theorem lockstep_readPressureValues (hcoeffs : ∀ k k', Φ k k' → k'.coeffs = k.coeffs) :
    Lockstep (Paired c Φ) (readPressureValues (share c o)) (readPressureValues (share c o')) := by
  refine .bind (lockstep_readSensorValue o o' hΦ secReadd1) fun d1 => .bind (.modify ?_) fun _ => ?_
  · exact fun p p' h => ⟨h.chips, h.selected, h.own, h.below, h.kits⟩
  refine .bind (lockstep_readSensorValue o o' hΦ secReadd2) fun d2 => .bind (.modify ?_) fun _ => ?_
  · exact fun p p' h => ⟨h.chips, h.selected, h.own, h.below, h.kits⟩
  refine .reads fun p p' h => ?_
  have hsame : p'.coeffs = p.coeffs := hcoeffs _ _ h.kits
  rw [hsame]
  exact .pure _

theorem lockstep_readSensorValueStr (cmd : CString) :
    Lockstep (Paired c Φ) (readSensorValueStr (share c o) cmd)
      (readSensorValueStr (share c o') cmd) := by
  refine .bind (lockstep_openPiosA o o' hΦ) fun _ => .ite (fun _ => .pure _) fun _ => ?_
  refine .bind (lockstep_writePressureSensor o o' hΦ cmd) fun _ => .ite (fun _ => .pure _) fun _ => ?_
  refine .bind (lockstep_openPiosA o o' hΦ) fun _ => .ite (fun _ => .pure _) fun _ => ?_
  refine .bind (lockstep_readPressureSensor o o' hΦ 16) fun lect => ?_
  exact .bind (lockstep_openPiosB o o' hΦ) fun _ => .pure _

theorem lockstep_readWords :
    Lockstep (Paired c Φ) (readWords (share c o)) (readWords (share c o')) := by
  refine .bind (lockstep_pressureReset o o' hΦ) fun _ => .ite (fun _ => .pure _) fun _ => ?_
  refine .bind (lockstep_readSensorValueStr o o' hΦ secReadw1) fun sw1 => ?_
  refine .bind (lockstep_readSensorValueStr o o' hΦ secReadw2) fun sw2 => ?_
  refine .bind (lockstep_readSensorValueStr o o' hΦ secReadw3) fun sw3 => ?_
  refine .bind (lockstep_readSensorValueStr o o' hΦ secReadw4) fun sw4 => ?_
  refine .ite (fun _ => .pure _) fun _ => .ite (fun _ => .pure _) fun _ => ?_
  exact .ite (fun _ => .pure _) fun _ => .ite (fun _ => .pure _) fun _ => .pure _

theorem lockstep_readPasses (count : ℕ) (last : Words) :
    Lockstep (Paired c Φ) (readPasses (share c o) count last)
      (readPasses (share c o') count last) := by
  induction count generalizing last with
  | zero => exact .pure _
  | succ count ih =>
    refine .bind (lockstep_readWords o o' hΦ) fun r => ?_
    cases r with
    | none => exact .pure _
    | some sw => exact .ite (fun _ => .pure _) fun _ => ih sw

end

/-! ## Initialisation of the two switches -/

/-- The first of the two is in place. -/
def Numbered (c : Chips τ) (k k' : Kit) : Prop :=
  k.switchSN.head = c.first ∧ k'.switchSN.head = c.first

/-- With the coefficients as well. -/
structure KitsAlike (c : Chips τ) (k k' : Kit) : Prop where
  roles : RolesAlike c k k'
  coeffs : k'.coeffs = k.coeffs

theorem RolesAlike.numbered {k k' : Kit} (h : RolesAlike c k k') : Numbered c k k' := by
  refine ⟨h.left.first, ?_⟩
  rw [h.switchSN]
  exact h.left.first

theorem Paired.mono {Φ' : Kit → Kit → Prop} (h : Paired c Φ p p') (hΦ : ∀ k k', Φ k k' → Φ' k k') :
    Paired c Φ' p p' :=
  ⟨h.chips, h.selected, h.own, h.below, hΦ _ _ h.kits⟩

/-- The file of the first names the second. -/
theorem lockstep_readFile (hnd : Int) :
    LockstepTo (Paired c Φ) (Statics.call ((share c o).owReadFile c.first hnd))
      (Statics.call ((share c o').owReadFile c.first hnd))
      fun buf p p' => Paired c Φ p p' ∧ buf = c.second := by
  intro p p' h
  have hown : c.Own c.first := Or.inl rfl
  obtain ⟨hvalue, hstate⟩ := lockstep_callTo hown (c.wire.owReadFile c.first hnd)
    (o.owReadFile c.first hnd) (o'.owReadFile c.first hnd) p p' h
  refine ⟨hvalue, hstate, ?_⟩
  change (c.routeTo c.first (c.wire.owReadFile c.first hnd) (o.owReadFile c.first hnd) p.bus).1 =
    c.second
  simp only [Chips.routeTo, Chips.route, if_pos hown]
  exact c.named hnd _

/-- The roles are assigned alike. -/
theorem Paired.assign (h : Paired c (Numbered c) p p') (reads : Prop) [Decidable reads] :
    Paired c (RolesAlike c)
      { p with reader := if reads then 0 else 1, writer := 1 - if reads then 0 else 1,
               switchSN := p.switchSN.set 1 c.second Nat.one_lt_two }
      { p' with reader := if reads then 0 else 1, writer := 1 - if reads then 0 else 1,
                switchSN := p'.switchSN.set 1 c.second Nat.one_lt_two } := by
  obtain ⟨hfirst, hfirst'⟩ := h.kits
  have hzero : ∀ v : Vector Serno 2, v[0] = c.first → (v.set 1 c.second)[0] = c.first := by
    intro v hv
    rw [Vector.getElem_set_ne _ _ (by decide)]
    exact hv
  have hsame : p'.switchSN.set 1 c.second = p.switchSN.set 1 c.second := by
    apply Vector.ext
    intro i hi
    interval_cases i
    · exact (hzero _ hfirst').trans (hzero _ hfirst).symm
    · rw [Vector.getElem_set_self, Vector.getElem_set_self]
  refine ⟨h.chips, h.selected, h.own, h.below, ⟨hzero _ hfirst, Vector.getElem_set_self _, ?_, ?_⟩,
    hsame, rfl, rfl⟩
  · by_cases hreads : reads <;> simp [Statics.kit, hreads]
  · by_cases hreads : reads <;> simp [Statics.kit, hreads]

theorem lockstep_findRoles :
    LockstepTo (Paired c fun _ _ => True) (findRoles (share c o) c.first)
      (findRoles (share c o') c.first)
      fun ok => Paired c (if ok then RolesAlike c else Numbered c) := by
  have hown : c.Own c.first := Or.inl rfl
  have hfirst : LockstepTo (Paired c fun _ _ => True)
      (modify fun p : Statics (Shared τ ρ) =>
        { p with reader := -1, writer := -1, switchSN := p.switchSN.set 0 c.first })
      (modify fun p : Statics (Shared τ ρ') =>
        { p with reader := -1, writer := -1, switchSN := p.switchSN.set 0 c.first })
      fun _ => Paired c (Numbered c) :=
    .modify fun p p' h => ⟨h.chips, h.selected, h.own, h.below, Vector.getElem_set_self _,
      Vector.getElem_set_self _⟩
  refine .bind hfirst fun _ => .bind (lockstep_sendTo hown _ _ _) fun _ => ?_
  refine .bind (lockstep_callTo hown _ _ _) fun hnd => ?_
  cases hnd with
  | none => exact .pure fun _ _ h => h
  | some hnd =>
    refine .bind (lockstep_readFile o o' hnd) fun buf => .given ?_
    rintro rfl
    refine .bind (lockstep_sendTo hown _ _ _) fun _ => .bind (lockstep_sendTo hown _ _ _) fun _ => ?_
    refine .bind (lockstep_readSwitch12 o o') fun info => .ite (fun _ => .pure fun _ _ h => h)
      fun _ => ?_
    exact .bind (.modify fun p p' h => h.assign _) fun _ => .pure fun _ _ h => h

theorem lockstep_findPressRoles :
    LockstepTo (Paired c fun _ _ => True) (findPressRoles (share c o) c.first)
      (findPressRoles (share c o') c.first)
      fun ok => Paired c (if ok then RolesAlike c else Numbered c) := by
  refine .bind (lockstep_findRoles o o') fun ok => ?_
  cases ok with
  | true => exact .pure fun _ _ h => h
  | false =>
    exact (lockstep_findRoles o o').conseq (fun _ _ h => h.mono fun _ _ _ => trivial)
      fun _ _ _ h => h

theorem lockstep_readSensorCalibration :
    LockstepTo (Paired c (RolesAlike c)) (readSensorCalibration (share c o))
      (readSensorCalibration (share c o'))
      fun ok => Paired c (if ok then KitsAlike c else Numbered c) := by
  refine .bind (lockstep_readPasses o o' (fun _ _ h => h) 5 {}) fun r => ?_
  cases r with
  | none => exact .pure fun _ _ h => h.mono fun _ _ => RolesAlike.numbered
  | some sw =>
    refine .bind (.modify fun p p' h => ?_) fun _ => .pure fun _ _ h => h
    obtain ⟨hroles, hswitch, hreader, hwriter⟩ := h.kits
    exact ⟨h.chips, h.selected, h.own, h.below, ⟨⟨hroles.1, hroles.2, hroles.3, hroles.4⟩, hswitch,
      hreader, hwriter⟩, rfl⟩

/-- An initialisation; only one that works leaves something to read with. -/
theorem lockstep_initPressure :
    LockstepTo (Paired c fun _ _ => True) (initPressure (share c o) c.first)
      (initPressure (share c o') c.first)
      fun ok => Paired c (if ok then KitsAlike c else Numbered c) := by
  refine .bind (lockstep_findPressRoles o o') fun ok => ?_
  cases ok with
  | true => exact lockstep_readSensorCalibration o o'
  | false => exact .pure fun _ _ h => h

/-- A reading with static variables that are set up. -/
theorem lockstep_reading :
    Lockstep (Paired c (KitsAlike c)) (readPressureValues (share c o))
      (readPressureValues (share c o')) :=
  lockstep_readPressureValues o o' (fun _ _ h => h.roles) fun _ _ h => h.coeffs

end

/-! ## On other switches -/

/-- The two switches remember `u`, another device is selected, and the static variables are for
other switches, of which the first is `serno`. -/
structure Elsewhere (c : Chips τ) (u : τ) (serno : Serno) (p : Statics (Shared τ ρ)) : Prop where
  chips : p.bus.chips = u
  selected : ¬ c.Own p.bus.selected
  reader : ¬ c.Own (p.switch p.reader)
  writer : ¬ c.Own (p.switch p.writer)
  below : ¬ c.Own p.below
  first : p.switchSN.head = serno

section
variable {c : Chips τ} {u : τ} {serno : Serno}

theorem keeps_call {α : Type} (f : τ → α × τ) (g : ρ → α × ρ) :
    Keeps (Elsewhere c u serno) (Statics.call fun b => c.route b.selected f g b) := by
  intro p h
  simp only [Statics.call, Chips.route, if_neg h.selected]
  exact ⟨h.chips, h.selected, h.reader, h.writer, h.below, h.first⟩

theorem keeps_send (f : τ → τ) (g : ρ → ρ) :
    Keeps (Elsewhere c u serno)
      (Statics.send fun b => (c.route b.selected (silently f) (silently g) b).2) :=
  fun p h => keeps_call (silently f) (silently g) p h

theorem keeps_callTo {α : Type} {other : Serno} (hother : ¬ c.Own other) (f : τ → α × τ)
    (g : ρ → α × ρ) : Keeps (Elsewhere c u serno) (Statics.call fun b => c.routeTo other f g b) := by
  intro p h
  simp only [Statics.call, Chips.routeTo, Chips.route, if_neg hother]
  exact ⟨h.chips, hother, h.reader, h.writer, h.below, h.first⟩

theorem keeps_sendTo {other : Serno} (hother : ¬ c.Own other) (f : τ → τ) (g : ρ → ρ) :
    Keeps (Elsewhere c u serno)
      (Statics.send fun b => (c.routeTo other (silently f) (silently g) b).2) :=
  fun p h => keeps_callTo hother (silently f) (silently g) p h

variable (o : Wire ρ)

theorem keeps_readSwitch12 : Keeps (Elsewhere c u serno) (readSwitch12 (share c o)) := by
  refine .bind (keeps_call _ _) fun ok => .ite (fun _ => ?_) fun _ => .pure _
  refine .bind (keeps_call _ _) fun transfer => ?_
  cases transfer with
  | none => exact .pure _
  | some transfer => exact .ite (fun _ => .pure _) fun _ => .pure _

theorem keeps_writeSwitch12 {other : Serno} (hother : ¬ c.Own other) (st : UInt8) :
    Keeps (Elsewhere c u serno) (writeSwitch12 (share c o) other st) := by
  refine .bind (keeps_sendTo hother _ _) fun _ => .bind (keeps_call _ _) fun ok => ?_
  refine .ite (fun _ => .bind (keeps_call _ _) fun block => ?_) fun _ => .pure _
  cases block with
  | none => exact .pure _
  | some block => exact .pure _

theorem keeps_openChannel (set keep : UInt8) {other : Serno} (hother : ¬ c.Own other)
    (rounds : ℕ) : Keeps (Elsewhere c u serno) (openChannel (share c o) set keep other rounds) := by
  induction rounds with
  | zero => exact .pure _
  | succ rounds ih =>
    refine .bind (keeps_sendTo hother _ _) fun _ => .bind (keeps_readSwitch12 o) fun i => ?_
    refine .bind (keeps_writeSwitch12 o hother _) fun _ => ?_
    exact .bind (keeps_readSwitch12 o) fun i => .ite (fun _ => .pure _) fun _ => ih

theorem keeps_openPios {f : Serno → PM (Shared τ ρ) Bool}
    (h : ∀ other, ¬ c.Own other → Keeps (Elsewhere c u serno) (f other)) :
    Keeps (Elsewhere c u serno) (openPios f) :=
  .reads fun _ hp => .bind (h _ hp.reader) fun _ => .ite (fun _ => h _ hp.writer) fun _ => .pure _

theorem keeps_openPiosA : Keeps (Elsewhere c u serno) (openPiosA (share c o)) :=
  keeps_openPios fun _ hother => keeps_openChannel o _ _ hother 5

theorem keeps_openPiosB : Keeps (Elsewhere c u serno) (openPiosB (share c o)) :=
  keeps_openPios fun _ hother => keeps_openChannel o _ _ hother 5

theorem keeps_channelAccess {other : Serno} (hother : ¬ c.Own other) (c₁ c₂ : UInt8) :
    Keeps (Elsewhere c u serno) (channelAccess (share c o) other c₁ c₂) := by
  refine .bind (keeps_sendTo hother _ _) fun _ => .bind (keeps_call _ _) fun ok => ?_
  refine .ite (fun _ => ?_) fun _ => .pure _
  refine .bind (keeps_call _ _) fun _ => .bind (keeps_call _ _) fun _ => ?_
  exact .bind (keeps_call _ _) fun _ => .bind (keeps_call _ _) fun _ => .pure _

theorem keeps_configWrite : Keeps (Elsewhere c u serno) (configWrite (share c o)) :=
  .reads fun _ hp => keeps_channelAccess o hp.writer _ _

theorem keeps_configRead : Keeps (Elsewhere c u serno) (configRead (share c o)) :=
  .reads fun _ hp => keeps_channelAccess o hp.reader _ _

theorem keeps_configReadPulse : Keeps (Elsewhere c u serno) (configReadPulse (share c o)) :=
  .reads fun _ hp => keeps_channelAccess o hp.reader _ _

theorem keeps_sendPressureBit (i : Bool) :
    Keeps (Elsewhere c u serno) (sendPressureBit (share c o) i) :=
  .bind (keeps_call _ _) fun _ => .pure _

theorem keeps_writePressureSensor (cmd : CString) :
    Keeps (Elsewhere c u serno) (writePressureSensor (share c o) cmd) := by
  refine .bind (keeps_configWrite o) fun ok => .ite (fun _ => ?_) fun _ => .pure _
  refine .bind (.forM fun b => keeps_sendPressureBit o _) fun _ => ?_
  exact .bind (keeps_sendPressureBit o false) fun _ => .pure _

theorem keeps_readPressureBits (count : ℕ) :
    Keeps (Elsewhere c u serno) (readPressureBits (share c o) count) := by
  induction count with
  | zero => exact .pure _
  | succ count ih =>
    refine .bind (.bind (keeps_call _ _) fun res => ?_) fun b => .bind ih fun bits => .pure _
    exact .bind (keeps_send _ _) fun _ => .pure _

theorem keeps_readPressureSensor (count : ℕ) :
    Keeps (Elsewhere c u serno) (readPressureSensor (share c o) count) :=
  .bind (keeps_configRead o) fun _ => .ite (fun _ => keeps_readPressureBits o count)
    fun _ => .pure _

theorem keeps_awaitLow (rounds : ℕ) : Keeps (Elsewhere c u serno) (awaitLow (share c o) rounds) := by
  induction rounds with
  | zero => exact .pure _
  | succ rounds ih => exact .bind (keeps_call _ _) fun b => .ite (fun _ => ih) fun _ => .pure _

theorem keeps_checkConversion : Keeps (Elsewhere c u serno) (checkConversion (share c o)) :=
  .bind (keeps_configReadPulse o) fun _ => .ite (fun _ => keeps_awaitLow o 100) fun _ => .pure _

theorem keeps_pressureReset : Keeps (Elsewhere c u serno) (pressureReset (share c o)) := by
  refine .bind (keeps_openPiosA o) fun ok => .ite (fun _ => ?_) fun _ => .pure _
  exact .bind (keeps_configWrite o) fun ok =>
    .ite (fun _ => keeps_writePressureSensor o secReset) fun _ => .pure _

theorem keeps_readSensorValue (comm : CString) :
    Keeps (Elsewhere c u serno) (readSensorValue (share c o) comm) := by
  refine .bind ?_ fun _ => .pure _
  refine .bind (keeps_pressureReset o) fun _ => .ite (fun _ => .pure _) fun _ => ?_
  refine .bind (keeps_writePressureSensor o comm) fun _ => .ite (fun _ => .pure _) fun _ => ?_
  refine .bind (keeps_checkConversion o) fun _ => .ite (fun _ => .pure _) fun _ => ?_
  refine .bind (keeps_openPiosA o) fun _ => .ite (fun _ => .pure _) fun _ => ?_
  refine .bind (keeps_readPressureSensor o 16) fun lect => ?_
  refine .bind (keeps_openPiosB o) fun _ => .ite (fun _ => .pure _) fun _ => ?_
  exact .ite (fun _ => .pure _) fun _ => .pure _

theorem keeps_readPressureValues :
    Keeps (Elsewhere c u serno) (readPressureValues (share c o)) := by
  refine .bind (keeps_readSensorValue o secReadd1) fun d1 => .bind (.modify ?_) fun _ => ?_
  · exact fun p h => ⟨h.chips, h.selected, h.reader, h.writer, h.below, h.first⟩
  refine .bind (keeps_readSensorValue o secReadd2) fun d2 => .bind (.modify ?_) fun _ => ?_
  · exact fun p h => ⟨h.chips, h.selected, h.reader, h.writer, h.below, h.first⟩
  exact .reads fun _ _ => .pure _

theorem keeps_readSensorValueStr (cmd : CString) :
    Keeps (Elsewhere c u serno) (readSensorValueStr (share c o) cmd) := by
  refine .bind (keeps_openPiosA o) fun _ => .ite (fun _ => .pure _) fun _ => ?_
  refine .bind (keeps_writePressureSensor o cmd) fun _ => .ite (fun _ => .pure _) fun _ => ?_
  refine .bind (keeps_openPiosA o) fun _ => .ite (fun _ => .pure _) fun _ => ?_
  refine .bind (keeps_readPressureSensor o 16) fun lect => ?_
  exact .bind (keeps_openPiosB o) fun _ => .pure _

theorem keeps_readWords : Keeps (Elsewhere c u serno) (readWords (share c o)) := by
  refine .bind (keeps_pressureReset o) fun _ => .ite (fun _ => .pure _) fun _ => ?_
  refine .bind (keeps_readSensorValueStr o secReadw1) fun sw1 => ?_
  refine .bind (keeps_readSensorValueStr o secReadw2) fun sw2 => ?_
  refine .bind (keeps_readSensorValueStr o secReadw3) fun sw3 => ?_
  refine .bind (keeps_readSensorValueStr o secReadw4) fun sw4 => ?_
  refine .ite (fun _ => .pure _) fun _ => .ite (fun _ => .pure _) fun _ => ?_
  exact .ite (fun _ => .pure _) fun _ => .ite (fun _ => .pure _) fun _ => .pure _

theorem keeps_readPasses (count : ℕ) (last : Words) :
    Keeps (Elsewhere c u serno) (readPasses (share c o) count last) := by
  induction count generalizing last with
  | zero => exact .pure _
  | succ count ih =>
    refine .bind (keeps_readWords o) fun r => ?_
    cases r with
    | none => exact .pure _
    | some sw => exact .ite (fun _ => .pure _) fun _ => ih sw

theorem keeps_readSensorCalibration :
    Keeps (Elsewhere c u serno) (readSensorCalibration (share c o)) := by
  refine .bind (keeps_readPasses o 5 {}) fun r => ?_
  cases r with
  | none => exact .pure _
  | some sw =>
    refine .bind (.modify fun p h => ?_) fun _ => .pure _
    exact ⟨h.chips, h.selected, h.reader, h.writer, h.below, h.first⟩

end

section
variable {c : Chips τ} {u : τ} {serno : Serno} {o : Others ρ}

/-- The file of another device names another one. -/
theorem keeps_readFile (hapart : o.Apart c) (hserno : ¬ c.Own serno) (hnd : Int) :
    KeepsTo (Elsewhere c u serno) (Statics.call ((share c o.wire).owReadFile serno hnd))
      fun buf p => Elsewhere c u serno p ∧ ¬ c.Own buf := by
  intro p h
  refine ⟨keeps_callTo hserno _ _ p h, ?_⟩
  change ¬ c.Own (c.routeTo serno (c.wire.owReadFile serno hnd) (o.wire.owReadFile serno hnd) p.bus).1
  simp only [Chips.routeTo, Chips.route, if_neg hserno]
  exact hapart serno hnd _

/-- The roles are assigned to other switches. -/
theorem Elsewhere.assign {p : Statics (Shared τ ρ)} {buf : Serno} (h : Elsewhere c u serno p)
    (hserno : ¬ c.Own serno) (hbuf : ¬ c.Own buf) (reads : Prop) [Decidable reads] :
    Elsewhere c u serno
      { p with reader := if reads then 0 else 1, writer := 1 - if reads then 0 else 1,
               switchSN := p.switchSN.set 1 buf Nat.one_lt_two } := by
  have hfirst : (p.switchSN.set 1 buf)[0] = serno := by
    rw [Vector.getElem_set_ne _ _ (by decide)]
    exact h.first
  have hswitch : ∀ i : Int, i = 0 ∨ i = 1 →
      ¬ c.Own (if i = 0 then (p.switchSN.set 1 buf)[0] else if i = 1 then (p.switchSN.set 1 buf)[1]
        else p.below) := by
    rintro i (rfl | rfl)
    · rw [if_pos rfl, hfirst]
      exact hserno
    · rw [if_neg (by decide), if_pos rfl, Vector.getElem_set_self]
      exact hbuf
  refine ⟨h.chips, h.selected, hswitch _ ?_, hswitch _ ?_, h.below, hfirst⟩
  · by_cases hreads : reads <;> simp [hreads]
  · by_cases hreads : reads <;> simp [hreads]

/-- To look for the roles of another device is to go elsewhere. -/
theorem keeps_findRoles (hapart : o.Apart c) (hserno : ¬ c.Own serno) :
    KeepsTo (fun p => p.bus.chips = u ∧ ¬ c.Own p.below) (findRoles (share c o.wire) serno)
      fun _ => Elsewhere c u serno := by
  have hroles : KeepsTo (fun p => p.bus.chips = u ∧ ¬ c.Own p.below)
      (modify fun p : Statics (Shared τ ρ) =>
        { p with reader := -1, writer := -1, switchSN := p.switchSN.set 0 serno })
      fun _ p => p.bus.chips = u ∧ ¬ c.Own p.below ∧ p.reader = -1 ∧ p.writer = -1 ∧
        p.switchSN.head = serno :=
    .modify fun p h => ⟨h.1, h.2, rfl, rfl, Vector.getElem_set_self _⟩
  have hselect : KeepsTo (fun p => p.bus.chips = u ∧ ¬ c.Own p.below ∧ p.reader = -1 ∧
      p.writer = -1 ∧ p.switchSN.head = serno) (Statics.send ((share c o.wire).owSerialNum serno))
      fun _ => Elsewhere c u serno := by
    rintro p ⟨hchips, hbelow, hreader, hwriter, hfirst⟩
    simp only [Statics.send, share, Chips.routeTo, Chips.route, if_neg hserno]
    refine ⟨hchips, hserno, ?_, ?_, hbelow, hfirst⟩
    · rw [hreader]
      exact hbelow
    · rw [hwriter]
      exact hbelow
  refine .bind hroles fun _ => .bind hselect fun _ => ?_
  refine .bind (keeps_callTo hserno _ _) fun hnd => ?_
  cases hnd with
  | none => exact .pure fun _ h => h
  | some hnd =>
    refine .bind (keeps_readFile hapart hserno hnd) fun buf => .given fun hbuf => ?_
    refine .bind (keeps_sendTo hserno _ _) fun _ => .bind (keeps_sendTo hserno _ _) fun _ => ?_
    refine .bind (keeps_readSwitch12 o.wire) fun info => .ite (fun _ => .pure fun _ h => h) fun _ => ?_
    exact .bind (.modify fun p h => h.assign hserno hbuf _) fun _ => .pure fun _ h => h

/-- To initialise another device is to go elsewhere. -/
theorem keeps_initPressure (hapart : o.Apart c) (hserno : ¬ c.Own serno) :
    KeepsTo (fun p => p.bus.chips = u ∧ ¬ c.Own p.below) (initPressure (share c o.wire) serno)
      fun _ => Elsewhere c u serno := by
  refine .bind (Q := fun _ => Elsewhere c u serno) ?_ fun _ => ?_
  · refine .bind (keeps_findRoles hapart hserno) fun ok => .ite (fun _ => .pure fun _ h => h) fun _ => ?_
    exact (keeps_findRoles hapart hserno).conseq (fun _ h => ⟨h.chips, h.below⟩) fun _ _ h => h
  · exact .ite (fun _ => keeps_readSensorCalibration o.wire) fun _ => .pure fun _ h => h

end
end
end W1Retap.Tai8570

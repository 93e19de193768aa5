import W1Retap.Main.Freshness

/-!
# Who holds the bus

`Driver.monitored` is any bus with a monitor of its use: the port that is held, and
whether every call so far came at its time. The program cannot see the monitor, which
answers as the bus does. Between the functions of the program the monitor holds the port
exactly when `portnum` names one, through read passes, releases and reloads.
-/
namespace W1Retap

open Programs

/-- A bus, the port that is held on it, and whether it was used properly so far. -/
structure Owned (σ : Type) where
  bus : σ
  held : Option Int := none
  proper : Bool := true

section
variable {σ α : Type}

/-- A call that needs the bus. -/
def Owned.use (f : σ → α × σ) (b : Owned σ) : α × Owned σ :=
  let r := f b.bus
  (r.1, { b with bus := r.2, proper := b.proper && b.held.isSome })

/-- A port is acquired while none is held, and only the port that is held is released. -/
def Driver.monitored (drv : Driver σ) : Driver (Owned σ) where
  owAcquireEx iface b :=
    let r := drv.owAcquireEx iface b.bus
    (r.1, { bus := r.2, held := if r.1 < 0 then none else some r.1
            proper := b.proper && b.held.isNone })
  owRelease portnum b :=
    { bus := drv.owRelease portnum b.bus, held := none
      proper := b.proper && b.held == some portnum }
  setSwitch1F serno lines := Owned.use (drv.setSwitch1F serno lines)
  owSearch family serno := Owned.use (drv.owSearch family serno)
  readTemperature serno scan := Owned.use (drv.readTemperature serno scan)
  readCounter serno page := Owned.use (drv.readCounter serno page)
  setupAtoDControl serno := Owned.use (drv.setupAtoDControl serno)
  writeAtoD serno control := Owned.use (drv.writeAtoD serno control)
  doAtoDConversion serno := Owned.use (drv.doAtoDConversion serno)
  readAtoDResults serno control := Owned.use (drv.readAtoDResults serno control)
  readAtoD vdd serno := Owned.use (drv.readAtoD vdd serno)
  readVsens serno := Owned.use (drv.readVsens serno)
  getTemperature serno := Owned.use (drv.getTemperature serno)
  readSHT11 serno := Owned.use (drv.readSHT11 serno)
  initPressure serno := Owned.use (drv.initPressure serno)
  readPressureValues := Owned.use drv.readPressureValues
  readDS2760 serno := Owned.use (drv.readDS2760 serno)
  readDS1923 serno log := Owned.use (drv.readDS1923 serno log)
  readDS1921 serno log := Owned.use (drv.readDS1921 serno log)
  hbuvReadData serno := Owned.use (drv.hbuvReadData serno)
  hbhtReadData serno := Owned.use (drv.hbhtReadData serno)
  exp := drv.exp

/-- What holds between the functions of a program that reads. -/
structure Owns (s : Machine (Owned σ)) : Prop where
  proper : s.bus.proper = true
  held : s.bus.held = if s.w1.portnum = -1 then none else some s.w1.portnum
  doread : s.w1.doread = true

/-- The same, with the bus at hand. -/
structure Holds (s : Machine (Owned σ)) : Prop extends Owns s where
  port : s.w1.portnum ≠ -1

theorem Holds.isSome {s : Machine (Owned σ)} (h : Holds s) : s.bus.held.isSome = true := by
  rw [h.held, if_neg h.port]
  rfl

theorem Holds.use {s : Machine (Owned σ)} (h : Holds s) (f : σ → α × σ) :
    Holds (s.setBus (Owned.use f s.bus).2) := by
  have hproper : (s.bus.proper && s.bus.held.isSome) = true := by
    rw [h.proper, h.isSome]
    rfl
  exact ⟨⟨hproper, h.held, h.doread⟩, h.port⟩

/-- The bus stays at hand when the port and the monitor do not change. -/
theorem Holds.congr {s s' : Machine (Owned σ)} (h : Holds s) (hbus : s'.bus = s.bus)
    (hport : s'.w1.portnum = s.w1.portnum) (hread : s'.w1.doread = s.w1.doread) : Holds s' := by
  refine ⟨⟨?_, ?_, hread.trans h.doread⟩, ?_⟩
  · rw [hbus]
    exact h.proper
  · rw [hbus, hport]
    exact h.held
  · rw [hport]
    exact h.port

/-! ## Using the bus -/

/-- Steps that the bus may take part in while it is held. -/
def UsesBus (s s' : Machine (Owned σ)) : Prop := Holds s → Holds s'

variable {drv : Driver σ} {host : Host} {s s' : Machine (Owned σ)}

instance : DriverSteps drv.monitored (UsesBus (σ := σ)) where
  setSwitch1F _ _ _ h := h.use _
  owSearch _ _ _ h := h.use _
  readTemperature _ _ _ h := h.use _
  readCounter _ _ _ h := h.use _
  setupAtoDControl _ _ h := h.use _
  writeAtoD _ _ _ h := h.use _
  doAtoDConversion _ _ h := h.use _
  readAtoDResults _ _ _ h := h.use _
  readAtoD _ _ _ h := h.use _
  readVsens _ _ h := h.use _
  getTemperature _ _ h := h.use _
  readSHT11 _ _ h := h.use _
  initPressure _ _ h := h.use _
  readPressureValues _ h := h.use _
  readDS2760 _ _ h := h.use _
  readDS1923 _ _ _ h := h.use _
  readDS1921 _ _ _ h := h.use _
  hbuvReadData _ _ h := h.use _
  hbhtReadData _ _ h := h.use _

instance : BusSteps (UsesBus (σ := σ)) where
  wire _ _ _ h := h.congr rfl rfl rfl
  touch _ _ _ _ h := h.congr rfl rfl rfl
  replog := does_reports fun _ _ _ h => h.congr rfl rfl rfl

instance (n : ℕ) : ReaderSteps n (UsesBus (σ := σ)) where
  clear _ h := h.congr rfl rfl rfl
  assign _ _ _ _ h := h.congr rfl rfl rfl
  validate _ _ _ _ _ _ _ _ h := h.congr rfl rfl rfl

theorem Holds.ends {m : M (Owned σ) α} (hm : Does UsesBus m) : Ends Holds m fun _ => Holds :=
  .of_does hm fun _ _ hstep hs => hstep hs

/-- Acquiring the port when there is none leaves the bus at hand. -/
theorem ends_acquire : Ends Owns (acquire drv.monitored) fun _ => Holds := by
  intro s u s' hs h
  rw [acquire, run_getW1_bind] at h
  by_cases hport : s.w1.portnum = -1
  · rw [if_pos hport, run_call_bind, run_modifyW1_bind] at h
    by_cases hneg : (drv.monitored.owAcquireEx s.w1.iface s.bus).1 < 0
    · rw [if_pos hneg] at h
      exact absurd h run_throw_ok
    · rw [if_neg hneg] at h
      obtain rfl := run_event_ok.mp h
      have hp : (drv.monitored.owAcquireEx s.w1.iface s.bus).1 ≠ -1 := by omega
      have hfree : s.bus.held.isNone = true := by
        rw [hs.held, if_pos hport]
        rfl
      refine ⟨⟨?_, ?_, hs.doread⟩, hp⟩
      · change (s.bus.proper && s.bus.held.isNone) = true
        rw [hs.proper, hfree]
        rfl
      · exact (if_neg hneg).trans (if_neg hp).symm
  · rw [if_neg hport] at h
    obtain ⟨-, rfl⟩ := run_pure_ok.mp h
    exact ⟨hs, hport⟩

/-- A read pass needs the port only when it begins. -/
theorem ends_pass (secs : Int) :
    Ends Owns (w1ReadAllSensors drv.monitored secs) fun _ => Holds := by
  intro s nv s' hs h
  rw [w1ReadAllSensors, run_getW1_bind, if_pos hs.doread, run_event_bind] at h
  have hpass : Ends Owns (do
      acquire drv.monitored
      let nv ← readDevices drv.monitored secs (List.range s.w1.devs.length)
      w1AllCouplersOff drv.monitored
      return nv) fun _ => Holds := by
    have hreads : ∀ (s : Machine (Owned σ)) n, UsesBus s (s.log (.read n secs)) :=
      fun _ _ h => h.congr rfl rfl rfl
    refine .bind ends_acquire fun _ => Holds.ends ?_
    refine .bind (does_readDevices hreads _) fun nv => ?_
    exact .bind (does_w1AllCouplersOff drv.monitored) fun _ => .pure _
  exact hpass (s.log (.readAll secs)) nv s' ⟨hs.proper, hs.held, hs.doread⟩ h

/-! ## The main loop -/

/-- Steps between the uses of the bus. -/
def SamePort (s s' : Machine (Owned σ)) : Prop :=
  s'.bus = s.bus ∧ s'.w1.portnum = s.w1.portnum ∧ s'.w1.doread = s.w1.doread

theorem SamePort.ends {m : M (Owned σ) α} (hm : Does SamePort m) : Ends Holds m fun _ => Holds :=
  .of_does hm fun _ _ hstep hs => hs.congr hstep.1 hstep.2.1 hstep.2.2

theorem SamePort.owns (h : SamePort s s') (hs : Owns s) : Owns s' := by
  obtain ⟨hbus, hport, hread⟩ := h
  refine ⟨?_, ?_, hread.trans hs.doread⟩
  · rw [hbus]
    exact hs.proper
  · rw [hbus, hport]
    exact hs.held

theorem samePort_event (e : Event) : Does (SamePort (σ := σ)) (event e) := by
  intro s u s' h
  obtain rfl := run_event_ok.mp h
  exact .single ⟨rfl, rfl, rfl⟩

theorem samePort_modifyW1 {f : DevList → DevList}
    (hf : ∀ w1, (f w1).portnum = w1.portnum ∧ (f w1).doread = w1.doread) :
    Does (SamePort (σ := σ)) (modifyW1 f) := by
  intro s u s' h
  obtain rfl := run_modifyW1_ok.mp h
  exact .single ⟨rfl, hf s.w1⟩

theorem samePort_w1Tmpfilelog : Does (SamePort (σ := σ)) w1Tmpfilelog :=
  .bind does_getW1 fun _ => .ite (fun _ => samePort_event _) fun _ => .pure _

theorem samePort_callLoggers : Does (SamePort (σ := σ)) callLoggers := by
  refine .bind does_getW1 fun w1 => .forM fun n _ => ?_
  cases w1.dlls[n]? with
  | none => exact .pure _
  | some dll => exact .ite (fun _ => samePort_event _) fun _ => .pure _

theorem samePort_sleepToTick (r : Round) : Does (SamePort (σ := σ)) (sleepToTick r) := by
  refine .bind does_getW1 fun w1 => .bind (.lift _) fun wakeup => .bind (samePort_event _) fun _ => ?_
  cases r.sleep with
  | interrupted => exact .pure _
  | failed => exact .pure _
  | woke now => exact .bind (samePort_modifyW1 fun _ => ⟨rfl, rfl⟩) fun _ => .pure _

instance : ConfigSteps (SamePort (σ := σ)) where
  dll _ _ _ := ⟨rfl, rfl, rfl⟩
  devs _ _ _ _ := ⟨rfl, rfl, rfl⟩
  cleanup _ _ := ⟨rfl, rfl, rfl⟩
  rcfile _ _ := ⟨rfl, rfl, rfl⟩
  setting _ line := by cases line <;> exact ⟨rfl, rfl, rfl⟩
  plugin _ _ := ⟨rfl, rfl, rfl⟩

/-- The port is given back right after it was used. -/
theorem ends_release : Ends Holds (releaseInterface drv.monitored) fun _ => Owns := by
  intro s u s' hs h
  rw [releaseInterface, run_getW1_bind] at h
  by_cases hrel : s.w1.releaseMe = true
  · rw [if_pos hrel, run_call_bind, run_modifyW1_bind] at h
    obtain rfl := run_event_ok.mp h
    refine ⟨?_, rfl, hs.doread⟩
    change (s.bus.proper && s.bus.held == some s.w1.portnum) = true
    rw [hs.proper, hs.held, if_neg hs.port, beq_self_eq_true]
    rfl
  · rw [if_neg hrel] at h
    obtain ⟨-, rfl⟩ := run_pure_ok.mp h
    exact hs.toOwns

theorem ends_passAndRelease (now : Int) :
    Ends Owns (readPass drv.monitored now) fun _ => Owns := by
  refine .bind (ends_pass now) fun nv => .ite (fun _ => ?_) fun _ => ends_release
  refine .bind (SamePort.ends samePort_callLoggers) fun _ => .bind ends_getW1 fun w1 => ?_
  refine .ite (fun _ => .bind .lift fun phase => .ite (fun _ => ?_) fun _ => ends_release) fun _ =>
    ends_release
  exact .bind (SamePort.ends samePort_w1Tmpfilelog) fun _ => ends_release

theorem ends_interfaces : Ends Owns (initInterfaces drv.monitored) fun _ => Holds := by
  refine .bind (Ends.of_does (P := Owns) (samePort_modifyW1 fun _ => ⟨rfl, rfl⟩) ?_) fun _ => ends_acquire
  exact fun _ _ hstep hs => hstep.owns hs

/-- A reload may change `release_me`, but it never gives a port away that it does not
acquire again. -/
theorem ends_reloading : Ends Owns (reload drv.monitored host) fun _ => Holds := by
  have hsame : ∀ {m : M (Owned σ) Unit}, Does SamePort m → Ends Owns m fun _ => Owns :=
    fun hm => .of_does hm fun _ _ hstep hs => hstep.owns hs
  refine .bind (hsame does_cleanup) fun _ => .bind (hsame does_readConfig) fun _ => ?_
  exact .bind (hsame does_doInit) fun _ => ends_interfaces

theorem ends_signals (r : Round) :
    Ends Owns (handleSignals drv.monitored host r) fun _ => Owns := by
  have hshow : Ends Owns (if r.usr2 = true then event (σ := Owned σ) .showConfig else pure ())
      fun _ => Owns :=
    .ite (fun _ => .of_does (samePort_event _) fun _ _ hstep hs => hstep.owns hs) fun _ =>
      .pure fun s hs => hs
  have hhup : Ends Owns (do
      if r.hup then reload drv.monitored host
      if r.usr2 then event .showConfig) fun _ => Owns := by
    refine .ite (fun _ => .bind ends_reloading fun _ => ?_) fun _ => hshow
    exact hshow.conseq (fun _ hs => hs.toOwns) fun _ _ hs => hs
  refine .ite (fun _ => .bind (ends_pass 0) fun _ => ?_) fun _ => hhup
  refine .bind (SamePort.ends samePort_w1Tmpfilelog) fun _ => ?_
  exact hhup.conseq (fun _ hs => hs.toOwns) fun _ _ hs => hs

theorem ends_roundsOwned (rounds : List (Host × Round)) :
    Ends Owns (mainLoopEdited drv.monitored rounds) fun _ => Owns := by
  induction rounds with
  | nil => exact .pure fun s hs => hs
  | cons round rounds ih =>
    obtain ⟨host, r⟩ := round
    have hsleep : Ends Owns (sleepToTick (σ := Owned σ) r) fun _ => Owns :=
      .of_does (samePort_sleepToTick r) fun _ _ hstep hs => hstep.owns hs
    refine .bind (.bind (ends_signals r) fun _ => hsleep) fun left => ?_
    cases left with
    | none => exact ih
    | some now =>
      refine .bind (ends_passAndRelease now) fun _ => .bind ends_getW1 fun w1 => ?_
      exact .ite (fun _ => ih) fun _ => .pure fun s hs => hs

/-! ## Start-up -/

/-- A monitor before the first call. -/
structure Unused (s : Machine (Owned σ)) : Prop where
  proper : s.bus.proper = true
  held : s.bus.held = none

theorem ends_startup (opts : List Opt) (start : Int) :
    Ends Unused (startup drv.monitored host opts start) fun _ => Holds := by
  intro s l s' hs h
  rw [startup, run_modifyW1_bind, run_bind_ok] at h
  obtain ⟨_, s₁, h₁, h⟩ := h
  -- the port is that of `initial` until `init_interfaces`
  let P (t : Machine (Owned σ)) : Prop := t.bus = s.bus ∧ t.w1.portnum = -1
  have hsame : ∀ {t t' : Machine (Owned σ)}, SamePort t t' → P t → P t' :=
    fun hstep ht => ⟨hstep.1.trans ht.1, hstep.2.1.trans ht.2⟩
  have hP₁ : P s₁ := does_readConfig.keeps (P := P) (fun _ _ => hsame) h₁ ⟨rfl, rfl⟩
  rw [run_getW1_bind] at h
  have hopts := applyOption_keeps ({}, s₁.w1) opts
  generalize opts.foldl applyOption ({}, s₁.w1) = r at h hopts
  obtain ⟨l', w1⟩ := r
  simp only at h hopts
  rw [run_modifyW1_bind] at h
  by_cases hv : l'.showvers = true
  · rw [if_pos hv] at h
    exact absurd h run_throw_ok
  · rw [if_neg hv, run_bind_ok] at h
    obtain ⟨_, s₂, h₂, h⟩ := h
    have hP₂ : P s₂ :=
      does_doInit.keeps (P := P) (fun _ _ => hsame) h₂ ⟨hP₁.1, hopts.2.1.trans hP₁.2⟩
    rw [run_getW1_bind] at h
    by_cases hread : s₂.w1.doread = true
    · rw [if_pos hread] at h
      have howns : Owns s₂ := by
        refine ⟨?_, ?_, hread⟩
        · rw [hP₂.1]
          exact hs.proper
        · rw [hP₂.1, if_pos hP₂.2]
          exact hs.held
      have hrest : Ends Owns (do
          initInterfaces drv.monitored
          modifyW1 fun w1 => { w1 with logtime := start }
          w1Replog
          w1AllCouplersOff drv.monitored
          return { l' with immed := !l'.immed }) fun _ => Holds := by
        have htime : Ends Holds (modifyW1 (σ := Owned σ) fun w1 => { w1 with logtime := start })
            fun _ => Holds := SamePort.ends (samePort_modifyW1 fun _ => ⟨rfl, rfl⟩)
        refine .bind ends_interfaces fun _ => .bind htime fun _ => Holds.ends ?_
        refine .bind does_w1Replog fun _ => ?_
        exact .bind (does_w1AllCouplersOff drv.monitored) fun _ => .pure _
      exact hrest s₂ l s' howns h
    · rw [if_neg hread] at h
      exact absurd h run_throw_ok

/-- In every run the port is acquired only while none is held, only the port that is held
is released, and every switch command, search and device read finds it held. -/
theorem bus_owned (drv : Driver σ) (host : Host) (opts : List Opt) (start : Int)
    (rounds : List (Host × Round)) (bus : σ) (s' : Machine (Owned σ))
    (h : (mainEdited drv.monitored host opts start rounds).run { w1 := {}, bus := { bus } } = .ok ((), s')) :
    s'.bus.proper = true := by
  have hloop : ∀ l : Locals, Ends Owns (do
      let w1 ← getW1
      if l.once = false ∧ w1.delay ≠ 0 then mainLoopEdited drv.monitored rounds)
        fun _ s => s.bus.proper = true := by
    intro l
    refine .bind ends_getW1 fun w1 => .ite (fun _ => ?_) fun _ => .pure fun s hs => hs.proper
    exact (ends_roundsOwned rounds).conseq (fun _ hs => hs) fun _ _ hs => hs.proper
  have hmain : Ends Unused (mainEdited drv.monitored host opts start rounds)
      fun _ s => s.bus.proper = true := by
    refine .bind (ends_startup opts start) fun l => .ite (fun _ => ?_) fun _ => ?_
    · refine .bind ((ends_passAndRelease 0).conseq (fun _ hs => hs.toOwns) fun _ _ hs => hs) fun _ => ?_
      exact hloop l
    · exact (hloop l).conseq (fun _ hs => hs.toOwns) fun _ _ hs => hs
  exact hmain _ _ _ ⟨rfl, rfl⟩ h

/-- The greenhouse with a file that has the interface released, or not. -/
def greenhouseReleasing (value : String) : Host :=
  { greenhouse with
    contents := fun _ => some ("init = w1file\nrelease_if = " ++ value ++ "\n").toList }

/-- A reload switches the releases on, SIGUSR1 comes while the port is free, and another
reload switches them off. -/
theorem bus_owned_greenhouse :
    ∃ s', (mainEdited Driver.thermometers.monitored greenhouse [.wait] 0
        [(greenhouseReleasing "1", { hup := true, before := 5, sleep := .woke 60 }),
         (greenhouse, { usr1 := true, before := 70, sleep := .interrupted }),
         (greenhouseReleasing "0", { hup := true, before := 80, sleep := .woke 120 })]).run
        { w1 := {}, bus := { bus := [20, 21, 22] } } = .ok ((), s') ∧
      s'.trace.filter (fun e => e = .acquire ∨ e = .release) = [.acquire, .release, .acquire] ∧
      s'.bus.proper = true := by
  obtain ⟨_, s', h, hr⟩ := exists_run_ok
    (m := mainEdited Driver.thermometers.monitored greenhouse [.wait] 0
      [(greenhouseReleasing "1", { hup := true, before := 5, sleep := .woke 60 }),
       (greenhouse, { usr1 := true, before := 70, sleep := .interrupted }),
       (greenhouseReleasing "0", { hup := true, before := 80, sleep := .woke 120 })])
    (s := { w1 := {}, bus := { bus := [20, 21, 22] } })
    (p := fun s' => s'.trace.filter (fun e => e = .acquire ∨ e = .release) =
      [.acquire, .release, .acquire])
    (by decide +kernel)
  exact ⟨s', h, hr, bus_owned _ _ _ _ _ _ s' h⟩

end
end W1Retap

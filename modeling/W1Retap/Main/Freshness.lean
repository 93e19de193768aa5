import W1Retap.Config.Settings
import W1Retap.Main.Steps

/-!
# No stale readings

A read pass ends with `Ready`: every reading that is still marked valid was accepted
since the pass began. The loggers and the snapshot are called in such states only, so
whatever a run hands to them was accepted in the pass they follow.
-/
namespace W1Retap

open Programs

/-- The readings that an event hands out. -/
def Event.readings : Event → List Reading
  | .logger _ _ rs => rs
  | .tmpfilelog rs => rs
  | _ => []

/-- Whatever a trace hands out was accepted in the read pass before. -/
def Honest : List Event → Prop
  | [] => True
  | e :: t => (∀ r ∈ e.readings, lastVerdict r.dev r.sensor t = some true) ∧ Honest t

section
variable {σ : Type} {drv : Driver σ} {host : Host} {s s' : Machine σ}

/-- The program reads, and has been honest so far. -/
structure Reading.Sound (s : Machine σ) : Prop where
  doread : s.w1.doread = true
  honest : Honest s.trace

/-- So far honest, and what is marked valid may be handed out. -/
structure Reading.Ready (s : Machine σ) : Prop extends Reading.Sound s where
  valid : ∀ r ∈ s.w1.readings, lastVerdict r.dev r.sensor s.trace = some true

open Reading

/-! ## What is handed out -/

theorem mem_readings {n : ℕ} {d : Device} {r : Reading} (h : r ∈ d.readings n) :
    r.dev = n ∧ r.sensor < d.ns ∧ ∃ x, d.s[r.sensor]? = some x ∧ x.valid = true := by
  obtain ⟨j, hj, hr⟩ := List.mem_filterMap.mp h
  obtain ⟨x, hx, hr⟩ := Option.bind_eq_some_iff.mp hr
  by_cases hv : x.valid = true
  · rw [if_pos hv] at hr
    obtain rfl := Option.some.inj hr
    exact ⟨rfl, List.mem_range.mp hj, x, hx, hv⟩
  · rw [if_neg hv] at hr
    cases hr

theorem mem_allReadings {w1 : DevList} {r : Reading} :
    r ∈ w1.readings ↔ ∃ d, w1.devs[r.dev]? = some d ∧ r ∈ d.readings r.dev := by
  unfold DevList.readings
  rw [List.mem_flatten]
  constructor
  · rintro ⟨l, hl, hr⟩
    obtain ⟨n, hn, rfl⟩ := List.mem_mapIdx.mp hl
    have hdev := (mem_readings hr).1
    subst hdev
    exact ⟨_, List.getElem?_eq_getElem hn, hr⟩
  · rintro ⟨d, hd, hr⟩
    obtain ⟨hn, rfl⟩ := List.getElem?_eq_some_iff.mp hd
    exact ⟨_, List.mem_mapIdx.mpr ⟨r.dev, hn, rfl⟩, hr⟩

/-- The snapshot holds some of the readings. -/
theorem mem_snapshot {w1 : DevList} {r : Reading} (h : r ∈ w1.snapshot) : r ∈ w1.readings := by
  unfold DevList.snapshot at h
  obtain ⟨l, hl, hr⟩ := List.mem_flatten.mp h
  obtain ⟨n, hn, rfl⟩ := List.mem_mapIdx.mp hl
  by_cases hi : w1.devs[n].init ≠ 0
  · rw [if_pos hi] at hr
    exact List.mem_flatten.mpr ⟨_, List.mem_mapIdx.mpr ⟨n, hn, rfl⟩, hr⟩
  · rw [if_neg hi] at hr
    simp at hr

theorem Fresh.ready {secs : Int} (h : Fresh (fun _ => True) secs s) (hs : Sound s) : Ready s := by
  refine ⟨hs, fun r hr => ?_⟩
  obtain ⟨d, hd, hr⟩ := mem_allReadings.mp hr
  obtain ⟨-, hj, x, hx, hv⟩ := mem_readings hr
  exact (h r.dev d r.sensor x trivial hd hj hx hv).2

/-! ## What keeps a run honest -/

theorem Extends.honest (h : Extends (fun e => e.readings = []) s s') (hs : Honest s.trace) :
    Honest s'.trace := by
  rcases h with ht | ⟨e, he, ht⟩
  · rw [ht]
    exact hs
  · rw [ht]
    exact ⟨fun r hr => by rw [he] at hr; simp at hr, hs⟩

theorem isSensor_readings {e : Event} (he : e.isSensor = true) : e.readings = [] := by
  cases e <;> first | rfl | simp [Event.isSensor, Event.isBus] at he

theorem isBus_readings {e : Event} (he : e.isBus = true) : e.readings = [] :=
  isSensor_readings (isSensor_of_isBus he)

theorem RunStep.doread {P : Event → Prop} (h : RunStep P s s') :
    s'.w1.doread = s.w1.doread := by
  cases h with
  | sensor n hn => rw [hn.sameShape.w1]
  | mark e he => rfl
  | logtime t => rfl

theorem RunStep.sound (h : RunStep (fun e => e.readings = []) s s') (hs : Sound s) : Sound s' :=
  ⟨h.doread.trans hs.doread, (h.extends fun _ he => isSensor_readings he).honest hs.honest⟩

/-! ## The functions of the main loop -/

theorem ends_getW1_eq {P : Machine σ → Prop} :
    Ends P getW1 fun w1 s => w1 = s.w1 ∧ P s := by
  intro s w1 s' hs h
  obtain ⟨rfl, rfl⟩ := run_getW1_ok.mp h
  exact ⟨rfl, hs⟩

theorem ends_getW1 {P : Machine σ → Prop} : Ends P getW1 fun _ => P :=
  ends_getW1_eq.conseq (fun _ hs => hs) fun _ _ hs => hs.2

/-- A pass makes the program ready to log. -/
theorem ends_w1ReadAllSensors (secs : Int) :
    Ends Sound (w1ReadAllSensors drv secs) fun _ => Ready := by
  intro s nv s' hs h
  obtain ⟨hfresh, -⟩ := w1ReadAllSensors_fresh hs.doread h
  have hrun : Does (RunStep fun e => e.readings = []) (w1ReadAllSensors drv secs) :=
    run_w1ReadAllSensors rfl fun _ => rfl
  exact hfresh.ready (hrun.keeps (fun _ _ hstep => hstep.sound) h hs)

/-- Handing out valid readings is honest and leaves the program ready. -/
theorem ends_log {e : Event} (hv : ∀ n j t, lastVerdict n j (e :: t) = lastVerdict n j t)
    {w1 : DevList} (he : ∀ r ∈ e.readings, r ∈ w1.readings) :
    Ends (fun s : Machine σ => w1 = s.w1 ∧ Ready s) (event e) fun _ s => w1 = s.w1 ∧ Ready s := by
  rintro s u s' ⟨rfl, hs⟩ h
  obtain rfl := run_event_ok.mp h
  refine ⟨rfl, ⟨hs.doread, fun r hr => hs.valid r (he r hr), hs.honest⟩, fun r hr => ?_⟩
  rw [Machine.log_trace, hv]
  exact hs.valid r hr

theorem ends_w1Tmpfilelog : Ends (Ready (σ := σ)) w1Tmpfilelog fun _ => Ready := by
  refine .bind ends_getW1_eq fun w1 => .ite (fun _ => ?_) fun _ => .pure fun s hs => hs.2
  refine (ends_log (fun _ _ _ => rfl) ?_).conseq (fun _ hs => hs) fun _ _ hs => hs.2
  exact fun r hr => mem_snapshot hr

theorem ends_callLoggers : Ends (Ready (σ := σ)) callLoggers fun _ => Ready := by
  refine .bind ends_getW1_eq fun w1 => ?_
  refine (Ends.forM (I := fun _ s => w1 = s.w1 ∧ Ready s) (fun n ns => ?_) _).conseq
    (fun _ hs => hs) fun _ _ hs => hs.2
  cases w1.dlls[n]? with
  | none => exact .pure fun s hs => hs
  | some dll =>
    refine .ite (fun _ => ?_) fun _ => .pure fun s hs => hs
    exact ends_log (fun _ _ _ => rfl) fun r hr => hr

theorem ends_releaseInterface : Ends Sound (releaseInterface drv) fun _ => Sound :=
  .of_does (run_releaseInterface (P := fun e => e.readings = [])) fun _ _ hstep => hstep.sound

theorem ends_readPass (now : Int) : Ends Sound (readPass drv now) fun _ => Sound := by
  have hrel : Ends Ready (releaseInterface drv) fun _ => Sound :=
    ends_releaseInterface.conseq (fun _ hs => hs.toSound) fun _ _ hs => hs
  refine .bind (ends_w1ReadAllSensors now) fun nv => .ite (fun _ => ?_) fun _ => hrel
  refine .bind ends_callLoggers fun _ => .bind ends_getW1 fun w1 => .ite (fun _ => ?_) fun _ => hrel
  refine .bind .lift fun phase => .ite (fun _ => ?_) fun _ => hrel
  exact .bind ends_w1Tmpfilelog fun _ => hrel

theorem ends_reload : Ends Sound (reload drv host) fun _ => Sound :=
  .of_does (reloads_reload fun _ he => isBus_readings (isBus_of_isWire he)) fun _ _ hstep hs =>
    ⟨hstep.doread.trans hs.doread, hstep.extends_.honest hs.honest⟩

theorem ends_handleSignals (r : Round) : Ends Sound (handleSignals drv host r) fun _ => Sound := by
  have hmark : Does (RunStep fun e => e.readings = []) (event (σ := σ) .showConfig) := run_mark rfl
  have hshow : Ends Sound (if r.usr2 = true then event (σ := σ) .showConfig else pure ())
      fun _ => Sound :=
    .ite (fun _ => .of_does hmark fun _ _ hstep => hstep.sound) fun _ => .pure fun s hs => hs
  have hhup : Ends Sound (do
      if r.hup then reload drv host
      if r.usr2 then event .showConfig) fun _ => Sound :=
    .ite (fun _ => .bind ends_reload fun _ => hshow) fun _ => hshow
  refine .ite (fun _ => ?_) fun _ => hhup
  refine .bind (ends_w1ReadAllSensors 0) fun _ => ?_
  exact .bind ends_w1Tmpfilelog fun _ => hhup.conseq (fun _ hs => hs.toSound) fun _ _ hs => hs

theorem ends_waitRound (r : Round) : Ends Sound (waitRound drv host r) fun _ => Sound := by
  have hsleep : Does (RunStep fun e => e.readings = []) (sleepToTick (σ := σ) r) :=
    run_sleepToTick (fun _ => rfl) r
  exact .bind (ends_handleSignals r) fun _ => .of_does hsleep fun _ _ hstep => hstep.sound

theorem ends_mainLoop (rounds : List Round) :
    Ends Sound (mainLoop drv host rounds) fun _ => Sound := by
  induction rounds with
  | nil => exact .pure fun s hs => hs
  | cons r rounds ih =>
    refine .bind (ends_waitRound r) fun left => ?_
    cases left with
    | none => exact ih
    | some now =>
      refine .bind (ends_readPass now) fun _ => .bind ends_getW1 fun w1 => ?_
      exact .ite (fun _ => ih) fun _ => .pure fun s hs => hs

theorem startup_doread {opts : List Opt} {now : Int} {l : Locals}
    (h : (startup drv host opts now).run s = .ok (l, s')) : s'.w1.doread = true := by
  rw [startup, run_modifyW1_bind, run_bind_ok] at h
  obtain ⟨_, s₁, -, h⟩ := h
  rw [run_getW1_bind] at h
  generalize opts.foldl applyOption ({}, s₁.w1) = r at h
  simp only at h
  rw [run_modifyW1_bind] at h
  by_cases hv : r.1.showvers = true
  · rw [if_pos hv] at h
    exact absurd h run_throw_ok
  · rw [if_neg hv, run_bind_ok] at h
    obtain ⟨_, s₂, -, h⟩ := h
    rw [run_getW1_bind] at h
    by_cases hread : s₂.w1.doread = true
    · rw [if_pos hread] at h
      have hrest : Does (fun s s' : Machine σ => s'.w1.doread = s.w1.doread) (do
          initInterfaces drv
          modifyW1 fun w1 => { w1 with logtime := now }
          w1Replog
          w1AllCouplersOff drv
          return { r.1 with immed := !r.1.immed }) := by
        have hquiet : ∀ {α : Type} {m : M σ α}, Does Quiet m →
            Does (fun s s' : Machine σ => s'.w1.doread = s.w1.doread) m :=
          fun hm => hm.mono fun s s' hq => by rw [hq.w1]
        have hinit : Does (Reloads fun _ => True) (initInterfaces drv) :=
          reloads_initInterfaces fun _ _ => trivial
        refine .bind (hinit.mono fun s s' hstep => hstep.doread) fun _ => ?_
        refine .bind (.modify fun s => rfl) fun _ => .bind (hquiet does_w1Replog) fun _ => ?_
        exact .bind (hquiet (does_w1AllCouplersOff drv)) fun _ => .pure _
      exact hrest.keeps (P := fun s => s.w1.doread = true) (fun _ _ hk hs => hk.trans hs) h hread
    · rw [if_neg hread] at h
      exact absurd h run_throw_ok

theorem ends_main (opts : List Opt) (start : Int) (rounds : List Round) :
    Ends (fun s => Honest s.trace) (main drv host opts start rounds) fun _ s => Honest s.trace := by
  have hstart : Ends (fun s => Honest s.trace) (startup drv host opts start) fun _ => Sound := by
    intro s l s' hs h
    refine ⟨startup_doread h, ?_⟩
    exact (extends_startup (fun _ he => isBus_readings he) opts start).keeps
      (fun _ _ hstep => hstep.honest) h hs
  refine .bind hstart fun l => ?_
  have hloop : Ends Sound (do
      let w1 ← getW1
      if l.once = false ∧ w1.delay ≠ 0 then mainLoop drv host rounds) fun _ s => Honest s.trace := by
    refine .bind ends_getW1 fun w1 => .ite (fun _ => ?_) fun _ => .pure fun s hs => hs.honest
    exact (ends_mainLoop rounds).conseq (fun _ hs => hs) fun _ _ hs => hs.honest
  exact .ite (fun _ => .bind (ends_readPass 0) fun _ => hloop) fun _ => hloop

/-- A sensor is valid after a read pass only if its device was due in this pass and the
last verdict of the pass on it was an acceptance. So nothing is handed out twice: in every
run each reading that a logger or the snapshot gets was accepted in the pass before. -/
theorem no_stale_reading (drv : Driver σ) :
    (∀ secs (s s' : Machine σ) nv, s.w1.doread = true →
      (w1ReadAllSensors drv secs).run s = .ok (nv, s') →
      ∀ n d j x, s'.w1.devs[n]? = some d → j < d.ns → d.s[j]? = some x → x.valid = true →
        d.due secs = true ∧ lastVerdict n j s'.trace = some true) ∧
    ∀ host opts start rounds bus s',
      (main drv host opts start rounds).run { w1 := {}, bus } = .ok ((), s') → Honest s'.trace := by
  constructor
  · intro secs s s' nv hread h n d j x hd hj hx hv
    exact (w1ReadAllSensors_fresh hread h).1 n d j x trivial hd hj hx hv
  · intro host opts start rounds bus s' h
    exact ends_main opts start rounds _ _ _ (show Honest [] from trivial) h

/-- The first minute, SIGUSR1 in the second and a bus that falls silent in the third. -/
theorem no_stale_reading_greenhouse :
    ∃ s', (main Driver.thermometers greenhouse [] 0
        [{ before := 5, sleep := .woke 60 }, { usr1 := true, before := 70, sleep := .woke 120 }]).run
        { w1 := {}, bus := [20, 21, 22] } = .ok ((), s') ∧
      (s'.trace.flatMap Event.readings).map (·.value) = [22, 21, 21, 20, 20] ∧
      Honest s'.trace := by
  obtain ⟨_, s', h, hr⟩ := exists_run_ok
    (m := main Driver.thermometers greenhouse [] 0
      [{ before := 5, sleep := .woke 60 }, { usr1 := true, before := 70, sleep := .woke 120 }])
    (s := { w1 := {}, bus := [20, 21, 22] })
    (p := fun s' => (s'.trace.flatMap Event.readings).map (·.value) = [22, 21, 21, 20, 20])
    (by decide +kernel)
  exact ⟨s', h, hr, (no_stale_reading Driver.thermometers).2 _ _ _ _ _ _ h⟩

end
end W1Retap

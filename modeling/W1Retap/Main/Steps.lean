import W1Retap.Config.Reload
import W1Retap.Main.Loop

/-!
# Steps of a run

Between two reloads the program does nothing but `RunStep`s: steps of the readers, marks
in the trace and new values of `logtime`. The marks are a parameter, so that a program
that reads is told from one that only logs. Start-up and reload add bus events to the
trace and no others.
-/
namespace W1Retap

open Programs

/-- Events that a reader can cause. -/
def Event.isSensor : Event → Bool
  | .validate .. => true
  | e => e.isBus

theorem isSensor_of_isBus {e : Event} (he : e.isBus = true) : e.isSensor = true := by
  cases e <;> first | exact he | rfl

section
variable {σ : Type}

/-- One step outside of start-up and reload, with the marks `P`. -/
inductive RunStep (P : Event → Prop) : Machine σ → Machine σ → Prop
  | sensor {s s'} (n) : SensorStep n s s' → RunStep P s s'
  | mark (s e) : P e → RunStep P s (s.log e)
  | logtime (s t) : RunStep P s (s.setW1 { s.w1 with logtime := t })

/-- The trace has at most one new event, and that is one of `P`. -/
def Extends (P : Event → Prop) (s s' : Machine σ) : Prop :=
  s'.trace = s.trace ∨ ∃ e, P e ∧ s'.trace = e :: s.trace

section
variable {P : Event → Prop} {s s' : Machine σ} {n : ℕ}

theorem SensorStep.extends (h : SensorStep n s s') (hP : ∀ e, e.isSensor = true → P e) :
    Extends P s s' := by
  cases h with
  | quiet hq =>
    rcases hq.trace with ht | ⟨e, he, ht⟩
    · exact Or.inl ht
    · exact Or.inr ⟨e, hP e (isSensor_of_isBus he), ht⟩
  | port portnum => exact Or.inl rfl
  | clear => exact Or.inl rfl
  | assign j f hf => exact Or.inl rfl
  | validate j f x x' hx hf hv => exact Or.inr ⟨_, hP _ rfl, rfl⟩

theorem RunStep.extends (h : RunStep P s s') (hP : ∀ e, e.isSensor = true → P e) :
    Extends P s s' := by
  cases h with
  | sensor n hn => exact hn.extends hP
  | mark e he => exact Or.inr ⟨e, he, rfl⟩
  | logtime t => exact Or.inl rfl

/-- What holds of the old events and of a new one holds of all. -/
theorem Extends.forall_mem (h : Extends P s s') (hs : ∀ e ∈ s.trace, P e) : ∀ e ∈ s'.trace, P e := by
  rcases h with ht | ⟨e, he, ht⟩
  · rw [ht]
    exact hs
  · rw [ht]
    exact List.forall_mem_cons.mpr ⟨he, hs⟩

/-! ## The functions of the main loop -/

variable {α : Type} {m : M σ α} {drv : Driver σ} {secs : Int}

theorem run_sensor (h : Does (SensorStep n) m) : Does (RunStep P) m :=
  h.mono fun _ _ => .sensor n

theorem run_mark {e : Event} (he : P e) : Does (RunStep (σ := σ) P) (event e) := by
  intro s u s' h
  obtain rfl := run_event_ok.mp h
  exact .single (.mark s e he)

theorem run_readDevice (hread : P (.read n secs)) : Does (RunStep P) (readDevice drv secs n) := by
  refine .bind (run_sensor (n := n) does_w1SetInvalid) fun _ => .bind (does_dev n) fun d => ?_
  refine .ite (fun _ => .bind (run_mark hread) fun _ => ?_) fun _ => .pure _
  exact .bind (run_sensor (n := n) (does_readRetrying d.stype w1Retry)) fun _ => .pure _

theorem run_readDevices (hread : ∀ n, P (.read n secs)) (ns : List ℕ) :
    Does (RunStep P) (readDevices drv secs ns) := by
  induction ns with
  | nil => exact .pure _
  | cons n ns ih =>
    exact .bind (run_readDevice (hread n)) fun _ => .bind ih fun _ => .pure _

theorem run_w1ReadAllSensors (hall : P (.readAll secs)) (hread : ∀ n, P (.read n secs)) :
    Does (RunStep P) (w1ReadAllSensors drv secs) := by
  refine .bind does_getW1 fun w1 => .ite (fun _ => ?_) fun _ => .pure _
  refine .bind (run_mark hall) fun _ => .bind (run_sensor (n := 0) does_acquire) fun _ => ?_
  refine .bind (run_readDevices hread _) fun _ => ?_
  exact .bind (run_sensor (n := 0) (does_w1AllCouplersOff drv)) fun _ => .pure _

theorem run_w1Tmpfilelog (hlog : ∀ rs, P (.tmpfilelog rs)) :
    Does (RunStep (σ := σ) P) w1Tmpfilelog :=
  .bind does_getW1 fun _ => .ite (fun _ => run_mark (hlog _)) fun _ => .pure _

theorem run_callLoggers (hlog : ∀ n dll rs, P (.logger n dll rs)) :
    Does (RunStep (σ := σ) P) callLoggers := by
  refine .bind does_getW1 fun w1 => .forM fun n _ => ?_
  cases w1.dlls[n]? with
  | none => exact .pure _
  | some dll => exact .ite (fun _ => run_mark (hlog n dll _)) fun _ => .pure _

theorem run_releaseInterface : Does (RunStep P) (releaseInterface drv) := by
  refine run_sensor (n := 0) (.bind does_getW1 fun w1 => .ite (fun _ => ?_) fun _ => .pure _)
  exact .bind (does_anyCall _) fun _ => .bind (does_setPortnum _) fun _ => does_event rfl

theorem run_sleepToTick (hsleep : ∀ t, P (.sleep t)) (r : Round) :
    Does (RunStep (σ := σ) P) (sleepToTick r) := by
  refine .bind does_getW1 fun w1 => .bind (.lift _) fun wakeup => ?_
  refine .bind (run_mark (hsleep wakeup)) fun _ => ?_
  cases r.sleep with
  | interrupted => exact .pure _
  | failed => exact .pure _
  | woke now => exact .bind (.modify fun s => .logtime s now) fun _ => .pure _

/-! ## Runs without a reload -/

theorem run_readPass (hP : ∀ e, e.isSensor = false → P e) (now : Int) :
    Does (RunStep P) (readPass drv now) := by
  have hrel : Does (RunStep P) (releaseInterface drv) := run_releaseInterface
  refine .bind (run_w1ReadAllSensors (hP _ rfl) fun _ => hP _ rfl) fun nv => ?_
  refine .ite (fun _ => .bind (run_callLoggers fun _ _ _ => hP _ rfl) fun _ => ?_) fun _ => hrel
  refine .bind does_getW1 fun w1 => .ite (fun _ => .bind (.lift _) fun phase => ?_) fun _ => hrel
  refine .ite (fun _ => ?_) fun _ => hrel
  exact .bind (run_w1Tmpfilelog fun _ => hP _ rfl) fun _ => hrel

theorem run_waitRound {host : Host} (hP : ∀ e, e.isSensor = false → P e) {r : Round}
    (hhup : r.hup = false) : Does (RunStep P) (waitRound drv host r) := by
  have hsleep : Does (RunStep (σ := σ) P) (sleepToTick r) := run_sleepToTick (fun _ => hP _ rfl) r
  have hshow : Does (RunStep (σ := σ) P) (if r.usr2 = true then event .showConfig else pure ()) :=
    .ite (fun _ => run_mark (hP _ rfl)) fun _ => .pure _
  have hno : Does (RunStep P) (do
      if r.hup then reload drv host
      if r.usr2 then event .showConfig) :=
    .ite (fun h => by rw [hhup] at h; cases h) fun _ => hshow
  refine .bind (.ite (fun _ => ?_) fun _ => hno) fun _ => hsleep
  refine .bind (run_w1ReadAllSensors (hP _ rfl) fun _ => hP _ rfl) fun _ => ?_
  exact .bind (run_w1Tmpfilelog fun _ => hP _ rfl) fun _ => hno

theorem run_mainLoop {host : Host} (hP : ∀ e, e.isSensor = false → P e) {rounds : List Round}
    (hhup : ∀ r ∈ rounds, r.hup = false) : Does (RunStep P) (mainLoop drv host rounds) := by
  induction rounds with
  | nil => exact .pure _
  | cons r rounds ih =>
    have hrest := ih fun r' hr' => hhup r' (List.mem_cons_of_mem _ hr')
    refine .bind (run_waitRound hP (hhup r List.mem_cons_self)) fun left => ?_
    cases left with
    | none => exact hrest
    | some now =>
      refine .bind (run_readPass hP now) fun _ => .bind does_getW1 fun w1 => ?_
      exact .ite (fun _ => hrest) fun _ => .pure _

/-! ## Start-up and reload -/

/-- A step of a reload. -/
structure Reloads (P : Event → Prop) (s s' : Machine σ) : Prop where
  doread : s'.w1.doread = s.w1.doread
  extends_ : Extends P s s'

theorem Quiet.reloads (h : Quiet s s') (hP : ∀ e, e.isBus = true → P e) : Reloads P s s' := by
  refine ⟨by rw [h.w1], ?_⟩
  rcases h.trace with ht | ⟨e, he, ht⟩
  · exact Or.inl ht
  · exact Or.inr ⟨e, hP e he, ht⟩

theorem reloads_modifyW1 {f : DevList → DevList} (hf : ∀ w1, (f w1).doread = w1.doread) :
    Does (Reloads (σ := σ) P) (modifyW1 f) := by
  intro s u s' h
  obtain rfl := run_modifyW1_ok.mp h
  exact .single ⟨hf s.w1, Or.inl rfl⟩

variable {host : Host}

/-- Relations that contain what `do_init` does. -/
class InitSteps (R : Machine σ → Machine σ → Prop) : Prop where
  dll : ∀ s n f, R s (s.setW1 (s.w1.modifyDll n f))
  devs : ∀ s devs cycle delay, R s (s.setW1 { s.w1 with devs, cycle, delay })

section
variable {R : Machine σ → Machine σ → Prop} [InitSteps R]

theorem does_initPlugin (done : Bool) (n : ℕ) : Does R (initPlugin host done n) := by
  have hdll : ∀ f, Does R (modifyW1 (·.modifyDll n f)) := by
    intro f s u s' h
    obtain rfl := run_modifyW1_ok.mp h
    exact .single (InitSteps.dll s n f)
  refine .bind does_getW1 fun w1 => ?_
  cases w1.dlls[n]? with
  | none => exact .pure _
  | some dll =>
    simp only
    cases dll.type with
    | unset => exact .pure _
    | c =>
      refine .ite (fun _ => .pure _) fun _ => ?_
      split
      · exact .throw _
      · refine .bind ?_ fun _ => .pure _
        intro s u s' h
        obtain rfl := run_modifyW1_ok.mp h
        exact .single (InitSteps.devs s _ s.w1.cycle s.w1.delay)
    | l =>
      dsimp only
      split
      · exact .throw _
      · exact .bind (hdll _) fun _ => .pure _
    | r =>
      dsimp only
      split
      · exact .throw _
      · exact .bind (hdll _) fun _ => .pure _

theorem does_doInit : Does R (doInit host) := by
  refine .bind does_getW1 fun w1 => .bind (.foldlM does_initPlugin false) fun done => ?_
  refine .ite (fun _ => ?_) fun _ => .throw _
  intro s u s' h
  rw [run_getW1_bind, run_bind_ok] at h
  obtain ⟨w, s₁, h₁, h⟩ := h
  obtain ⟨hw, rfl⟩ := run_lift_ok.mp h₁
  rw [run_bind_ok] at h
  obtain ⟨w', s₂, h₂, h⟩ := h
  obtain ⟨hw', rfl⟩ := run_lift_ok.mp h₂
  obtain rfl := run_modifyW1_ok.mp h
  rw [w1VerifyIntervals_congr] at hw
  obtain ⟨w₀, -, rfl⟩ := map_ok.mp hw
  rw [w1InitializeCouplers_keeps hw']
  exact .single (InitSteps.devs _ _ _ _)

end

/-- Relations that contain what `cleanup` and `read_config` do as well. -/
class ConfigSteps (R : Machine σ → Machine σ → Prop) : Prop extends InitSteps R where
  cleanup : ∀ s dlls, R s (s.setW1 { s.w1 with devs := [], dlls, ndll := 0, rcfile := none })
  rcfile : ∀ s rcfile, R s (s.setW1 { s.w1 with rcfile })
  setting : ∀ s line, R s (s.setW1 (s.w1.applySetting line))
  plugin : ∀ (s : Machine σ) dlls, R s
    { s with modules := s.modules + 1, w1 := { s.w1 with dlls, ndll := s.w1.ndll + 1 } }

section
variable {R : Machine σ → Machine σ → Prop} [ConfigSteps R]

theorem does_cleanup : Does R (cleanup (σ := σ)) := by
  intro s u s' h
  obtain rfl := run_modifyW1_ok.mp h
  rw [DevList.closeDlls, closeAll_eq]
  exact .single (ConfigSteps.cleanup s _)

theorem does_applyLine (line : RcLine) : Does R (applyLine host line) := by
  have hsetting : Does R (modifyW1 (σ := σ) (·.applySetting line)) := by
    intro s u s' h
    obtain rfl := run_modifyW1_ok.mp h
    exact .single (ConfigSteps.setting s line)
  cases line with
  | plugin type params =>
    refine .bind .get fun s => .ite (fun _ => .throw _) fun _ => .ite (fun _ => ?_) fun _ => .pure _
    exact .modify fun s => ConfigSteps.plugin s _
  | _ => exact hsetting

theorem does_readConfig : Does R (readConfig host) := by
  refine .bind does_getW1 fun w1 => .bind ?_ fun _ => .forM fun line _ => does_applyLine line
  intro s u s' h
  obtain rfl := run_modifyW1_ok.mp h
  exact .single (ConfigSteps.rcfile s _)

end

instance : ConfigSteps (Reloads (σ := σ) P) where
  dll _ _ _ := ⟨rfl, Or.inl rfl⟩
  devs _ _ _ _ := ⟨rfl, Or.inl rfl⟩
  cleanup _ _ := ⟨rfl, Or.inl rfl⟩
  rcfile _ _ := ⟨rfl, Or.inl rfl⟩
  setting _ line := ⟨by cases line <;> rfl, Or.inl rfl⟩
  plugin _ _ := ⟨rfl, Or.inl rfl⟩

theorem reloads_initInterfaces (hP : ∀ e, e.isWire = true → P e) :
    Does (Reloads P) (initInterfaces drv) := by
  have hcall : ∀ {β : Type} (f : σ → β × σ), Does (Reloads (σ := σ) P) (call f) := by
    intro β f s b s' h
    obtain ⟨-, rfl⟩ := run_call_ok.mp h
    exact .single ⟨rfl, Or.inl rfl⟩
  refine .bind (reloads_modifyW1 fun _ => rfl) fun _ => .bind does_getW1 fun w1 => ?_
  refine .ite (fun _ => .bind (hcall _) fun p => ?_) fun _ => .pure _
  refine .bind (reloads_modifyW1 fun _ => rfl) fun _ => .ite (fun _ => .throw _) fun _ => ?_
  intro s u s' h
  obtain rfl := run_event_ok.mp h
  exact .single ⟨rfl, Or.inr ⟨_, hP _ rfl, rfl⟩⟩

theorem reloads_reload (hP : ∀ e, e.isWire = true → P e) :
    Does (Reloads P) (reload drv host) := by
  refine .bind does_cleanup fun _ => .bind does_readConfig fun _ => ?_
  exact .bind does_doInit fun _ => reloads_initInterfaces hP

theorem extends_startup (hP : ∀ e, e.isBus = true → P e) (opts : List Opt) (now : Int) :
    Does (Extends P) (startup drv host opts now) := by
  have hmodify : ∀ f : DevList → DevList, Does (Extends (σ := σ) P) (modifyW1 f) :=
    fun f => .modify fun s => Or.inl rfl
  have hreload : ∀ {β : Type} {k : M σ β}, Does (Reloads P) k → Does (Extends P) k :=
    fun hk => hk.mono fun _ _ hs => hs.extends_
  have hquiet : ∀ {β : Type} {k : M σ β}, Does Quiet k → Does (Extends P) k :=
    fun hk => hk.mono fun _ _ hs => (hs.reloads hP).extends_
  refine .bind (hmodify _) fun _ => .bind (hreload does_readConfig) fun _ => ?_
  refine .bind does_getW1 fun w1 => ?_
  generalize opts.foldl applyOption ({}, w1) = r
  refine .bind (hmodify _) fun _ => .ite (fun _ => .throw _) fun _ => ?_
  refine .bind (hreload does_doInit) fun _ => .bind does_getW1 fun w1 => ?_
  refine .ite (fun _ => ?_) fun _ => .throw _
  have hinit : Does (Reloads P) (initInterfaces drv) :=
    reloads_initInterfaces fun e he => hP e (isBus_of_isWire he)
  refine .bind (hreload hinit) fun _ => .bind (hmodify _) fun _ => ?_
  exact .bind (hquiet does_w1Replog) fun _ => .bind (hquiet (does_w1AllCouplersOff drv)) fun _ =>
    .pure _

end
end
end W1Retap

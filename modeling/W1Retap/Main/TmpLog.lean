import W1Retap.Config.Precedence

/-!
# When the snapshot file stays away

`logtmp` guards one of the two calls of `w1_tmpfilelog`. While it is 0 and no SIGUSR1 comes,
the file is never written; `-T` does not make it 0.
-/
namespace W1Retap

open Programs

/-- A write of the snapshot file. -/
def Event.isTmpfilelog : Event → Bool
  | .tmpfilelog _ => true
  | _ => false

/-- The file has `logtemp` lines, and they all say 0. -/
def DisablesTmpLog (lines : List RcLine) : Prop :=
  (∃ v, .logtemp v ∈ lines) ∧ ∀ v, .logtemp v ∈ lines → v = 0

/-- So far no snapshot has been written, and the loop will write none. -/
structure NoSnapshot {σ : Type} (s : Machine σ) : Prop where
  logtmp : s.w1.logtmp = 0
  trace : ∀ e ∈ s.trace, e.isTmpfilelog = false

section
variable {σ : Type} {drv : Driver σ} {host : Host} {s s' : Machine σ}

/-! ## The value of `logtmp` -/

theorem logtemp_of_mem {lines : List RcLine} {v : Int} (h : v ∈ lines.filterMap tmpLogSetting.ofLine) :
    .logtemp v ∈ lines := by
  obtain ⟨line, hmem, hline⟩ := List.mem_filterMap.mp h
  cases line with
  | logtemp u =>
    obtain rfl := Option.some.inj hline
    exact hmem
  | _ => cases hline

/-- Without `-T` a file that disables the log is obeyed. -/
theorem chosen_of_disabled {opts : List Opt} (hopts : .noTmpLog ∉ opts)
    (hfile : DisablesTmpLog (host.rcLines host.w1rcfile)) : tmpLogSetting.chosen host opts = 0 := by
  have hnone : opts.filterMap tmpLogSetting.ofOpt = [] := by
    refine List.filterMap_eq_nil_iff.mpr fun o ho => ?_
    cases o with
    | noTmpLog => exact absurd ho hopts
    | _ => rfl
  obtain ⟨v, hv⟩ := hfile.1
  have hmem : v ∈ (host.rcLines host.w1rcfile).filterMap tmpLogSetting.ofLine :=
    List.mem_filterMap.mpr ⟨_, hv, rfl⟩
  obtain ⟨u, hu⟩ := Option.isSome_iff_exists.mp (List.getLast?_isSome.mpr (List.ne_nil_of_mem hmem))
  have hzero : u = 0 := hfile.2 u (logtemp_of_mem (List.mem_of_getLast? hu))
  rw [Setting.chosen, latest_eq, hnone]
  change latest tmpLogSetting.ofLine _ _ = 0
  rw [latest_eq, hu, hzero]
  rfl

/-! ## The loop -/

theorem isTmpfilelog_of_isSensor {e : Event} (he : e.isSensor = true) : e.isTmpfilelog = false := by
  cases e with
  | tmpfilelog rs => cases he
  | _ => rfl

theorem isTmpfilelog_of_isBus {e : Event} (he : e.isBus = true) : e.isTmpfilelog = false :=
  isTmpfilelog_of_isSensor (isSensor_of_isBus he)

theorem RunStep.noSnapshot (h : RunStep (fun e => e.isTmpfilelog = false) s s')
    (hs : NoSnapshot s) : NoSnapshot s' := by
  refine ⟨(congrArg Shared.logtmp h.sameShared).trans hs.logtmp, ?_⟩
  exact (h.extends fun _ => isTmpfilelog_of_isSensor).forall_mem hs.trace

theorem ends_noSnapshot {α : Type} {m : M σ α} (hm : Does (RunStep fun e => e.isTmpfilelog = false) m) :
    Ends NoSnapshot m fun _ => NoSnapshot :=
  .of_does hm fun _ _ hstep => hstep.noSnapshot

/-- The log is off, so the pass calls the loggers only. -/
theorem noSnapshot_readPass (now : Int) : Ends NoSnapshot (readPass drv now) fun _ => NoSnapshot := by
  have hrel : Ends NoSnapshot (releaseInterface drv) fun _ => NoSnapshot :=
    ends_noSnapshot run_releaseInterface
  refine .bind (ends_noSnapshot (run_w1ReadAllSensors rfl fun _ => rfl)) fun nv => ?_
  refine .ite (fun _ => ?_) fun _ => hrel
  refine .bind (ends_noSnapshot (run_callLoggers fun _ _ _ => rfl)) fun _ => .bind ends_getW1_eq fun w1 => ?_
  refine .ite (fun hne => ?_) fun _ => hrel.conseq (fun _ hs => hs.2) fun _ _ hs => hs
  rintro s u s' ⟨rfl, hs⟩ h
  exact absurd hs.logtmp hne

theorem noSnapshot_reload
    (hfile : ∀ v, ((host.rcLines none).filterMap tmpLogSetting.ofLine).getLast? = some v → v = 0) :
    Ends NoSnapshot (reload drv host) fun _ => NoSnapshot := by
  intro s u s' hs h
  constructor
  · have hshared := congrArg tmpLogSetting.get (reload_shared h)
    change s'.w1.logtmp = tmpLogSetting.get (s.w1.reread (host.rcLines none)).shared at hshared
    rw [hshared, Setting.get_reread]
    change latest tmpLogSetting.ofLine _ s.w1.logtmp = 0
    rw [hs.logtmp]
    exact latest_eq_self_iff.mpr hfile
  · have hext : Does (Reloads fun e => e.isTmpfilelog = false) (reload drv host) :=
      reloads_reload fun _ he => isTmpfilelog_of_isBus (isBus_of_isWire he)
    exact hext.keeps (P := fun t : Machine σ => ∀ e ∈ t.trace, e.isTmpfilelog = false)
      (fun _ _ hstep ht => hstep.extends_.forall_mem ht) h hs.trace

/-- A round without SIGUSR1. -/
theorem noSnapshot_waitRound {r : Round} (husr1 : r.usr1 = false)
    (hfile : r.hup = true →
      ∀ v, ((host.rcLines none).filterMap tmpLogSetting.ofLine).getLast? = some v → v = 0) :
    Ends NoSnapshot (waitRound drv host r) fun _ => NoSnapshot := by
  have hshow : Ends NoSnapshot (if r.usr2 = true then event (σ := σ) .showConfig else pure ())
      fun _ => NoSnapshot :=
    .ite (fun _ => ends_noSnapshot (run_mark rfl)) fun _ => .pure fun s hs => hs
  have hhup : Ends NoSnapshot (do
      if r.hup then reload drv host
      if r.usr2 then event .showConfig) fun _ => NoSnapshot :=
    .ite (fun hup => .bind (noSnapshot_reload (hfile hup)) fun _ => hshow) fun _ => hshow
  have hsignals : Ends NoSnapshot (handleSignals drv host r) fun _ => NoSnapshot :=
    .ite (fun h => absurd (husr1.symm.trans h) (by decide)) fun _ => hhup
  exact .bind hsignals fun _ => ends_noSnapshot (run_sleepToTick (fun _ => rfl) r)

theorem noSnapshot_mainLoop {rounds : List Round} (husr1 : ∀ r ∈ rounds, r.usr1 = false)
    (hfile : (∃ r ∈ rounds, r.hup = true) →
      ∀ v, ((host.rcLines none).filterMap tmpLogSetting.ofLine).getLast? = some v → v = 0) :
    Ends NoSnapshot (mainLoop drv host rounds) fun _ => NoSnapshot := by
  induction rounds with
  | nil => exact .pure fun s hs => hs
  | cons r rounds ih =>
    have hrest : Ends NoSnapshot (mainLoop drv host rounds) fun _ => NoSnapshot := by
      apply ih
      · exact fun r' hr' => husr1 r' (List.mem_cons_of_mem _ hr')
      · rintro ⟨r', hr', hup⟩
        exact hfile ⟨r', List.mem_cons_of_mem _ hr', hup⟩
    have hround : Ends NoSnapshot (waitRound drv host r) fun _ => NoSnapshot :=
      noSnapshot_waitRound (husr1 r List.mem_cons_self) fun hup => hfile ⟨r, List.mem_cons_self, hup⟩
    refine .bind hround fun left => ?_
    cases left with
    | none => exact hrest
    | some now =>
      refine .bind (noSnapshot_readPass now) fun _ => .bind ends_getW1 fun w1 => ?_
      exact .ite (fun _ => hrest) fun _ => .pure fun s hs => hs

end

/-- A thermometer, and a file that disables the log. -/
def greenhouseNoLog : Host :=
  { greenhouse with contents := fun _ => some "init = w1file\nlogtemp = 0\n".toList }

end W1Retap

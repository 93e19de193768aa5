import W1Retap.Config.Settings

/-!
# Start-up and reload as functions of the configuration

Start-up gives the schedule of its rc file and command line over the default delay, and
a reload the schedule of the file it reads over the delay in force, which is what
`w1_verify_intervals` left there. So a schedule survives every reload exactly when the
first one gives it again.
-/
namespace W1Retap

open Programs

section
variable {σ : Type} {drv : Driver σ} {host : Host} {s s' : Machine σ} {port : Int}
  {sch : Schedule}

/-! ## `cleanup` -/

theorem closeDll_param {w1 : DevList} {i k : ℕ} {dll : Dll}
    (h : (w1.closeDll i).dlls[k]? = some dll) :
    ∃ dll₀, w1.dlls[k]? = some dll₀ ∧ dll.param = if k = i then none else dll₀.param := by
  have hk : (w1.closeDll i).dlls[k]?.map (·.param) =
      w1.dlls[k]?.map fun dll₀ => if k = i then none else dll₀.param := by
    simp only [DevList.closeDll, DevList.modifyDll_getElem?]
    cases w1.dlls[k]? with
    | none => simp
    | some dll₀ => split_ifs <;> simp
  rw [h] at hk
  obtain ⟨dll₀, hd₀, hp⟩ := Option.map_eq_some_iff.mp hk.symm
  exact ⟨dll₀, hd₀, hp.symm⟩

/-- After the loop of `cleanup` no slot has a parameter. -/
theorem closeAll_param {l : List ℕ} {w1 : DevList}
    (hfree : ∀ (k : ℕ) dll, w1.dlls[k]? = some dll → k ∈ l ∨ dll.param = none)
    {k : ℕ} {dll : Dll} (h : (l.foldl DevList.closeDll w1).dlls[k]? = some dll) :
    dll.param = none := by
  induction l generalizing w1 with
  | nil => exact (hfree k dll h).resolve_left (by simp)
  | cons i l ih =>
    refine ih (fun m dll' hd' => ?_) h
    obtain ⟨dll₀, hd₀, hp⟩ := closeDll_param hd'
    by_cases hm : m = i
    · exact Or.inr (hp.trans (if_pos hm))
    · rw [hp, if_neg hm]
      exact (hfree m dll₀ hd₀).imp_left fun h => (List.mem_cons.mp h).resolve_left hm

theorem closeAll_eq (l : List ℕ) (w1 : DevList) :
    l.foldl DevList.closeDll w1 = { w1 with dlls := (l.foldl DevList.closeDll w1).dlls } := by
  induction l generalizing w1 with
  | nil => rfl
  | cons i l ih =>
    rw [List.foldl_cons, ih]
    rfl

theorem cleanup_plugged {w1 : DevList} {ps : List Plugin} (h : Plugged w1 ps) :
    Plugged { ({ w1 with devs := [] } : DevList).closeDlls with ndll := 0, rcfile := none } [] := by
  refine ⟨rfl, by simp, by simp, fun k dll _ hd => ?_⟩
  refine closeAll_param (fun m dll' hd' => ?_) hd
  rcases lt_or_ge m w1.ndll with hm | hm
  · exact Or.inl (List.mem_range.mpr hm)
  · exact Or.inr (h.free m dll' (h.ndll ▸ hm) hd')

/-! ## `reload` -/

/-- An interface that is held is not acquired again. -/
theorem acquire_held (h : s.w1.portnum ≠ -1) : (acquire drv).run s = .ok ((), s) := by
  rw [acquire, run_getW1_bind, if_neg h]
  rfl

/-- A reload gives the schedule of the file under the delay that the program runs with. -/
theorem reload_refines (hport : port ≠ -1) (h : Runs port sch s.w1) :
    Refines (reload drv host) s (host.schedule (host.rcLines none) sch.delay id)
      fun sch' _ s' => Runs port sch' s'.w1 := by
  obtain ⟨ps, hps⟩ := h.plugged
  refine Refines.congr_run (run_modifyW1_bind _ _) ?_
  set s₁ := s.setW1
    { ({ s.w1 with devs := [] } : DevList).closeDlls with ndll := 0, rcfile := none }
  have hclosed : ({ s.w1 with devs := [] } : DevList).closeDlls =
      { s.w1 with devs := [], dlls := ({ s.w1 with devs := [] } : DevList).closeDlls.dlls } :=
    closeAll_eq _ _
  have hread : Refines (readConfig host) s₁ (host.settings (host.rcLines none) s₁.w1.delay)
      fun c _ s' => Reads s₁.w1.portnum c s'.w1 := readConfig_refines (cleanup_plugged hps)
  have hd : s₁.w1.delay = sch.delay := by
    change ({ s.w1 with devs := [] } : DevList).closeDlls.delay = _
    rw [hclosed, ← h.schedule]
    rfl
  have hp : s₁.w1.portnum = port := by
    change ({ s.w1 with devs := [] } : DevList).closeDlls.portnum = _
    rw [hclosed]
    exact h.portnum
  rw [hd, hp] at hread
  rw [schedule_eq]
  refine hread.bind fun c _ s₂ hs₂ => ?_
  refine Refines.andThen (doInit_refines hs₂) fun sch' _ s₃ hs₃ => ?_
  obtain ⟨ps', hps'⟩ := hs₃.plugged
  refine ⟨(), _, (run_modifyW1_bind _ _).trans (acquire_held ?_), ?_⟩
  · rw [Machine.setW1_w1, hs₃.portnum]
    exact hport
  · exact ⟨⟨ps', hps'.congr rfl rfl⟩, hs₃.schedule, hs₃.portnum⟩

/-! ## Start-up -/

/-- The delay that the command line asks for, over the one of the rc file. -/
def cycleTime (opts : List Opt) (delay : Int) : Int :=
  opts.foldl (fun d o => match o with | .cycleTime secs => secs | _ => d) delay

theorem applyOption_keeps (r : Locals × DevList) (opts : List Opt) :
    (opts.foldl applyOption r).2.delay = cycleTime opts r.2.delay ∧
      (opts.foldl applyOption r).2.portnum = r.2.portnum ∧
      (opts.foldl applyOption r).2.ndll = r.2.ndll ∧
      (opts.foldl applyOption r).2.dlls = r.2.dlls := by
  induction opts generalizing r with
  | nil => exact ⟨rfl, rfl, rfl, rfl⟩
  | cons o opts ih =>
    obtain ⟨hd, hp, hn, hs⟩ := ih (applyOption r o)
    simp only [List.foldl_cons, cycleTime] at hd ⊢
    rw [hd, hp, hn, hs]
    cases o <;> exact ⟨rfl, rfl, rfl, rfl⟩

theorem initial_plugged (host : Host) : Plugged host.initial [] := by
  refine ⟨rfl, by simp, by simp, fun i dll _ hd => ?_⟩
  obtain ⟨hi, rfl⟩ := Vector.getElem?_eq_some_iff.mp hd
  simp [Host.initial]

theorem acquire_ok {u : Unit} (h : (acquire drv).run s = .ok (u, s')) :
    s'.w1 = { s.w1 with portnum := s'.w1.portnum } ∧ (s.w1.portnum = -1 → 0 ≤ s'.w1.portnum) := by
  rw [acquire, run_getW1_bind] at h
  by_cases hp : s.w1.portnum = -1
  · rw [if_pos hp, run_call_bind, run_modifyW1_bind] at h
    by_cases hneg : (drv.owAcquireEx s.w1.iface s.bus).1 < 0
    · rw [if_pos hneg] at h
      exact absurd h run_throw_ok
    · rw [if_neg hneg] at h
      obtain rfl := run_event_ok.mp h
      exact ⟨rfl, fun _ => not_lt.mp hneg⟩
  · rw [if_neg hp] at h
    obtain ⟨-, rfl⟩ := run_pure_ok.mp h
    exact ⟨rfl, fun h => absurd h hp⟩

theorem Runs.congr {w1 w1' : DevList} (h : Runs port sch w1) (hw : w1'.schedule = w1.schedule)
    (hp : w1'.portnum = w1.portnum) (hn : w1'.ndll = w1.ndll) (hd : w1'.dlls = w1.dlls) :
    Runs port sch w1' := by
  obtain ⟨ps, hps⟩ := h.plugged
  exact ⟨⟨ps, hps.congr hn hd⟩, hw.trans h.schedule, hp.trans h.portnum⟩

/-- Bus traffic does not touch the schedule. -/
theorem Quiet.runs (hq : Quiet s s') (h : Runs port sch s.w1) : Runs port sch s'.w1 := by
  have hi : s'.w1.devs.map (·.intvl) = s.w1.devs.map (·.intvl) := by
    have := congrArg (List.map fun x => x.2.1) hq.devs
    simpa only [List.map_map, Function.comp_def, Device.sensors] using this
  refine h.congr ?_ ?_ ?_ ?_
  · unfold DevList.schedule
    rw [hi, hq.w1]
  · rw [hq.w1]
  · rw [hq.w1]
  · rw [hq.w1]

/-- A start that comes to the main loop runs on the schedule of the rc file and the
command line, with the interface held. -/
theorem startup_ok {opts : List Opt} {now : Int} {l : Locals}
    (h : (startup drv host opts now).run s = .ok (l, s')) :
    ∃ sch port, host.schedule (host.rcLines host.w1rcfile) w1DefaultIntvl (cycleTime opts) = some sch ∧
      0 ≤ port ∧ Runs port sch s'.w1 := by
  rw [startup, run_modifyW1_bind, run_bind_ok] at h
  obtain ⟨_, s₁, h₁, h⟩ := h
  obtain ⟨c, hc, hs₁⟩ := (readConfig_refines (initial_plugged host)).of_ok h₁
  rw [run_getW1_bind] at h
  obtain ⟨hdelay, hport, hndll, hdlls⟩ := applyOption_keeps ({}, s₁.w1) opts
  generalize opts.foldl applyOption ({}, s₁.w1) = r at h hdelay hport hndll hdlls
  obtain ⟨l', w1⟩ := r
  simp only at h hdelay hport hndll hdlls
  rw [run_modifyW1_bind] at h
  by_cases hv : l'.showvers = true
  · rw [if_pos hv] at h
    exact absurd h run_throw_ok
  · rw [if_neg hv, run_bind_ok] at h
    obtain ⟨_, s₂, h₂, h⟩ := h
    have hreads : Reads (-1) { c with delay := cycleTime opts c.delay } w1 :=
      ⟨hs₁.plugged.congr hndll hdlls, hdelay.trans (by rw [hs₁.delay]), hport.trans hs₁.portnum⟩
    obtain ⟨sch, hsch, hs₂⟩ := (doInit_refines (hreads.congr rfl rfl rfl rfl)).of_ok h₂
    rw [run_getW1_bind] at h
    by_cases hread : s₂.w1.doread = true
    · rw [if_pos hread, run_bind_ok] at h
      obtain ⟨_, s₃, h₃, h⟩ := h
      rw [initInterfaces, run_modifyW1_bind] at h₃
      obtain ⟨hw₃, hp₃⟩ := acquire_ok h₃
      rw [run_modifyW1_bind, run_bind_ok] at h
      obtain ⟨_, s₄, h₄, h⟩ := h
      rw [run_bind_ok] at h
      obtain ⟨_, s₅, h₅, h⟩ := h
      obtain ⟨-, rfl⟩ := run_pure_ok.mp h
      refine ⟨sch, s₃.w1.portnum, ?_, hp₃ hs₂.portnum, ?_⟩
      · have hc' : host.settings (host.rcLines host.w1rcfile) w1DefaultIntvl = some c := hc
        rw [schedule_eq, hc']
        exact hsch
      · have hs₃ : Runs s₃.w1.portnum sch s₃.w1 := by
          obtain ⟨ps, hps⟩ := hs₂.plugged
          rw [hw₃]
          exact ⟨⟨ps, hps.congr rfl rfl⟩, hs₂.schedule, rfl⟩
        have hlog : Runs s₃.w1.portnum sch { s₃.w1 with logtime := now } :=
          hs₃.congr rfl rfl rfl rfl
        have hs₄ := Does.keeps (R := Quiet) does_w1Replog (fun _ _ hq => hq.runs) h₄ hlog
        exact Does.keeps (R := Quiet) (does_w1AllCouplersOff drv) (fun _ _ hq => hq.runs) h₅ hs₄
    · rw [if_neg hread] at h
      exact absurd h run_throw_ok

/-! ## Any number of reloads -/

/-- SIGHUP, `k` times. -/
def reloads (drv : Driver σ) (host : Host) : ℕ → M σ Unit
  | 0 => pure ()
  | k + 1 => do
    reloads drv host k
    reload drv host

/-- A schedule survives every reload exactly when the first one gives it again. -/
theorem reloads_iff (hport : port ≠ -1) (h : Runs port sch s.w1) :
    (∀ k, ∃ t, (reloads drv host k).run s = .ok ((), t) ∧ t.w1.schedule = sch) ↔
      host.schedule (host.rcLines none) sch.delay id = some sch := by
  constructor
  · intro hall
    obtain ⟨t, ht, hsch⟩ := hall 1
    obtain ⟨sch', hs', hruns⟩ := (reload_refines hport h).of_ok ht
    rw [hs', ← hruns.schedule, hsch]
  · intro hfix k
    suffices hk : ∃ t, (reloads drv host k).run s = .ok ((), t) ∧ Runs port sch t.w1 by
      obtain ⟨t, ht, hruns⟩ := hk
      exact ⟨t, ht, hruns.schedule⟩
    induction k with
    | zero => exact ⟨s, rfl, h⟩
    | succ k ih =>
      obtain ⟨t, ht, hruns⟩ := ih
      have hr : Refines (reload drv host) t (host.schedule (host.rcLines none) sch.delay id)
          fun sch' _ t' => Runs port sch' t'.w1 := reload_refines hport hruns
      rw [hfix] at hr
      obtain ⟨_, t', ht', hruns'⟩ := hr
      exact ⟨t', (run_bind_of_ok ht).trans ht', hruns'⟩

end

end W1Retap

import W1Retap.Config.Startup
import W1Retap.Couplers.Initialisation
import W1Retap.Sensors.Steps
import W1Retap.Support.Refinement

/-!
# What a configuration means

An rc file lists plugins and may set the delay. `Settings` is that and no more: the
plugins that open, in order, and the delay. `Host.schedule` says which schedule a
file gives, as a function of the file, the plugins and the delay in force before; start-up
and reload both refine it, each from its own file and its own delay.
-/
namespace W1Retap

open Programs

/-! ## The meaning of a file -/

/-- An open plugin, without the details of the slot that holds it. -/
structure Plugin where
  type : DllType
  file : CString
  param : Option CString
  deriving DecidableEq, Repr

structure Settings where
  plugins : List Plugin := []
  delay : Int
  deriving DecidableEq, Repr

structure Schedule where
  delay : Int
  cycle : Int
  intvls : List Int
  deriving DecidableEq, Repr

def DevList.schedule (w1 : DevList) : Schedule := ⟨w1.delay, w1.cycle, w1.devs.map (·.intvl)⟩

def Host.plugin (host : Host) (type : DllType) (params : CString) : Option Plugin :=
  let file := host.sofile (dllName params)
  if host.moduleOpens file then
    some ⟨type, file, if dllSep params = [] then none else some (dllSep params)⟩
  else none

/-- One line of an rc file; `none` when there are too many plugins. -/
def Host.readLine (host : Host) (c : Settings) : RcLine → Option Settings
  | .plugin type params =>
    if c.plugins.length = maxDll - 1 then none
    else some { c with plugins := c.plugins ++ (host.plugin type params).toList }
  | .delay v => some { c with delay := v }
  | _ => some c

def Host.settings (host : Host) (lines : List RcLine) (delay : Int) : Option Settings :=
  lines.foldlM host.readLine { delay }

/-- One plugin of `do_init`, with the sensor table if it has been read; `none` when a
plugin lacks its entry point. -/
def Host.tableStep (host : Host) (table : Option (List Row)) (p : Plugin) :
    Option (Option (List Row)) :=
  match p.type with
  | .c =>
    if table.isSome then some table
    else if host.hasSymbol p.file "w1_init".toList then some (some (host.w1Init p.file p.param))
    else none
  | .l => if host.hasSymbol p.file "w1_logger".toList then some table else none
  | .r => if host.hasSymbol p.file "w1_report".toList then some table else none
  | .unset => some table

/-- The sensor table that a list of plugins gives. -/
def Host.table (host : Host) (plugins : List Plugin) : Option (List Row) := do
  ← plugins.foldlM host.tableStep none

/-- The intervals and couplers of a table; `none` when the program stops over them. -/
def scheduleOf (rows : List Row) (delay : Int) : Option Schedule := do
  let w1 ← (w1VerifyIntervals { devs := rows.map Row.device, delay }).toOption
  let w1 ← (w1InitializeCouplers w1).toOption
  return w1.schedule

/-- The sensor table and the delay that `lines` give when the delay is `delay` before
they are read. -/
def Host.load (host : Host) (lines : List RcLine) (delay : Int) : Option (List Row × Int) := do
  let c ← host.settings lines delay
  let rows ← host.table c.plugins
  return (rows, c.delay)

/-- The schedule that `lines` give; `override` is what the command line does to the
delay after they are read. -/
def Host.schedule (host : Host) (lines : List RcLine) (delay : Int) (override : Int → Int) :
    Option Schedule := do
  let r ← host.load lines delay
  scheduleOf r.1 (override r.2)

theorem schedule_eq (host : Host) (lines : List RcLine) (delay : Int) (override : Int → Int) :
    host.schedule lines delay override = host.settings lines delay >>= fun c =>
      host.table c.plugins >>= fun rows => scheduleOf rows (override c.delay) := by
  simp only [Host.schedule, Host.load, bind_assoc, pure_bind]

/-! ## The slots behind the settings -/

def Dll.plugin (dll : Dll) : Option Plugin :=
  dll.handle.map fun handle => ⟨dll.type, handle.file, dll.param⟩

/-- The plugin slots hold exactly `ps`, and the other slots have no parameter. -/
structure Plugged (w1 : DevList) (ps : List Plugin) : Prop where
  ndll : w1.ndll = ps.length
  le : ps.length ≤ maxDll - 1
  used : ∀ (i : ℕ) p, ps[i]? = some p → w1.dlls[i]?.bind Dll.plugin = some p
  free : ∀ (i : ℕ) dll, ps.length ≤ i → w1.dlls[i]? = some dll → dll.param = none

/-- The state that `read_config` has reached: the plugins are open, the delay and
the port are known. -/
structure Reads (port : Int) (c : Settings) (w1 : DevList) : Prop where
  plugged : Plugged w1 c.plugins
  delay : w1.delay = c.delay
  portnum : w1.portnum = port

theorem Plugged.slot {w1 : DevList} {ps : List Plugin} {i : ℕ} {p : Plugin} (h : Plugged w1 ps)
    (hp : ps[i]? = some p) : ∃ dll handle, w1.dlls[i]? = some dll ∧ dll.handle = some handle ∧
      p = ⟨dll.type, handle.file, dll.param⟩ := by
  obtain ⟨dll, hd, hdll⟩ := Option.bind_eq_some_iff.mp (h.used i p hp)
  obtain ⟨handle, hh, he⟩ := Option.map_eq_some_iff.mp hdll
  exact ⟨dll, handle, hd, hh, he.symm⟩

theorem Plugged.congr {w1 w1' : DevList} {ps : List Plugin} (h : Plugged w1 ps)
    (hn : w1'.ndll = w1.ndll) (hd : w1'.dlls = w1.dlls) : Plugged w1' ps := by
  refine ⟨hn.trans h.ndll, h.le, ?_, ?_⟩
  · rw [hd]
    exact h.used
  · rw [hd]
    exact h.free

theorem Reads.congr {w1 w1' : DevList} {port : Int} {c : Settings} (h : Reads port c w1)
    (hn : w1'.ndll = w1.ndll) (hs : w1'.dlls = w1.dlls) (hd : w1'.delay = w1.delay)
    (hp : w1'.portnum = w1.portnum) : Reads port c w1' :=
  ⟨h.plugged.congr hn hs, hd.trans h.delay, hp.trans h.portnum⟩

/-- A plugin stays what it is when its function is resolved. -/
theorem Plugged.modify {w1 : DevList} {ps : List Plugin} (h : Plugged w1 ps) (n : ℕ)
    {f : Dll → Dll} (hf : ∀ dll, (f dll).plugin = dll.plugin ∧ (f dll).param = dll.param) :
    Plugged (w1.modifyDll n f) ps := by
  refine ⟨h.ndll, h.le, ?_, ?_⟩
  · intro i p hp
    rw [DevList.modifyDll_getElem?, ← h.used i p hp]
    by_cases hi : i = n
    · rw [if_pos hi]
      cases w1.dlls[i]? with
      | none => rfl
      | some dll => exact (hf dll).1
    · rw [if_neg hi]
  · intro i dll hi hd
    rw [DevList.modifyDll_getElem?] at hd
    by_cases hn : i = n
    · rw [if_pos hn] at hd
      obtain ⟨dll₀, hd₀, rfl⟩ := Option.map_eq_some_iff.mp hd
      exact (hf dll₀).2.trans (h.free i dll₀ hi hd₀)
    · rw [if_neg hn] at hd
      exact h.free i dll hi hd

/-- Opening a plugin fills the next slot. -/
theorem Plugged.append {w1 : DevList} {ps : List Plugin} (h : Plugged w1 ps) (type : DllType)
    (handle : Handle) (sep : CString) (hlt : ps.length ≠ maxDll - 1) :
    Plugged { w1.modifyDll w1.ndll fun dll => { dll with
        type, handle := some handle, param := if sep = [] then dll.param else some sep }
      with ndll := w1.ndll + 1 }
      (ps ++ [⟨type, handle.file, if sep = [] then none else some sep⟩]) := by
  have hn := h.ndll
  have hle := h.le
  refine ⟨?_, ?_, ?_, ?_⟩
  · change w1.ndll + 1 = _
    rw [List.length_append, hn]
    rfl
  · rw [List.length_append, List.length_singleton]
    omega
  · intro i p hp
    simp only [DevList.modifyDll_getElem?]
    rcases Nat.lt_trichotomy i ps.length with hi | hi | hi
    · rw [List.getElem?_append_left hi] at hp
      rw [if_neg (by omega)]
      exact h.used i p hp
    · rw [List.getElem?_append_right hi.ge, hi, Nat.sub_self] at hp
      obtain rfl := Option.some.inj hp
      rw [if_pos (hi.trans hn.symm)]
      cases hd : w1.dlls[i]? with
      | none =>
        have := Vector.getElem?_eq_none_iff.mp hd
        unfold maxDll at *
        omega
      | some dll => simp [Dll.plugin, h.free i dll hi.ge hd]
    · rw [List.getElem?_eq_none (by simpa using hi)] at hp
      cases hp
  · intro i dll hi hd
    rw [List.length_append, List.length_singleton] at hi
    simp only [DevList.modifyDll_getElem?] at hd
    rw [if_neg (by omega)] at hd
    exact h.free i dll (by omega) hd

section
variable {σ : Type} {drv : Driver σ} {host : Host} {s s' : Machine σ} {port : Int} {c : Settings}

/-! ## `read_config` -/

theorem dllParse_refines (type : DllType) (params : CString) (h : Reads port c s.w1) :
    Refines (dllParse host type params) s (host.readLine c (.plugin type params))
      fun c' _ s' => Reads port c' s'.w1 := by
  have hn := h.plugged.ndll
  refine Refines.congr_run (run_bind_of_ok (run_get_ok.mpr ⟨rfl, rfl⟩)) ?_
  simp only [Host.readLine, Host.plugin]
  by_cases hfull : c.plugins.length = maxDll - 1
  · rw [if_pos hfull, if_pos (hn.trans hfull)]
    exact Refines.throw
  · rw [if_neg hfull, if_neg (hn ▸ hfull)]
    by_cases hopen : host.moduleOpens (host.sofile (dllName params)) = true
    · rw [if_pos hopen, if_pos hopen]
      have happ := h.plugged.append type ⟨host.sofile (dllName params), s.modules⟩ (dllSep params)
        hfull
      apply Refines.of_run (a := ⟨⟩) rfl
      exact ⟨happ, h.delay, h.portnum⟩
    · rw [if_neg hopen, if_neg hopen]
      apply Refines.pure
      simpa using h

theorem applyLine_refines (line : RcLine) (h : Reads port c s.w1) :
    Refines (applyLine host line) s (host.readLine c line) fun c' _ s' => Reads port c' s'.w1 := by
  cases line with
  | plugin type params => exact dllParse_refines type params h
  | delay v =>
    simp only [applyLine, Host.readLine]
    apply Refines.of_run (a := ()) (run_modifyW1_ok.mpr rfl)
    exact ⟨h.plugged.congr rfl rfl, rfl, h.portnum⟩
  | _ =>
    simp only [applyLine, Host.readLine]
    apply Refines.of_run (a := ()) (run_modifyW1_ok.mpr rfl)
    exact h.congr rfl rfl rfl rfl

theorem readConfig_refines (hp : Plugged s.w1 []) :
    Refines (readConfig host) s (host.settings (host.rcLines s.w1.rcfile) s.w1.delay)
      fun c _ s' => Reads s.w1.portnum c s'.w1 := by
  refine Refines.congr_run (run_getW1_bind _) ?_
  refine Refines.congr_run (run_modifyW1_bind _ _) ?_
  refine Refines.forM (R := fun c (s' : Machine σ) => Reads s.w1.portnum c s'.w1) (fun line c s₁ h => ?_) ?_
  · exact applyLine_refines line h
  · exact ⟨hp.congr rfl rfl, rfl, rfl⟩

/-! ## `do_init` -/

/-- The loop of `do_init` has come to the sensor table `table`. -/
structure Inits (port : Int) (c : Settings) (table : Option (List Row)) (done : Bool)
    (w1 : DevList) : Prop where
  reads : Reads port c w1
  done : done = table.isSome
  devs : ∀ rows, table = some rows → w1.devs = rows.map Row.device

theorem initPlugin_refines {table : Option (List Row)} {done : Bool} {n : ℕ} {p : Plugin}
    (hp : c.plugins[n]? = some p) (h : Inits port c table done s.w1) :
    Refines (initPlugin host done n) s (host.tableStep table p)
      fun table' done' s' => Inits port c table' done' s'.w1 := by
  obtain ⟨dll, handle, hd, hh, rfl⟩ := h.reads.plugged.slot hp
  have hfunc : ∀ func, Reads port c (s.w1.modifyDll n fun dll => { dll with func := some func }) :=
    fun func => ⟨h.reads.plugged.modify n fun _ => ⟨rfl, rfl⟩, h.reads.delay, h.reads.portnum⟩
  refine Refines.congr_run (run_getW1_bind _) ?_
  simp only [hd, hh, Option.bind_some, Host.tableStep]
  cases ht : dll.type with
  | unset => exact Refines.pure h
  | c =>
    simp only [h.done]
    cases table with
    | some rows => exact Refines.pure ⟨h.reads, rfl, h.devs⟩
    | none =>
      by_cases hs : host.hasSymbol handle.file "w1_init".toList = true
      · simp only [if_pos hs, Option.isSome_none, Bool.false_eq_true, if_false]
        refine Refines.congr_run (run_modifyW1_bind _ _) (Refines.pure ⟨?_, rfl, ?_⟩)
        · exact h.reads.congr rfl rfl rfl rfl
        · intro rows hrows
          rw [← Option.some.inj hrows]
          rfl
      · simp only [if_neg hs, Option.isSome_none, Bool.false_eq_true, if_false]
        exact Refines.throw
  | l =>
    by_cases hs : host.hasSymbol handle.file "w1_logger".toList = true
    · simp only [if_pos hs]
      exact Refines.congr_run (run_modifyW1_bind _ _) (Refines.pure ⟨hfunc _, h.done, h.devs⟩)
    · simp only [if_neg hs]
      exact Refines.throw
  | r =>
    by_cases hs : host.hasSymbol handle.file "w1_report".toList = true
    · simp only [if_pos hs]
      exact Refines.congr_run (run_modifyW1_bind _ _) (Refines.pure ⟨hfunc _, h.done, h.devs⟩)
    · simp only [if_neg hs]
      exact Refines.throw

theorem forall₂_range {α : Type} (l : List α) :
    List.Forall₂ (fun (i : ℕ) x => l[i]? = some x) (List.range l.length) l := by
  refine List.forall₂_iff_get.mpr ⟨by simp, fun i hi hi' => ?_⟩
  simp

/-- The program runs on the schedule `sch`. -/
structure Runs (port : Int) (sch : Schedule) (w1 : DevList) : Prop where
  plugged : ∃ ps, Plugged w1 ps
  schedule : w1.schedule = sch
  portnum : w1.portnum = port

/-- The end of `do_init`, on the table `rows`. -/
theorem settle_refines {rows : List Row} (h : Reads port c s.w1)
    (hdevs : s.w1.devs = rows.map Row.device) :
    Refines (do
        let w1 ← StateT.lift (w1VerifyIntervals s.w1)
        let w1 ← StateT.lift (w1InitializeCouplers w1)
        modifyW1 fun _ => w1 : M σ Unit) s (scheduleOf rows c.delay)
      fun sch _ s' => Runs port sch s'.w1 := by
  have hv := w1VerifyIntervals_congr s.w1
  rw [hdevs, h.delay] at hv
  refine (Refines.lift hv).bind ?_
  rintro w _ s₁ ⟨-, rfl, rfl⟩
  have hi := w1InitializeCouplers_congr
    { s₁.w1 with devs := w.devs, cycle := w.cycle, delay := w.delay } w rfl
  refine (Refines.lift hi).bind ?_
  rintro w' _ s₁ ⟨hw', rfl, rfl⟩
  apply Refines.of_run (a := ()) (run_modifyW1_ok.mpr rfl)
  refine ⟨⟨c.plugins, h.plugged.congr rfl rfl⟩, ?_, h.portnum⟩
  rw [w1InitializeCouplers_keeps hw']
  rfl

theorem doInit_refines (h : Reads port c s.w1) :
    Refines (doInit host) s (host.table c.plugins >>= fun rows => scheduleOf rows c.delay)
      fun sch _ s' => Runs port sch s'.w1 := by
  refine Refines.congr_run (run_getW1_bind _) ?_
  have hloop : Refines ((List.range s.w1.ndll).foldlM (initPlugin host) false) s
      (c.plugins.foldlM host.tableStep none) fun table done s' => Inits port c table done s'.w1 := by
    rw [h.plugged.ndll]
    refine Refines.foldlM (R := fun table done (s' : Machine σ) => Inits port c table done s'.w1)
      (forall₂_range c.plugins) (fun n p hp table done s' hs => initPlugin_refines hp hs) ?_
    exact ⟨h, rfl, fun rows hrows => by cases hrows⟩
  simp only [Host.table, bind_assoc]
  refine hloop.bind fun table done s' hs => ?_
  cases table with
  | none =>
    rw [hs.done]
    exact Refines.throw
  | some rows =>
    rw [hs.done]
    refine Refines.congr_run (run_getW1_bind _) ?_
    exact settle_refines hs.reads (hs.devs rows rfl)

end
end W1Retap

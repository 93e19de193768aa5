import W1Retap.Main.Steps

/-!
# The plugin table and the rc file across reloads

Every reload may meet another rc file and other plugins, so each round of the main loop
gets its own `Host`. A configuration lasts from one `do_init` to the next `cleanup`; the
calls made in that time go to the plugins that its rc file lists. Which file that is may
change although no file does: `W1RCFILE` counts at start-up only.
-/
namespace W1Retap

open Programs

section
variable {σ : Type} (drv : Driver σ)

/-- The loops of `main`, each round with the files and plugins that it meets. -/
def mainLoopAmong : List (Host × Round) → M σ Unit
  | [] => pure ()
  | (host, r) :: rounds => do
    match ← waitRound drv host r with
    | none => mainLoopAmong rounds
    | some now =>
      readPass drv now
      let w1 ← getW1
      if w1.delay ≠ 0 then mainLoopAmong rounds

def mainAmong (host : Host) (opts : List Opt) (start : Int) (rounds : List (Host × Round)) :
    M σ Unit := do
  let l ← startup drv host opts start
  if l.immed then readPass drv 0
  let w1 ← getW1
  if l.once = false ∧ w1.delay ≠ 0 then mainLoopAmong drv rounds

theorem mainLoopAmong_same (host : Host) (rounds : List Round) :
    mainLoopAmong drv (rounds.map (host, ·)) = mainLoop drv host rounds := by
  induction rounds with
  | nil => rfl
  | cons r rounds ih =>
    rw [List.map_cons, mainLoopAmong, ih]
    rfl

theorem mainAmong_same (host : Host) (opts : List Opt) (start : Int) (rounds : List Round) :
    mainAmong drv host opts start (rounds.map (host, ·)) = main drv host opts start rounds := by
  unfold mainAmong main
  rw [mainLoopAmong_same]

end

/-! ## What a configuration lists -/

/-- The plugins that the rc file gives; none when it lists too many. -/
def Host.configured (host : Host) (rcfile : Option CString) : List Plugin :=
  ((host.settings (host.rcLines rcfile) 0).map (·.plugins)).getD []

/-- The delay before a file is read has no part in the plugins. -/
theorem settings_plugins (host : Host) (lines : List RcLine) (c c' : Settings)
    (h : c.plugins = c'.plugins) :
    (lines.foldlM host.readLine c).map (·.plugins) =
      (lines.foldlM host.readLine c').map (·.plugins) := by
  induction lines generalizing c c' with
  | nil => exact congrArg some h
  | cons line lines ih =>
    rw [List.foldlM_cons, List.foldlM_cons]
    cases line with
    | plugin type params =>
      simp only [Host.readLine, h]
      by_cases hfull : c'.plugins.length = maxDll - 1
      · rw [if_pos hfull, if_pos hfull]
      · rw [if_neg hfull, if_neg hfull]
        exact ih _ _ rfl
    | delay v => exact ih _ _ h
    | _ => exact ih _ _ h

theorem configured_eq {host : Host} {rcfile : Option CString} {delay : Int} {c : Settings}
    (h : host.settings (host.rcLines rcfile) delay = some c) :
    host.configured rcfile = c.plugins := by
  have hp := settings_plugins host (host.rcLines rcfile) { delay := 0 } { delay } rfl
  change (host.settings _ 0).map _ = (host.settings _ delay).map _ at hp
  rw [Host.configured, hp, h]
  rfl

/-! ## Calls into plugins -/

/-- A call through slot `i` reaches plugin `i` of `ps`: its own entry point in the module that
is open in the slot, with its own parameter. -/
def Dll.Serves (dll : Dll) (ps : List Plugin) (i : ℕ) (type : DllType) (symbol : String) : Prop :=
  ∃ handle, dll.handle = some handle ∧ dll.func = some ⟨handle, symbol.toList⟩ ∧
    ps[i]? = some ⟨type, handle.file, dll.param⟩

/-- If the event is a call into a plugin, it is one that `ps` asks for. -/
def Event.Calls (ps : List Plugin) : Event → Prop
  | .logger i dll _ => dll.Serves ps i .l "w1_logger"
  | .report i dll => dll.Serves ps i .r "w1_report"
  | _ => True

/-- The module that a call goes into. -/
def Event.module : Event → Option Handle
  | .logger _ dll _ => dll.handle
  | .report _ dll => dll.handle
  | _ => none

/-- No module is called in both. -/
def Apart (t t' : List Event) : Prop :=
  ∀ e ∈ t, ∀ e' ∈ t', ∀ handle, e.module = some handle → e'.module ≠ some handle

/-- The call goes through a slot of the table, of the kind that is called. -/
def Event.Due (w1 : DevList) : Event → Prop
  | .logger i dll _ => i < w1.ndll ∧ w1.dlls[i]? = some dll ∧ dll.type = .l
  | .report i dll => i < w1.ndll ∧ w1.dlls[i]? = some dll ∧ dll.type = .r
  | _ => True

theorem due_of_isWire {w1 : DevList} {e : Event} (he : e.isWire = true) : e.Due w1 := by
  cases e <;> first | exact True.intro | simp [Event.isWire] at he

/-- What `do_init` leaves in a slot. -/
def Dll.Resolved (dll : Dll) : Prop :=
  ∀ handle, dll.handle = some handle →
    (dll.type = .l → dll.func = some ⟨handle, "w1_logger".toList⟩) ∧
      (dll.type = .r → dll.func = some ⟨handle, "w1_report".toList⟩)

section
variable {σ : Type} {drv : Driver σ} {s s' s'' : Machine σ} {n : ℕ} {ps : List Plugin} {lo : ℕ}

/-- The table holds `ps`, resolved, in modules that were opened after the first `lo`. -/
structure TableOf (ps : List Plugin) (lo : ℕ) (s : Machine σ) : Prop where
  plugged : Plugged s.w1 ps
  resolved : ∀ (i : ℕ) dll, i < ps.length → s.w1.dlls[i]? = some dll → dll.Resolved
  opened : ∀ (i : ℕ) dll handle, i < ps.length → s.w1.dlls[i]? = some dll →
    dll.handle = some handle → lo ≤ handle.opened ∧ handle.opened < s.modules

theorem TableOf.serves {dll : Dll} {type : DllType} {symbol : String} {i : ℕ} (h : TableOf ps lo s)
    (hi : i < s.w1.ndll) (hd : s.w1.dlls[i]? = some dll) (ht : dll.type = type)
    (hfunc : ∀ handle, dll.handle = some handle → dll.func = some ⟨handle, symbol.toList⟩) :
    dll.Serves ps i type symbol := by
  rw [h.plugged.ndll] at hi
  obtain ⟨dll', handle, hd', hh, he⟩ := h.plugged.slot (List.getElem?_eq_getElem hi)
  obtain rfl := Option.some.inj (hd.symm.trans hd')
  refine ⟨handle, hh, hfunc handle hh, ?_⟩
  rw [List.getElem?_eq_getElem hi, he, ht]

/-- A call through the table is one that the configuration asks for. -/
theorem TableOf.calls {e : Event} (h : TableOf ps lo s) (he : e.Due s.w1) :
    e.Calls ps ∧ ∀ handle, e.module = some handle →
      lo ≤ handle.opened ∧ handle.opened < s.modules := by
  cases e with
  | logger i dll rs =>
    obtain ⟨hi, hd, ht⟩ := he
    have hi' : i < ps.length := h.plugged.ndll ▸ hi
    constructor
    · exact h.serves hi hd ht fun handle hh => (h.resolved i dll hi' hd handle hh).1 ht
    · exact fun handle hh => h.opened i dll handle hi' hd hh
  | report i dll =>
    obtain ⟨hi, hd, ht⟩ := he
    have hi' : i < ps.length := h.plugged.ndll ▸ hi
    constructor
    · exact h.serves hi hd ht fun handle hh => (h.resolved i dll hi' hd handle hh).2 ht
    · exact fun handle hh => h.opened i dll handle hi' hd hh
  | _ => exact ⟨True.intro, fun handle hh => nomatch hh⟩

/-! ## Between two reloads -/

/-- One step that leaves the table alone, and calls through it at most. -/
structure TableStep (s s' : Machine σ) : Prop where
  ndll : s'.w1.ndll = s.w1.ndll
  dlls : s'.w1.dlls = s.w1.dlls
  modules : s'.modules = s.modules
  trace : s'.trace = s.trace ∨ ∃ e, e.Due s.w1 ∧ s'.trace = e :: s.trace

theorem TableStep.log {e : Event} (he : e.Due s.w1) : TableStep s (s.log e) :=
  ⟨rfl, rfl, rfl, Or.inr ⟨e, he, rfl⟩⟩

/-- A loop over the plugin slots calls through those that it picks. -/
theorem callSlots_does {w1 : DevList} {f : ℕ → M σ Unit} {p : Dll → Prop} [DecidablePred p]
    {e : ℕ → Dll → Event}
    (hf : f = fun i => match w1.dlls[i]? with
      | some dll => if p dll then event (e i dll) else pure ()
      | none => pure ())
    (he : ∀ (i : ℕ) dll, i < w1.ndll → w1.dlls[i]? = some dll → p dll → (e i dll).Due w1)
    {l : List ℕ} (hl : ∀ i ∈ l, i < w1.ndll) {u : Unit} (hw : s.w1 = w1)
    (h : (l.forM f).run s = .ok (u, s')) : Relation.ReflTransGen TableStep s s' := by
  subst hf
  induction l generalizing s with
  | nil =>
    obtain ⟨-, rfl⟩ := run_pure_ok.mp h
    exact .refl
  | cons i l ih =>
    obtain ⟨_, s₁, h₁, h₂⟩ := run_forM_cons_ok.mp h
    have hl' : ∀ k ∈ l, k < w1.ndll := fun k hk => hl k (List.mem_cons_of_mem i hk)
    cases hd : w1.dlls[i]? with
    | none =>
      simp only [hd] at h₁
      obtain ⟨-, rfl⟩ := run_pure_ok.mp h₁
      exact ih hl' hw h₂
    | some dll =>
      simp only [hd] at h₁
      by_cases hp : p dll
      · rw [if_pos hp] at h₁
        obtain rfl := run_event_ok.mp h₁
        have hdue : (e i dll).Due s.w1 := hw ▸ he i dll (hl i List.mem_cons_self) hd hp
        exact .head (.log hdue) (ih hl' hw h₂)
      · rw [if_neg hp] at h₁
        obtain ⟨-, rfl⟩ := run_pure_ok.mp h₁
        exact ih hl' hw h₂

theorem table_w1Replog : Does (TableStep (σ := σ)) w1Replog := by
  intro s u s' h
  rw [w1Replog, run_getW1_bind] at h
  refine callSlots_does (p := fun dll => dll.type = .r ∧ dll.func.isSome) (e := .report) rfl
    ?_ (fun i hi => List.mem_range.mp hi) rfl h
  exact fun i dll hi hd hp => ⟨hi, hd, hp.1⟩

theorem table_callLoggers : Does (TableStep (σ := σ)) callLoggers := by
  intro s u s' h
  rw [callLoggers, run_getW1_bind] at h
  refine callSlots_does (p := fun dll => dll.type = .l ∧ dll.func.isSome)
    (e := fun i dll => .logger i dll s.w1.readings) rfl ?_ (fun i hi => List.mem_range.mp hi) rfl h
  exact fun i dll hi hd hp => ⟨hi, hd, hp.1⟩

instance : AnyBus (TableStep (σ := σ)) := ⟨fun _ _ => ⟨rfl, rfl, rfl, Or.inl rfl⟩⟩

instance : PortSteps (TableStep (σ := σ)) := ⟨fun _ _ => ⟨rfl, rfl, rfl, Or.inl rfl⟩⟩

instance : BusSteps (TableStep (σ := σ)) where
  wire _ _ he := .log (due_of_isWire he)
  touch _ _ _ _ := ⟨rfl, rfl, rfl, Or.inl rfl⟩
  replog := table_w1Replog

instance : ReaderSteps n (TableStep (σ := σ)) where
  clear _ := ⟨rfl, rfl, rfl, Or.inl rfl⟩
  assign _ _ _ _ := ⟨rfl, rfl, rfl, Or.inl rfl⟩
  validate _ _ _ _ _ _ _ _ := ⟨rfl, rfl, rfl, Or.inr ⟨.validate _ _ _ _ _, True.intro, rfl⟩⟩

theorem table_event {e : Event} (he : ∀ w1, e.Due w1) : Does (TableStep (σ := σ)) (event e) := by
  intro s u s' h
  obtain rfl := run_event_ok.mp h
  exact .single (.log (he s.w1))

theorem table_w1ReadAllSensors (secs : Int) : Does TableStep (w1ReadAllSensors drv secs) := by
  refine .bind does_getW1 fun w1 => .ite (fun _ => ?_) fun _ => .pure _
  refine .bind (table_event fun _ => True.intro) fun _ => .bind does_acquire fun _ => ?_
  refine .bind (does_readDevices (fun _ _ => .log True.intro) _) fun _ => ?_
  exact .bind (does_w1AllCouplersOff drv) fun _ => .pure _

theorem table_w1Tmpfilelog : Does (TableStep (σ := σ)) w1Tmpfilelog :=
  .bind does_getW1 fun _ => .ite (fun _ => table_event fun _ => True.intro) fun _ => .pure _

theorem table_logtime (t : Int) :
    Does (TableStep (σ := σ)) (modifyW1 fun w1 => { w1 with logtime := t }) := by
  intro s u s' h
  obtain rfl := run_modifyW1_ok.mp h
  exact .single ⟨rfl, rfl, rfl, Or.inl rfl⟩

theorem table_readPass (now : Int) : Does TableStep (readPass drv now) := by
  have hrelease : Does TableStep (releaseInterface drv) := by
    refine .bind does_getW1 fun w1 => .ite (fun _ => .bind (does_anyCall _) fun _ => ?_) fun _ => .pure _
    exact .bind (does_setPortnum _) fun _ => does_event rfl
  refine .bind (table_w1ReadAllSensors now) fun nv => .ite (fun _ => ?_) fun _ => hrelease
  refine .bind table_callLoggers fun _ => .bind does_getW1 fun w1 => ?_
  refine .ite (fun _ => .bind (.lift _) fun phase => ?_) fun _ => hrelease
  exact .ite (fun _ => .bind table_w1Tmpfilelog fun _ => hrelease) fun _ => hrelease

theorem table_sleepToTick (r : Round) : Does (TableStep (σ := σ)) (sleepToTick r) := by
  refine .bind does_getW1 fun w1 => .bind (.lift _) fun wakeup => ?_
  refine .bind (table_event fun _ => True.intro) fun _ => ?_
  cases r.sleep with
  | interrupted => exact .pure _
  | failed => exact .pure _
  | woke now => exact .bind (table_logtime now) fun _ => .pure _

/-- A stretch of a run under one configuration. -/
structure Ran (ps : List Plugin) (lo : ℕ) (s s' : Machine σ) : Prop where
  table : TableOf ps lo s'
  modules : s'.modules = s.modules
  trace : ∃ seg, s'.trace = seg ++ s.trace ∧ ∀ e ∈ seg, e.Calls ps ∧
    ∀ handle, e.module = some handle → lo ≤ handle.opened ∧ handle.opened < s.modules

theorem Ran.refl (h : TableOf ps lo s) : Ran ps lo s s := ⟨h, rfl, [], rfl, by simp⟩

theorem Ran.trans (h : Ran ps lo s s') (h' : Ran ps lo s' s'') : Ran ps lo s s'' := by
  obtain ⟨seg, ht, hseg⟩ := h.trace
  obtain ⟨seg', ht', hseg'⟩ := h'.trace
  refine ⟨h'.table, h'.modules.trans h.modules, seg' ++ seg, ?_, ?_⟩
  · rw [ht', ht, List.append_assoc]
  · intro e he
    rcases List.mem_append.mp he with he | he
    · exact h.modules ▸ hseg' e he
    · exact hseg e he

theorem TableStep.ran (h : TableStep s s') (hs : TableOf ps lo s) : Ran ps lo s s' := by
  refine ⟨⟨hs.plugged.congr h.ndll h.dlls, ?_, ?_⟩, h.modules, ?_⟩
  · rw [h.dlls]
    exact hs.resolved
  · rw [h.dlls, h.modules]
    exact hs.opened
  · rcases h.trace with ht | ⟨e, he, ht⟩
    · exact ⟨[], ht, by simp⟩
    · refine ⟨[e], ht, fun e' he' => ?_⟩
      obtain rfl := List.mem_singleton.mp he'
      exact hs.calls he

theorem Does.ran {α : Type} {m : M σ α} {a : α} (hm : Does TableStep m)
    (h : m.run s = .ok (a, s')) (hs : TableOf ps lo s) : Ran ps lo s s' :=
  Does.keeps (P := Ran ps lo s) hm (fun _ _ hstep hr => hr.trans (hstep.ran hr.table)) h (.refl hs)

/-! ## `do_init` -/

/-- Nothing but the functions of the plugin slots has changed in the table. -/
structure SameModules (s s' : Machine σ) : Prop where
  ndll : s'.w1.ndll = s.w1.ndll
  modules : s'.modules = s.modules
  trace : s'.trace = s.trace
  slots : ∀ i : ℕ, (s'.w1.dlls[i]?).map (fun dll => (dll.type, dll.handle, dll.param)) =
    (s.w1.dlls[i]?).map fun dll => (dll.type, dll.handle, dll.param)

theorem SameModules.refl (s : Machine σ) : SameModules s s := ⟨rfl, rfl, rfl, fun _ => rfl⟩

theorem SameModules.trans (h : SameModules s s') (h' : SameModules s' s'') : SameModules s s'' :=
  ⟨h'.ndll.trans h.ndll, h'.modules.trans h.modules, h'.trace.trans h.trace,
    fun i => (h'.slots i).trans (h.slots i)⟩

theorem SameModules.slot {i : ℕ} {dll' : Dll} (h : SameModules s s')
    (hd : s'.w1.dlls[i]? = some dll') : ∃ dll, s.w1.dlls[i]? = some dll ∧ dll.type = dll'.type ∧
      dll.handle = dll'.handle ∧ dll.param = dll'.param := by
  have hi := h.slots i
  rw [hd] at hi
  obtain ⟨dll, hd₀, he⟩ := Option.map_eq_some_iff.mp hi.symm
  simp only [Prod.mk.injEq] at he
  exact ⟨dll, hd₀, he⟩

theorem SameModules.plugged (h : SameModules s s') (hs : Plugged s.w1 ps) : Plugged s'.w1 ps := by
  refine ⟨h.ndll.trans hs.ndll, hs.le, ?_, ?_⟩
  · intro i p hp
    obtain ⟨dll, handle, hd, hh, rfl⟩ := hs.slot hp
    have hi := h.slots i
    rw [hd] at hi
    obtain ⟨dll', hd', he⟩ := Option.map_eq_some_iff.mp hi
    simp only [Prod.mk.injEq] at he
    obtain ⟨ht, hh', hp'⟩ := he
    rw [hd', Option.bind_some, Dll.plugin, hh', hh, ht, hp']
    rfl
  · intro i dll' hi hd'
    obtain ⟨dll, hd, -, -, hp⟩ := h.slot hd'
    exact hp.symm.trans (hs.free i dll hi hd)

/-- Storing a function in slot `n`. -/
theorem SameModules.modify (s : Machine σ) (n : ℕ) (func : Func) :
    SameModules s (s.setW1 (s.w1.modifyDll n fun dll => { dll with func := some func })) := by
  refine ⟨rfl, rfl, rfl, fun i => ?_⟩
  simp only [Machine.setW1_w1, DevList.modifyDll_getElem?]
  by_cases hi : i = n
  · rw [if_pos hi, Option.map_map]
    rfl
  · rw [if_neg hi]

/-- What one round of the loop of `do_init` leaves: slot `n` resolved, the others as they were. -/
structure ResolvesSlot (n : ℕ) (s s' : Machine σ) : Prop where
  same : SameModules s s'
  resolved : ∀ dll, s'.w1.dlls[n]? = some dll → dll.Resolved
  others : ∀ i : ℕ, i ≠ n → s'.w1.dlls[i]? = s.w1.dlls[i]?

theorem resolvesSlot_idle (hs : ∀ dll, s.w1.dlls[n]? = some dll → dll.type ≠ .l ∧ dll.type ≠ .r)
    (hw : s'.w1.dlls = s.w1.dlls) (hsame : SameModules s s') : ResolvesSlot n s s' := by
  refine ⟨hsame, fun dll hd handle _ => ?_, fun i _ => by rw [hw]⟩
  rw [hw] at hd
  exact ⟨fun ht => absurd ht (hs dll hd).1, fun ht => absurd ht (hs dll hd).2⟩

theorem resolvesSlot_modify {dll : Dll} {handle : Handle} {symbol : String}
    (hd : s.w1.dlls[n]? = some dll) (hh : dll.handle = some handle)
    (ht : (dll.type = .l → symbol = "w1_logger") ∧ (dll.type = .r → symbol = "w1_report")) :
    ResolvesSlot n s
      (s.setW1 (s.w1.modifyDll n fun dll => { dll with func := some ⟨handle, symbol.toList⟩ })) := by
  refine ⟨.modify s n _, ?_, ?_⟩
  · intro dll' hd' handle' hh'
    rw [Machine.setW1_w1, DevList.modifyDll_getElem?, if_pos rfl, hd] at hd'
    obtain rfl := Option.some.inj hd'
    obtain rfl := Option.some.inj (hh.symm.trans hh')
    exact ⟨fun h => by rw [ht.1 h], fun h => by rw [ht.2 h]⟩
  · intro i hi
    rw [Machine.setW1_w1, DevList.modifyDll_getElem?, if_neg hi]

/-- An entry point that the module lacks ends the program. -/
theorem resolve_ok {host : Host} {done b : Bool} (hd : s.w1.dlls[n]? = some dll) (symbol : String)
    (ht : (dll.type = .l → symbol = "w1_logger") ∧ (dll.type = .r → symbol = "w1_report"))
    (h : (match dll.handle.bind fun handle => if host.hasSymbol handle.file symbol.toList then
        some (⟨handle, symbol.toList⟩ : Func) else none with
      | none => throw .exit
      | some func => do
        modifyW1 (·.modifyDll n fun dll => { dll with func := some func })
        return done : M σ Bool).run s = .ok (b, s')) : ResolvesSlot n s s' := by
  cases hh : dll.handle with
  | none =>
    rw [hh] at h
    exact absurd h run_throw_ok
  | some handle =>
    rw [hh, Option.bind_some] at h
    by_cases hs : host.hasSymbol handle.file symbol.toList = true
    · rw [if_pos hs, run_modifyW1_bind] at h
      obtain ⟨-, rfl⟩ := run_pure_ok.mp h
      exact resolvesSlot_modify hd hh ht
    · rw [if_neg hs] at h
      exact absurd h run_throw_ok

theorem initPlugin_ok {host : Host} {done b : Bool}
    (h : (initPlugin host done n).run s = .ok (b, s')) : ResolvesSlot n s s' := by
  rw [initPlugin, run_getW1_bind] at h
  cases hd : s.w1.dlls[n]? with
  | none =>
    simp only [hd] at h
    obtain ⟨-, rfl⟩ := run_pure_ok.mp h
    exact resolvesSlot_idle (fun dll hdll => by rw [hd] at hdll; cases hdll) rfl (.refl s')
  | some dll =>
    simp only [hd] at h
    have hidle : dll.type ≠ .l ∧ dll.type ≠ .r → ∀ dll', s.w1.dlls[n]? = some dll' →
        dll'.type ≠ .l ∧ dll'.type ≠ .r := by
      intro ht dll' hd'
      rwa [← Option.some.inj (hd.symm.trans hd')]
    cases ht : dll.type with
    | unset =>
      simp only [ht] at h
      obtain ⟨-, rfl⟩ := run_pure_ok.mp h
      exact resolvesSlot_idle (hidle (by simp [ht])) rfl (.refl s')
    | c =>
      simp only [ht] at h
      by_cases hdone : done = true
      · rw [if_pos hdone] at h
        obtain ⟨-, rfl⟩ := run_pure_ok.mp h
        exact resolvesSlot_idle (hidle (by simp [ht])) rfl (.refl s')
      · rw [if_neg hdone] at h
        split at h
        · exact absurd h run_throw_ok
        · rw [run_modifyW1_bind] at h
          obtain ⟨-, rfl⟩ := run_pure_ok.mp h
          exact resolvesSlot_idle (hidle (by simp [ht])) rfl ⟨rfl, rfl, rfl, fun _ => rfl⟩
    | l =>
      simp only [ht] at h
      exact resolve_ok hd "w1_logger" ⟨fun _ => rfl, fun h => by rw [ht] at h; cases h⟩ h
    | r =>
      simp only [ht] at h
      exact resolve_ok hd "w1_report" ⟨fun h => (by rw [ht] at h; cases h), fun _ => rfl⟩ h

/-- The loop of `do_init` resolves every slot that it comes to. -/
theorem initPlugins_ok {host : Host} {l : List ℕ} {done b : Bool}
    (h : (l.foldlM (initPlugin host) done).run s = .ok (b, s')) :
    SameModules s s' ∧ ∀ (i : ℕ) dll, s'.w1.dlls[i]? = some dll →
      (i ∈ l ∨ ∀ dll, s.w1.dlls[i]? = some dll → dll.Resolved) → dll.Resolved := by
  induction l generalizing s done with
  | nil =>
    obtain ⟨-, rfl⟩ := run_pure_ok.mp h
    refine ⟨.refl s', fun i dll hd hi => ?_⟩
    exact (hi.resolve_left (by simp)) dll hd
  | cons n l ih =>
    rw [List.foldlM_cons, run_bind_ok] at h
    obtain ⟨done₁, s₁, h₁, h₂⟩ := h
    have hn := initPlugin_ok h₁
    obtain ⟨hsame, hl⟩ := ih h₂
    refine ⟨hn.same.trans hsame, fun i dll hd hi => ?_⟩
    apply hl i dll hd
    by_cases hin : i = n
    · subst hin
      exact Or.inr hn.resolved
    · rw [hn.others i hin]
      exact hi.imp_left fun h => (List.mem_cons.mp h).resolve_left hin

theorem doInit_ok {host : Host} {u : Unit} (h : (doInit host).run s = .ok (u, s'))
    (hs : Plugged s.w1 ps) : SameModules s s' ∧
      ∀ (i : ℕ) dll, i < ps.length → s'.w1.dlls[i]? = some dll → dll.Resolved := by
  rw [doInit, run_getW1_bind, run_bind_ok] at h
  obtain ⟨done, s₁, h₁, h⟩ := h
  obtain ⟨hsame, hres⟩ := initPlugins_ok h₁
  by_cases hdone : done = true
  · rw [if_pos hdone, run_getW1_bind, run_bind_ok] at h
    obtain ⟨w, s₂, h₂, h⟩ := h
    obtain ⟨hw, rfl⟩ := run_lift_ok.mp h₂
    rw [run_bind_ok] at h
    obtain ⟨w', s₃, h₃, h⟩ := h
    obtain ⟨hw', rfl⟩ := run_lift_ok.mp h₃
    obtain rfl := run_modifyW1_ok.mp h
    have hdlls : w'.dlls = s₃.w1.dlls ∧ w'.ndll = s₃.w1.ndll := by
      rw [w1VerifyIntervals_congr] at hw
      obtain ⟨w₀, -, rfl⟩ := map_ok.mp hw
      rw [w1InitializeCouplers_keeps hw']
      exact ⟨rfl, rfl⟩
    refine ⟨hsame.trans ⟨hdlls.2, rfl, rfl, fun i => by rw [Machine.setW1_w1, hdlls.1]⟩, ?_⟩
    intro i dll hi hd
    rw [Machine.setW1_w1, hdlls.1] at hd
    exact hres i dll hd (Or.inl (List.mem_range.mpr (hs.ndll ▸ hi)))
  · rw [if_neg hdone] at h
    exact absurd h run_throw_ok

/-! ## `read_config` -/

/-- The modules in the slots were opened after the first `lo`. -/
structure OpenedSince (lo : ℕ) (s : Machine σ) : Prop where
  le : lo ≤ s.modules
  slots : ∀ (i : ℕ) dll handle, i < s.w1.ndll → s.w1.dlls[i]? = some dll →
    dll.handle = some handle → lo ≤ handle.opened ∧ handle.opened < s.modules

theorem OpenedSince.congr (h : OpenedSince lo s) (hm : s'.modules = s.modules)
    (hn : s'.w1.ndll = s.w1.ndll) (hd : s'.w1.dlls = s.w1.dlls) : OpenedSince lo s' := by
  refine ⟨hm ▸ h.le, ?_⟩
  rw [hn, hd, hm]
  exact h.slots

/-- A module that opens gets the next number. -/
theorem OpenedSince.open {type : DllType} {sofile : CString} {param : CString}
    (h : OpenedSince lo s) :
    OpenedSince lo { s with
      modules := s.modules + 1
      w1 := { s.w1.modifyDll s.w1.ndll fun dll => { dll with
          type, handle := some ⟨sofile, s.modules⟩
          param := if param = [] then dll.param else some param }
        with ndll := s.w1.ndll + 1 } } := by
  refine ⟨Nat.le_succ_of_le h.le, fun i dll handle hi hd hh => ?_⟩
  simp only [DevList.modifyDll_getElem?] at hd
  by_cases hn : i = s.w1.ndll
  · rw [if_pos hn] at hd
    obtain ⟨dll₀, -, rfl⟩ := Option.map_eq_some_iff.mp hd
    obtain rfl := Option.some.inj hh
    exact ⟨h.le, Nat.lt_succ_self s.modules⟩
  · rw [if_neg hn] at hd
    have hi' : i < s.w1.ndll := lt_of_le_of_ne (Nat.lt_succ_iff.mp hi) hn
    obtain ⟨hlo, hhi⟩ := h.slots i dll handle hi' hd hh
    exact ⟨hlo, Nat.lt_succ_of_lt hhi⟩

/-- One line of the rc file. -/
def ReadsLine (s s' : Machine σ) : Prop :=
  s'.trace = s.trace ∧ ∀ lo, OpenedSince lo s → OpenedSince lo s'

theorem readsLine_readConfig (host : Host) : Does (ReadsLine (σ := σ)) (readConfig host) := by
  have hmodify : ∀ f : DevList → DevList, (∀ w1, (f w1).ndll = w1.ndll ∧ (f w1).dlls = w1.dlls) →
      Does (ReadsLine (σ := σ)) (modifyW1 f) := by
    intro f hf s u s' h
    obtain rfl := run_modifyW1_ok.mp h
    exact .single ⟨rfl, fun lo hlo => hlo.congr rfl (hf s.w1).1 (hf s.w1).2⟩
  refine .bind does_getW1 fun w1 => .bind (hmodify _ fun _ => ⟨rfl, rfl⟩) fun _ => .forM fun line _ => ?_
  cases line with
  | plugin type params =>
    refine .bind .get fun s => .ite (fun _ => .throw _) fun _ => .ite (fun _ => ?_) fun _ => .pure _
    exact .modify fun s => ⟨rfl, fun lo hlo => hlo.open⟩
  | _ =>
    simp only [applyLine]
    exact hmodify _ fun _ => ⟨rfl, rfl⟩

/-- `read_config` and `do_init` set up the table of a new configuration. -/
theorem configure_ok {host : Host} {u v : Unit} {w : DevList} (hs : Plugged s.w1 [])
    (h : (readConfig host).run s = .ok (u, s')) (hw : w.ndll = s'.w1.ndll ∧ w.dlls = s'.w1.dlls)
    (h' : (doInit host).run (s'.setW1 w) = .ok (v, s'')) :
    TableOf (host.configured s.w1.rcfile) s.modules s'' ∧ s.modules ≤ s''.modules ∧
      s''.trace = s.trace := by
  obtain ⟨c, hc, hreads⟩ := (readConfig_refines hs).of_ok h
  have hplug : Plugged (s'.setW1 w).w1 c.plugins := hreads.plugged.congr hw.1 hw.2
  have hopen : s'.trace = s.trace ∧ OpenedSince s.modules s' := by
    let P (t : Machine σ) : Prop := t.trace = s.trace ∧ OpenedSince s.modules t
    refine Does.keeps (P := P) (readsLine_readConfig host) ?_ h ⟨rfl, le_rfl, ?_⟩
    · exact fun t t' hstep ht => ⟨hstep.1.trans ht.1, hstep.2 _ ht.2⟩
    · intro i dll handle hi
      rw [hs.ndll] at hi
      exact absurd hi (Nat.not_lt_zero i)
  obtain ⟨hsame, hres⟩ := doInit_ok h' hplug
  have hplug' := hsame.plugged hplug
  rw [configured_eq hc]
  refine ⟨⟨hplug', hres, ?_⟩, ?_, ?_⟩
  · intro i dll handle hi hd hh
    obtain ⟨dll₀, hd₀, -, hh₀, -⟩ := hsame.slot hd
    have hi' : i < s'.w1.ndll := by rw [hreads.plugged.ndll]; exact hi
    rw [hsame.modules]
    exact hopen.2.slots i dll₀ handle hi' (hw.2 ▸ hd₀) (hh₀.trans hh)
  · rw [hsame.modules]
    exact hopen.2.le
  · rw [hsame.trace]
    exact hopen.1

theorem table_acquire : Does TableStep (acquire drv) := does_acquire

theorem table_initInterfaces : Does TableStep (initInterfaces drv) := by
  refine .bind ?_ fun _ => table_acquire
  intro s u s' h
  obtain rfl := run_modifyW1_ok.mp h
  exact .single ⟨rfl, rfl, rfl, Or.inl rfl⟩

/-- What begins with a configuration: its table, in modules that were not open before. -/
structure Begun (ps : List Plugin) (s s' : Machine σ) : Prop where
  table : TableOf ps s.modules s'
  le : s.modules ≤ s'.modules
  trace : ∃ seg, s'.trace = seg ++ s.trace ∧ ∀ e ∈ seg, e.Calls ps ∧
    ∀ handle, e.module = some handle → s.modules ≤ handle.opened ∧ handle.opened < s'.modules

theorem Begun.ran (h : Begun ps s s') (h' : Ran ps s.modules s' s'') : Begun ps s s'' := by
  obtain ⟨seg, ht, hseg⟩ := h.trace
  obtain ⟨seg', ht', hseg'⟩ := h'.trace
  refine ⟨h'.table, h'.modules ▸ h.le, seg' ++ seg, ?_, ?_⟩
  · rw [ht', ht, List.append_assoc]
  · intro e he
    rw [h'.modules]
    rcases List.mem_append.mp he with he | he
    · exact hseg' e he
    · exact hseg e he

theorem reload_begun {host : Host} {u : Unit} (hs : Plugged s.w1 ps)
    (h : (reload drv host).run s = .ok (u, s')) : Begun (host.configured none) s s' := by
  rw [reload, cleanup, run_modifyW1_bind, run_bind_ok] at h
  obtain ⟨_, s₁, h₁, h⟩ := h
  rw [run_bind_ok] at h
  obtain ⟨_, s₂, h₂, h₃⟩ := h
  obtain ⟨htable, hle, htrace⟩ := configure_ok (cleanup_plugged hs) h₁ ⟨rfl, rfl⟩ h₂
  have hbegun : Begun (host.configured none) s s₂ := ⟨htable, hle, [], htrace, by simp⟩
  exact hbegun.ran (Does.ran table_initInterfaces h₃ htable)

theorem startup_begun {host : Host} {opts : List Opt} {start : Int} {l : Locals}
    (h : (startup drv host opts start).run s = .ok (l, s')) :
    Begun (host.configured host.w1rcfile) s s' := by
  rw [startup, run_modifyW1_bind, run_bind_ok] at h
  obtain ⟨_, s₁, h₁, h⟩ := h
  rw [run_getW1_bind] at h
  obtain ⟨-, -, hndll, hdlls⟩ := applyOption_keeps ({}, s₁.w1) opts
  generalize opts.foldl applyOption ({}, s₁.w1) = r at h hndll hdlls
  obtain ⟨l', w1⟩ := r
  simp only at h hndll hdlls
  rw [run_modifyW1_bind] at h
  by_cases hv : l'.showvers = true
  · rw [if_pos hv] at h
    exact absurd h run_throw_ok
  · rw [if_neg hv, run_bind_ok] at h
    obtain ⟨_, s₂, h₂, h⟩ := h
    obtain ⟨htable, hle, htrace⟩ := configure_ok (initial_plugged host) h₁ (by exact ⟨hndll, hdlls⟩) h₂
    have hbegun : Begun (host.configured host.w1rcfile) s s₂ := ⟨htable, hle, [], htrace, by simp⟩
    have hrest : Does TableStep (do
        if (← getW1).doread then
          initInterfaces drv
          modifyW1 fun w1 => { w1 with logtime := start }
          w1Replog
          w1AllCouplersOff drv
          return { l' with immed := !l'.immed }
        else
          throw .exit : M σ Locals) := by
      refine .bind does_getW1 fun w1 => .ite (fun _ => ?_) fun _ => .throw _
      refine .bind table_initInterfaces fun _ => .bind (table_logtime start) fun _ => ?_
      exact .bind table_w1Replog fun _ => .bind (does_w1AllCouplersOff drv) fun _ => .pure _
    exact hbegun.ran (Does.ran hrest h htable)

/-! ## Runs -/

/-- The calls of each configuration in turn. Those of one go into modules that were
opened for it. -/
structure Segments (pss : List (List Plugin)) (lo : ℕ) (segs : List (List Event)) : Prop where
  calls : List.Forall₂ (fun ps seg => ∀ e ∈ seg, Event.Calls ps e) pss segs
  later : ∀ seg ∈ segs, ∀ e ∈ seg, ∀ handle, e.module = some handle → lo ≤ handle.opened
  apart : segs.Pairwise Apart

theorem Segments.idle (pss : List (List Plugin)) (lo : ℕ) :
    Segments pss lo (pss.map fun _ => []) := by
  refine ⟨?_, by simp, ?_⟩
  · induction pss with
    | nil => exact .nil
    | cons ps pss ih => exact .cons (by simp) ih
  · rw [List.pairwise_map]
    exact List.pairwise_of_forall fun _ _ => by simp [Apart]

theorem Segments.cons {pss : List (List Plugin)} {hi : ℕ} {seg : List Event}
    {segs : List (List Event)} (h : Segments pss hi segs) (hle : lo ≤ hi)
    (hseg : ∀ e ∈ seg, e.Calls ps ∧ ∀ handle, e.module = some handle →
      lo ≤ handle.opened ∧ handle.opened < hi) : Segments (ps :: pss) lo (seg :: segs) := by
  refine ⟨.cons (fun e he => (hseg e he).1) h.calls, ?_, .cons ?_ h.apart⟩
  · intro t ht e he handle hh
    rcases List.mem_cons.mp ht with rfl | ht
    · exact ((hseg e he).2 handle hh).1
    · exact hle.trans (h.later t ht e he handle hh)
  · intro t ht e he e' he' handle hh hh'
    have hlt : handle.opened < hi := ((hseg e he).2 handle hh).2
    exact absurd (h.later t ht e' he' handle hh') (not_le.mpr hlt)

/-- The rest of a run: first under the present configuration, then under `pss` in turn. -/
def Continues (ps : List Plugin) (lo : ℕ) (pss : List (List Plugin)) (s s' : Machine σ) : Prop :=
  s'.w1.ndll ≤ maxDll - 1 ∧ ∃ seg segs, s'.trace = segs.reverse.flatten ++ (seg ++ s.trace) ∧
    (∀ e ∈ seg, e.Calls ps ∧ ∀ handle, e.module = some handle →
      lo ≤ handle.opened ∧ handle.opened < s.modules) ∧ Segments pss s.modules segs

theorem Ran.continues (h : Ran ps lo s s') (pss : List (List Plugin)) :
    Continues ps lo pss s s' := by
  obtain ⟨seg, ht, hseg⟩ := h.trace
  refine ⟨?_, seg, pss.map fun _ => [], ?_, hseg, .idle pss _⟩
  · rw [h.table.plugged.ndll]
    exact h.table.plugged.le
  · rw [ht]
    simp

theorem Ran.andThen {pss : List (List Plugin)} (h : Ran ps lo s s')
    (h' : Continues ps lo pss s' s'') : Continues ps lo pss s s'' := by
  obtain ⟨seg, ht, hseg⟩ := h.trace
  obtain ⟨hn, seg', segs, ht', hseg', hsegs⟩ := h'
  rw [h.modules] at hseg' hsegs
  refine ⟨hn, seg' ++ seg, segs, ?_, ?_, hsegs⟩
  · rw [ht', ht, List.append_assoc]
  · intro e he
    rcases List.mem_append.mp he with he | he
    · exact hseg' e he
    · exact hseg e he

/-- What `Begun` adds to the calls that follow under the same configuration. -/
theorem Begun.segments {pss : List (List Plugin)} (h : Begun ps s s')
    (h' : Continues ps s.modules pss s' s'') :
    s''.w1.ndll ≤ maxDll - 1 ∧ ∃ segs, s''.trace = segs.reverse.flatten ++ s.trace ∧
      Segments (ps :: pss) s.modules segs := by
  obtain ⟨seg, ht, hseg⟩ := h.trace
  obtain ⟨hn, seg', segs, ht', hseg', hsegs⟩ := h'
  refine ⟨hn, (seg' ++ seg) :: segs, ?_, hsegs.cons h.le fun e he => ?_⟩
  · rw [ht', ht]
    simp
  · rcases List.mem_append.mp he with he | he
    · exact hseg' e he
    · exact hseg e he

theorem Begun.continues {ps' : List Plugin} {pss : List (List Plugin)} {s₁ : Machine σ}
    (hr : Ran ps lo s s₁) (h : Begun ps' s₁ s') (h' : Continues ps' s₁.modules pss s' s'') :
    Continues ps lo (ps' :: pss) s s'' := by
  apply hr.andThen
  obtain ⟨hn, segs, ht, hsegs⟩ := h.segments h'
  exact ⟨hn, [], segs, by simpa using ht, by simp, hsegs⟩

/-- A round stays with its configuration, or begins a new one on SIGHUP. -/
theorem waitRound_ok {host : Host} {r : Round} {left : Option Int} (hs : TableOf ps lo s)
    (h : (waitRound drv host r).run s = .ok (left, s')) :
    (r.hup = false ∧ Ran ps lo s s') ∨
      (r.hup = true ∧ ∃ s₁, Ran ps lo s s₁ ∧ Begun (host.configured none) s₁ s') := by
  rw [waitRound, run_bind_ok] at h
  obtain ⟨_, s₂, h₁, h₂⟩ := h
  have husr1 : ∃ s₁, Ran ps lo s s₁ ∧
      (do
        if r.hup then reload drv host
        if r.usr2 then event .showConfig : M σ Unit).run s₁ = .ok ((), s₂) := by
    rw [handleSignals] at h₁
    by_cases husr : r.usr1 = true
    · rw [if_pos husr, run_bind_ok] at h₁
      obtain ⟨_, t₁, hread, h₁⟩ := h₁
      have h₁' := run_bind_ok.mp h₁
      obtain ⟨_, t₂, hlog, h₁'⟩ := h₁'
      have hread' := Does.ran (table_w1ReadAllSensors 0) hread hs
      exact ⟨t₂, hread'.trans (Does.ran table_w1Tmpfilelog hlog hread'.table), h₁'⟩
    · rw [if_neg husr] at h₁
      exact ⟨s, .refl hs, h₁⟩
  obtain ⟨s₁, hr, hreload⟩ := husr1
  have hshow : Does TableStep (if r.usr2 = true then event (σ := σ) .showConfig else pure ()) :=
    .ite (fun _ => table_event fun _ => True.intro) fun _ => .pure _
  by_cases hup : r.hup = true
  · rw [if_pos hup, run_bind_ok] at hreload
    obtain ⟨_, t, hreload, hs₂⟩ := hreload
    have hb := reload_begun hr.table.plugged hreload
    have hb' := hb.ran (Does.ran hshow hs₂ hb.table)
    exact Or.inr ⟨hup, s₁, hr, hb'.ran (Does.ran (table_sleepToTick r) h₂ hb'.table)⟩
  · rw [if_neg hup] at hreload
    have hr' := hr.trans (Does.ran hshow hreload hr.table)
    exact Or.inl ⟨by simpa using hup, hr'.trans (Does.ran (table_sleepToTick r) h₂ hr'.table)⟩

/-- The configurations that the reloads of a run read, in turn. -/
def reconfigured (rounds : List (Host × Round)) : List (List Plugin) :=
  (rounds.filter (·.2.hup)).map fun x => x.1.configured none

theorem mainLoopAmong_continues {rounds : List (Host × Round)} {u : Unit} (hs : TableOf ps lo s)
    (h : (mainLoopAmong drv rounds).run s = .ok (u, s')) :
    Continues ps lo (reconfigured rounds) s s' := by
  induction rounds generalizing ps lo s with
  | nil =>
    obtain ⟨-, rfl⟩ := run_pure_ok.mp h
    exact (Ran.refl hs).continues _
  | cons x rounds ih =>
    obtain ⟨host, r⟩ := x
    rw [mainLoopAmong, run_bind_ok] at h
    obtain ⟨left, s₁, h₁, h⟩ := h
    have hrest : ∀ ps lo, TableOf ps lo s₁ → Continues ps lo (reconfigured rounds) s₁ s' := by
      intro ps lo hs₁
      cases left with
      | none => exact ih hs₁ h
      | some now =>
        simp only [run_bind_ok] at h
        obtain ⟨_, s₂, h₂, w, s₃, h₃, h⟩ := h
        obtain ⟨-, rfl⟩ := run_getW1_ok.mp h₃
        have hpass := Does.ran (table_readPass now) h₂ hs₁
        by_cases hd : w.delay ≠ 0
        · rw [if_pos hd] at h
          exact hpass.andThen (ih hpass.table h)
        · rw [if_neg hd] at h
          obtain ⟨-, rfl⟩ := run_pure_ok.mp h
          exact hpass.continues _
    rcases waitRound_ok hs h₁ with ⟨hup, hr⟩ | ⟨hup, s₂, hr, hb⟩
    · have hre : reconfigured ((host, r) :: rounds) = reconfigured rounds := by
        simp [reconfigured, hup]
      rw [hre]
      exact hr.andThen (hrest ps lo hr.table)
    · have hre : reconfigured ((host, r) :: rounds) =
          host.configured none :: reconfigured rounds := by
        simp [reconfigured, hup]
      rw [hre]
      exact Begun.continues hr hb (hrest _ _ hb.table)

/-- Every call into a plugin goes through a slot of the current configuration, by the entry
point of the module that is open there and with its parameter; no module is called under two
configurations, and the table has a slot to spare. -/
theorem plugins_current {host : Host} {opts : List Opt} {start : Int}
    {rounds : List (Host × Round)}
    (h : (mainAmong drv host opts start rounds).run s = .ok ((), s')) :
    s'.w1.ndll ≤ maxDll - 1 ∧ ∃ segs, s'.trace = segs.reverse.flatten ++ s.trace ∧
      List.Forall₂ (fun ps seg => ∀ e ∈ seg, Event.Calls ps e)
        (host.configured host.w1rcfile :: reconfigured rounds) segs ∧ segs.Pairwise Apart := by
  rw [mainAmong, run_bind_ok] at h
  obtain ⟨l, s₁, h₁, h⟩ := h
  have hb := startup_begun h₁
  have hloop : ∀ {s₂ : Machine σ}, TableOf (host.configured host.w1rcfile) s.modules s₂ →
      (do
        let w1 ← getW1
        if l.once = false ∧ w1.delay ≠ 0 then mainLoopAmong drv rounds : M σ Unit).run s₂ =
          .ok ((), s') →
      Continues (host.configured host.w1rcfile) s.modules (reconfigured rounds) s₂ s' := by
    intro s₂ hs₂ h
    rw [run_getW1_bind] at h
    split_ifs at h with hc
    · exact mainLoopAmong_continues hs₂ h
    · obtain ⟨-, rfl⟩ := run_pure_ok.mp h
      exact (Ran.refl hs₂).continues _
  have hcont : Continues (host.configured host.w1rcfile) s.modules (reconfigured rounds) s₁ s' := by
    by_cases himmed : l.immed = true
    · simp only [if_pos himmed] at h
      obtain ⟨_, s₂, h₂, h⟩ := run_bind_ok.mp h
      have hpass := Does.ran (table_readPass 0) h₂ hb.table
      exact hpass.andThen (hloop hpass.table h)
    · simp only [if_neg himmed] at h
      exact hloop hb.table h
  obtain ⟨hn, segs, ht, hsegs⟩ := hb.segments hcont
  exact ⟨hn, segs, ht, hsegs.calls, hsegs.apart⟩

end

/-- The plugins of the greenhouse, and after a reload those of another rc file. -/
theorem plugins_current_greenhouse :
    let orchard : Host := { greenhouse with
      contents := fun _ => some "rep = w1mail\nlog = w1xml:x.xml\ninit = w1file\n".toList }
    let rounds : List (Host × Round) :=
      [(greenhouse, { before := 5, sleep := .woke 60 }),
        (orchard, { hup := true, before := 70, sleep := .woke 120 })]
    ∃ s', (mainAmong Driver.thermometers greenhouse [] 0 rounds).run { w1 := {}, bus := [20, 21, 22] } =
        .ok ((), s') ∧
      s'.trace.filterMap Event.module = [⟨"w1xml".toList, 3⟩, ⟨"w1csv".toList, 1⟩, ⟨"w1csv".toList, 1⟩] ∧
      s'.w1.ndll ≤ maxDll - 1 ∧ ∃ segs, s'.trace = segs.reverse.flatten ++ [] ∧
        List.Forall₂ (fun ps seg => ∀ e ∈ seg, Event.Calls ps e)
          (greenhouse.configured none :: reconfigured rounds) segs ∧ segs.Pairwise Apart := by
  intro orchard rounds
  obtain ⟨_, s', h, hr⟩ := exists_run_ok
    (m := mainAmong Driver.thermometers greenhouse [] 0 rounds)
    (s := { w1 := {}, bus := [20, 21, 22] })
    (p := fun s' => s'.trace.filterMap Event.module =
      [⟨"w1xml".toList, 3⟩, ⟨"w1csv".toList, 1⟩, ⟨"w1csv".toList, 1⟩])
    (by decide +kernel)
  exact ⟨s', h, hr, plugins_current h⟩

/-! ## The rc file -/

/-- The rc file in the home directory. -/
def Host.homeRc (host : Host) : Option CString :=
  host.home.map (· ++ "/.config/w1retap/rc".toList)

/-- The file that `read_config` opens. -/
def Machine.rcOpened {σ : Type} (s : Machine σ) (host : Host) : CString := host.rcPath s.w1.rcfile

/-- `W1RCFILE` is unset, or leads to the file that is read without it. -/
def Host.SameRc (host : Host) : Prop :=
  ∀ f, host.w1rcfile = some f →
    match host.homeRc.filter host.readable with
    | some rc => f = rc
    | none => host.readable f = true → f = "/etc/default/w1retap".toList

theorem homeRc_ne {host : Host} {rc : CString} (h : host.homeRc = some rc) :
    rc ≠ "/etc/default/w1retap".toList := by
  obtain ⟨dir, -, rfl⟩ := Option.map_eq_some_iff.mp h
  intro he
  have hlast := congrArg List.getLast? he
  have hc : "/.config/w1retap/rc".toList.getLast? = some 'c' := by decide
  have hp : "/etc/default/w1retap".toList.getLast? = some 'p' := by decide
  rw [List.getLast?_append, hc, hp] at hlast
  exact absurd (Option.some.inj hlast) (by decide)

theorem rcPath_none (host : Host) :
    host.rcPath none = (host.homeRc.filter host.readable).getD "/etc/default/w1retap".toList := by
  unfold Host.rcPath Host.homeRc
  cases host.home with
  | none => rfl
  | some dir =>
    simp only [Option.map_some, Option.filter]
    split <;> rfl

theorem rcPath_none_iff (host : Host) :
    host.rcPath none = host.rcPath host.w1rcfile ↔ host.SameRc := by
  rw [rcPath_none, Host.SameRc]
  cases hf : host.w1rcfile with
  | none =>
    rw [rcPath_none]
    simp
  | some f =>
    have hpath : host.rcPath (some f) =
        if host.readable f = true then f else "/etc/default/w1retap".toList := rfl
    have hne : ∀ rc, host.homeRc = some rc → rc ≠ "/etc/default/w1retap".toList := fun _ => homeRc_ne
    simp only [hpath, Option.some.injEq, forall_eq']
    generalize "/etc/default/w1retap".toList = fallback at *
    cases hh : host.homeRc.filter host.readable with
    | none =>
      by_cases hr : host.readable f = true
      · rw [if_pos hr]
        exact ⟨fun h _ => h.symm, fun h => (h hr).symm⟩
      · simp [hr]
    | some rc =>
      obtain ⟨hrc, hread⟩ := Option.filter_eq_some_iff.mp hh
      by_cases hr : host.readable f = true
      · rw [if_pos hr]
        exact eq_comm (a := rc)
      · have hfrc : f ≠ rc := fun h => hr (h ▸ hread)
        simp [hr, hne rc hrc, hfrc]

section
variable {σ : Type} {drv : Driver σ} {host : Host} {s : Machine σ} {opts : List Opt} {start : Int}

/-- A reload, whenever it comes, opens the rc file of the start exactly when `W1RCFILE` leads
to the file that is read without it. -/
theorem rcOpened_iff {rounds : List Round} {s' : Machine σ}
    (h : (main drv host opts start rounds).run s = .ok ((), s')) :
    (∀ rounds t c, (main drv host opts start rounds).run s = .ok ((), t) →
      cleanup.run t = .ok ((), c) → c.rcOpened host = (s.setW1 host.initial).rcOpened host) ↔
        host.SameRc := by
  rw [← rcPath_none_iff]
  constructor
  · intro hall
    exact hall rounds s' _ h (run_modifyW1_ok.mpr rfl)
  · intro hsame rounds t c _ hc
    obtain rfl := run_modifyW1_ok.mp hc
    exact hsame

/-- With `W1RCFILE` naming a file of its own, the first SIGHUP leads to the one in the home
directory. -/
theorem rcOpened_changes :
    let host : Host := { greenhouse with w1rcfile := some "/root/my.rc".toList }
    ∃ t c, (main Driver.thermometers host [] 0 []).run { w1 := {}, bus := [20] } = .ok ((), t) ∧
      cleanup.run t = .ok ((), c) ∧
      c.rcOpened host = "/root/.config/w1retap/rc".toList ∧
      host.rcPath host.w1rcfile = "/root/my.rc".toList ∧
      ¬ ∀ rounds t c, (main Driver.thermometers host [] 0 rounds).run { w1 := {}, bus := [20] } =
          .ok ((), t) → cleanup.run t = .ok ((), c) →
        c.rcOpened host = host.rcPath host.w1rcfile := by
  intro host
  obtain ⟨_, t, ht, _, c, hc, hopened⟩ := exists_two_runs_ok
    (m := main Driver.thermometers host [] 0 []) (k := cleanup)
    (s := { w1 := {}, bus := [20] })
    (p := fun _ c => c.rcOpened host = "/root/.config/w1retap/rc".toList) (by decide +kernel)
  refine ⟨t, c, ht, hc, hopened, by decide +kernel, fun hall => ?_⟩
  have h := hall [] t c ht hc
  rw [hopened] at h
  exact absurd h (by decide +kernel)

/-- The greenhouse has no `W1RCFILE`. -/
theorem rcOpened_iff_greenhouse :
    ∃ t, (main Driver.thermometers greenhouse [] 0 []).run { w1 := {}, bus := [20] } = .ok ((), t) ∧
      ((∀ rounds t c, (main Driver.thermometers greenhouse [] 0 rounds).run
          { w1 := {}, bus := [20] } = .ok ((), t) → cleanup.run t = .ok ((), c) →
        c.rcOpened greenhouse =
          (Machine.setW1 { w1 := {}, bus := [20] } greenhouse.initial).rcOpened greenhouse) ↔
        greenhouse.SameRc) := by
  obtain ⟨_, t, h, -⟩ := exists_run_ok (m := main Driver.thermometers greenhouse [] 0 [])
    (s := { w1 := {}, bus := [20] }) (p := fun _ => True) (by decide +kernel)
  exact ⟨t, h, rcOpened_iff h⟩

end
end W1Retap

import W1Retap.Main.Freshness

/-!
# Settings that the rc file and the command line share

Start-up reads the rc file and lets the options override it, a reload reads the rc file
alone. `Setting` describes one variable that both can set. It survives every reload
exactly when the file that the reload reads does not set it, or sets it to what start-up
had settled on.
-/
namespace W1Retap

open Programs

/-- The last of the values that the elements of a list ask for. -/
def latest {α β : Type} (f : α → Option β) (xs : List α) (v : β) : β :=
  xs.foldl (fun v x => (f x).getD v) v

section
variable {α β : Type} {f : α → Option β} {xs : List α} {v : β}

theorem latest_eq : latest f xs v = ((xs.filterMap f).getLast?).getD v := by
  induction xs generalizing v with
  | nil => rfl
  | cons x xs ih =>
    rw [latest, List.foldl_cons]
    change latest f xs _ = _
    rw [ih, List.filterMap_cons]
    cases f x with
    | none => rfl
    | some u =>
      rw [List.getLast?_cons]
      rfl

/-- A value stays when the last one asked for, if any, is this value. -/
theorem latest_eq_self_iff :
    latest f xs v = v ↔ ∀ u, (xs.filterMap f).getLast? = some u → u = v := by
  rw [latest_eq]
  cases (xs.filterMap f).getLast? with
  | none => simp
  | some u => simp

theorem latest_latest : latest f xs (latest f xs v) = latest f xs v := by
  rw [latest_eq_self_iff]
  intro u hu
  rw [latest_eq, hu, Option.getD_some]

end

/-! ## One setting -/

/-- The settings that both the rc file and the command line can give. -/
@[ext] structure Shared where
  iface : Option CString
  releaseMe : Bool
  forceUtc : Bool
  daemonise : Int
  vaneOffset : Int
  logtmp : Int
  deriving DecidableEq, Repr

def DevList.shared (w1 : DevList) : Shared :=
  ⟨w1.iface, w1.releaseMe, w1.forceUtc, w1.daemonise, w1.vaneOffset, w1.logtmp⟩

/-- `init_interfaces` fills in an interface that was not named. -/
def Shared.named (c : Shared) : Shared := { c with iface := some (c.iface.getD "DS2490-1".toList) }

/-- A variable that lines of the rc file and options assign, and that start-up adjusts once
after the options are read. -/
structure Setting (α : Type) where
  get : Shared → α
  ofLine : RcLine → Option α
  ofOpt : Opt → Option α
  adjust : α → α
  line : ∀ (w1 : DevList) line, get (w1.applySetting line).shared = (ofLine line).getD (get w1.shared)
  opt : ∀ r o, get (applyOption r o).2.shared = (ofOpt o).getD (get r.2.shared)
  adjusted : ∀ c : Shared, get { c with vaneOffset := c.vaneOffset % 16 }.named = adjust (get c)

def ifaceSetting : Setting (Option CString) where
  get := (·.iface)
  ofLine := fun | .device v => some (some v) | _ => none
  ofOpt := fun | .interface v => some (some v) | _ => none
  adjust := fun iface => some (iface.getD "DS2490-1".toList)
  line _ line := by cases line <;> rfl
  opt _ o := by cases o <;> rfl
  adjusted _ := rfl

def releaseSetting : Setting Bool where
  get := (·.releaseMe)
  ofLine := fun | .releaseIf v => some v | _ => none
  ofOpt := fun | .releaseInterface => some true | _ => none
  adjust := id
  line _ line := by cases line <;> rfl
  opt _ o := by cases o <;> rfl
  adjusted _ := rfl

def utcSetting : Setting Bool where
  get := (·.forceUtc)
  ofLine := fun | .forceUtc v => some v | _ => none
  ofOpt := fun | .useUtc => some true | _ => none
  adjust := id
  line _ line := by cases line <;> rfl
  opt _ o := by cases o <;> rfl
  adjusted _ := rfl

def daemoniseSetting : Setting Int where
  get := (·.daemonise)
  ofLine := fun | .demonise v => some v | _ => none
  ofOpt := fun | .daemonise => some 1 | _ => none
  adjust := id
  line _ line := by cases line <;> rfl
  opt _ o := by cases o <;> rfl
  adjusted _ := rfl

def vaneSetting : Setting Int where
  get := (·.vaneOffset)
  ofLine := fun | .vaneOffset v => some v | _ => none
  ofOpt := fun | .vaneOffset v => some v | _ => none
  adjust := (· % 16)
  line _ line := by cases line <;> rfl
  opt _ o := by cases o <;> rfl
  adjusted _ := rfl

def tmpLogSetting : Setting Int where
  get := (·.logtmp)
  ofLine := fun | .logtemp v => some v | _ => none
  ofOpt := fun | .noTmpLog => some 1 | _ => none
  adjust := id
  line _ line := by cases line <;> rfl
  opt _ o := by cases o <;> rfl
  adjusted _ := rfl

/-- What lines leave of the settings. -/
def DevList.reread (w1 : DevList) (lines : List RcLine) : DevList := lines.foldl DevList.applySetting w1

namespace Setting

variable {α : Type} (S : Setting α) (host : Host)

/-- What start-up settles on: an option overrides the lines, and a line the default. -/
def chosen (opts : List Opt) : α :=
  S.adjust (latest S.ofOpt opts
    (latest S.ofLine (host.rcLines host.w1rcfile) (S.get host.initial.shared)))

/-- The file that a reload reads does not set the variable, or sets it to this value. -/
def Keeps (opts : List Opt) : Prop :=
  ∀ v, ((host.rcLines none).filterMap S.ofLine).getLast? = some v → v = S.chosen host opts

variable {S host}

theorem get_reread (w1 : DevList) (lines : List RcLine) :
    S.get (w1.reread lines).shared = latest S.ofLine lines (S.get w1.shared) := by
  induction lines generalizing w1 with
  | nil => rfl
  | cons line lines ih =>
    change S.get ((w1.applySetting line).reread lines).shared = _
    rw [ih, S.line]
    rfl

theorem get_options (r : Locals × DevList) (opts : List Opt) :
    S.get (opts.foldl applyOption r).2.shared = latest S.ofOpt opts (S.get r.2.shared) := by
  induction opts generalizing r with
  | nil => rfl
  | cons o opts ih =>
    rw [List.foldl_cons, ih, S.opt]
    rfl

end Setting

/-- Every shared setting is kept. -/
def Host.KeepsShared (host : Host) (opts : List Opt) : Prop :=
  ifaceSetting.Keeps host opts ∧ releaseSetting.Keeps host opts ∧ utcSetting.Keeps host opts ∧
    daemoniseSetting.Keeps host opts ∧ vaneSetting.Keeps host opts ∧ tmpLogSetting.Keeps host opts

section
variable {σ : Type} {drv : Driver σ} {host : Host} {s s' : Machine σ}

/-! ## What leaves the settings alone -/

theorem applySetting_shared {w1 w1' : DevList} (h : w1'.shared = w1.shared) (line : RcLine) :
    (w1'.applySetting line).shared = (w1.applySetting line).shared := by
  simp only [DevList.shared, Shared.mk.injEq] at h
  obtain ⟨hi, hr, hu, hd, hv, hl⟩ := h
  cases line <;> simp [DevList.applySetting, DevList.shared, *]

theorem reread_shared {w1 w1' : DevList} (h : w1'.shared = w1.shared) (lines : List RcLine) :
    (w1'.reread lines).shared = (w1.reread lines).shared := by
  induction lines generalizing w1 w1' with
  | nil => exact h
  | cons line lines ih => exact ih (applySetting_shared h line)

/-- The shared settings are the same. -/
def SameShared (s s' : Machine σ) : Prop := s'.w1.shared = s.w1.shared

instance : InitSteps (SameShared (σ := σ)) where
  dll _ _ _ := rfl
  devs _ _ _ _ := rfl

theorem Quiet.sameShared (h : Quiet s s') : SameShared s s' := by
  rw [SameShared, h.w1]
  rfl

theorem RunStep.sameShared {P : Event → Prop} (h : RunStep P s s') : SameShared s s' := by
  cases h with
  | sensor n hn =>
    rw [SameShared, hn.sameShape.w1]
    rfl
  | mark e he => rfl
  | logtime t => rfl

theorem SameShared.of_does {α : Type} {m : M σ α} {a : α} (hm : Does SameShared m)
    (h : m.run s = .ok (a, s')) : s'.w1.shared = s.w1.shared :=
  hm.keeps (P := fun t : Machine σ => t.w1.shared = s.w1.shared) (fun _ _ hstep ht => hstep.trans ht)
    h rfl

/-! ## Start-up and reload -/

theorem applyLine_shared {line : RcLine} {u : Unit} (h : (applyLine host line).run s = .ok (u, s')) :
    s'.w1.shared = (s.w1.applySetting line).shared := by
  cases line with
  | plugin type params =>
    refine SameShared.of_does ?_ h
    refine .bind .get fun s => .ite (fun _ => .throw _) fun _ => .ite (fun _ => ?_) fun _ => .pure _
    exact .modify fun s => rfl
  | _ =>
    simp only [applyLine] at h
    obtain rfl := run_modifyW1_ok.mp h
    rfl

theorem readConfig_shared {u : Unit} (h : (readConfig host).run s = .ok (u, s')) :
    s'.w1.shared = (s.w1.reread (host.rcLines s.w1.rcfile)).shared := by
  rw [readConfig, run_getW1_bind, run_modifyW1_bind] at h
  have hlines : ∀ (lines : List RcLine) (s : Machine σ),
      (lines.forM (applyLine host)).run s = .ok (u, s') →
        s'.w1.shared = (s.w1.reread lines).shared := by
    intro lines
    induction lines with
    | nil =>
      intro s h
      obtain ⟨-, rfl⟩ := run_pure_ok.mp h
      rfl
    | cons line lines ih =>
      intro s h
      obtain ⟨_, s₁, h₁, h₂⟩ := run_forM_cons_ok.mp h
      rw [ih s₁ h₂]
      exact reread_shared (applyLine_shared h₁) lines
  rw [hlines _ _ h]
  apply reread_shared
  rfl

theorem initInterfaces_shared {u : Unit} (h : (initInterfaces drv).run s = .ok (u, s')) :
    s'.w1.shared = s.w1.shared.named := by
  rw [initInterfaces, run_modifyW1_bind] at h
  rw [(acquire_ok h).1]
  rfl

theorem reload_shared {u : Unit} (h : (reload drv host).run s = .ok (u, s')) :
    s'.w1.shared = (s.w1.reread (host.rcLines none)).shared.named := by
  rw [reload, cleanup, run_modifyW1_bind, run_bind_ok] at h
  obtain ⟨_, s₁, h₁, h⟩ := h
  rw [run_bind_ok] at h
  obtain ⟨_, s₂, h₂, h₃⟩ := h
  rw [initInterfaces_shared h₃, SameShared.of_does does_doInit h₂, readConfig_shared h₁]
  refine congrArg Shared.named (reread_shared ?_ _)
  change ({ s.w1 with devs := [] } : DevList).closeDlls.shared = _
  rw [DevList.closeDlls, closeAll_eq]
  rfl

/-- Start-up settles on the chosen value of every setting. -/
theorem startup_shared {opts : List Opt} {now : Int} {l : Locals}
    (h : (startup drv host opts now).run s = .ok (l, s')) {α : Type} (S : Setting α) :
    S.get s'.w1.shared = S.chosen host opts ∧ s'.w1.shared.named = s'.w1.shared := by
  rw [startup, run_modifyW1_bind, run_bind_ok] at h
  obtain ⟨_, s₁, h₁, h⟩ := h
  have hread : s₁.w1.shared = (host.initial.reread (host.rcLines host.w1rcfile)).shared :=
    readConfig_shared h₁
  rw [run_getW1_bind] at h
  have hopts := S.get_options ({}, s₁.w1) opts
  generalize opts.foldl applyOption ({}, s₁.w1) = r at h hopts
  obtain ⟨l', w1⟩ := r
  simp only at h hopts
  rw [run_modifyW1_bind] at h
  by_cases hv : l'.showvers = true
  · rw [if_pos hv] at h
    exact absurd h run_throw_ok
  · rw [if_neg hv, run_bind_ok] at h
    obtain ⟨_, s₂, h₂, h⟩ := h
    rw [run_getW1_bind] at h
    by_cases hdo : s₂.w1.doread = true
    · rw [if_pos hdo, run_bind_ok] at h
      obtain ⟨_, s₃, h₃, h⟩ := h
      have hrest : Does SameShared (do
          modifyW1 fun w1 => { w1 with logtime := now }
          w1Replog
          w1AllCouplersOff drv
          return { l' with immed := !l'.immed } : M σ Locals) := by
        have hquiet : ∀ {β : Type} {m : M σ β}, Does Quiet m → Does SameShared m :=
          fun hm => hm.mono fun _ _ hq => hq.sameShared
        refine .bind (.modify fun s => rfl) fun _ => .bind (hquiet does_w1Replog) fun _ => ?_
        exact .bind (hquiet (does_w1AllCouplersOff drv)) fun _ => .pure _
      rw [SameShared.of_does hrest h, initInterfaces_shared h₃, SameShared.of_does does_doInit h₂]
      constructor
      · rw [Setting.chosen, ← S.get_reread, ← hread]
        change S.get { w1.shared with vaneOffset := w1.shared.vaneOffset % 16 }.named = _
        rw [S.adjusted, hopts, hread]
      · rfl
    · rw [if_neg hdo] at h
      exact absurd h run_throw_ok

/-! ## Any number of reloads -/

theorem Shared.named_of_isSome {c : Shared} (h : c.iface.isSome) : c.named = c := by
  obtain ⟨v, hv⟩ := Option.isSome_iff_exists.mp h
  refine Shared.ext ?_ rfl rfl rfl rfl rfl
  rw [Shared.named, hv]
  rfl

theorem reread_iface {w1 : DevList} (h : w1.iface.isSome) (lines : List RcLine) :
    (w1.reread lines).iface.isSome := by
  induction lines generalizing w1 with
  | nil => exact h
  | cons line lines ih =>
    apply ih
    cases line with
    | device v => rfl
    | _ => exact h

/-- Two states of the settings are the same when all six are. -/
theorem Shared.eq_of_get {c c' : Shared} (h : ∀ {α : Type} (S : Setting α), S.get c = S.get c') :
    c = c' :=
  Shared.ext (h ifaceSetting) (h releaseSetting) (h utcSetting) (h daemoniseSetting)
    (h vaneSetting) (h tmpLogSetting)

theorem reread_reread (w1 : DevList) (lines : List RcLine) :
    ((w1.reread lines).reread lines).shared = (w1.reread lines).shared := by
  refine Shared.eq_of_get fun S => ?_
  rw [S.get_reread, S.get_reread, latest_latest]

/-- Reading the file again gives the settings of the start-up when each is kept. -/
theorem reread_iff {opts : List Opt} {w1 : DevList}
    (hchosen : ∀ {α : Type} (S : Setting α), S.get w1.shared = S.chosen host opts) :
    (w1.reread (host.rcLines none)).shared = w1.shared ↔ host.KeepsShared opts := by
  have hget : ∀ {α : Type} (S : Setting α),
      S.get (w1.reread (host.rcLines none)).shared = S.get w1.shared ↔ S.Keeps host opts := by
    intro α S
    rw [S.get_reread, hchosen S]
    exact latest_eq_self_iff
  constructor
  · intro heq
    have hkeep : ∀ {α : Type} (S : Setting α), S.Keeps host opts :=
      fun S => (hget S).mp (congrArg S.get heq)
    exact ⟨hkeep _, hkeep _, hkeep _, hkeep _, hkeep _, hkeep _⟩
  · rintro ⟨hiface, hrelease, hutc, hdaemonise, hvane, htmp⟩
    exact Shared.ext ((hget ifaceSetting).mpr hiface) ((hget releaseSetting).mpr hrelease)
      ((hget utcSetting).mpr hutc) ((hget daemoniseSetting).mpr hdaemonise)
      ((hget vaneSetting).mpr hvane) ((hget tmpLogSetting).mpr htmp)

/-- The first reload settles the settings; every later one gives the same again. -/
theorem reloads_shared {k : ℕ} {t : Machine σ} {u : Unit} (hs : s.w1.iface.isSome)
    (h : (reloads drv host (k + 1)).run s = .ok (u, t)) :
    t.w1.shared = (s.w1.reread (host.rcLines none)).shared := by
  have hfile : ∀ {w1 : DevList}, w1.shared = s.w1.shared ∨
      w1.shared = (s.w1.reread (host.rcLines none)).shared →
      (w1.reread (host.rcLines none)).shared.named = (s.w1.reread (host.rcLines none)).shared := by
    intro w1 hw
    have hread : (w1.reread (host.rcLines none)).shared = (s.w1.reread (host.rcLines none)).shared := by
      rcases hw with hw | hw
      · exact reread_shared hw _
      · rw [reread_shared hw, reread_reread]
    rw [hread]
    exact Shared.named_of_isSome (reread_iface hs _)
  induction k generalizing t u with
  | zero =>
    obtain ⟨_, s₁, h₁, h₂⟩ := run_bind_ok.mp h
    obtain ⟨-, rfl⟩ := run_pure_ok.mp h₁
    rw [reload_shared h₂]
    exact hfile (Or.inl rfl)
  | succ k ih =>
    obtain ⟨_, s₁, h₁, h₂⟩ := run_bind_ok.mp h
    rw [reload_shared h₂]
    exact hfile (Or.inr (ih h₁))

/-- Whatever leaves the settings alone but for reloads of a file that gives them again. -/
theorem ends_mainLoop_shared {c : Shared} (rounds : List Round)
    (hfix : ∀ w1 : DevList, w1.shared = c → (w1.reread (host.rcLines none)).shared.named = c) :
    Ends (fun s => s.w1.shared = c) (mainLoop drv host rounds) fun _ s => s.w1.shared = c := by
  have hkeep : ∀ {α : Type} {m : M σ α}, Does (RunStep fun _ => True) m →
      Ends (fun s => s.w1.shared = c) m fun _ s => s.w1.shared = c :=
    fun hm => .of_does hm fun _ _ hstep hs => hstep.sameShared.trans hs
  induction rounds with
  | nil => exact .pure fun s hs => hs
  | cons r rounds ih =>
    have hshow : Ends (fun s => s.w1.shared = c)
        (if r.usr2 = true then event (σ := σ) .showConfig else pure ()) fun _ s => s.w1.shared = c :=
      .ite (fun _ => hkeep (run_mark trivial)) fun _ => .pure fun s hs => hs
    have hhup : Ends (fun s => s.w1.shared = c) (do
        if r.hup then reload drv host
        if r.usr2 then event .showConfig) fun _ s => s.w1.shared = c := by
      refine .ite (fun _ => .bind ?_ fun _ => hshow) fun _ => hshow
      intro s u s' hs h
      rw [reload_shared h]
      exact hfix s.w1 hs
    have hsignals : Ends (fun s => s.w1.shared = c) (handleSignals drv host r)
        fun _ s => s.w1.shared = c := by
      refine .ite (fun _ => ?_) fun _ => hhup
      refine .bind (hkeep (run_w1ReadAllSensors trivial fun _ => trivial)) fun _ => ?_
      exact .bind (hkeep (run_w1Tmpfilelog fun _ => trivial)) fun _ => hhup
    refine .bind (.bind hsignals fun _ => hkeep (run_sleepToTick (fun _ => trivial) r)) fun left => ?_
    cases left with
    | none => exact ih
    | some now =>
      refine .bind (hkeep (run_readPass (fun _ _ => trivial) now)) fun _ => .bind ends_getW1 fun w1 => ?_
      exact .ite (fun _ => ih) fun _ => .pure fun s hs => hs

/-- After a reload the shared settings are those of the start-up exactly when the file that
the reload reads gives every one of them again or does not mention it; then they are the
same throughout every run. -/
theorem precedence_iff {σ : Type} (drv : Driver σ) (host : Host) (opts : List Opt) (now : Int)
    {s₀ s : Machine σ} {l : Locals} (h : (startup drv host opts now).run s₀ = .ok (l, s)) :
    (∀ k t, (reloads drv host (k + 1)).run s = .ok ((), t) →
      (t.w1.shared = s.w1.shared ↔ host.KeepsShared opts)) ∧
    (host.KeepsShared opts → ∀ rounds t, (mainLoop drv host rounds).run s = .ok ((), t) →
      t.w1.shared = s.w1.shared) := by
  have hchosen : ∀ {α : Type} (S : Setting α), S.get s.w1.shared = S.chosen host opts :=
    fun S => (startup_shared h S).1
  have hnamed : s.w1.shared.named = s.w1.shared := (startup_shared h ifaceSetting).2
  have hiface : s.w1.iface.isSome := by
    rw [show s.w1.iface = s.w1.shared.named.iface from (congrArg Shared.iface hnamed).symm]
    rfl
  constructor
  · intro k t ht
    rw [reloads_shared hiface ht]
    exact reread_iff hchosen
  · intro hkeep rounds t ht
    refine ends_mainLoop_shared rounds (fun w1 hw => ?_) s () t rfl ht
    rw [reread_shared hw, (reread_iff hchosen).mpr hkeep, hnamed]

/-- An rc file that names an interface. -/
def namedInterface : Host where
  w1rcfile := none
  home := some "/root".toList
  readable := fun _ => true
  contents := fun _ => some "device = DS2490-1\ninit = w1file\n".toList
  moduleBuildPath := fun name => name
  moduleOpens := fun _ => true
  hasSymbol := fun _ _ => true
  w1Init := fun _ _ => [{ serial := some "1000000000000001".toList, stype := .temp, ns := 1, s := [{}], ns_le := Nat.one_pos }]

theorem precedence_iff_namedInterface :
    ∃ (l : Locals) (s t : Machine Unit),
      (startup Driver.silent namedInterface [.useUtc] 0).run { w1 := {}, bus := () } = .ok (l, s) ∧
      (reloads Driver.silent namedInterface 1).run s = .ok ((), t) ∧
      (t.w1.shared = s.w1.shared ↔ namedInterface.KeepsShared [.useUtc]) := by
  obtain ⟨l, s, hs, _, t, ht, -⟩ := exists_two_runs_ok
    (m := startup Driver.silent namedInterface [.useUtc] 0)
    (k := reloads Driver.silent namedInterface 1) (s := { w1 := {}, bus := () })
    (p := fun _ _ => True) (by decide +kernel)
  exact ⟨l, s, t, hs, ht, (precedence_iff Driver.silent namedInterface [.useUtc] 0 hs).1 0 t ht⟩

/-- After `-i DS2490-2` the first reload goes back to the interface of the file. -/
theorem precedence_lost :
    ∃ (l : Locals) (s t : Machine Unit),
      (startup Driver.silent namedInterface [.interface "DS2490-2".toList] 0).run
        { w1 := {}, bus := () } = .ok (l, s) ∧
      (reloads Driver.silent namedInterface 1).run s = .ok ((), t) ∧
      s.w1.iface = some "DS2490-2".toList ∧ t.w1.iface = some "DS2490-1".toList := by
  obtain ⟨l, s, hs, _, t, ht, hr⟩ := exists_two_runs_ok
    (m := startup Driver.silent namedInterface [.interface "DS2490-2".toList] 0)
    (k := reloads Driver.silent namedInterface 1) (s := { w1 := {}, bus := () })
    (p := fun s t => s.w1.iface = some "DS2490-2".toList ∧ t.w1.iface = some "DS2490-1".toList)
    (by decide +kernel)
  exact ⟨l, s, t, hs, ht, hr⟩

end
end W1Retap

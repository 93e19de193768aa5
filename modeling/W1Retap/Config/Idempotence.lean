import W1Retap.Config.Reload
import W1Retap.Schedule.Adjustment

/-!
# When a reload keeps the schedule

`w1_verify_intervals` overwrites `w1->delay` with the tick, and `cleanup` leaves it
there: a reload of a file without a `delay` line starts from the tick instead of the
delay of the start, and a reload of a file with one forgets the `-t` of the command
line. `Reproduces` says for which files, options and tables the schedule is the same.
-/
namespace W1Retap

open Programs

theorem couplers_adjustDevs {w w' : DevList} {delay : Int} (h : w'.devs = adjustDevs delay w.devs) :
    (∃ r, w1InitializeCouplers w' = .ok r) ↔ ∃ r, w1InitializeCouplers w = .ok r := by
  have hsame : List.Forall₂ SameButIntvl w.devs w'.devs := by
    rw [h, adjustDevs, List.forall₂_map_right_iff, List.forall₂_same]
    exact fun d _ => rfl
  have hflip : List.Forall₂ SameButIntvl w'.devs w.devs :=
    hsame.flip.imp fun d d' hd => by rw [SameButIntvl, hd]
  exact ⟨w1InitializeCouplers_sameButIntvl hflip, w1InitializeCouplers_sameButIntvl hsame⟩

/-- The table and the delay give a schedule exactly when there is a device, the delay
is not zero and the couplers can be initialised. -/
theorem scheduleOf_eq_some {rows : List Row} {delay : Int} {sch : Schedule} :
    scheduleOf rows delay = some sch ↔ rows ≠ [] ∧ delay ≠ 0 ∧
      (∃ w, w1InitializeCouplers { devs := rows.map Row.device } = .ok w) ∧
      sch.delay = tick delay (rows.map (·.intvl)) ∧
      sch.intvls = (rows.map (·.intvl)).map (adjust delay (rows.map (·.intvl))) ∧
      w1Lcm sch.intvls = .ok sch.cycle := by
  have hreq : ({ devs := rows.map Row.device, delay } : DevList).requests = rows.map (·.intvl) := by
    simp [DevList.requests, Row.device, Function.comp_def]
  by_cases hrows : rows = []
  · subst hrows
    simp [scheduleOf, w1VerifyIntervals_nil, Except.toOption]
  have hne : ({ devs := rows.map Row.device, delay } : DevList).devs ≠ [] := by simpa using hrows
  by_cases hd : delay = 0
  · rw [scheduleOf, w1VerifyIntervals_zero hne hd]
    simp [Except.toOption, hd]
  obtain ⟨cycle, hlcm, hok⟩ := w1VerifyIntervals_ok hne hd
  rw [DevList.adjusted, hreq] at hlcm
  rw [hreq] at hok
  have hadj := adjustDevs_intvl delay (rows.map Row.device)
  rw [show (rows.map Row.device).map (·.intvl) = rows.map (·.intvl) from hreq] at hadj
  simp only [scheduleOf, hok, Except.toOption, Option.bind_eq_bind, Option.bind_some]
  generalize hW : ({ devs := adjustDevs delay (rows.map Row.device), cycle
                     delay := tick delay (rows.map (·.intvl)) } : DevList) = W
  have hdevs : W.devs = adjustDevs delay (rows.map Row.device) := by rw [← hW]
  rw [← couplers_adjustDevs (w := { devs := rows.map Row.device }) hdevs]
  cases hw : w1InitializeCouplers W with
  | error e =>
    constructor
    · intro h
      cases h
    · rintro ⟨-, -, ⟨w, hw'⟩, -⟩
      cases hw'
  | ok w =>
    have hi := w1InitializeCouplers_intvl hw
    have hsch : w.schedule = ⟨tick delay (rows.map (·.intvl)), cycle,
        (rows.map (·.intvl)).map (adjust delay (rows.map (·.intvl)))⟩ := by
      rw [DevList.schedule, hi, hdevs, hadj, w1InitializeCouplers_keeps hw, ← hW]
    simp only [Option.bind_some, hsch]
    constructor
    · intro h
      obtain rfl := Option.some.inj h
      exact ⟨hrows, hd, ⟨w, rfl⟩, rfl, rfl, hlcm⟩
    · rintro ⟨-, -, -, ht, hintvls, hc⟩
      rw [hintvls, hlcm] at hc
      rw [← ht, ← hintvls, Except.ok.inj hc]
      rfl

/-- Under `delay'` the requests `rs'` have the tick that `rs` have under `delay`, and every
clamped request holds this tick as many times as before. -/
structure SameTicks (delay : Int) (rs : List Int) (delay' : Int) (rs' : List Int) : Prop where
  tick : tick delay' rs' = tick delay rs
  counts : List.Forall₂ (fun r r' => (clampIntvl delay r).tdiv (W1Retap.tick delay rs) =
    (clampIntvl delay' r').tdiv (W1Retap.tick delay rs)) rs rs'

theorem sameTicks_iff {delay delay' : Int} {rs rs' : List Int} (hd : delay ≠ 0) :
    SameTicks delay rs delay' rs' ↔ tick delay' rs' = tick delay rs ∧
      rs.map (adjust delay rs) = rs'.map (adjust delay' rs') := by
  have hm := tick_ne_zero rs hd
  have hcancel : ∀ r r', tick delay' rs' = tick delay rs →
      (adjust delay rs r = adjust delay' rs' r' ↔ (clampIntvl delay r).tdiv (tick delay rs) =
        (clampIntvl delay' r').tdiv (tick delay rs)) := by
    intro r r' ht
    rw [adjust, adjust, ht]
    exact mul_left_inj' hm
  rw [← forall₂_eq_iff]
  constructor
  · rintro ⟨ht, hc⟩
    exact ⟨ht, hc.imp fun r r' h => (hcancel r r' ht).mpr h⟩
  · rintro ⟨ht, hc⟩
    exact ⟨ht, hc.imp fun r r' h => (hcancel r r' ht).mp h⟩

/-- The file that a reload reads, with the tick as the delay before it, gives the
schedule of the start again. -/
def Host.Reproduces (host : Host) (opts : List Opt) : Prop :=
  ∃ rows delay rows' delay', host.load (host.rcLines host.w1rcfile) w1DefaultIntvl = some (rows, delay) ∧
    host.load (host.rcLines none) (tick (cycleTime opts delay) (rows.map (·.intvl))) =
      some (rows', delay') ∧
    delay' ≠ 0 ∧
    (∃ w, w1InitializeCouplers { devs := rows'.map Row.device } = .ok w) ∧
    SameTicks (cycleTime opts delay) (rows.map (·.intvl)) delay' (rows'.map (·.intvl))

theorem reproduces_iff {host : Host} {opts : List Opt} {sch : Schedule}
    (h : host.schedule (host.rcLines host.w1rcfile) w1DefaultIntvl (cycleTime opts) = some sch) :
    host.Reproduces opts ↔ host.schedule (host.rcLines none) sch.delay id = some sch := by
  obtain ⟨⟨rows, delay⟩, hload, hsch⟩ := Option.bind_eq_some_iff.mp h
  obtain ⟨hrows, hd, -, hdelay, hintvls, hcycle⟩ := scheduleOf_eq_some.mp hsch
  constructor
  · rintro ⟨rows₁, delay₁, rows', delay', h₁, hload', hd', hw, hsame⟩
    obtain ⟨rfl, rfl⟩ := Prod.mk.inj (Option.some.inj (hload.symm.trans h₁))
    obtain ⟨ht, hadj⟩ := (sameTicks_iff hd).mp hsame
    refine Option.bind_eq_some_iff.mpr ⟨(rows', delay'), by rw [hdelay]; exact hload', ?_⟩
    refine scheduleOf_eq_some.mpr ⟨?_, hd', hw, hdelay.trans ht.symm, hintvls.trans hadj, hcycle⟩
    have hlen := hsame.counts.length_eq
    intro (hnil : rows' = [])
    rw [hnil] at hlen
    exact hrows (by simpa using hlen)
  · intro hfix
    obtain ⟨⟨rows', delay'⟩, hload', hsch'⟩ := Option.bind_eq_some_iff.mp hfix
    obtain ⟨-, hd', hw, hdelay', hintvls', -⟩ := scheduleOf_eq_some.mp hsch'
    refine ⟨rows, delay, rows', delay', hload, by rw [← hdelay]; exact hload', hd', hw, ?_⟩
    exact (sameTicks_iff hd).mpr ⟨hdelay'.symm.trans hdelay, hintvls.symm.trans hintvls'⟩

/-- After any number of reloads the program runs on the schedule of its start, if and only
if the file, the options and the table reproduce it. -/
theorem reload_idempotent_iff {σ : Type} (drv : Driver σ) (host : Host) (opts : List Opt)
    (now : Int) {s₀ s : Machine σ} {l : Locals}
    (h : (startup drv host opts now).run s₀ = .ok (l, s)) :
    (∀ k, ∃ t, (reloads drv host k).run s = .ok ((), t) ∧ t.w1.delay = s.w1.delay ∧
      t.w1.cycle = s.w1.cycle ∧ t.w1.requests = s.w1.requests) ↔ host.Reproduces opts := by
  obtain ⟨sch, port, hsch, hport, hruns⟩ := startup_ok h
  have heq : ∀ t : Machine σ, (t.w1.delay = s.w1.delay ∧ t.w1.cycle = s.w1.cycle ∧
      t.w1.requests = s.w1.requests) ↔ t.w1.schedule = sch := by
    intro t
    rw [← hruns.schedule]
    simp [DevList.schedule, DevList.requests]
  simp only [heq]
  exact (reloads_iff (by omega) hruns).trans (reproduces_iff hsch).symm

/-- An rc file with one `init` line, for a table of two thermometers: one with the default
interval and one that is read every minute. -/
def twoThermometers : Host where
  w1rcfile := none
  home := some "/root".toList
  readable := fun _ => true
  contents := fun _ => some "init = w1file\n".toList
  moduleBuildPath := fun name => name
  moduleOpens := fun _ => true
  hasSymbol := fun _ _ => true
  w1Init := fun _ _ =>
    [{ serial := some "1000000000000001".toList, stype := .temp, ns := 1, s := [{}], ns_le := Nat.one_pos },
     { serial := some "1000000000000002".toList, stype := .temp, ns := 1, s := [{}], ns_le := Nat.one_pos
       intvl := 60 }]

theorem reload_idempotent_iff_twoThermometers :
    ∃ (l : Locals) (s : Machine Unit),
      (startup Driver.silent twoThermometers [.cycleTime 100] 0).run { w1 := {}, bus := () } =
        .ok (l, s) ∧
      ((∀ k, ∃ t, (reloads Driver.silent twoThermometers k).run s = .ok ((), t) ∧
        t.w1.delay = s.w1.delay ∧ t.w1.cycle = s.w1.cycle ∧ t.w1.requests = s.w1.requests) ↔
        twoThermometers.Reproduces [.cycleTime 100]) := by
  obtain ⟨l, s, h, -⟩ := exists_run_ok
    (m := startup Driver.silent twoThermometers [.cycleTime 100] 0)
    (s := { w1 := {}, bus := () }) (p := fun _ => True) (by decide +kernel)
  exact ⟨l, s, h, reload_idempotent_iff Driver.silent twoThermometers [.cycleTime 100] 0 h⟩

/-- The thermometer with the default interval is read every two minutes at first, and
every minute after a reload of the same file. -/
theorem reload_forgets_delay :
    ∃ (l : Locals) (s t : Machine Unit),
      (startup Driver.silent twoThermometers [] 0).run { w1 := {}, bus := () } = .ok (l, s) ∧
      (reloads Driver.silent twoThermometers 1).run s = .ok ((), t) ∧
      s.w1.requests = [120, 60] ∧ s.w1.cycle = 120 ∧
      t.w1.requests = [60, 60] ∧ t.w1.cycle = 60 ∧
      ¬ ∀ k, ∃ t, (reloads Driver.silent twoThermometers k).run s = .ok ((), t) ∧
        t.w1.delay = s.w1.delay ∧ t.w1.cycle = s.w1.cycle ∧ t.w1.requests = s.w1.requests := by
  obtain ⟨l, s, hs, _, t, ht, h₁, h₂, h₃, h₄⟩ := exists_two_runs_ok
    (m := startup Driver.silent twoThermometers [] 0) (k := reloads Driver.silent twoThermometers 1)
    (s := { w1 := {}, bus := () })
    (p := fun s t => s.w1.requests = [120, 60] ∧ s.w1.cycle = 120 ∧
      t.w1.requests = [60, 60] ∧ t.w1.cycle = 60)
    (by decide +kernel)
  refine ⟨l, s, t, hs, ht, h₁, h₂, h₃, h₄, fun hall => ?_⟩
  obtain ⟨t', ht', -, hcycle, -⟩ := hall 1
  obtain ⟨-, rfl⟩ := Prod.mk.inj (Except.ok.inj (ht.symm.trans ht'))
  rw [h₂, h₄] at hcycle
  exact absurd hcycle (by decide)

/-! ## Reloading the file of the start -/

/-- The value of the last `delay` line, if there is one. -/
def lastDelay (lines : List RcLine) (delay : Int) : Int :=
  lines.foldl (fun d line => match line with | .delay v => v | _ => d) delay

theorem settings_delay (host : Host) (lines : List RcLine) (ps : List Plugin) (d d' : Int) :
    lines.foldlM host.readLine ⟨ps, d'⟩ = (lines.foldlM host.readLine ⟨ps, d⟩).map
      fun c => { c with delay := lastDelay lines d' } := by
  induction lines generalizing ps d d' with
  | nil => rfl
  | cons line lines ih =>
    rw [List.foldlM_cons, List.foldlM_cons]
    cases line with
    | plugin type params =>
      simp only [Host.readLine]
      by_cases hfull : ps.length = maxDll - 1
      · rw [if_pos hfull, if_pos hfull]
        rfl
      · rw [if_neg hfull, if_neg hfull]
        exact ih _ d d'
    | delay v => exact ih ps v v
    | _ => exact ih ps d d'

theorem load_delay (host : Host) (lines : List RcLine) (d d' : Int) :
    host.load lines d' = (host.load lines d).map fun r => (r.1, lastDelay lines d') := by
  have hs : host.settings lines d' = (host.settings lines d).map
      fun c => { c with delay := lastDelay lines d' } := settings_delay host lines [] d d'
  rw [Host.load, Host.load, hs]
  cases host.settings lines d with
  | none => rfl
  | some c => cases ht : host.table c.plugins <;> simp [ht]

theorem lastDelay_eq {lines : List RcLine} (h : ∃ v, .delay v ∈ lines) (d d' : Int) :
    lastDelay lines d = lastDelay lines d' := by
  induction lines generalizing d d' with
  | nil => simp at h
  | cons line lines ih =>
    by_cases hl : ∃ v, .delay v ∈ lines
    · exact ih hl _ _
    · obtain ⟨v, hv⟩ := h
      rcases List.mem_cons.mp hv with rfl | hv
      · rfl
      · exact absurd ⟨v, hv⟩ hl

theorem lastDelay_of_none {lines : List RcLine} (h : ∀ v, .delay v ∉ lines) (d : Int) :
    lastDelay lines d = d := by
  induction lines generalizing d with
  | nil => rfl
  | cons line lines ih =>
    have htail : ∀ v, .delay v ∉ lines := fun v hv => h v (List.mem_cons_of_mem _ hv)
    cases line with
    | delay v => exact absurd List.mem_cons_self (h v)
    | _ => exact ih htail d

theorem cycleTime_of_none {opts : List Opt} (h : ∀ secs, .cycleTime secs ∉ opts) (d : Int) :
    cycleTime opts d = d := by
  induction opts generalizing d with
  | nil => rfl
  | cons o opts ih =>
    have htail : ∀ secs, .cycleTime secs ∉ opts := fun secs hs => h secs (List.mem_cons_of_mem _ hs)
    cases o with
    | cycleTime secs => exact absurd List.mem_cons_self (h secs)
    | _ => exact ih htail d

section
variable {host : Host} {opts : List Opt} {rows : List Row} {delay : Int} {sch : Schedule}

/-- When the reload reads the file of the start, only the delay can be another one. -/
theorem reproduces_iff_sameTicks (hfile : host.rcLines none = host.rcLines host.w1rcfile)
    (hload : host.load (host.rcLines none) w1DefaultIntvl = some (rows, delay))
    (hsch : scheduleOf rows (cycleTime opts delay) = some sch) :
    host.Reproduces opts ↔
      lastDelay (host.rcLines none) (tick (cycleTime opts delay) (rows.map (·.intvl))) ≠ 0 ∧
      SameTicks (cycleTime opts delay) (rows.map (·.intvl))
        (lastDelay (host.rcLines none) (tick (cycleTime opts delay) (rows.map (·.intvl))))
        (rows.map (·.intvl)) := by
  obtain ⟨-, -, hw, -⟩ := scheduleOf_eq_some.mp hsch
  have hload' : ∀ d, host.load (host.rcLines none) d =
      some (rows, lastDelay (host.rcLines none) d) := by
    intro d
    rw [load_delay host _ w1DefaultIntvl d, hload]
    rfl
  rw [Host.Reproduces, ← hfile]
  constructor
  · rintro ⟨rows₁, delay₁, rows', delay', h₁, h', hd', -, hsame⟩
    obtain ⟨rfl, rfl⟩ := Prod.mk.inj (Option.some.inj (hload.symm.trans h₁))
    obtain ⟨rfl, rfl⟩ := Prod.mk.inj (Option.some.inj ((hload' _).symm.trans h'))
    exact ⟨hd', hsame⟩
  · rintro ⟨hd', hsame⟩
    exact ⟨rows, delay, rows, _, hload, hload' _, hd', hw, hsame⟩

/-- A `delay` line that no `-t` overrides settles the schedule for good. -/
theorem reproduces_of_delayLine (hfile : host.rcLines none = host.rcLines host.w1rcfile)
    (hline : ∃ v, .delay v ∈ host.rcLines none) (hopts : ∀ secs, .cycleTime secs ∉ opts)
    (hload : host.load (host.rcLines none) w1DefaultIntvl = some (rows, delay))
    (hsch : scheduleOf rows (cycleTime opts delay) = some sch) : host.Reproduces opts := by
  rw [reproduces_iff_sameTicks hfile hload hsch]
  obtain ⟨-, hd, -⟩ := scheduleOf_eq_some.mp hsch
  have hdelay : lastDelay (host.rcLines none) w1DefaultIntvl = delay := by
    have h := load_delay host (host.rcLines none) w1DefaultIntvl w1DefaultIntvl
    rw [hload] at h
    exact (congrArg Prod.snd (Option.some.inj h)).symm
  rw [lastDelay_eq hline _ w1DefaultIntvl, hdelay, cycleTime_of_none hopts]
  rw [cycleTime_of_none hopts] at hd
  exact ⟨hd, rfl, List.forall₂_same.mpr fun _ _ => rfl⟩

/-- With the tick as the delay every request becomes the tick. -/
theorem clampIntvl_tick {D r : Int} {rs : List Int} (hr : r ∈ rs) :
    clampIntvl (tick D rs) r = tick D rs := by
  have hle : tick D rs ≤ clampIntvl D r := tick_le_clamp hr
  generalize tick D rs = m at hle ⊢
  simp only [clampIntvl, w1MinIntvl] at hle ⊢
  split_ifs at hle ⊢ <;> omega

theorem tick_tick (D : Int) (rs : List Int) : tick (tick D rs) rs = tick D rs := by
  apply le_antisymm tick_le
  refine Multiples.le_foldl_min le_rfl fun x hx => ?_
  obtain ⟨r, hr, rfl⟩ := List.mem_map.mp hx
  exact (clampIntvl_tick hr).ge

/-- A number from `m` on holds `m` once exactly when it is less than twice `m`. -/
theorem tdiv_eq_one_iff {a m : Int} (hm : 1 ≤ m) (ha : m ≤ a) : a.tdiv m = 1 ↔ a < 2 * m := by
  rw [Int.tdiv_eq_ediv_of_nonneg (by omega)]
  constructor
  · intro h
    have hlt := Int.lt_ediv_add_one_mul_self a (show 0 < m by omega)
    rwa [h] at hlt
  · intro h
    have h₁ := Int.ediv_lt_of_lt_mul (show 0 < m by omega) h
    have h₂ := Int.le_ediv_of_mul_le (show 0 < m by omega) (show 1 * m ≤ a by omega)
    omega

/-- Without a `delay` line the schedule comes back exactly when no clamped request is
twice the least one or more: the reload reads every device at the tick. -/
theorem reproduces_iff_of_noDelayLine (hfile : host.rcLines none = host.rcLines host.w1rcfile)
    (hline : ∀ v, .delay v ∉ host.rcLines none)
    (hload : host.load (host.rcLines none) w1DefaultIntvl = some (rows, delay))
    (hsch : scheduleOf rows (cycleTime opts delay) = some sch)
    (hpos : 1 ≤ cycleTime opts delay) :
    host.Reproduces opts ↔ ∀ r ∈ rows.map (·.intvl), clampIntvl (cycleTime opts delay) r <
      2 * tick (cycleTime opts delay) (rows.map (·.intvl)) := by
  rw [reproduces_iff_sameTicks hfile hload hsch, lastDelay_of_none hline]
  set D := cycleTime opts delay
  set rs := rows.map (·.intvl)
  have hm := tick_pos rs hpos
  have hcount : ∀ r ∈ rs, ((clampIntvl D r).tdiv (tick D rs) =
      (clampIntvl (tick D rs) r).tdiv (tick D rs) ↔ clampIntvl D r < 2 * tick D rs) := by
    intro r hr
    rw [clampIntvl_tick hr, Int.tdiv_self (by omega)]
    exact tdiv_eq_one_iff hm (tick_le_clamp hr)
  constructor
  · rintro ⟨-, -, hc⟩ r hr
    exact (hcount r hr).mp (List.forall₂_same.mp hc r hr)
  · intro h
    refine ⟨by omega, tick_tick D rs, List.forall₂_same.mpr fun r hr => ?_⟩
    exact (hcount r hr).mpr (h r hr)

end
end W1Retap

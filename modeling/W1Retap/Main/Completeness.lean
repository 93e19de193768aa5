import W1Retap.Config.Idempotence
import W1Retap.Main.Freshness

/-!
# Every device at every multiple of its interval

`w1_verify_intervals` leaves intervals that are multiples of the delay, and the wake-ups
of an undisturbed run are consecutive multiples of it. So no multiple of an interval is
slept through, and a device is read at the wake-ups that its interval divides.
-/
namespace W1Retap

open Programs

/-- The second at which an event is a read of device `n`. -/
def Event.readTime (n : ℕ) : Event → Option Int
  | .read m secs => if m = n then some secs else none
  | _ => none

/-- The times at which device `n` was read, latest first. -/
def readTimes (n : ℕ) (trace : List Event) : List Int := trace.filterMap (Event.readTime n)

/-- The wake-up that a round asks for. -/
def Round.wakeup (delay : Int) (r : Round) : Int := r.before.tdiv delay * delay + delay

/-- There are no signals, every sleep ends in the second asked for, and every read pass
ends before the next multiple of the delay. -/
structure Timely (delay : Int) (rounds : List Round) : Prop where
  epoch : ∀ r ∈ rounds, 0 ≤ r.before
  calm : ∀ r ∈ rounds, r.usr1 = false ∧ r.hup = false
  onTime : ∀ r ∈ rounds, r.sleep = .woke (r.wakeup delay)
  brief : rounds.IsChain fun r next =>
    r.wakeup delay ≤ next.before ∧ next.before < r.wakeup delay + delay

/-! ## The wake-ups -/

section
variable {delay : Int} {rounds : List Round} {r next : Round}

theorem Timely.tail (h : Timely delay (r :: rounds)) : Timely delay rounds :=
  ⟨fun x hx => h.epoch x (List.mem_cons_of_mem _ hx), fun x hx => h.calm x (List.mem_cons_of_mem _ hx),
    fun x hx => h.onTime x (List.mem_cons_of_mem _ hx), h.brief.tail⟩

theorem dvd_wakeup (delay : Int) (r : Round) : delay ∣ r.wakeup delay :=
  dvd_add_self_right.mpr (Int.dvd_mul_left _ _)

theorem wakeup_pos (hd : 0 < delay) (h : 0 ≤ r.before) : 0 < r.wakeup delay := by
  have hq : 0 ≤ r.before.tdiv delay := Int.tdiv_nonneg h hd.le
  have hm : 0 ≤ r.before.tdiv delay * delay := Int.mul_nonneg hq hd.le
  unfold Round.wakeup
  omega

/-- A sleep that begins within one delay of a wake-up ends one delay after it. -/
theorem wakeup_next (hd : 0 < delay) (hw : 0 ≤ r.wakeup delay) (h₁ : r.wakeup delay ≤ next.before)
    (h₂ : next.before < r.wakeup delay + delay) : next.wakeup delay = r.wakeup delay + delay := by
  obtain ⟨k, hk⟩ := dvd_wakeup delay r
  rw [mul_comm] at hk
  have hq : next.before.tdiv delay = k := by
    rw [Int.tdiv_eq_ediv_of_nonneg (hw.trans h₁), Int.ediv_eq_iff_of_pos hd, ← hk]
    exact ⟨h₁, h₂⟩
  rw [Round.wakeup, hq, hk]

theorem Timely.wakeups (h : Timely delay rounds) (hd : 0 < delay) :
    (rounds.map (Round.wakeup delay)).IsChain fun x y => y = x + delay := by
  rw [List.isChain_map]
  have hpos : ∀ r ∈ rounds, 0 ≤ r.wakeup delay := fun r hr => (wakeup_pos hd (h.epoch r hr)).le
  exact h.brief.imp_of_mem_imp fun r next hr _ hb => wakeup_next hd (hpos r hr) hb.1 hb.2

/-- Between the first and the last wake-up no multiple of the delay is missed. -/
theorem Timely.mem_wakeups (h : Timely delay rounds) (hd : 0 < delay) {t first last : Int}
    (hf : (rounds.map (Round.wakeup delay)).head? = some first)
    (hl : (rounds.map (Round.wakeup delay)).getLast? = some last)
    (ht : delay ∣ t) (h₁ : first ≤ t) (h₂ : t ≤ last) : t ∈ rounds.map (Round.wakeup delay) := by
  have hchain := h.wakeups hd
  cases rounds with
  | nil => simp at hf
  | cons r rounds =>
    obtain rfl := Option.some.inj hf
    rw [List.getLast?_eq_some_getLast (by simp)] at hl
    obtain rfl := Option.some.inj hl
    exact Multiples.mem_of_isChain_add hchain (dvd_wakeup delay r) ht h₁ h₂

end

/-! ## The reads of one device -/

section
variable {σ : Type} {drv : Driver σ} {host : Host} {s s' : Machine σ} {n m : ℕ}
  {delay intvl : Int} {ts : List Int}

/-- The program reads, on this delay; device `n` has this interval and was read at `ts`. -/
structure Visited (n : ℕ) (delay intvl : Int) (ts : List Int) (s : Machine σ) : Prop where
  doread : s.w1.doread = true
  delay : s.w1.delay = delay
  intvl : ∃ d, s.w1.devs[n]? = some d ∧ d.intvl = intvl
  times : readTimes n s.trace = ts

theorem due_iff_dvd {d : Device} (hd : 0 < d.intvl) {secs : Int} :
    d.due secs = true ↔ d.intvl ∣ secs := by
  have hne : (d.intvl == 0) = false := by simpa using hd.ne'
  rw [Device.due, hne, Bool.or_false, Bool.or_eq_true, beq_iff_eq, beq_iff_eq,
    ← Int.dvd_iff_tmod_eq_zero]
  constructor
  · rintro (rfl | h)
    · exact dvd_zero _
    · exact h
  · exact Or.inr

theorem readTimes_cons {e : Event} (he : e.readTime n = none) (t : List Event) :
    readTimes n (e :: t) = readTimes n t :=
  List.filterMap_cons_none he

theorem readTime_isSensor {e : Event} (he : e.isSensor = true) : e.readTime n = none := by
  cases e <;> first | rfl | simp [Event.isSensor, Event.isBus] at he

theorem Visited.of_sameShape (h : Visited n delay intvl ts s) (hs : SameShape s s')
    (ht : readTimes n s'.trace = readTimes n s.trace) : Visited n delay intvl ts s' := by
  obtain ⟨d, hd, hi⟩ := h.intvl
  have hn := congrArg (·[n]?) hs.devs
  simp only [List.getElem?_map, hd, Option.map_some] at hn
  obtain ⟨d', hd', he⟩ := Option.map_eq_some_iff.mp hn
  refine ⟨?_, ?_, ⟨d', hd', (congrArg Prod.snd he).trans hi⟩, ht.trans h.times⟩
  · rw [hs.w1]
    exact h.doread
  · rw [hs.w1]
    exact h.delay

/-- Whatever is no read of device `n` leaves its times alone. -/
theorem RunStep.visited (h : RunStep (fun e => e.readTime n = none) s s')
    (hs : Visited n delay intvl ts s) : Visited n delay intvl ts s' := by
  have htrace : readTimes n s'.trace = readTimes n s.trace := by
    rcases h.extends fun e he => readTime_isSensor he with ht | ⟨e, he, ht⟩
    · rw [ht]
    · rw [ht]
      exact readTimes_cons he _
  cases h with
  | sensor m hm => exact hs.of_sameShape hm.sameShape htrace
  | mark e he => exact hs.of_sameShape ⟨rfl, rfl⟩ htrace
  | logtime t => exact ⟨hs.doread, hs.delay, hs.intvl, htrace.trans hs.times⟩

theorem ends_of_run {α : Type} {k : M σ α} (hk : Does (RunStep fun e => e.readTime n = none) k) :
    Ends (Visited n delay intvl ts) k fun _ => Visited n delay intvl ts :=
  .of_does hk fun _ _ hstep => hstep.visited

/-- A device is read when its turn comes, if it is due. -/
theorem ends_readDevice (hi : 0 < intvl) (secs : Int) :
    Ends (Visited n delay intvl ts) (readDevice drv secs n) fun _ =>
      Visited n delay intvl ((if intvl ∣ secs then [secs] else []) ++ ts) := by
  intro s a s' hs h
  rw [readDevice, run_bind_ok] at h
  obtain ⟨_, s₁, h₁, h⟩ := h
  have hs₁ := ends_of_run (run_sensor (n := n) does_w1SetInvalid) s _ s₁ hs h₁
  rw [run_dev_bind_ok] at h
  obtain ⟨d, hd, h⟩ := h
  obtain ⟨d', hd', rfl⟩ := hs₁.intvl
  obtain rfl : d = d' := Option.some.inj (hd.symm.trans hd')
  by_cases hdue : d.due secs = true
  · rw [if_pos hdue, run_event_bind, run_bind_ok] at h
    obtain ⟨_, s₂, h₂, h⟩ := h
    obtain ⟨-, rfl⟩ := run_pure_ok.mp h
    have hlog : Visited n delay d.intvl (secs :: ts) (s₁.log (.read n secs)) := by
      refine ⟨hs₁.doread, hs₁.delay, ⟨d, hd, rfl⟩, ?_⟩
      rw [Machine.log_trace, ← hs₁.times]
      exact List.filterMap_cons_some (if_pos rfl)
    rw [if_pos ((due_iff_dvd hi).mp hdue)]
    exact ends_of_run (run_sensor (n := n) (does_readRetrying d.stype w1Retry)) _ _ _ hlog h₂
  · rw [if_neg hdue] at h
    obtain ⟨-, rfl⟩ := run_pure_ok.mp h
    rw [if_neg fun hdvd => hdue ((due_iff_dvd hi).mpr hdvd)]
    exact hs₁

/-- The pass adds a visit of device `n` if it is among those to come and due. -/
theorem ends_readDevices (hi : 0 < intvl) (secs : Int) (ns : List ℕ) (ts : List Int) :
    Ends (Visited n delay intvl ts) (readDevices drv secs ns) fun _ => Visited n delay intvl
      ((if intvl ∣ secs then List.replicate (ns.count n) secs else []) ++ ts) := by
  induction ns generalizing ts with
  | nil => exact .pure fun s hs => by simpa using hs
  | cons m ns ih =>
    by_cases hm : m = n
    · subst hm
      refine .bind (ends_readDevice hi secs) fun _ => .bind (ih _) fun _ => .pure fun s hs => ?_
      by_cases hdvd : intvl ∣ secs
      · simpa [hdvd, List.replicate_succ'] using hs
      · simpa [hdvd] using hs
    · have hother : Ends (Visited n delay intvl ts) (readDevice drv secs m) fun _ =>
          Visited n delay intvl ts := ends_of_run (run_readDevice (if_neg hm))
      refine .bind hother fun _ => .bind (ih _) fun _ => .pure fun s hs => ?_
      simpa [hm] using hs

/-! ## A whole run -/

/-- A read pass visits device `n` exactly when its interval divides the time. -/
theorem ends_visit (hi : 0 < intvl) (secs : Int) :
    Ends (Visited n delay intvl ts) (w1ReadAllSensors drv secs) fun _ =>
      Visited n delay intvl ((if intvl ∣ secs then [secs] else []) ++ ts) := by
  intro s nv s' hs h
  rw [w1ReadAllSensors, run_getW1_bind, if_pos hs.doread] at h
  have hquiet : ∀ {α : Type} {k : M σ α}, Does (SensorStep 0) k →
      ∀ ts, Ends (Visited n delay intvl ts) k fun _ => Visited n delay intvl ts :=
    fun hk ts => ends_of_run (run_sensor hk)
  obtain ⟨d, hd, -⟩ := hs.intvl
  have hlen : n < s.w1.devs.length := (List.getElem?_eq_some_iff.mp hd).1
  have hone : (List.range s.w1.devs.length).count n = 1 :=
    List.count_eq_one_of_mem List.nodup_range (List.mem_range.mpr hlen)
  have hpass : Ends (Visited n delay intvl ts)
      (readDevices drv secs (List.range s.w1.devs.length)) fun _ =>
        Visited n delay intvl ((if intvl ∣ secs then [secs] else []) ++ ts) := by
    have hvisits : (if intvl ∣ secs then [secs] else []) = if intvl ∣ secs then
        List.replicate ((List.range s.w1.devs.length).count n) secs else [] := by
      rw [hone]
      rfl
    rw [hvisits]
    exact ends_readDevices hi secs _ ts
  have hends : Ends (Visited n delay intvl ts) (do
      event (.readAll secs)
      acquire drv
      let nv ← readDevices drv secs (List.range s.w1.devs.length)
      w1AllCouplersOff drv
      return nv) fun _ => Visited n delay intvl ((if intvl ∣ secs then [secs] else []) ++ ts) := by
    refine .bind (ends_of_run (run_mark rfl)) fun _ => .bind (hquiet does_acquire ts) fun _ => ?_
    refine .bind hpass fun _ => .bind (hquiet (does_w1AllCouplersOff drv) _) fun _ => ?_
    exact .pure fun s hs => hs
  exact hends s nv s' hs h

theorem ends_visitAndLog (hi : 0 < intvl) (now : Int) :
    Ends (Visited n delay intvl ts) (readPass drv now) fun _ =>
      Visited n delay intvl ((if intvl ∣ now then [now] else []) ++ ts) := by
  refine .bind (ends_visit hi now) fun nv => ?_
  refine ends_of_run ?_
  have hrel : Does (RunStep fun e => e.readTime n = none) (releaseInterface drv) :=
    run_releaseInterface
  refine .ite (fun _ => .bind (run_callLoggers fun _ _ _ => rfl) fun _ => ?_) fun _ => hrel
  refine .bind does_getW1 fun w1 => .ite (fun _ => .bind (.lift _) fun phase => ?_) fun _ => hrel
  exact .ite (fun _ => .bind (run_w1Tmpfilelog fun _ => rfl) fun _ => hrel) fun _ => hrel

/-- An undisturbed round ends at the wake-up that it asks for. -/
theorem ends_wait {r : Round} (hr : r.usr1 = false ∧ r.hup = false)
    (hw : r.sleep = .woke (r.wakeup delay)) :
    Ends (Visited n delay intvl ts) (waitRound drv host r) fun left s =>
      left = some (r.wakeup delay) ∧ Visited n delay intvl ts s := by
  intro s left s' hs h
  obtain ⟨s₀, hsignals, hs⟩ : ∃ s₀, (handleSignals drv host r).run s = .ok ((), s₀) ∧
      Visited n delay intvl ts s₀ := by
    rw [handleSignals, hr.1, hr.2]
    by_cases hshow : r.usr2 = true
    · refine ⟨s.log .showConfig, by rw [hshow]; rfl, hs.doread, hs.delay, hs.intvl, ?_⟩
      exact (readTimes_cons rfl s.trace).trans hs.times
    · exact ⟨s, by rw [if_neg hshow]; rfl, hs⟩
  rw [waitRound, run_bind_of_ok hsignals, sleepToTick, run_getW1_bind, run_bind_ok, hs.delay] at h
  obtain ⟨wakeup, s₁, h₁, h⟩ := h
  obtain ⟨-, rfl⟩ := run_lift_ok.mp h₁
  rw [run_event_bind, hw, run_modifyW1_bind] at h
  obtain ⟨rfl, rfl⟩ := run_pure_ok.mp h
  refine ⟨rfl, hs.doread, hs.delay, hs.intvl, ?_⟩
  exact (readTimes_cons rfl _).trans hs.times

theorem ends_rounds (hi : 0 < intvl) {rounds : List Round} (ht : Timely delay rounds)
    (hd : 0 < delay) (ts : List Int) :
    Ends (Visited n delay intvl ts) (mainLoop drv host rounds) fun _ => Visited n delay intvl
      (((rounds.map (Round.wakeup delay)).filter (intvl ∣ ·)).reverse ++ ts) := by
  induction rounds generalizing ts with
  | nil => exact .pure fun s hs => hs
  | cons r rounds ih =>
    refine .bind (ends_wait (ht.calm r List.mem_cons_self) (ht.onTime r List.mem_cons_self))
      fun left => ?_
    intro s u s' hs h
    obtain ⟨rfl, hs⟩ := hs
    have hpass : Ends (Visited n delay intvl ts) (do
        readPass drv (r.wakeup delay)
        let w1 ← getW1
        if w1.delay ≠ 0 then mainLoop drv host rounds) fun _ => Visited n delay intvl
          (((rounds.map (Round.wakeup delay)).filter (intvl ∣ ·)).reverse ++
            ((if intvl ∣ r.wakeup delay then [r.wakeup delay] else []) ++ ts)) := by
      refine .bind (ends_visitAndLog hi _) fun _ => .bind ends_getW1_eq fun w1 => ?_
      refine .ite (fun _ => (ih ht.tail _).conseq (fun _ hs => hs.2) fun _ _ hs => hs) fun hz => ?_
      exact .pure fun s hs => absurd (hs.1 ▸ hs.2.delay) fun h => hz (by omega)
    have hs' := hpass s u s' hs h
    by_cases hdvd : intvl ∣ r.wakeup delay
    · simpa [hdvd] using hs'
    · simpa [hdvd] using hs'

/-- The delay at the end of start-up divides every interval. It is positive when the
configured one is. -/
theorem startup_intvl {opts : List Opt} {start : Int} {l : Locals}
    (h : (startup drv host opts start).run s = .ok (l, s')) (hd : 1 ≤ s'.w1.delay) :
    ∀ d ∈ s'.w1.devs, 0 < d.intvl ∧ s'.w1.delay ∣ d.intvl := by
  obtain ⟨sch, port, hsch, -, hruns⟩ := startup_ok h
  obtain ⟨⟨rows, D⟩, -, hsch⟩ := Option.bind_eq_some_iff.mp hsch
  obtain ⟨-, hD, -, hdelay, hintvls, -⟩ := scheduleOf_eq_some.mp hsch
  have hs : s'.w1.delay = sch.delay := congrArg Schedule.delay hruns.schedule
  rw [hs, hdelay] at hd ⊢
  have hpos : 1 ≤ cycleTime opts D := by
    rcases lt_or_gt_of_ne hD with hneg | hpos
    · rw [tick_of_neg hneg] at hd
      omega
    · exact hpos
  intro d hmem
  have hi : d.intvl ∈ sch.intvls := by
    rw [← hruns.schedule]
    exact List.mem_map_of_mem hmem
  rw [hintvls] at hi
  obtain ⟨r, hr, he⟩ := List.mem_map.mp hi
  rw [← he]
  exact ⟨adjust_pos hpos hr, tick_dvd_adjust⟩

/-- In an undisturbed run, each device is read at the wake-ups that its interval divides,
and at no others; `-w` apart it is read once more before them. Every multiple of the
interval from the first wake-up to the last is a wake-up. -/
theorem schedule_complete (drv : Driver σ) (host : Host) (opts : List Opt) (start : Int)
    {rounds : List Round} {bus : σ} {l : Locals} {s s' : Machine σ}
    (hstart : (startup drv host opts start).run { w1 := {}, bus } = .ok (l, s))
    (hd : 1 ≤ s.w1.delay) (honce : l.once = false) (ht : Timely s.w1.delay rounds)
    (h : (main drv host opts start rounds).run { w1 := {}, bus } = .ok ((), s')) :
    ∀ n d, s.w1.devs[n]? = some d →
      readTimes n s'.trace =
        ((rounds.map (Round.wakeup s.w1.delay)).filter (d.intvl ∣ ·)).reverse ++
          (if l.immed then [0] else []) ∧
      ∀ first last t, (rounds.map (Round.wakeup s.w1.delay)).head? = some first →
        (rounds.map (Round.wakeup s.w1.delay)).getLast? = some last →
        first ≤ t → t ≤ last → d.intvl ∣ t → t ∈ rounds.map (Round.wakeup s.w1.delay) := by
  intro n d hdev
  obtain ⟨hi, hdvd⟩ := startup_intvl hstart hd d (List.mem_of_getElem? hdev)
  refine ⟨?_, fun first last t hf hl h₁ h₂ hdt =>
    ht.mem_wakeups (by omega) hf hl (hdvd.trans hdt) h₁ h₂⟩
  have hnone : readTimes n s.trace = [] := by
    refine Does.keeps (P := fun s => readTimes n s.trace = [])
      (extends_startup (P := fun e => e.readTime n = none) ?_ opts start) ?_ hstart rfl
    · exact fun e he => readTime_isSensor (isSensor_of_isBus he)
    · rintro s s' (htr | ⟨e, he, htr⟩) hs
      · rw [htr]
        exact hs
      · rw [htr, readTimes_cons he]
        exact hs
  have hs : Visited n s.w1.delay d.intvl [] s := ⟨startup_doread hstart, rfl, ⟨d, hdev, rfl⟩, hnone⟩
  rw [main, run_bind_of_ok hstart] at h
  have hloop : ∀ ts, Ends (Visited n s.w1.delay d.intvl ts) (do
      let w1 ← getW1
      if l.once = false ∧ w1.delay ≠ 0 then mainLoop drv host rounds) fun _ =>
        Visited n s.w1.delay d.intvl
          (((rounds.map (Round.wakeup s.w1.delay)).filter (d.intvl ∣ ·)).reverse ++ ts) := by
    intro ts
    refine .bind ends_getW1_eq fun w1 => .ite (fun _ => ?_) fun hz => ?_
    · exact (ends_rounds hi ht (by omega) ts).conseq (fun _ hs => hs.2) fun _ _ hs => hs
    · exact .pure fun t hs => absurd ⟨honce, by rw [hs.1, hs.2.delay]; omega⟩ hz
  by_cases himmed : l.immed = true
  · rw [if_pos himmed] at h ⊢
    have hfirst : Ends (Visited n s.w1.delay d.intvl []) (readPass drv 0) fun _ =>
        Visited n s.w1.delay d.intvl ((if d.intvl ∣ 0 then [0] else []) ++ []) :=
      ends_visitAndLog hi 0
    rw [if_pos (dvd_zero _)] at hfirst
    exact (hfirst.bind (fun _ => hloop _) _ _ _ hs h).times
  · rw [if_neg himmed] at h ⊢
    exact (hloop [] _ _ _ hs h).times

end

/-- Three wake-ups of two thermometers, one read every two minutes and one every minute. -/
theorem schedule_complete_twoThermometers :
    ∃ s' : Machine Unit, (main Driver.silent twoThermometers [] 50
        [{ before := 55, sleep := .woke 60 }, { before := 62, sleep := .woke 120 },
          { before := 179, sleep := .woke 180 }]).run { w1 := {}, bus := () } = .ok ((), s') ∧
      readTimes 0 s'.trace = [120, 0] ∧ readTimes 1 s'.trace = [180, 120, 60, 0] := by
  obtain ⟨l, s, hstart, honce, himmed, hd, hi⟩ := exists_result_ok
    (m := startup Driver.silent twoThermometers [] 50) (s := { w1 := {}, bus := () })
    (p := fun r => r.1.once = false ∧ r.1.immed = true ∧ r.2.w1.delay = 60 ∧
      r.2.w1.devs.map (·.intvl) = [120, 60]) (by decide +kernel)
  change s.w1.delay = 60 at hd
  obtain ⟨_, s', h, -⟩ := exists_run_ok
    (m := main Driver.silent twoThermometers [] 50 [{ before := 55, sleep := .woke 60 },
      { before := 62, sleep := .woke 120 }, { before := 179, sleep := .woke 180 }])
    (s := { w1 := {}, bus := () }) (p := fun _ => True) (by decide +kernel)
  have htimely : Timely s.w1.delay [{ before := 55, sleep := .woke 60 },
      { before := 62, sleep := .woke 120 }, { before := 179, sleep := .woke 180 }] := by
    rw [hd]
    exact ⟨by decide, by decide, by decide, by decide⟩
  have htimes : ∀ n i, (s.w1.devs.map (·.intvl))[n]? = some i → readTimes n s'.trace =
      (([60, 120, 180] : List Int).filter (i ∣ ·)).reverse ++ [0] := by
    intro n i hn
    rw [List.getElem?_map] at hn
    obtain ⟨d, hdev, rfl⟩ := Option.map_eq_some_iff.mp hn
    have hread := (schedule_complete Driver.silent twoThermometers [] 50 hstart (by omega) honce
      htimely h n d hdev).1
    rw [hd, himmed] at hread
    exact hread
  rw [hi] at htimes
  exact ⟨s', h, (htimes 0 120 rfl).trans (by decide), (htimes 1 60 rfl).trans (by decide)⟩

end W1Retap

import W1Retap.Couplers.Switching

/-!
# What the cache says when commands fail

A run of selections and switch-offs is cut into the calls of `w1_set_coupler` and the
searches it makes. `CacheTrue` holds in every state of the run exactly when every
command that is sent works, or is not needed, and meets no second entry for the same
coupler that remembers something else.
-/
namespace W1Retap

open Programs SwitchBank

/-! ## The steps of a run -/

inductive BusStep where
  | set (n : ℕ) (lines : Int)
  | search (n : ℕ)
  deriving DecidableEq, Repr

/-- The commands of a loop that switches off. -/
def offSteps (devs : List Device) (own : Option ℕ) (xs : List ℕ) : List BusStep :=
  xs.filterMap fun i => devs[i]?.bind fun d =>
    if d.stype = .coupler ∧ own ≠ some i then some (.set i couplerAllOff) else none

def SwitchOp.steps (w1 : DevList) : SwitchOp → List BusStep
  | allOff => if w1.doread then offSteps w1.devs none (List.range w1.devs.length) else []
  | select n =>
    let own := w1.devs[n]?.bind (·.coupler)
    offSteps w1.devs (own.map (·.couplerDevice)) (List.range w1.devs.length) ++
      (own.map fun c => .set c.couplerDevice c.branch).toList ++ [.search n]

section
variable {σ : Type}

def BusStep.run (drv : Driver σ) : BusStep → M σ Unit
  | set n lines => w1SetCoupler drv n lines
  | search n => do
    let w ← dev n
    event (.search n)
    let _ ← call (drv.owSearch w.serno.family w.serno)

/-- The cached lines of every initialised coupler are undefined or the real ones. -/
def CacheTrue (start : Serno → Int) (s : Machine σ) : Prop :=
  ∀ d ∈ s.w1.devs, d.stype = .coupler → ∀ lines ∈ d.activeLines,
    lines = couplerUndefined ∨ linesAfter start s.trace d.serno = lines

instance (start : Serno → Int) (s : Machine σ) : Decidable (CacheTrue start s) :=
  inferInstanceAs (Decidable (∀ d ∈ s.w1.devs, d.stype = .coupler → ∀ lines ∈ d.activeLines,
    lines = couplerUndefined ∨ linesAfter start s.trace d.serno = lines))

/-- If setting coupler `n` sends a command, the command works or the lines are as asked
for already, and no other entry for the same coupler remembers anything else. -/
def SetHarmless (drv : Driver σ) (start : Serno → Int) (n : ℕ) (lines : Int) (s : Machine σ) :
    Prop :=
  Harmless couplerUndefined (bank start s) n lines (answer drv n lines s)

theorem cacheTrue_iff {start : Serno → Int} {s : Machine σ} :
    CacheTrue start s ↔ Coherent couplerUndefined (bank start s) := by
  constructor
  · intro h i k p hp
    obtain ⟨d, hd, hc⟩ := Option.bind_eq_some_iff.mp hp
    obtain rfl := cached_serno hc
    unfold Device.cached at hc
    split at hc
    · rename_i ht
      obtain ⟨lines, hl, he⟩ := Option.map_eq_some_iff.mp hc
      obtain rfl := (Prod.mk.inj he).2
      exact h d (List.mem_of_getElem? hd) ht lines hl
    · simp at hc
  · intro h d hd ht lines hl
    obtain ⟨i, hi⟩ := List.mem_iff_getElem?.mp hd
    exact h i d.serno lines (by rw [bank_entry_eq hi, cached_of_activeLines ht hl])

/-! ## The steps make up the run -/

theorem SameWiring.dev_stype {s₀ s : Machine σ} (h : SameWiring s₀ s) {i : ℕ} {d : Device}
    (hd : s.w1.devs[i]? = some d) :
    ∃ d₀, s₀.w1.devs[i]? = some d₀ ∧ d₀.stype = d.stype ∧ d₀.coupler = d.coupler := by
  obtain ⟨d₀, hd₀, hw⟩ := h.dev hd
  exact ⟨d₀, hd₀, (congrArg (·.1) hw).symm, (congrArg (·.2.2) hw).symm⟩

theorem switchOff_steps {drv : Driver σ} {own : Option ℕ} {s₀ s s' : Machine σ} {u : PUnit}
    (hw : SameWiring s₀ s) (xs : List ℕ)
    (h : (xs.forM (switchOff drv own)).run s = .ok (u, s')) :
    ((offSteps s₀.w1.devs own xs).forM (BusStep.run drv)).run s = .ok (u, s') ∧
      SameWiring s₀ s' := by
  induction xs generalizing s with
  | nil =>
    obtain ⟨-, rfl⟩ := run_pure_ok.mp h
    exact ⟨h, hw⟩
  | cons i xs ih =>
    obtain ⟨_, s₁, hi, hxs⟩ := run_forM_cons_ok.mp h
    rw [switchOff, run_dev_bind_ok] at hi
    obtain ⟨d, hd, hi⟩ := hi
    obtain ⟨d₀, hd₀, ht, -⟩ := hw.dev_stype hd
    by_cases hc : d.stype = .coupler ∧ own ≠ some i
    · rw [if_pos hc] at hi
      have hw₁ := hw.trans (w1SetCoupler_ok allOff hi).2.1
      obtain ⟨hsteps, hw'⟩ := ih hw₁ hxs
      have hcons : offSteps s₀.w1.devs own (i :: xs) =
          .set i couplerAllOff :: offSteps s₀.w1.devs own xs := by
        simp [offSteps, hd₀, ht, hc]
      refine ⟨?_, hw'⟩
      rw [hcons, run_forM_cons_ok]
      exact ⟨_, s₁, hi, hsteps⟩
    · rw [if_neg hc] at hi
      obtain ⟨-, rfl⟩ := run_pure_ok.mp hi
      have hcons : offSteps s₀.w1.devs own (i :: xs) = offSteps s₀.w1.devs own xs := by
        rw [← ht] at hc
        simp only [offSteps, List.filterMap_cons, hd₀, Option.bind_some, if_neg hc]
      rw [hcons]
      exact ih hw hxs

theorem switchOp_steps {drv : Driver σ} {op : SwitchOp} {s₀ s s' : Machine σ} {u : Unit}
    (hw : SameWiring s₀ s) (h : (op.run drv).run s = .ok (u, s')) :
    ((op.steps s₀.w1).forM (BusStep.run drv)).run s = .ok (⟨⟩, s') ∧ SameWiring s₀ s' := by
  have hlen : s.w1.devs.length = s₀.w1.devs.length := by
    simpa using congrArg List.length hw.1
  cases op with
  | allOff =>
    rw [SwitchOp.run, w1AllCouplersOff, run_getW1_bind, hw.2, hlen] at h
    rw [SwitchOp.steps]
    by_cases hd : s₀.w1.doread = true
    · rw [if_pos hd] at h ⊢
      exact switchOff_steps hw _ h
    · rw [if_neg hd] at h ⊢
      obtain ⟨-, rfl⟩ := run_pure_ok.mp h
      exact ⟨rfl, hw⟩
  | select n =>
    rw [SwitchOp.run, run_bind_ok] at h
    obtain ⟨found, s₁, hsel, h⟩ := h
    obtain ⟨-, rfl⟩ := run_pure_ok.mp h
    rw [w1SelectDevice, run_getW1_bind, run_dev_bind_ok, hlen] at hsel
    obtain ⟨w, hwdev, hsel⟩ := hsel
    obtain ⟨w₀, hw₀, -, hcoupler⟩ := hw.dev_stype hwdev
    rw [run_bind_ok] at hsel
    obtain ⟨_, s₁, hloop, hsel⟩ := hsel
    obtain ⟨hoff, hw₁⟩ := switchOff_steps hw _ hloop
    rw [run_bind_ok] at hsel
    obtain ⟨_, s₂, hown, hsel⟩ := hsel
    obtain rfl := (run_pure_ok.mp hsel).2
    have hset : ((w.coupler.map fun c => BusStep.set c.couplerDevice c.branch).toList.forM
        (BusStep.run drv)).run s₁ = .ok (⟨⟩, s₂) ∧ SameWiring s₀ s₂ := by
      cases hc : w.coupler with
      | none =>
        rw [hc] at hown
        obtain rfl := (run_pure_ok.mp hown).2
        exact ⟨rfl, hw₁⟩
      | some c =>
        rw [hc] at hown
        exact ⟨run_forM_cons_ok.mpr ⟨_, s₂, hown, rfl⟩, hw₁.trans (w1SetCoupler_ok allOff hown).2.1⟩
    obtain ⟨hset, hw₂⟩ := hset
    obtain ⟨w₂, hw₂dev, hwiring⟩ := (hw₂.symm.trans hw).dev hwdev
    have hserno : w₂.serno = w.serno := (congrArg (·.2.1) hwiring).symm
    rw [SwitchOp.steps, hw₀, Option.bind_some, hcoupler, run_forM_append_ok]
    refine ⟨⟨_, s₂, run_forM_append_ok.mpr ⟨_, s₁, hoff, hset⟩, ?_⟩, hw₂⟩
    have hsearch : ((BusStep.search n).run drv).run s₂ = .ok ((), ((s₂.log (.search n)).setBus
        (drv.owSearch w.serno.family w.serno s₂.bus).2)) := by
      rw [BusStep.run, run_dev_bind hw₂dev, run_event_bind, run_call_bind, hserno]
      rfl
    exact run_forM_cons_ok.mpr ⟨_, _, hsearch, rfl⟩

/-- The steps of a whole run, which never change the wiring. -/
theorem switchOps_steps {drv : Driver σ} {ops : List SwitchOp} {s₀ s s' : Machine σ} {u : PUnit}
    (hw : SameWiring s₀ s) (h : (ops.forM (SwitchOp.run drv)).run s = .ok (u, s')) :
    ((ops.flatMap (SwitchOp.steps s₀.w1)).forM (BusStep.run drv)).run s = .ok (u, s') := by
  induction ops generalizing s with
  | nil => exact h
  | cons op ops ih =>
    obtain ⟨_, s₁, hop, hops⟩ := run_forM_cons_ok.mp h
    obtain ⟨hsteps, hw₁⟩ := switchOp_steps hw hop
    rw [List.flatMap_cons, run_forM_append_ok]
    exact ⟨_, s₁, hsteps, ih hw₁ hops⟩

/-! ## When the cache is true -/

section
variable {drv : Driver σ} {start : Serno → Int} {s s' : Machine σ}

theorem search_bank {n : ℕ} {u : Unit} (h : ((BusStep.search n).run drv).run s = .ok (u, s')) :
    bank start s' = bank start s := by
  rw [BusStep.run, run_dev_bind_ok] at h
  obtain ⟨w, hw, h⟩ := h
  rw [run_event_bind, run_call_bind] at h
  obtain ⟨-, rfl⟩ := run_pure_ok.mp h
  rfl

/-- One step of a coherent state. -/
theorem step_cacheTrue {step : BusStep} {u : Unit} (hs : CacheTrue start s)
    (hlines : ∀ n lines, step = .set n lines → lines ≠ couplerUndefined)
    (h : (step.run drv).run s = .ok (u, s')) :
    CacheTrue start s' ↔ ∀ n lines, step = .set n lines → SetHarmless drv start n lines s := by
  rw [cacheTrue_iff] at hs
  cases step with
  | search n =>
    rw [cacheTrue_iff, search_bank h]
    exact iff_of_true hs (by simp)
  | set n lines =>
    rw [cacheTrue_iff, (w1SetCoupler_ok start h).1, coherent_set_iff hs (hlines n lines rfl)]
    constructor
    · rintro hh n' lines' he
      obtain ⟨rfl, rfl⟩ := BusStep.set.inj he
      exact hh
    · exact fun hh => hh n lines rfl

/-- The steps of a run of a freshly loaded table never ask for undefined lines. -/
theorem steps_lines {w1 : DevList} (hw : ∀ d ∈ w1.devs, ∀ c, d.coupler = some c →
      c.branch = couplerMainOn ∨ c.branch = couplerAuxOn) {op : SwitchOp} {n : ℕ} {lines : Int}
    (h : .set n lines ∈ op.steps w1) : lines ≠ couplerUndefined := by
  have hoff : ∀ own xs, .set n lines ∈ offSteps w1.devs own xs → lines = couplerAllOff := by
    intro own xs hm
    obtain ⟨i, -, hi⟩ := List.mem_filterMap.mp hm
    obtain ⟨d, -, hd⟩ := Option.bind_eq_some_iff.mp hi
    split at hd
    · exact (BusStep.set.inj (Option.some.inj hd)).2.symm
    · simp at hd
  cases op with
  | allOff =>
    rw [SwitchOp.steps] at h
    split at h
    · rw [hoff _ _ h]
      decide
    · simp at h
  | select m =>
    simp only [SwitchOp.steps, List.mem_append, Option.mem_toList,
      Option.map_eq_some_iff, List.mem_singleton, reduceCtorEq, or_false] at h
    rcases h with h | ⟨c, hc, he⟩
    · rw [hoff _ _ h]
      decide
    · obtain ⟨d, hd, hdc⟩ := Option.bind_eq_some_iff.mp hc
      obtain ⟨-, rfl⟩ := BusStep.set.inj he
      rcases hw d (List.mem_of_getElem? hd) c hdc with hb | hb
      · rw [hb]
        decide
      · rw [hb]
        decide

/-- A freshly loaded table has nothing cached. -/
theorem loadCouplers_cacheTrue {rows : List Row} {u : Unit}
    (h : (loadCouplers rows).run s = .ok (u, s')) : CacheTrue start s' := by
  rw [cacheTrue_iff]
  intro i k p hp
  obtain ⟨d', hd', hc⟩ := Option.bind_eq_some_iff.mp hp
  obtain ⟨d, -, hdd'⟩ := forall₂_right (loadCouplers_ok h).2 hd'
  exact Or.inl (initialised_cached hdd' hc).2.2

theorem loadCouplers_branch {rows : List Row} {u : Unit}
    (h : (loadCouplers rows).run s = .ok (u, s')) :
    ∀ d ∈ s'.w1.devs, ∀ c, d.coupler = some c →
      c.branch = couplerMainOn ∨ c.branch = couplerAuxOn := by
  intro d' hd' c hc
  obtain ⟨i, hi⟩ := List.mem_iff_getElem?.mp hd'
  obtain ⟨d, -, hdd'⟩ := forall₂_right (loadCouplers_ok h).2 hi
  have ht : d.stype ≠ .coupler := by
    intro ht
    simp [(hdd'.coupler ht).2.1] at hc
  exact ((hdd'.other ht).2 c hc).2

/-- In every state of a list of steps the cache is true exactly when every set in it is
harmless. -/
theorem steps_cacheTrue_iff {steps : List BusStep} {u : PUnit} (hs : CacheTrue start s)
    (hlines : ∀ n lines, .set n lines ∈ steps → lines ≠ couplerUndefined)
    (hrun : (steps.forM (BusStep.run drv)).run s = .ok (u, s')) :
    (∀ done rest t, steps = done ++ rest → (done.forM (BusStep.run drv)).run s = .ok (⟨⟩, t) →
        CacheTrue start t) ↔
      ∀ done n lines rest t, steps = done ++ .set n lines :: rest →
        (done.forM (BusStep.run drv)).run s = .ok (⟨⟩, t) → SetHarmless drv start n lines t := by
  constructor
  · intro h done n lines rest t hsteps ht
    have htrue := h done _ t hsteps ht
    rw [hsteps, run_forM_append_ok] at hrun
    obtain ⟨_, t₁, ht₁, hrest⟩ := hrun
    obtain rfl : t₁ = t := by
      rw [ht] at ht₁
      exact (Prod.mk.inj (Except.ok.inj ht₁)).2.symm
    obtain ⟨_, t₂, hset, -⟩ := run_forM_cons_ok.mp hrest
    have hafter : CacheTrue start t₂ := by
      refine h (done ++ [.set n lines]) rest t₂ (by simp [hsteps]) ?_
      exact run_forM_append_ok.mpr ⟨_, t₁, ht, run_forM_cons_ok.mpr ⟨_, t₂, hset, rfl⟩⟩
    refine (step_cacheTrue htrue ?_ hset).mp hafter n lines rfl
    intro n' lines' he
    exact hlines n' lines' (by rw [hsteps, he]; simp)
  · intro h done
    induction done using List.reverseRecOn with
    | nil =>
      intro rest t _ ht
      obtain ⟨-, rfl⟩ := run_pure_ok.mp ht
      exact hs
    | append_singleton done step ih =>
      intro rest t hsteps ht
      obtain ⟨_, t₁, ht₁, hstep⟩ := run_forM_append_ok.mp ht
      obtain ⟨_, t₂, hstep, hnil⟩ := run_forM_cons_ok.mp hstep
      obtain ⟨-, rfl⟩ := run_pure_ok.mp hnil
      rw [List.append_assoc] at hsteps
      have htrue := ih _ t₁ hsteps ht₁
      refine (step_cacheTrue htrue ?_ hstep).mpr ?_
      · rintro n lines rfl
        exact hlines n lines (by rw [hsteps]; simp)
      · rintro n lines rfl
        exact h done n lines rest t₁ hsteps ht₁

/-- While the cache is true, setting lines that are not the real ones sends a command. -/
theorem resent {n : ℕ} {lines : Int} {d : Device} {u : Unit} (hs : CacheTrue start s)
    (hd : s.w1.devs[n]? = some d) (ht : d.stype = .coupler) (ha : d.activeLines.isSome)
    (hl : lines ≠ couplerUndefined) (hne : linesAfter start s.trace d.serno ≠ lines)
    (h : (w1SetCoupler drv n lines).run s = .ok (u, s')) :
    ∃ ok, s'.trace = .switch n d.serno lines ok :: s.trace := by
  obtain ⟨d', hd', hcases⟩ := w1SetCoupler_cases h
  obtain rfl : d = d' := Option.some.inj (hd.symm.trans hd')
  obtain ⟨cached, ha⟩ := Option.isSome_iff_exists.mp ha
  have hcached := cached_of_activeLines ht ha
  rcases hcases with ⟨-, hc | hc⟩ | ⟨_, -, -, rfl⟩
  · simp [hcached] at hc
  · rw [hcached] at hc
    obtain rfl : cached = lines := (Prod.mk.inj (Option.some.inj hc)).2
    rcases hs d (List.mem_of_getElem? hd) ht cached ha with h₁ | h₁
    · exact absurd h₁ hl
    · exact absurd h₁ hne
  · exact ⟨_, rfl⟩

end

/-! ## The result -/

/-- In every run of a loaded table, whatever commands fail, the cached lines of every
coupler are undefined or the real ones in every state exactly when each command that is
sent works or is not needed and no other entry for the same coupler remembers anything
else. In a state where they are, lines that differ from those asked for are commanded
again. -/
theorem couplers_cache_iff (drv : Driver σ) (start : Serno → Int) (rows : List Row)
    (ops : List SwitchOp) (s₀ s s' : Machine σ)
    (hload : (loadCouplers rows).run s₀ = .ok ((), s))
    (hrun : (ops.forM (SwitchOp.run drv)).run s = .ok ((), s')) :
    let steps := ops.flatMap (SwitchOp.steps s.w1)
    (steps.forM (BusStep.run drv)).run s = .ok ((), s') ∧
    ((∀ done rest t, steps = done ++ rest → (done.forM (BusStep.run drv)).run s = .ok ((), t) →
        CacheTrue start t) ↔
      ∀ done n lines rest t, steps = done ++ .set n lines :: rest →
        (done.forM (BusStep.run drv)).run s = .ok ((), t) → SetHarmless drv start n lines t) ∧
    ∀ done n lines rest t t' d, steps = done ++ .set n lines :: rest →
      (done.forM (BusStep.run drv)).run s = .ok ((), t) → CacheTrue start t →
      t.w1.devs[n]? = some d → d.stype = .coupler → d.activeLines.isSome →
      linesAfter start t.trace d.serno ≠ lines →
      (w1SetCoupler drv n lines).run t = .ok ((), t') →
      ∃ ok, t'.trace = .switch n d.serno lines ok :: t.trace := by
  intro steps
  have hsteps := switchOps_steps (SameWiring.refl s) hrun
  have hlines : ∀ n lines, .set n lines ∈ steps → lines ≠ couplerUndefined := by
    intro n lines h
    obtain ⟨op, -, h⟩ := List.mem_flatMap.mp h
    exact steps_lines (loadCouplers_branch hload) h
  refine ⟨hsteps, steps_cacheTrue_iff (loadCouplers_cacheTrue hload) hlines hsteps, ?_⟩
  intro done n lines rest t t' d hdone _ htrue hd ht ha hne h
  exact resent htrue hd ht ha (hlines n lines (by rw [hdone]; simp)) hne h

end

/-- A bus that answers the switch commands from a list, and then with success. -/
def scriptedSwitch : Driver (List Bool) :=
  { Driver.silent with setSwitch1F := fun _ _ answers => (answers.headD true, answers.tail) }

theorem branchedTable_cache_iff :
    let ops : List SwitchOp := [.select 3, .allOff, .select 2]
    ∃ s s' : Machine (List Bool),
      (loadCouplers branchedTable).run { w1 := { doread := true }, bus := [true, false] } =
        .ok ((), s) ∧
      (ops.forM (SwitchOp.run scriptedSwitch)).run s = .ok ((), s') ∧
      let steps := ops.flatMap (SwitchOp.steps s.w1)
      (steps.forM (BusStep.run scriptedSwitch)).run s = .ok ((), s') ∧
      ((∀ done rest t, steps = done ++ rest →
          (done.forM (BusStep.run scriptedSwitch)).run s = .ok ((), t) → CacheTrue allOff t) ↔
        ∀ done n lines rest t, steps = done ++ .set n lines :: rest →
          (done.forM (BusStep.run scriptedSwitch)).run s = .ok ((), t) →
          SetHarmless scriptedSwitch allOff n lines t) ∧
      ∀ done n lines rest t t' d, steps = done ++ .set n lines :: rest →
        (done.forM (BusStep.run scriptedSwitch)).run s = .ok ((), t) → CacheTrue allOff t →
        t.w1.devs[n]? = some d → d.stype = .coupler → d.activeLines.isSome →
        linesAfter allOff t.trace d.serno ≠ lines →
        (w1SetCoupler scriptedSwitch n lines).run t = .ok ((), t') →
        ∃ ok, t'.trace = .switch n d.serno lines ok :: t.trace := by
  intro ops
  obtain ⟨_, s, hload, _, s', hrun, -⟩ := exists_two_runs_ok (m := loadCouplers branchedTable)
    (k := ops.forM (SwitchOp.run scriptedSwitch))
    (s := { w1 := { doread := true }, bus := [true, false] }) (p := fun _ _ => True)
    (by decide +kernel)
  exact ⟨s, s', hload, hrun, couplers_cache_iff scriptedSwitch allOff branchedTable ops _ s s'
    hload hrun⟩

/-- The second coupler does not answer when it is to be switched off, and is never asked
again: its branch stays connected beside that of the first one. -/
theorem couplers_cache_forgets :
    ∃ s s' : Machine (List Bool),
      (loadCouplers branchedTable).run { w1 := { doread := true }, bus := [true, true, false] } =
        .ok ((), s) ∧
      (([.select 3, .allOff, .select 2] : List SwitchOp).forM
        (SwitchOp.run scriptedSwitch)).run s = .ok ((), s') ∧
      CacheTrue allOff s ∧ ¬ CacheTrue allOff s' ∧
      (s'.w1.devs.take 2).map (fun d => (d.activeLines, linesAfter allOff s'.trace d.serno)) =
        [(some couplerMainOn, couplerMainOn), (some couplerAllOff, couplerAuxOn)] := by
  obtain ⟨_, s, hload, _, s', hrun, htrue, hfinal⟩ := exists_two_runs_ok
    (m := loadCouplers branchedTable)
    (k := ([.select 3, .allOff, .select 2] : List SwitchOp).forM (SwitchOp.run scriptedSwitch))
    (s := { w1 := { doread := true }, bus := [true, true, false] })
    (p := fun _ s' => ¬ CacheTrue allOff s' ∧
      (s'.w1.devs.take 2).map (fun d => (d.activeLines, linesAfter allOff s'.trace d.serno)) =
        [(some couplerMainOn, couplerMainOn), (some couplerAllOff, couplerAuxOn)])
    (by decide +kernel)
  exact ⟨s, s', hload, hrun, loadCouplers_cacheTrue hload, htrue, hfinal⟩

end W1Retap

import W1Retap.Couplers.Initialisation
import W1Retap.Support.SwitchBank

/-!
# Switching a coupler

The couplers of a machine are a bank of switches behind a write cache: an entry for
each initialised coupler, and for the lines what the commands recorded in the trace
have made of them. `w1_set_coupler` is the `set` of that bank.
-/
namespace W1Retap

open Programs SwitchBank

/-- The state of the lines of every coupler, by ROM code, after the commands of a
trace; a failed command leaves them as they are. -/
def linesAfter (start : Serno → Int) : List Event → Serno → Int
  | [] => start
  | .switch _ serno lines true :: t => Function.update (linesAfter start t) serno lines
  | _ :: t => linesAfter start t

/-- All lines off. -/
def allOff : Serno → Int := fun _ => couplerAllOff

/-- The ROM code and the cached lines of an initialised coupler. -/
def Device.cached (d : Device) : Option (Serno × Int) :=
  if d.stype = .coupler then d.activeLines.map fun lines => (d.serno, lines) else none

/-- What a read pass does with the couplers. -/
inductive SwitchOp where
  | allOff
  | select (n : ℕ)
  deriving DecidableEq, Repr

/-- What switching never changes in a device. -/
def Device.wiring (d : Device) : W1Type × Serno × Option Coupler := (d.stype, d.serno, d.coupler)

section
variable {σ : Type}

def SwitchOp.run (drv : Driver σ) : SwitchOp → M σ Unit
  | allOff => w1AllCouplersOff drv
  | select n => do let _ ← w1SelectDevice drv n

def bank (start : Serno → Int) (s : Machine σ) : Bank ℕ Serno Int where
  entry := fun n => s.w1.devs[n]?.bind Device.cached
  lines := linesAfter start s.trace

/-- The devices of `s'` are those of `s`, up to the cached lines. -/
def SameWiring (s s' : Machine σ) : Prop :=
  s'.w1.devs.map Device.wiring = s.w1.devs.map Device.wiring ∧ s'.w1.doread = s.w1.doread

/-- The answer of the next command sent to coupler `n`. -/
def answer (drv : Driver σ) (n : ℕ) (lines : Int) (s : Machine σ) : Bool :=
  match s.w1.devs[n]? with
  | some d => (drv.setSwitch1F d.serno lines s.bus).1
  | none => false

theorem SameWiring.refl (s : Machine σ) : SameWiring s s := ⟨rfl, rfl⟩

theorem SameWiring.trans {s s₁ s' : Machine σ} (h : SameWiring s s₁) (h' : SameWiring s₁ s') :
    SameWiring s s' :=
  ⟨h'.1.trans h.1, h'.2.trans h.2⟩

theorem SameWiring.symm {s s' : Machine σ} (h : SameWiring s s') : SameWiring s' s :=
  ⟨h.1.symm, h.2.symm⟩

theorem SameWiring.dev {s s' : Machine σ} (h : SameWiring s s') {n : ℕ} {d' : Device}
    (hd' : s'.w1.devs[n]? = some d') : ∃ d, s.w1.devs[n]? = some d ∧ d'.wiring = d.wiring := by
  have hw := congrArg (·[n]?) h.1
  simp only [List.getElem?_map, hd', Option.map_some] at hw
  obtain ⟨d, hd, he⟩ := Option.map_eq_some_iff.mp hw.symm
  exact ⟨d, hd, he.symm⟩

theorem bank_entry_eq {start : Serno → Int} {s : Machine σ} {n : ℕ} {d : Device}
    (hd : s.w1.devs[n]? = some d) : (bank start s).entry n = d.cached := by
  simp [bank, hd]

theorem cached_serno {d : Device} {k : Serno} {p : Int} (h : d.cached = some (k, p)) :
    k = d.serno := by
  unfold Device.cached at h
  split at h
  · obtain ⟨_, -, he⟩ := Option.map_eq_some_iff.mp h
    exact (Prod.mk.inj he).1.symm
  · simp at h

theorem cached_of_activeLines {d : Device} (ht : d.stype = .coupler) {lines : Int}
    (ha : d.activeLines = some lines) : d.cached = some (d.serno, lines) := by
  simp [Device.cached, ht, ha]

/-- A device that is no coupler, or was never initialised, is no entry of the bank. -/
theorem cached_none {d : Device} (h : ¬ (d.stype = .coupler ∧ d.activeLines.isSome)) :
    d.cached = none := by
  unfold Device.cached
  split
  · rename_i ht
    have : d.activeLines = none := by simpa using fun ha => h ⟨ht, ha⟩
    simp [this]
  · rfl

/-- Freshly initialised couplers are cached as undefined. -/
theorem initialised_cached {few : Prop} {ds : List Device} {d d' : Device}
    (h : Initialised few ds d d') {e : Serno × Int} (he : d'.cached = some e) :
    d.stype = .coupler ∧ w1MakeSerial d.serial = .ok e.1 ∧ e.2 = couplerUndefined := by
  have hd : d.stype = .coupler := by
    by_contra hd
    rw [cached_none fun hc => (h.other hd).1 hc.1] at he
    simp at he
  obtain ⟨ht, -, hu | ⟨-, hpriv⟩⟩ := h.coupler hd
  · have ha : d'.activeLines = some couplerUndefined := by simp [Device.activeLines, hu.priv]
    rw [cached_of_activeLines ht ha] at he
    obtain rfl := Option.some.inj he
    exact ⟨hd, hu.serno, rfl⟩
  · rw [cached_none (by simp [Device.activeLines, hpriv])] at he
    simp at he

/-- While the ids stay below `MAXCPL` no coupler is skipped. -/
theorem cached_initialised {few : Prop} {ds : List Device} {d d' : Device}
    (h : Initialised few ds d d') (hf : few) (hd : d.stype = .coupler) :
    d'.cached = some (d'.serno, couplerUndefined) ∧ w1MakeSerial d.serial = .ok d'.serno := by
  obtain ⟨ht, -, hu | ⟨hnf, -⟩⟩ := h.coupler hd
  · exact ⟨cached_of_activeLines ht (by simp [Device.activeLines, hu.priv]), hu.serno⟩
  · exact absurd hf hnf

/-- Everything a call of `w1_set_coupler` can do: nothing, when there is no entry to set
or the lines are cached already, or one command. -/
theorem w1SetCoupler_cases {drv : Driver σ} {n : ℕ} {lines : Int} {s s' : Machine σ} {u : Unit}
    (h : (w1SetCoupler drv n lines).run s = .ok (u, s')) :
    ∃ d, s.w1.devs[n]? = some d ∧
      ((s' = s ∧ (d.cached = none ∨ d.cached = some (d.serno, lines))) ∨
        ∃ cached, d.cached = some (d.serno, cached) ∧ cached ≠ lines ∧
          s' = ((s.setBus (drv.setSwitch1F d.serno lines s.bus).2).log
            (.switch n d.serno lines (answer drv n lines s))).modifyDev n
              fun d => { d with priv := some (.coupler lines) }) := by
  rw [w1SetCoupler, run_dev_bind_ok] at h
  obtain ⟨d, hd, h⟩ := h
  refine ⟨d, hd, ?_⟩
  split at h
  · rename_i hc
    obtain ⟨ht, ha, hne⟩ := hc
    obtain ⟨cached, ha⟩ := Option.isSome_iff_exists.mp ha
    rw [run_call_bind, run_event_bind] at h
    obtain rfl := run_modifyDev_ok.mp h
    refine Or.inr ⟨cached, cached_of_activeLines ht ha, ?_, ?_⟩
    · rintro rfl
      exact hne ha
    · simp [answer, hd]
  · rename_i hc
    obtain ⟨-, rfl⟩ := run_pure_ok.mp h
    refine Or.inl ⟨rfl, ?_⟩
    by_cases hi : d.stype = .coupler ∧ d.activeLines.isSome
    · right
      have ha : d.activeLines = some lines := by
        by_contra hne
        exact hc ⟨hi.1, hi.2, hne⟩
      exact cached_of_activeLines hi.1 ha
    · exact Or.inl (cached_none hi)

/-- `w1_set_coupler` is the `set` of the bank, and leaves the wiring alone. -/
theorem w1SetCoupler_ok {drv : Driver σ} {n : ℕ} {lines : Int} {s s' : Machine σ} {u : Unit}
    (start : Serno → Int) (h : (w1SetCoupler drv n lines).run s = .ok (u, s')) :
    bank start s' = (bank start s).set n lines (answer drv n lines s) ∧ SameWiring s s' ∧
      (s'.trace = s.trace ∧ s' = s ∨
        ∃ serno ok, s'.trace = .switch n serno lines ok :: s.trace) := by
  obtain ⟨d, hd, ⟨rfl, hsame⟩ | ⟨cached, hcached, hne, rfl⟩⟩ := w1SetCoupler_cases h
  · refine ⟨?_, SameWiring.refl _, Or.inl ⟨rfl, rfl⟩⟩
    rcases hsame with hsame | hsame
    · rw [set_none (by rw [bank_entry_eq hd, hsame])]
    · rw [set_same (k := d.serno) (by rw [bank_entry_eq hd, hsame])]
  · have hcoupler : d.stype = .coupler := by
      by_contra ht
      simp [Device.cached, ht] at hcached
    refine ⟨?_, ⟨?_, rfl⟩, Or.inr ⟨_, _, rfl⟩⟩
    · rw [set_sent (by rw [bank_entry_eq hd, hcached]) hne]
      unfold bank
      congr 1
      · funext k
        rw [Machine.modifyDev_getElem?]
        by_cases hk : n = k
        · subst hk
          simp [hd, Device.cached, hcoupler, Device.activeLines]
        · rw [if_neg hk, Function.update_of_ne (Ne.symm hk)]
          rfl
      · simp only [Machine.modifyDev_trace, Machine.log_trace]
        cases answer drv n lines s <;> simp [linesAfter]
    · apply List.ext_getElem?
      intro k
      rw [List.getElem?_map, List.getElem?_map, Machine.modifyDev_getElem?]
      by_cases hk : n = k
      · subst hk
        simp [hd, Device.wiring]
      · rw [if_neg hk]
        rfl

/-! ## Switching never stops the process -/

theorem w1SetCoupler_total (drv : Driver σ) {n : ℕ} (lines : Int) {s : Machine σ}
    (hn : n < s.w1.devs.length) :
    ∃ s', (w1SetCoupler drv n lines).run s = .ok ((), s') ∧
      s'.w1.devs.length = s.w1.devs.length := by
  obtain ⟨d, hd⟩ : ∃ d, s.w1.devs[n]? = some d := ⟨_, List.getElem?_eq_getElem hn⟩
  unfold w1SetCoupler
  rw [run_dev_bind hd]
  by_cases hc : d.stype = .coupler ∧ d.activeLines.isSome ∧ d.activeLines ≠ some lines
  · rw [if_pos hc, run_call_bind, run_event_bind]
    exact ⟨_, rfl, by simp⟩
  · rw [if_neg hc]
    exact ⟨s, rfl, rfl⟩

theorem switchOff_total (drv : Driver σ) (own : Option ℕ) {i : ℕ} {s : Machine σ}
    (hi : i < s.w1.devs.length) :
    ∃ s', (switchOff drv own i).run s = .ok ((), s') ∧
      s'.w1.devs.length = s.w1.devs.length := by
  obtain ⟨d, hd⟩ : ∃ d, s.w1.devs[i]? = some d := ⟨_, List.getElem?_eq_getElem hi⟩
  unfold switchOff
  rw [run_dev_bind hd]
  by_cases hc : d.stype = .coupler ∧ own ≠ some i
  · rw [if_pos hc]
    exact w1SetCoupler_total drv couplerAllOff hi
  · rw [if_neg hc]
    exact ⟨s, rfl, rfl⟩

/-- A selection ends, whatever the bus does, when the device's coupler is in the list. -/
theorem w1SelectDevice_total (drv : Driver σ) {n : ℕ} {w : Device} {s : Machine σ}
    (hw : s.w1.devs[n]? = some w)
    (hc : ∀ c, w.coupler = some c → c.couplerDevice < s.w1.devs.length) :
    ∃ found s', (w1SelectDevice drv n).run s = .ok (found, s') := by
  have hround : ∀ i ∈ List.range s.w1.devs.length, ∀ t : Machine σ,
      t.w1.devs.length = s.w1.devs.length →
      ∃ t', (switchOff drv (w.coupler.map (·.couplerDevice)) i).run t = .ok ((), t') ∧
        t'.w1.devs.length = s.w1.devs.length := by
    intro i hi t ht
    obtain ⟨t', h, hlen⟩ := switchOff_total drv (w.coupler.map (·.couplerDevice))
      (show i < t.w1.devs.length by rw [ht]; exact List.mem_range.mp hi)
    exact ⟨t', h, hlen.trans ht⟩
  obtain ⟨s₁, hloop, hlen⟩ :=
    forM_total (P := fun t : Machine σ => t.w1.devs.length = s.w1.devs.length) hround rfl
  have hown : ∃ s₂, (w.coupler.forM fun c => w1SetCoupler drv c.couplerDevice c.branch).run s₁ =
      .ok ((), s₂) := by
    cases hcoupler : w.coupler with
    | none => exact ⟨s₁, rfl⟩
    | some c =>
      obtain ⟨s₂, h, -⟩ := w1SetCoupler_total drv c.branch
        (show c.couplerDevice < s₁.w1.devs.length by rw [hlen]; exact hc c hcoupler)
      exact ⟨s₂, h⟩
  obtain ⟨s₂, hown⟩ := hown
  unfold w1SelectDevice
  rw [run_getW1_bind, run_dev_bind hw, run_bind_of_ok hloop, run_bind_of_ok hown,
    run_event_bind, run_call_bind]
  exact ⟨_, _, rfl⟩

end
end W1Retap

import W1Retap.Model.Machine
import Mathlib

/-!
# `w1_validate`

Each test of the function is a stage that may rewrite the value and set a reason
code; a later stage sees what an earlier one wrote. `Accepts` says when no stage
objects, and `w1Validate_cases` is everything a call can do to the sensor.
-/
namespace W1Retap

/-! ## The function -/

/-- The `W1_RMIN` test, giving the value and the reason code so far. -/
def checkRmin (s : Sensor) : ℚ × ℕ :=
  if s.has w1Rmin ∧ s.value < s.rmin then
    (if s.ltime ≠ 0 then s.lval else s.rmin, w1Rmin)
  else (s.value, 0)

/-- The `W1_RMAX` test, on the value the previous test left. -/
def checkRmax (s : Sensor) (c : ℚ × ℕ) : ℚ × ℕ :=
  if s.has w1Rmax ∧ s.rmax < c.1 then
    (if s.ltime ≠ 0 then s.lval else s.rmax, w1Rmax)
  else c

/-- Change per minute since the last accepted reading. -/
def rate (logtime : Int) (s : Sensor) (v : ℚ) : ℚ :=
  |v - s.lval| * 60 / ((logtime - s.ltime : Int) : ℚ)

/-- The `W1_ROC` test. It is skipped for a first reading and when the clock has not moved. -/
def checkRoc (logtime : Int) (s : Sensor) (c : ℚ × ℕ) : ℚ × ℕ :=
  if c.2 = 0 ∧ s.has w1Roc ∧ 0 < s.ltime ∧ s.ltime ≠ logtime ∧ s.roc < rate logtime s c.1 then
    (s.lval, w1Roc)
  else c

/-- The sequence test of rain gauges; `strncmp` reads the abbreviation. -/
def checkSeq (s : Sensor) (c : ℚ × ℕ) : Except Stop (ℚ × ℕ) :=
  if c.2 = 0 then
    match s.abbrv with
    | none => throw .nullDeref
    | some a => pure (if Sensor.isRgc a ∧ c.1 < s.lval then (s.lval, w1Seq) else c)
  else pure c

/-- The end of the function: `reason` was stored before the sequence test, which may
still have set a code of its own. -/
def Sensor.conclude (s : Sensor) (logtime : Int) (reason : ℕ) (c : ℚ × ℕ) : Sensor :=
  let s := { s with value := c.1, reason := reason }
  if c.2 = 0 then { s with ltime := logtime, lval := s.value, valid := true }
  else { s with valid := false }

/-- `w1_validate`; the call returns the new `valid`. -/
def w1Validate (logtime : Int) (s : Sensor) : Except Stop Sensor :=
  let limited := checkRoc logtime s (checkRmax s (checkRmin s))
  (checkSeq s limited).map (s.conclude logtime limited.2)

/-! ## What a call does -/

/-- No test of `w1_validate` objects to the value `v`. -/
structure Accepts (logtime : Int) (s : Sensor) (v : ℚ) : Prop where
  rmin : s.has w1Rmin = true → s.rmin ≤ v
  rmax : s.has w1Rmax = true → v ≤ s.rmax
  roc : s.has w1Roc = true → 0 < s.ltime → s.ltime ≠ logtime → rate logtime s v ≤ s.roc
  seq : ∀ a, s.abbrv = some a → Sensor.isRgc a = true → s.lval ≤ v

/-- The sensor after an accepted reading. -/
def Sensor.accept (s : Sensor) (logtime : Int) : Sensor :=
  { s with ltime := logtime, lval := s.value, valid := true, reason := 0 }

/-- The sensor after a rejected reading; `v` is the substitute value. -/
def Sensor.reject (s : Sensor) (v : ℚ) (reason : ℕ) : Sensor :=
  { s with value := v, valid := false, reason := reason }

theorem checkRmin_reason (s : Sensor) :
    (checkRmin s).2 = 0 ↔ (s.has w1Rmin = true → s.rmin ≤ s.value) := by
  unfold checkRmin
  by_cases h : s.has w1Rmin = true ∧ s.value < s.rmin
  · rw [if_pos h]
    exact ⟨fun h0 => absurd h0 (show w1Rmin ≠ 0 by decide),
      fun hr => absurd (hr h.1) (not_le.mpr h.2)⟩
  · rw [if_neg h]
    simpa using h

theorem checkRmin_value (s : Sensor) (h : (checkRmin s).2 = 0) : (checkRmin s).1 = s.value := by
  have hc := (checkRmin_reason s).mp h
  unfold checkRmin
  rw [if_neg fun hlt => absurd (hc hlt.1) (not_le.mpr hlt.2)]

theorem checkRmax_reason (s : Sensor) (c : ℚ × ℕ) :
    (checkRmax s c).2 = 0 ↔ c.2 = 0 ∧ (s.has w1Rmax = true → c.1 ≤ s.rmax) := by
  unfold checkRmax
  by_cases h : s.has w1Rmax = true ∧ s.rmax < c.1
  · rw [if_pos h]
    exact ⟨fun h0 => absurd h0 (show w1Rmax ≠ 0 by decide),
      fun hr => absurd (hr.2 h.1) (not_le.mpr h.2)⟩
  · have : s.has w1Rmax = true → c.1 ≤ s.rmax := by simpa using h
    rw [if_neg h]
    exact ⟨fun h0 => ⟨h0, this⟩, fun h0 => h0.1⟩

theorem checkRmax_value (s : Sensor) (c : ℚ × ℕ) (h : (checkRmax s c).2 = 0) :
    (checkRmax s c).1 = c.1 := by
  have hc := ((checkRmax_reason s c).mp h).2
  unfold checkRmax
  rw [if_neg fun hlt => absurd (hc hlt.1) (not_le.mpr hlt.2)]

theorem checkRoc_reason (t : Int) (s : Sensor) (c : ℚ × ℕ) :
    (checkRoc t s c).2 = 0 ↔ c.2 = 0 ∧
      (s.has w1Roc = true → 0 < s.ltime → s.ltime ≠ t → rate t s c.1 ≤ s.roc) := by
  unfold checkRoc
  by_cases h : c.2 = 0 ∧ s.has w1Roc ∧ 0 < s.ltime ∧ s.ltime ≠ t ∧ s.roc < rate t s c.1
  · rw [if_pos h]
    obtain ⟨h0, h1, h2, h3, h4⟩ := h
    simp only [w1Roc, one_ne_zero, false_iff, not_and]
    intro _ hr
    exact absurd (hr h1 h2 h3) (not_le.mpr h4)
  · rw [if_neg h]
    constructor
    · intro h0
      refine ⟨h0, fun h1 h2 h3 => ?_⟩
      by_contra h4
      exact h ⟨h0, h1, h2, h3, not_le.mp h4⟩
    · exact fun hc => hc.1

theorem checkRoc_value (t : Int) (s : Sensor) (c : ℚ × ℕ) (h : (checkRoc t s c).2 = 0) :
    (checkRoc t s c).1 = c.1 := by
  have hc := ((checkRoc_reason t s c).mp h).2
  unfold checkRoc
  rw [if_neg fun hlt => absurd (hc hlt.2.1 hlt.2.2.1 hlt.2.2.2.1) (not_le.mpr hlt.2.2.2.2)]

/-- The three limits together: they pass exactly when the raw value satisfies all of
them, and then they leave it alone. -/
theorem limits_reason (t : Int) (s : Sensor) :
    (checkRoc t s (checkRmax s (checkRmin s))).2 = 0 ↔
      (s.has w1Rmin = true → s.rmin ≤ s.value) ∧ (s.has w1Rmax = true → s.value ≤ s.rmax) ∧
      (s.has w1Roc = true → 0 < s.ltime → s.ltime ≠ t → rate t s s.value ≤ s.roc) := by
  rw [checkRoc_reason, checkRmax_reason, and_assoc]
  constructor
  · rintro ⟨h0, h1, h2⟩
    have hv := checkRmin_value s h0
    rw [checkRmax_value s _ ((checkRmax_reason s _).mpr ⟨h0, h1⟩), hv] at h2
    rw [hv] at h1
    exact ⟨(checkRmin_reason s).mp h0, h1, h2⟩
  · rintro ⟨h0, h1, h2⟩
    have hr := (checkRmin_reason s).mpr h0
    have hv := checkRmin_value s hr
    have h1' : s.has w1Rmax = true → (checkRmin s).1 ≤ s.rmax := by rwa [hv]
    refine ⟨hr, h1', ?_⟩
    rwa [checkRmax_value s _ ((checkRmax_reason s _).mpr ⟨hr, h1'⟩), hv]

theorem limits_value (t : Int) (s : Sensor)
    (h : (checkRoc t s (checkRmax s (checkRmin s))).2 = 0) :
    (checkRoc t s (checkRmax s (checkRmin s))).1 = s.value := by
  rw [checkRoc_value t s _ h]
  have h₁ := ((checkRoc_reason t s _).mp h).1
  rw [checkRmax_value s _ h₁]
  exact checkRmin_value s ((checkRmax_reason s _).mp h₁).1

theorem checkSeq_cases {s : Sensor} {c f : ℚ × ℕ} (h : checkSeq s c = .ok f) :
    (f = c ∧ (c.2 = 0 → ∀ a, s.abbrv = some a → Sensor.isRgc a = true → s.lval ≤ c.1)) ∨
      (f = (s.lval, w1Seq) ∧ ∃ a, s.abbrv = some a ∧ Sensor.isRgc a = true ∧ c.1 < s.lval) := by
  unfold checkSeq at h
  by_cases hc : c.2 = 0
  · rw [if_pos hc] at h
    cases ha : s.abbrv with
    | none => simp [ha, throw, throwThe, MonadExceptOf.throw] at h
    | some a =>
      simp only [ha] at h
      have hf := (Except.ok.inj h).symm
      by_cases hs : Sensor.isRgc a = true ∧ c.1 < s.lval
      · exact Or.inr ⟨by rw [hf, if_pos hs], a, rfl, hs⟩
      · refine Or.inl ⟨by rw [hf, if_neg hs], fun _ b hb hrgc => ?_⟩
        obtain rfl : a = b := Option.some.inj hb
        exact not_lt.mp fun hlt => hs ⟨hrgc, hlt⟩
  · rw [if_neg hc] at h
    exact Or.inl ⟨(Except.ok.inj h).symm, fun h0 => absurd h0 hc⟩

/-- Everything a call of `w1_validate` can do. -/
theorem w1Validate_cases {t : Int} {s s' : Sensor} (h : w1Validate t s = .ok s') :
    (Accepts t s s.value ∧ s' = s.accept t) ∨
      (¬ Accepts t s s.value ∧ ∃ v r, s' = s.reject v r) := by
  unfold w1Validate at h
  generalize hl : checkRoc t s (checkRmax s (checkRmin s)) = c at h
  cases hf : checkSeq s c with
  | error e => simp [hf, Except.map] at h
  | ok f =>
    simp only [hf, Except.map, Except.ok.injEq] at h
    subst h
    rcases checkSeq_cases hf with ⟨rfl, hseq⟩ | ⟨rfl, a, ha, hrgc, hlt⟩
    · by_cases h0 : f.2 = 0
      · have hv := limits_value t s (by rw [hl]; exact h0)
        obtain ⟨hmin, hmax, hroc⟩ := (limits_reason t s).mp (by rw [hl]; exact h0)
        rw [hl] at hv
        refine Or.inl ⟨⟨hmin, hmax, hroc, ?_⟩, ?_⟩
        · simpa only [hv] using hseq h0
        · simp [Sensor.conclude, Sensor.accept, h0, hv]
      · refine Or.inr ⟨fun hacc => h0 ?_, f.1, f.2, by simp [Sensor.conclude, Sensor.reject, h0]⟩
        rw [← hl, limits_reason]
        exact ⟨hacc.rmin, hacc.rmax, hacc.roc⟩
    · refine Or.inr ⟨fun hacc => ?_, s.lval, c.2, by simp [Sensor.conclude, Sensor.reject, w1Seq]⟩
      have hv := limits_value t s ((limits_reason t s).mpr ⟨hacc.rmin, hacc.rmax, hacc.roc⟩)
      rw [hl] at hv
      exact absurd (hacc.seq a ha hrgc) (not_le.mpr (hv ▸ hlt))

/-- A sensor with an abbreviation is always given a verdict. -/
theorem w1Validate_total (t : Int) (s : Sensor) {a : CString} (ha : s.abbrv = some a) :
    ∃ s', w1Validate t s = .ok s' := by
  have hseq : ∀ c, ∃ f, checkSeq s c = .ok f := by
    intro c
    unfold checkSeq
    by_cases hc : c.2 = 0
    · rw [if_pos hc]
      simp only [ha]
      exact ⟨_, rfl⟩
    · rw [if_neg hc]
      exact ⟨_, rfl⟩
  obtain ⟨f, hf⟩ := hseq (checkRoc t s (checkRmax s (checkRmin s)))
  exact ⟨_, by rw [w1Validate, hf]; rfl⟩

end W1Retap

import W1Retap.Sensors.Readers
import W1Retap.Tables.Entries

/-!
# Parameter lists

`w1_dev_params` counts the entries of a list before it allocates and fills them. The
readers index the entries after a test of their number, each with a test of its own.
-/
namespace W1Retap

open CStrings Programs

/-! ## Making the list -/

def paramDelims : List Char := ['|', ':', ' ']

/-- The first loop of `w1_dev_params`. -/
def countParams (s : CString) : ℕ :=
  match h : strtokNext paramDelims s with
  | none => 0
  | some (_, rest) => countParams rest + 1
termination_by s.length
decreasing_by exact strtokNext_lt h

/-- The second loop, on the entries that have been allocated. -/
def fillParams (values : List ℚ) (j : ℕ) (s : CString) : Except Stop (List ℚ) :=
  match h : strtokNext paramDelims s with
  | none => .ok values
  | some (tok, rest) =>
    if j < values.length then fillParams (values.set j (strtod tok)) (j + 1) rest
    else .error .outOfBounds
termination_by s.length
decreasing_by exact strtokNext_lt h

/-- `w1_params_t` -/
structure W1Params where
  num : ℕ
  values : List ℚ

/-- `w1_dev_params`, with both loops. -/
def w1DevParamsLoops (params : CString) : Except Stop (Option W1Params) :=
  let j := countParams params
  if j ≠ 0 then
    (fillParams (List.replicate j 0) 0 params).map fun values => some { num := j, values }
  else .ok none

theorem countParams_eq (s : CString) : countParams s = (strtok paramDelims s).length := by
  induction s using countParams.induct with
  | case1 s hnext =>
    rw [countParams, strtok_eq, hnext]
    rfl
  | case2 s tok rest hnext ih =>
    rw [countParams, strtok_eq, hnext]
    exact congrArg (· + 1) ih

/-- As many entries as there are tokens take them all. -/
theorem fillParams_ok {values : List ℚ} {j : ℕ} {s : CString}
    (hlen : values.length = j + (strtok paramDelims s).length) :
    fillParams values j s = .ok (values.take j ++ (strtok paramDelims s).map strtod) := by
  induction values, j, s using fillParams.induct with
  | case1 values j s hnext =>
    rw [strtok_eq, hnext] at hlen ⊢
    rw [fillParams, hnext]
    simpa using hlen.le
  | case2 values j s tok rest hnext hj ih =>
    rw [strtok_eq, hnext] at hlen ⊢
    simp only [List.length_cons] at hlen
    have hrest := ih (by rw [List.length_set]; omega)
    rw [fillParams, hnext]
    simp only [if_pos hj, hrest, List.map_cons]
    have htake : (values.set j (strtod tok)).take (j + 1) = values.take j ++ [strtod tok] := by
      rw [List.take_succ_eq_append_getElem (by simpa using hj), List.take_set_of_le le_rfl]
      simp
    rw [htake, List.append_assoc]
    rfl
  | case3 values j s tok rest hnext hj =>
    rw [strtok_eq, hnext] at hlen
    simp only [List.length_cons] at hlen
    omega

/-- The two loops see the same tokens. -/
theorem w1DevParamsLoops_eq (params : CString) : w1DevParamsLoops params =
    .ok ((w1DevParams params).map fun values => { num := values.length, values }) := by
  have hlen : (List.replicate (countParams params) (0 : ℚ)).length =
      0 + (strtok paramDelims params).length := by
    rw [List.length_replicate, countParams_eq, Nat.zero_add]
  have hfill := fillParams_ok hlen
  have hvalues : w1DevParams params = if strtok paramDelims params = [] then none else
      some ((strtok paramDelims params).map strtod) := by
    unfold w1DevParams
    split
    · rename_i hnil
      exact (if_pos hnil).symm
    · rename_i hne
      exact (if_neg hne).symm
  rw [hvalues, w1DevParamsLoops]
  simp only [hfill]
  rw [countParams_eq]
  cases strtok paramDelims params with
  | nil => rfl
  | cons tok toks => simp [Except.map]

/-! ## Using the list -/

/-- `values[i]`, if `num` says that there is one: the tests of `w1_read_counter`. -/
def counterParam (params : Option (List ℚ)) (i : ℕ) : Except Stop (Option ℚ) :=
  match params with
  | some values => if i + 1 ≤ values.length then (param values i).map some else .ok none
  | none => .ok none

theorem counterParam_eq (params : Option (List ℚ)) (i : ℕ) :
    counterParam params i = .ok (params.getD [])[i]? := by
  cases params with
  | none => rfl
  | some values =>
    rw [counterParam, param]
    by_cases hi : i + 1 ≤ values.length
    · rw [if_pos hi, Option.getD_some, List.getElem?_eq_getElem hi]
      rfl
    · rw [if_neg hi, Option.getD_some, List.getElem?_eq_none (by omega)]

/-- Slope and offset of `w1_read_hb_pressure`, with its test. -/
def hbSlopeOffset (params : Option (List ℚ)) : Except Stop (ℚ × ℚ) :=
  match params with
  | some values =>
    if values.length = 2 then do return (← param values 0, ← param values 1)
    else .ok (hbSlope, hbOffset)
  | none => .ok (hbSlope, hbOffset)

theorem hbSlopeOffset_eq (params : Option (List ℚ)) : hbSlopeOffset params = .ok (hbParams params) := by
  match params with
  | none => rfl
  | some [] => rfl
  | some [_] => rfl
  | some [_, _] => rfl
  | some (_ :: _ :: _ :: _) => rfl

/-- Slope, offset and temperature as the change log has them: the temperature is measured
unless there is a third value. -/
def brayRule (params : Option (List ℚ)) (temp : ℚ) : ℚ × ℚ × ℚ :=
  match params with
  | some [slope, offset] => (slope, offset, temp)
  | some (slope :: offset :: ptemp :: _) => (slope, offset, ptemp)
  | _ => (braySlope, brayOffset, temp)

/-- Any other number of values than two is used by the rule. -/
theorem brayParams_eq {params : Option (List ℚ)} (h : ∀ values, params = some values → values.length ≠ 2)
    (temp : ℚ) : brayParams (params.getD []) temp = .ok (brayRule params temp) := by
  match params, h with
  | none, _ => rfl
  | some [], _ => rfl
  | some [_], _ => rfl
  | some [a, b], h => exact absurd rfl (h [a, b] rfl)
  | some (_ :: _ :: _ :: _), _ => rfl

/-- Two values are one too few for the test. -/
theorem brayParams_two {values : List ℚ} (h : values.length = 2) (temp : ℚ) :
    brayParams values temp = .error .outOfBounds := by
  match values, h with
  | [_, _], _ => rfl

section
variable {σ : Type} (drv : Driver σ) (n : ℕ)

/-- The part of `w1_read_bray` before the parameters: what the voltages are, if the device
is found. -/
def brayVoltages : M σ (Option (Int × Ds2438v)) := do
  makeSerial n
  if ← w1SelectDevice drv n then
    let r ← voltages drv n (ds2438Vad + ds2438Temp)
    return some r
  else
    return none

/-- The part after them. -/
def brayOffer (r : Int × Ds2438v) (p : ℚ × ℚ × ℚ) : M σ Int := do
  let w1 ← getW1
  let nv ← offer n "Pres" (reducePressure drv w1 (p.1 * r.2.vad + p.2.1) p.2.2)
  return r.1 + nv

variable {drv n}

theorem run_w1ReadBray {s s₁ : Machine σ} {r : Int × Ds2438v} {d : Device}
    (h : (brayVoltages drv n).run s = .ok (some r, s₁)) (hd : s₁.w1.devs[n]? = some d)
    (hvad : 0 < r.2.vad) : (w1ReadBray drv n).run s =
      (do let p ← StateT.lift (brayParams (d.params.getD []) r.2.temp)
          brayOffer drv n r p : M σ Int).run s₁ := by
  obtain ⟨_, s₂, hserial, h⟩ := run_bind_ok.mp h
  obtain ⟨found, s₃, hselect, h⟩ := run_bind_ok.mp h
  rw [w1ReadBray, run_bind_of_ok hserial, run_bind_of_ok hselect]
  cases found with
  | false => exact nomatch (run_pure_ok.mp h).1
  | true =>
    obtain ⟨r', s₄, hvolts, h⟩ := run_bind_ok.mp h
    obtain ⟨hr, rfl⟩ := run_pure_ok.mp h
    obtain rfl := Option.some.inj hr
    rw [if_pos rfl, run_bind_of_ok hvolts, if_pos hvad, run_dev_bind hd, run_getW1_bind]
    cases brayParams (d.params.getD []) r.2.temp with
    | error e => rw [run_lift_error_bind, run_lift_error_bind]
    | ok p => rw [run_lift_ok_bind, run_lift_ok_bind, brayOffer, run_getW1_bind]

end

/-! ## From the string to the pressure -/

/-- A parameter string is stored whole, no reader goes beyond its entries, and
`w1_read_bray` follows its rule whenever it comes to use them. -/
structure ParamsRespected (params : CString) : Prop where
  stored : ∃ p, w1DevParamsLoops params = .ok p ∧ p.map W1Params.values = w1DevParams params ∧
    ∀ q, p = some q → q.values.length = q.num
  counter : ∀ i, ∃ x, counterParam (w1DevParams params) i = .ok x
  baro : ∃ p, hbSlopeOffset (w1DevParams params) = .ok p
  bray : ∀ (σ : Type) (drv : Driver σ) (n : ℕ) (s s₁ : Machine σ) (r : Int × Ds2438v) (d : Device),
    (brayVoltages drv n).run s = .ok (some r, s₁) → s₁.w1.devs[n]? = some d →
    d.params = w1DevParams params → 0 < r.2.vad →
    (w1ReadBray drv n).run s = (brayOffer drv n r (brayRule d.params r.2.temp)).run s₁

/-- A barometer whose pressure nobody logs. -/
def brayDevice (params : Option (List ℚ)) : Device where
  serial := some "26.000000000000".toList
  init := 1
  stype := .bray
  ns_le := nil_fits
  params := params

def brayMachine (params : Option (List ℚ)) : Machine Unit where
  w1 := { devs := [brayDevice params] }
  bus := ()

/-- Every device is found, and every channel is at one volt. -/
def brayDriver : Driver Unit :=
  { Driver.silent with
    owSearch := fun _ serno b => ([serno], b)
    readAtoD := fun _ _ b => (1, b) }

theorem brayVoltages_run (params : Option (List ℚ)) : ∃ r s₁,
    (brayVoltages brayDriver 0).run (brayMachine params) = .ok (some r, s₁) ∧
      s₁.w1.devs[0]? = some (brayDevice params) ∧ 0 < r.2.vad :=
  ⟨(0, { vad := 1, req := 10 }), { brayMachine params with trace := [.search 0] },
    by with_unfolding_all rfl, rfl, one_pos⟩

/-- `brayOffer` on a device without sensors. -/
theorem brayOffer_run {params : Option (List ℚ)} {s : Machine Unit} {r : Int × Ds2438v}
    {p : ℚ × ℚ × ℚ} (hd : s.w1.devs[0]? = some (brayDevice params)) :
    (brayOffer brayDriver 0 r p).run s = .ok (r.1, s) := by
  rw [brayOffer, run_getW1_bind, offer, bind_assoc, matchSensor, bind_assoc, run_dev_bind hd]
  change Except.ok (r.1 + (0 : ℕ), s) = _
  simp

end W1Retap

import W1Retap.Sensors.Stores
import W1Retap.Sensors.Setup

/-!
# Wind directions

The four readings are divided by the largest one and looked up in a table, within an error.
The intervals around the table's values only ever touch at half way between the two
dividers, and no two rows differ in these alone, so at most one row is matched.
-/
namespace W1Retap

open Programs

/-! ## The table -/

/-- The scaled readings lie within the error of row `i`. -/
def RowMatches (scaled : Vector ℚ 4) (i : Fin 16) : Prop :=
  ∀ k : Fin 4, scaled.get k ≤ (windConversionTable.get i).get k + windvaneMaxError ∧
    (windConversionTable.get i).get k - windvaneMaxError ≤ scaled.get k

instance (scaled : Vector ℚ 4) : DecidablePred (RowMatches scaled) :=
  fun _ => inferInstanceAs (Decidable (∀ _ : Fin 4, _ ∧ _))

/-- The test of a row. -/
def rowTest (scaled : Vector ℚ 4) (i : Fin 16) : Bool :=
  (List.finRange 4).all fun k => scaled.get k ≤ (windConversionTable.get i).get k + windvaneMaxError &&
    (windConversionTable.get i).get k - windvaneMaxError ≤ scaled.get k

def vaneScaled (analogue : Vector ℚ 4) : Vector ℚ 4 := analogue.map (· / vaneFactor analogue)

/-- The direction of row `i`. -/
def vaneDirection (offset : Int) (i : Fin 16) : Int := ((i : ℕ) - offset) % 16

/-- Any two rows have a column in which their intervals are apart. -/
theorem rows_apart (i j : Fin 16) (h : i ≠ j) : ∃ k : Fin 4,
    (windConversionTable.get i).get k + windvaneMaxError < (windConversionTable.get j).get k - windvaneMaxError ∨
    (windConversionTable.get j).get k + windvaneMaxError < (windConversionTable.get i).get k - windvaneMaxError := by
  revert i j
  decide +kernel

section
variable {scaled analogue : Vector ℚ 4} {i j : Fin 16} {c : ℚ}

theorem rowMatches_unique (hi : RowMatches scaled i) (hj : RowMatches scaled j) : i = j := by
  by_contra hne
  obtain ⟨k, hlt | hlt⟩ := rows_apart i j hne
  · have h := ((hj k).2.trans (hi k).1).trans_lt hlt
    exact lt_irrefl _ h
  · have h := ((hi k).2.trans (hj k).1).trans_lt hlt
    exact lt_irrefl _ h

theorem rowTest_iff : rowTest scaled i = true ↔ RowMatches scaled i := by
  simp [rowTest, RowMatches]

/-- The search finds the row that matches. -/
theorem windPosition_eq_some_iff : windPosition scaled = some i ↔ RowMatches scaled i := by
  change (List.finRange 16).find? (rowTest scaled) = some i ↔ _
  constructor
  · intro h
    exact rowTest_iff.mp (List.find?_some h)
  · intro hi
    cases h : (List.finRange 16).find? (rowTest scaled) with
    | none =>
      have hnone := List.find?_eq_none.mp h i (List.mem_finRange i)
      exact absurd (rowTest_iff.mpr hi) hnone
    | some j =>
      have hj := rowTest_iff.mp (List.find?_some h)
      rw [rowMatches_unique hi hj]

theorem windPosition_eq_none_iff : windPosition scaled = none ↔ ∀ i, ¬ RowMatches scaled i := by
  simp only [← windPosition_eq_some_iff]
  cases windPosition scaled <;> simp

theorem vaneFactor_mul (hc : 0 < c) : vaneFactor (analogue.map (c * ·)) = c * vaneFactor analogue := by
  unfold vaneFactor
  simp only [mul_max_of_nonneg _ _ hc.le, Vector.getElem_map]

/-- A common factor cancels. -/
theorem vaneScaled_mul (hc : 0 < c) : vaneScaled (analogue.map (c * ·)) = vaneScaled analogue := by
  unfold vaneScaled
  rw [vaneFactor_mul hc, Vector.map_map]
  congr 1
  funext x
  exact mul_div_mul_left x _ hc.ne'

theorem vaneDirection_mem (offset : Int) (i : Fin 16) :
    0 ≤ vaneDirection offset i ∧ vaneDirection offset i < 16 := by
  unfold vaneDirection
  omega

end

/-! ## The reader -/

section
variable {σ : Type} {drv : Driver σ} {n : ℕ} {s s' t : Machine σ}

/-- `w1_read_windvane` up to the four readings. -/
def readVane (drv : Driver σ) (n : ℕ) : M σ (Option (Vector ℚ 4)) := do
  makeVane n
  clearValid n 1
  clearValid n 0
  if ← w1SelectDevice drv n then
    if (← dev n).priv.isSome then
      setupVane drv n
      let d ← dev n
      if d.init = 2 then
        if ← call (drv.doAtoDConversion d.serno) then
          call (drv.readAtoDResults d.serno d.control)
        else
          return none
      else
        return none
    else
      return none
  else
    return none

/-- What is made of the readings. -/
def decodeVane (n : ℕ) : Option (Vector ℚ 4) → M σ Int
  | some analogue => return (← storeDirection n analogue)
  | none => return 0

theorem w1ReadWindvane_eq (drv : Driver σ) (n : ℕ) :
    w1ReadWindvane drv n = readVane drv n >>= decodeVane n := by
  unfold w1ReadWindvane readVane
  simp only [bind_assoc]
  refine bind_congr fun _ => bind_congr fun _ => bind_congr fun _ => bind_congr fun found => ?_
  cases found with
  | false => simp [decodeVane]
  | true =>
    simp only [if_true, bind_assoc]
    refine bind_congr fun d => ?_
    by_cases hpriv : d.priv.isSome
    · simp only [if_pos hpriv, bind_assoc]
      refine bind_congr fun _ => bind_congr fun d => ?_
      by_cases hinit : d.init = 2
      · simp only [if_pos hinit, bind_assoc]
        refine bind_congr fun converted => ?_
        cases converted with
        | false => simp [decodeVane]
        | true => 
          simp only [if_true]
          refine bind_congr fun answer => ?_
          cases answer <;> simp [decodeVane]
      · simp [decodeVane, hinit]
    · simp [decodeVane, hpriv]

/-- Since `s` nothing but the bus has changed, and the vane's sensor is not valid. -/
structure Poised (n : ℕ) (s t : Machine σ) : Prop where
  w1 : t.w1 = { s.w1 with devs := t.w1.devs }
  invalid : ∃ x, t.slot? n 0 = some x ∧ x.valid = false

theorem sameBut_trans {a b c : DevList} (hab : b = { a with devs := b.devs })
    (hbc : c = { b with devs := c.devs }) : c = { a with devs := c.devs } :=
  hbc.trans (congrArg (fun w : DevList => { w with devs := c.devs }) hab)

theorem Quiet.poised (h : Quiet t s') (ht : Poised n s t) : Poised n s s' := by
  obtain ⟨x, hx, hvalid⟩ := ht.invalid
  exact ⟨sameBut_trans ht.w1 h.w1, x, (h.slot?_eq n 0).trans hx, hvalid⟩

theorem Does.w1_eq {α : Type} {m : M σ α} {a : α} (hm : Does Quiet m) (h : m.run s = .ok (a, t)) :
    t.w1 = { s.w1 with devs := t.w1.devs } := by
  refine hm.keeps (P := fun t => t.w1 = { s.w1 with devs := t.w1.devs }) ?_ h rfl
  exact fun t t' hstep ht => sameBut_trans ht hstep.w1

/-- After `s->valid = 0` all of the reader's steps up to the readings leave the sensors alone. -/
theorem readVane_poised {answer : Option (Vector ℚ 4)} (h : (readVane drv n).run s = .ok (answer, t)) :
    Poised n s t := by
  rw [readVane, run_bind_ok] at h
  obtain ⟨_, s₁, h₁, h⟩ := h
  rw [run_bind_ok] at h
  obtain ⟨_, s₂, h₂, h⟩ := h
  rw [run_bind_ok] at h
  obtain ⟨_, s₃, h₃, h⟩ := h
  have hstart : Poised n s s₃ := by
    have hw1 := Does.w1_eq (does_makeVane (R := Quiet)) h₁
    obtain ⟨-, rfl⟩ := run_modifySlot_ok.mp h₂
    obtain ⟨hslot, rfl⟩ := run_modifySlot_ok.mp h₃
    obtain ⟨x, hx⟩ := Option.isSome_iff_exists.mp hslot
    exact ⟨sameBut_trans hw1 rfl, _, Machine.slot?_modifySlot_self hx, rfl⟩
  refine Does.keeps (R := Quiet) ?_ (fun _ _ hstep => hstep.poised) h hstart
  refine .bind (does_w1SelectDevice drv n) fun found => .ite (fun _ => ?_) fun _ => .pure _
  refine .bind (does_dev n) fun d => .ite (fun _ => ?_) fun _ => .pure _
  refine .bind (does_setupVane drv) fun _ => .bind (does_dev n) fun d => ?_
  refine .ite (fun _ => ?_) fun _ => .pure _
  refine .bind (does_call (DriverSteps.doAtoDConversion _)) fun ok => ?_
  exact .ite (fun _ => does_call (DriverSteps.readAtoDResults _ _)) fun _ => .pure _

/-- The value went through `w1_validate` into the vane's sensor. -/
def Offered (n : ℕ) (v : Int) (s s' : Machine σ) (r : Int) : Prop :=
  ∃ x x' : Sensor, w1Validate s.w1.logtime { x with value := v } = .ok x' ∧
    s'.slot? n 0 = some x' ∧ (r = if x'.valid then 1 else 0) ∧
    .validate n 0 v s.w1.logtime x'.valid ∈ s'.trace

/-- Before the search the value is -1, for the message. -/
theorem run_unmatched {x : Sensor} (hx : t.slot? n 0 = some x) :
    (modifySlot n 0 fun x => { x with value := -1 }).run t =
      .ok ((), t.modifyDev n (·.modifySlot 0 fun x => { x with value := -1 })) :=
  run_modifySlot_ok.mpr ⟨by rw [hx]; rfl, rfl⟩

/-- A position of the table becomes a reading. -/
theorem decodeVane_matched {analogue : Vector ℚ 4} {i : Fin 16} {r : Int} (ht : Poised n s t)
    (hi : RowMatches (vaneScaled analogue) i)
    (h : (decodeVane n (some analogue)).run t = .ok (r, s')) :
    Offered n (vaneDirection s.w1.vaneOffset i) s s' r := by
  have hposition : windPosition (analogue.map (· / max analogue[0] (max analogue[1]
      (max analogue[2] analogue[3])))) = some i := windPosition_eq_some_iff.mpr hi
  obtain ⟨x, hx, -⟩ := ht.invalid
  have hoffset : t.w1.vaneOffset = s.w1.vaneOffset := by rw [ht.w1]
  have hlogtime : t.w1.logtime = s.w1.logtime := by rw [ht.w1]
  obtain ⟨k, s₁, h, hr⟩ := run_bind_ok.mp h
  obtain ⟨rfl, rfl⟩ := run_pure_ok.mp hr
  rw [storeDirection, run_getW1_bind, run_bind_of_ok (run_unmatched hx)] at h
  simp only [hposition] at h
  obtain ⟨y, y', es, hy, hy', -, hk, rfl⟩ := run_store_ok h
  rw [Machine.slot?_modifySlot_self hx] at hy
  obtain rfl := Option.some.inj hy
  rw [Machine.modifyDev_logtime, hlogtime, hoffset] at hy'
  refine ⟨x, y', hy', Machine.put_slot?_self _ (Machine.slot?_modifySlot_self hx), ?_, ?_⟩
  · rw [hk]
    split <;> rfl
  · rw [← hlogtime, ← hoffset]
    simp [Machine.put, vaneDirection]

/-- Without one the sensor stays as it is. -/
theorem decodeVane_unmatched {answer : Option (Vector ℚ 4)} (ht : Poised n s t)
    (hnone : ∀ analogue i, answer = some analogue → ¬ RowMatches (vaneScaled analogue) i) :
    ∃ s', (decodeVane n answer).run t = .ok (0, s') ∧ ∃ x, s'.slot? n 0 = some x ∧ x.valid = false := by
  cases answer with
  | none => exact ⟨t, rfl, ht.invalid⟩
  | some analogue =>
    have hposition : windPosition (analogue.map (· / max analogue[0] (max analogue[1]
        (max analogue[2] analogue[3])))) = none :=
      windPosition_eq_none_iff.mpr fun i => hnone analogue i rfl
    obtain ⟨x, hx, hvalid⟩ := ht.invalid
    let assign (x : Sensor) : Sensor := { x with value := -1 }
    refine ⟨t.modifyDev n (·.modifySlot 0 assign), run_bind_ok.mpr ⟨0, _, ?_, rfl⟩, assign x,
      Machine.slot?_modifySlot_self hx, hvalid⟩
    rw [storeDirection, run_getW1_bind, run_bind_of_ok (run_unmatched hx)]
    simp only [hposition]
    rfl

end

/-! ## Decoding -/

/-- The direction does not depend on the supply voltage, is that of the only row which
matches, and reaches the sensor counted from the offset; readings that no row matches leave
it invalid. -/
theorem windvane_decodes :
    (∀ analogue : Vector ℚ 4, 0 < vaneFactor analogue → ∀ c : ℚ, 0 < c → ∀ (σ : Type) (n : ℕ),
      storeDirection (σ := σ) n (analogue.map (c * ·)) = storeDirection n analogue) ∧
    (∀ analogue : Vector ℚ 4, 0 < vaneFactor analogue → ∀ i j,
      RowMatches (vaneScaled analogue) i → RowMatches (vaneScaled analogue) j → i = j) ∧
    ∀ (σ : Type) (drv : Driver σ) (n : ℕ) (s t : Machine σ) (answer : Option (Vector ℚ 4)),
      (readVane drv n).run s = .ok (answer, t) →
      (∀ analogue i, answer = some analogue → RowMatches (vaneScaled analogue) i →
        ∀ r s', (w1ReadWindvane drv n).run s = .ok (r, s') →
          Offered n (vaneDirection s.w1.vaneOffset i) s s' r ∧
          0 ≤ vaneDirection s.w1.vaneOffset i ∧ vaneDirection s.w1.vaneOffset i < 16) ∧
      ((∀ analogue i, answer = some analogue → ¬ RowMatches (vaneScaled analogue) i) →
        ∃ s', (w1ReadWindvane drv n).run s = .ok (0, s') ∧
          ∃ x, s'.slot? n 0 = some x ∧ x.valid = false) := by
  refine ⟨?_, fun analogue _ i j hi hj => rowMatches_unique hi hj, ?_⟩
  · intro analogue _ c hc σ n
    have hscaled : windPosition (vaneScaled (analogue.map (c * ·))) =
        windPosition (vaneScaled analogue) := by rw [vaneScaled_mul hc]
    unfold vaneScaled vaneFactor at hscaled
    simp only [storeDirection, hscaled]
  · intro σ drv n s t answer h
    have ht := readVane_poised h
    have hrun : (w1ReadWindvane drv n).run s = (decodeVane n answer).run t := by
      rw [w1ReadWindvane_eq, run_bind_of_ok h]
    refine ⟨fun analogue i hanswer hi r s' h' => ?_, fun hnone => ?_⟩
    · subst hanswer
      exact ⟨decodeVane_matched ht hi (hrun ▸ h'), vaneDirection_mem _ i⟩
    · rw [hrun]
      exact decodeVane_unmatched ht hnone

/-- A vane that has been set up, on a bus that delivers half the supply voltage at the first
input. -/
def weatherVane : Machine Unit :=
  { w1 := { devs := [{ stype := .windvane, init := 2, priv := some (.windvane (Vector.replicate 16 0))
                       s := [{ abbrv := some "WDIR".toList }, {}], ns := 1 }], vaneOffset := 10 }
    bus := () }

def vaneBus : Driver Unit :=
  { Driver.silent with
    owSearch := fun _ serno b => ([serno], b)
    doAtoDConversion := fun _ b => (true, b)
    readAtoDResults := fun _ _ b => (some #v[5 / 2, 5, 5, 5], b) }

/-- The ninth row is matched, and stands for direction 14. -/
theorem windvane_decodes_weatherVane : ∃ r s',
    (w1ReadWindvane vaneBus 0).run weatherVane = .ok (r, s') ∧ r = 1 ∧
      Offered 0 14 weatherVane s' r := by
  obtain ⟨answer, t, h, hanswer⟩ := exists_result_ok (m := readVane vaneBus 0) (s := weatherVane)
    (p := fun r => r.1 = some #v[5 / 2, 5, 5, 5]) (by decide +kernel)
  obtain ⟨r, s', h', hr⟩ := exists_result_ok (m := w1ReadWindvane vaneBus 0) (s := weatherVane)
    (p := fun r => r.1 = 1) (by decide +kernel)
  have hmatch : RowMatches (vaneScaled #v[5 / 2, 5, 5, 5]) 8 := by decide +kernel
  obtain ⟨hoffered, -, -⟩ := (windvane_decodes.2.2 Unit vaneBus 0 weatherVane t answer h).1
    #v[5 / 2, 5, 5, 5] 8 hanswer hmatch r s' h'
  exact ⟨r, s', h', hr, hoffered⟩

end W1Retap

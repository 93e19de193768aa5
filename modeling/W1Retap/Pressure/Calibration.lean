import W1Retap.Pressure.Conversions
import W1Retap.Pressure.Decoding

/-!
# The passes of the calibration

`ReadSensor_Calibration` reads the four words until two passes in a row agree, five times
at most. It does not look at which of the two ended the loop.
-/
namespace W1Retap.Tai8570

section
variable {σ : Type} (wire : Wire σ)

/-- Where pass `k` of the loop starts, the first of which is pass 0. -/
def passState (p : Statics σ) : ℕ → Statics σ
  | 0 => p
  | k + 1 => (readWords wire (passState p k)).2

/-- What pass `k` reads. -/
def passWords (p : Statics σ) (k : ℕ) : Option Words := (readWords wire (passState wire p k)).1

/-- Passes `k` and `k + 1` read the same words. -/
def Agree (p : Statics σ) (k : ℕ) : Prop :=
  ∃ sw, passWords wire p k = some sw ∧ passWords wire p (k + 1) = some sw

/-- The loop comes to pass `k`. -/
structure PassMade (p : Statics σ) (k : ℕ) : Prop where
  count : k < 5
  complete : ∀ i < k, (passWords wire p i).isSome = true
  differ : ∀ i, i + 1 < k → ¬ Agree wire p i

/-- `ReadSensor_Calibration` succeeds with the words that two passes in a row have read, and only
then. -/
structure CalibrationAgrees (p : Statics σ) : Prop where
  agreed : (readSensorCalibration wire p).1 = true → ∃ k sw, PassMade wire p (k + 1) ∧ sw.Full ∧
    passWords wire p k = some sw ∧ passWords wire p (k + 1) = some sw ∧
    (readSensorCalibration wire p).2.coeffs = sw.decode
  never : (∀ k < 5, (passWords wire p k).isSome = true) → (∀ k < 4, ¬ Agree wire p k) →
    (readSensorCalibration wire p).1 = false

/-! ## One pass -/

/-- Whatever the state, the result is such. -/
def Yields {α : Type} (P : α → Prop) (m : PM σ α) : Prop := ∀ p, P (m p).1

theorem Yields.bind {α β : Type} {P : β → Prop} {m : PM σ α} {f : α → PM σ β}
    (h : ∀ a, Yields P (f a)) : Yields P (m >>= f) := fun p => h (m p).1 (m p).2

theorem Yields.bind_of {α β : Type} {Q : α → Prop} {P : β → Prop} {m : PM σ α} {f : α → PM σ β}
    (hm : Yields Q m) (h : ∀ a, Q a → Yields P (f a)) : Yields P (m >>= f) := fun p =>
  h (m p).1 (hm p) (m p).2

theorem Yields.pure {α : Type} {P : α → Prop} {a : α} (h : P a) :
    Yields P (Pure.pure a : PM σ α) := fun _ => h

theorem Yields.ite {α : Type} {P : α → Prop} {c : Prop} [Decidable c] {m m' : PM σ α}
    (h : c → Yields P m) (h' : ¬ c → Yields P m') : Yields P (if c then m else m') := by
  split
  · exact h ‹_›
  · exact h' ‹_›

/-- A string of bits. -/
def Digits (lect : CString) : Prop := ∀ c ∈ lect, c = '0' ∨ c = '1'

theorem digits_nil : Digits [] := by simp [Digits]

theorem readPressureBits_digits (count : ℕ) : Yields Digits (readPressureBits wire count) := by
  induction count with
  | zero => exact .pure digits_nil
  | succ count ih =>
    apply Yields.bind
    intro bit
    have hcons (c : Char) (hc : c = '0' ∨ c = '1') :
        Yields Digits (do return c :: (← readPressureBits wire count)) := by
      refine .bind_of ih fun lect hlect => ?_
      exact .pure (List.forall_mem_cons.mpr ⟨hc, hlect⟩)
    cases bit with
    | false => exact hcons '0' (.inl rfl)
    | true => exact hcons '1' (.inr rfl)

theorem readPressureSensor_digits : Yields Digits (readPressureSensor wire 16) := by
  apply Yields.bind
  intro b
  exact .ite (fun _ => readPressureBits_digits wire 16) fun _ => .pure digits_nil

theorem readSensorValueStr_digits (cmd : CString) :
    Yields Digits (readSensorValueStr wire cmd) := by
  unfold readSensorValueStr
  apply Yields.bind
  intro b₁
  refine .ite (fun _ => .pure digits_nil) fun _ => .bind fun b₂ => ?_
  refine .ite (fun _ => .pure digits_nil) fun _ => .bind fun b₃ => ?_
  refine .ite (fun _ => .pure digits_nil) fun _ => ?_
  refine .bind_of (readPressureSensor_digits wire) fun lect hlect => ?_
  exact .bind fun _ => .pure hlect

/-- A pass that completes has read sixteen bits of each word. -/
theorem readWords_full : Yields (fun r => ∀ sw, r = some sw → sw.Full) (readWords wire) := by
  have hnone : Yields (fun r => ∀ sw, r = some sw → sw.Full) (pure none : PM σ (Option Words)) :=
    .pure fun sw h => nomatch h
  unfold readWords
  apply Yields.bind
  intro b
  refine .ite (fun _ => hnone) fun _ => ?_
  refine .bind_of (readSensorValueStr_digits wire secReadw1) fun sw1 h1 => ?_
  refine .bind_of (readSensorValueStr_digits wire secReadw2) fun sw2 h2 => ?_
  refine .bind_of (readSensorValueStr_digits wire secReadw3) fun sw3 h3 => ?_
  refine .bind_of (readSensorValueStr_digits wire secReadw4) fun sw4 h4 => ?_
  refine .ite (fun _ => hnone) fun hlen1 => .ite (fun _ => hnone) fun hlen2 => ?_
  refine .ite (fun _ => hnone) fun hlen3 => .ite (fun _ => hnone) fun hlen4 => .pure ?_
  rintro sw ⟨⟩
  exact ⟨⟨not_not.mp hlen1, h1⟩, ⟨not_not.mp hlen2, h2⟩, ⟨not_not.mp hlen3, h3⟩,
    ⟨not_not.mp hlen4, h4⟩⟩

/-! ## The loop -/

/-- What the pass before pass `k` has read, and `last` before the first. -/
def previous (last : Words) (p : Statics σ) : ℕ → Option Words
  | 0 => some last
  | k + 1 => passWords wire p k

theorem passState_succ (p : Statics σ) (k : ℕ) :
    passState wire (readWords wire p).2 k = passState wire p (k + 1) := by
  induction k with
  | zero => rfl
  | succ k ih => exact congrArg (fun q => (readWords wire q).2) ih

theorem passWords_succ (p : Statics σ) (k : ℕ) :
    passWords wire (readWords wire p).2 k = passWords wire p (k + 1) := by
  rw [passWords, passState_succ, passWords]

/-- The words of passes that go on: they are complete and differ from the pass before. -/
def GoesOn (last : Words) (p : Statics σ) (k : ℕ) : Prop :=
  (passWords wire p k).isSome = true ∧ passWords wire p k ≠ previous wire last p k

/-- The three ways in which the loop ends. -/
inductive LoopEnds (count : ℕ) (last : Words) (p : Statics σ) : Option Words × Statics σ → Prop
  | failed (k : ℕ) (hk : k < count) (hon : ∀ i < k, GoesOn wire last p i)
      (hfail : passWords wire p k = none) :
      LoopEnds count last p (none, passState wire p (k + 1))
  | agreed (k : ℕ) (sw : Words) (hk : k < count) (hon : ∀ i < k, GoesOn wire last p i)
      (hread : passWords wire p k = some sw) (hprevious : previous wire last p k = some sw) :
      LoopEnds count last p (some sw, passState wire p (k + 1))
  | spent (sw : Words) (hon : ∀ i < count, GoesOn wire last p i)
      (hlast : previous wire last p count = some sw) :
      LoopEnds count last p (some sw, passState wire p count)

variable {wire}

/-- After a first pass that goes on, the rest of the loop is a loop from its words. -/
theorem GoesOn.shift {last sw : Words} {p : Statics σ} (hread : passWords wire p 0 = some sw)
    (hne : sw ≠ last) {k : ℕ} (hon : ∀ i < k, GoesOn wire sw (readWords wire p).2 i) :
    ∀ i < k + 1, GoesOn wire last p i := by
  intro i hi
  cases i with
  | zero =>
    rw [GoesOn, hread]
    refine ⟨rfl, ?_⟩
    intro h
    exact hne (Option.some.inj h)
  | succ i =>
    have := hon i (Nat.lt_of_succ_lt_succ hi)
    rw [GoesOn, passWords_succ] at this
    refine ⟨this.1, ?_⟩
    cases i with
    | zero =>
      rw [previous, hread]
      exact this.2
    | succ i => simpa only [previous, passWords_succ] using this.2

theorem previous_shift {last sw : Words} {p : Statics σ} (hread : passWords wire p 0 = some sw)
    (k : ℕ) : previous wire sw (readWords wire p).2 k = previous wire last p (k + 1) := by
  cases k with
  | zero => exact hread.symm
  | succ k => exact passWords_succ wire p k

theorem readPasses_ends (count : ℕ) (last : Words) (p : Statics σ) :
    LoopEnds wire count last p (readPasses wire count last p) := by
  induction count generalizing last p with
  | zero => exact .spent last (fun i hi => absurd hi (Nat.not_lt_zero i)) rfl
  | succ count ih =>
    cases hread : (readWords wire p).1 with
    | none =>
      have hrun : readPasses wire (count + 1) last p = (none, passState wire p 1) := by
        rw [readPasses, bind_apply, hread]
        rfl
      rw [hrun]
      exact .failed 0 (Nat.succ_pos count) (fun i hi => absurd hi (Nat.not_lt_zero i)) hread
    | some sw =>
      by_cases heq : sw = last
      · have hrun : readPasses wire (count + 1) last p = (some sw, passState wire p 1) := by
          rw [readPasses, bind_apply, hread]
          simp only [if_pos heq]
          rfl
        rw [hrun]
        exact .agreed 0 sw (Nat.succ_pos count) (fun i hi => absurd hi (Nat.not_lt_zero i)) hread
          (congrArg some heq.symm)
      · have hrun : readPasses wire (count + 1) last p =
            readPasses wire count sw (readWords wire p).2 := by
          rw [readPasses, bind_apply, hread]
          simp only [if_neg heq]
        rw [hrun]
        have hends := ih sw (readWords wire p).2
        generalize readPasses wire count sw (readWords wire p).2 = r at hends
        cases hends with
        | failed k hk hon hfail =>
          rw [passState_succ]
          exact .failed (k + 1) (Nat.succ_lt_succ hk) (GoesOn.shift hread heq hon)
            (passWords_succ wire p k ▸ hfail)
        | agreed k sw' hk hon hread' hprevious =>
          rw [passState_succ]
          exact .agreed (k + 1) sw' (Nat.succ_lt_succ hk) (GoesOn.shift hread heq hon)
            (passWords_succ wire p k ▸ hread') (previous_shift hread k ▸ hprevious)
        | spent sw' hon hlast =>
          rw [passState_succ]
          exact .spent sw' (GoesOn.shift hread heq hon) (previous_shift hread count ▸ hlast)

/-! ## The calibration -/

theorem passWords_full {p : Statics σ} {k : ℕ} {sw : Words}
    (h : passWords wire p k = some sw) : sw.Full :=
  readWords_full wire (passState wire p k) sw h

/-- The first pass cannot agree with the initial strings. -/
theorem passWords_ne_initial {p : Statics σ} {k : ℕ} : passWords wire p k ≠ some {} := by
  intro h
  have hlength := (passWords_full h).sw1.length
  simp at hlength

theorem passMade_of_goesOn {last : Words} {p : Statics σ} {k : ℕ} (hk : k < 5)
    (hon : ∀ i < k, GoesOn wire last p i) : PassMade wire p k where
  count := hk
  complete := fun i hi => (hon i hi).1
  differ := by
    intro i hi hagree
    obtain ⟨sw, hread, hread'⟩ := hagree
    exact (hon (i + 1) hi).2 (hread'.trans hread.symm)

theorem readSensorCalibration_of_none {p q : Statics σ} (h : readPasses wire 5 {} p = (none, q)) :
    (readSensorCalibration wire p).1 = false := by
  rw [readSensorCalibration, bind_apply, h]
  rfl

theorem readSensorCalibration_of_some {p q : Statics σ} {sw : Words}
    (h : readPasses wire 5 {} p = (some sw, q)) :
    readSensorCalibration wire p = (true, { q with coeffs := sw.decode }) := by
  rw [readSensorCalibration, bind_apply, h]
  rfl

/-- A calibration keeps its contract unless all five passes are complete and no two in a row
agree: such a calibration succeeds. -/
theorem calibration_agrees_iff (wire : Wire σ) (p : Statics σ) : CalibrationAgrees wire p ↔
    ¬ ((∀ k < 5, (passWords wire p k).isSome = true) ∧ ∀ k < 4, ¬ Agree wire p k) := by
  have hends : LoopEnds wire 5 {} p (readPasses wire 5 {} p) := readPasses_ends 5 {} p
  generalize hrun : readPasses wire 5 {} p = r at hends
  cases hends with
  | failed k hk hon hfail =>
    have hfalse := readSensorCalibration_of_none hrun
    refine iff_of_true ⟨?_, ?_⟩ ?_
    · intro htrue
      rw [hfalse] at htrue
      cases htrue
    · intro _ _
      exact hfalse
    · intro ⟨hall, _⟩
      have hsome := hall k hk
      rw [hfail] at hsome
      cases hsome
  | agreed k sw hk hon hread hprevious =>
    cases k with
    | zero => exact absurd (hread.trans hprevious.symm) passWords_ne_initial
    | succ k =>
      have hagree : Agree wire p k := ⟨sw, hprevious, hread⟩
      have hnot : ¬ ∀ k < 4, ¬ Agree wire p k := fun h => h k (by omega) hagree
      refine iff_of_true ⟨?_, ?_⟩ ?_
      · intro _
        refine ⟨k, sw, passMade_of_goesOn hk hon, passWords_full hread, hprevious, hread, ?_⟩
        rw [readSensorCalibration_of_some hrun]
      · intro _ hnever
        exact absurd hnever hnot
      · intro ⟨_, hnever⟩
        exact hnot hnever
  | spent sw hon hlast =>
    have hall : ∀ k < 5, (passWords wire p k).isSome = true := fun k hk => (hon k hk).1
    have hnever : ∀ k < 4, ¬ Agree wire p k := by
      intro k hk hagree
      obtain ⟨sw, hread, hread'⟩ := hagree
      exact (hon (k + 1) (by omega)).2 (hread'.trans hread.symm)
    refine iff_of_false ?_ (not_not.mpr ⟨hall, hnever⟩)
    intro h
    have hfalse := h.never hall hnever
    rw [readSensorCalibration_of_some hrun] at hfalse
    cases hfalse

/-! ## A noisy contact -/

/-- A wire on which every bit of a pass reads the same, and the next pass reads the other. -/
def noisyWire : Wire ℕ where
  owSerialNum _ n := n
  owAccess n := (true, n)
  owBlock _ n := (none, n)
  owTouchByte b n := (b, n)
  owTouchBit b n := (b, n)
  owReadByte n := (if n / 64 % 2 = 0 then 0x80 else 0, n + 1)
  owWriteByte _ n := n
  owOpenFile _ _ n := (none, n)
  owReadFile serno _ n := (serno, n)
  owCloseFile _ _ n := n

def noisyStart : Statics ℕ := { bus := 0, below := Vector.replicate 8 0, reader := 0, writer := 1 }

theorem calibration_disagrees : ¬ CalibrationAgrees noisyWire noisyStart ∧
    (∀ k < 4, ¬ Agree noisyWire noisyStart k) ∧
    (readSensorCalibration noisyWire noisyStart).1 = true := by
  have hdiffer : ∀ k < 4,
      passWords noisyWire noisyStart k ≠ passWords noisyWire noisyStart (k + 1) := by
    decide +kernel
  have hcomplete : ∀ k < 5, (passWords noisyWire noisyStart k).isSome = true := by decide +kernel
  have hsucceeds : (readSensorCalibration noisyWire noisyStart).1 = true := by decide +kernel
  have hnever : ∀ k < 4, ¬ Agree noisyWire noisyStart k := by
    intro k hk hagree
    obtain ⟨sw, hread, hread'⟩ := hagree
    exact hdiffer k hk (hread.trans hread'.symm)
  refine ⟨?_, hnever, hsucceeds⟩
  intro h
  have hfalse := h.never hcomplete hnever
  rw [hsucceeds] at hfalse
  cases hfalse

end
end W1Retap.Tai8570

import W1Retap.Support.Crc

/-!
# Bursts

The remainder of a sequence of bits, with the lowest bit of a byte first. The register is moved
towards its lowest bit, and a polynomial with the highest bit loses nothing of what was in it. So a
stretch of changed bits that is no longer than the register is never undone by what follows.
-/
namespace W1Retap.Crc

variable {w : ℕ}

/-! ## The register -/

/-- The lowest bit goes out. -/
def shift (poly c : BitVec w) : BitVec w := if c.getLsbD 0 then (c >>> 1) ^^^ poly else c >>> 1

/-- A bit at the lowest end. -/
def low (b : Bool) : BitVec w := (BitVec.ofBool b).setWidth w

/-- The register behind bits. -/
def feed (poly c : BitVec w) (bits : List Bool) : BitVec w :=
  bits.foldl (fun c b => shift poly (c ^^^ low b)) c

/-- The word that has these bits. -/
def word : List Bool → BitVec w
  | [] => 0#w
  | b :: bits => low b ^^^ word bits <<< 1

theorem additive_shift (poly : BitVec w) : Additive (shift poly) := by
  intro x y
  unfold shift
  rw [BitVec.getLsbD_xor, BitVec.ushiftRight_xor_distrib]
  cases x.getLsbD 0 <;> cases y.getLsbD 0
  · rfl
  · exact BitVec.xor_assoc ..
  · simp only [Bool.xor_false, if_true, Bool.false_eq_true, if_false]
    ac_rfl
  · simp only [Bool.xor_self, if_true, Bool.false_eq_true, if_false]
    calc (x >>> 1) ^^^ (y >>> 1) = (x >>> 1) ^^^ (y >>> 1) ^^^ (poly ^^^ poly) := by
          rw [BitVec.xor_self, BitVec.xor_zero]
      _ = (x >>> 1) ^^^ poly ^^^ ((y >>> 1) ^^^ poly) := by ac_rfl

theorem shift_eq_zero {poly c : BitVec w} (hpoly : poly.msb = true) (h : shift poly c = 0#w) :
    c = 0#w := by
  unfold shift at h
  by_cases hlow : c.getLsbD 0 = true
  · rw [if_pos hlow] at h
    have hmsb : (c >>> 1).msb = false := by simp [BitVec.msb_ushiftRight]
    rw [BitVec.xor_eq_zero_iff.mp h, hpoly] at hmsb
    exact absurd hmsb (by decide)
  · rw [if_neg hlow] at h
    apply BitVec.eq_of_getLsbD_eq
    intro i _
    cases i with
    | zero =>
      rw [Bool.not_eq_true] at hlow
      rw [hlow, BitVec.getLsbD_zero]
    | succ i =>
      have hbit := congrArg (BitVec.getLsbD · i) h
      rw [BitVec.getLsbD_zero]
      simpa [BitVec.getLsbD_ushiftRight, Nat.add_comm 1 i] using hbit

theorem shift_injective {poly : BitVec w} (hpoly : poly.msb = true) :
    Function.Injective (shift poly) := by
  intro x y h
  have hzero : shift poly (x ^^^ y) = 0#w := by rw [additive_shift, h, BitVec.xor_self]
  exact BitVec.xor_eq_zero_iff.mp (shift_eq_zero hpoly hzero)

/-- Nothing of what was in the register is lost. -/
theorem feed_injective {poly : BitVec w} (hpoly : poly.msb = true) (bits : List Bool) :
    Function.Injective (feed poly · bits) := by
  induction bits with
  | nil => exact fun _ _ h => h
  | cons b bits ih =>
    intro x y h
    have hshift := shift_injective hpoly (ih h)
    simpa using congrArg (· ^^^ low b) hshift

theorem feed_append (poly c : BitVec w) (bits bits' : List Bool) :
    feed poly c (bits ++ bits') = feed poly (feed poly c bits) bits' :=
  List.foldl_append

/-! ## Words -/

theorem getLsbD_low (b : Bool) (i : ℕ) :
    (low b : BitVec w).getLsbD i = (decide (i < w) && (decide (i = 0) && b)) := by
  rw [low, BitVec.getLsbD_setWidth]
  cases i with
  | zero => simp
  | succ i => simp

theorem getLsbD_word (bits : List Bool) (i : ℕ) :
    (word bits : BitVec w).getLsbD i = (decide (i < w) && bits.getD i false) := by
  induction bits generalizing i with
  | nil => simp [word]
  | cons b bits ih =>
    rw [word, BitVec.getLsbD_xor, getLsbD_low, BitVec.getLsbD_shiftLeft]
    cases i with
    | zero => simp
    | succ i =>
      rw [Nat.add_sub_cancel, ih]
      by_cases hi : i + 1 < w
      · simp [hi, Nat.lt_of_succ_lt hi]
      · simp [hi]

/-- What is above the lowest bit moves down. -/
theorem shift_word (poly : BitVec w) {bits : List Bool} (h : bits.length < w) :
    shift poly (word bits <<< 1) = word bits := by
  have hlow : (word bits <<< 1 : BitVec w).getLsbD 0 = false := by simp
  rw [shift, hlow, if_neg Bool.false_ne_true]
  apply BitVec.eq_of_getLsbD_eq
  intro i hi
  rw [BitVec.getLsbD_ushiftRight, BitVec.getLsbD_shiftLeft, Nat.add_sub_cancel_left, getLsbD_word]
  by_cases hlast : 1 + i < w
  · simp [hlast]
  · have hout : bits.getD i false = false := by
      rw [List.getD_eq_getElem?_getD, List.getElem?_eq_none (by omega)]
      rfl
    simp only [hout, Bool.and_false]

/-- As long as the bits fit into the register they may go in all at once. -/
theorem feed_word (poly c : BitVec w) {bits : List Bool} (h : bits.length ≤ w) :
    feed poly c bits = (shift poly)^[bits.length] (c ^^^ word bits) := by
  induction bits generalizing c with
  | nil => exact (BitVec.xor_zero ..).symm
  | cons b bits ih =>
    have hlength : bits.length < w := h
    have hstep : shift poly (c ^^^ low b) ^^^ word bits =
        shift poly (c ^^^ (low b ^^^ word bits <<< 1)) := by
      rw [← BitVec.xor_assoc, additive_shift poly (c ^^^ low b), shift_word poly hlength]
    rw [feed, List.foldl_cons]
    change feed poly (shift poly (c ^^^ low b)) bits = _
    rw [ih _ (Nat.le_of_lt hlength), hstep]
    rfl

theorem word_append (bits bits' : List Bool) :
    (word (bits ++ bits') : BitVec w) = word bits ^^^ word bits' <<< bits.length := by
  induction bits with
  | nil => simp [word]
  | cons b bits ih =>
    rw [List.cons_append, word, word, ih, BitVec.shiftLeft_xor_distrib, ← BitVec.shiftLeft_add,
      BitVec.xor_assoc, List.length_cons]

theorem word_injective {bits bits' : List Bool} (hlength : bits.length = bits'.length)
    (h : bits.length ≤ w) (heq : (word bits : BitVec w) = word bits') : bits = bits' := by
  apply List.ext_getElem hlength
  intro i hi hi'
  have hbit := congrArg (BitVec.getLsbD · i) heq
  simp only [getLsbD_word, decide_eq_true (Nat.lt_of_lt_of_le hi h), Bool.true_and] at hbit
  rwa [List.getD_eq_getElem _ _ hi, List.getD_eq_getElem _ _ hi'] at hbit

/-! ## Bursts -/

/-- Two sequences that agree but for a stretch of at most `k`. -/
def Burst {α : Type} (k : ℕ) (a b : List α) : Prop :=
  ∃ p x y q, a = p ++ x ++ q ∧ b = p ++ y ++ q ∧ x.length = y.length ∧ x.length ≤ k

theorem Burst.refl {α : Type} (k : ℕ) (a : List α) : Burst k a a :=
  ⟨a, [], [], [], by simp, by simp, rfl, Nat.zero_le k⟩

theorem Burst.length {α : Type} {k : ℕ} {a b : List α} (h : Burst k a b) : a.length = b.length := by
  obtain ⟨p, x, y, q, rfl, rfl, hlength, -⟩ := h
  simp [hlength]

/-- No burst that fits into the register is missed. -/
theorem Burst.eq_of_feed {poly c : BitVec w} {a b : List Bool} (h : Burst w a b)
    (hpoly : poly.msb = true) (heq : feed poly c a = feed poly c b) : a = b := by
  obtain ⟨p, x, y, q, rfl, rfl, hlength, hw⟩ := h
  rw [feed_append, feed_append, feed_append, feed_append] at heq
  have hstretch := feed_injective hpoly q heq
  change feed poly (feed poly c p) x = feed poly (feed poly c p) y at hstretch
  rw [feed_word poly (feed poly c p) hw, feed_word poly (feed poly c p) (hlength.symm.trans_le hw),
    hlength] at hstretch
  have hwords := (shift_injective hpoly).iterate y.length hstretch
  have hsame := congrArg (feed poly c p ^^^ ·) hwords
  simp only [← BitVec.xor_assoc, BitVec.xor_self, BitVec.zero_xor] at hsame
  rw [word_injective hlength hw hsame]

/-! ## Bytes -/

/-- The bits of a byte in the order in which they go over the line. -/
def bits (b : BitVec 8) : List Bool := (List.range 8).map b.getLsbD

def serial (bytes : List (BitVec 8)) : List Bool := bytes.flatMap bits

theorem word_bits (b : BitVec 8) : (word (bits b) : BitVec w) = b.setWidth w := by
  apply BitVec.eq_of_getLsbD_eq
  intro i hi
  rw [getLsbD_word, BitVec.getLsbD_setWidth, bits, List.getD_eq_getElem?_getD, List.getElem?_map]
  by_cases h : i < 8
  · rw [List.getElem?_range h]
    rfl
  · rw [List.getElem?_eq_none (by simpa using h), BitVec.getLsbD_of_ge b i (by omega)]
    rfl

theorem serial_injective : Function.Injective serial := by
  intro a
  induction a with
  | nil =>
    intro b h
    cases b with
    | nil => rfl
    | cons y b => exact nomatch (show [] = bits y ++ serial b from h)
  | cons x a ih =>
    intro b h
    cases b with
    | nil => exact nomatch (show bits x ++ serial a = [] from h)
    | cons y b =>
      have hparts := List.append_inj (show bits x ++ serial a = bits y ++ serial b from h) rfl
      have hword : (word (bits x) : BitVec 8) = word (bits y) := by rw [hparts.1]
      rw [word_bits, word_bits, BitVec.setWidth_eq, BitVec.setWidth_eq] at hword
      rw [hword, ih hparts.2]

/-- A function that takes a whole byte at once, folded over bytes. -/
theorem foldl_serial {poly : BitVec w} (hw : 8 ≤ w) {f : BitVec w → BitVec 8 → BitVec w}
    (hf : ∀ c b, f c b = (shift poly)^[8] (c ^^^ b.setWidth w)) (c : BitVec w)
    (bytes : List (BitVec 8)) : bytes.foldl f c = feed poly c (serial bytes) := by
  induction bytes generalizing c with
  | nil => rfl
  | cons b bytes ih =>
    have hbyte : f c b = feed poly c (bits b) := by
      have hfits : (bits b).length ≤ w := hw
      rw [feed_word poly c hfits, word_bits]
      exact hf c b
    rw [List.foldl_cons, ih, hbyte]
    exact (feed_append poly c (bits b) (serial bytes)).symm

end W1Retap.Crc

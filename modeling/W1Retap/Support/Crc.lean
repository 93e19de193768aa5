import Mathlib

/-!
# Cyclic redundancy checks

The remainder of a sequence of words, bit by bit, with the highest bit first. It is additive
for exclusive or, so the difference of two remainders is that of the differences; and an
additive map whose values at the single bits are distinct and of odd weight tells words apart
that differ in one to three bits.
-/
namespace W1Retap.Crc

variable {w m : ℕ}

/-! ## Additive maps -/

def Additive (f : BitVec m → BitVec w) : Prop := ∀ x y, f (x ^^^ y) = f x ^^^ f y

/-- The bits in which two words differ. -/
def flips (x y : BitVec m) : Finset (Fin m) :=
  Finset.univ.filter fun i => x.getLsbD i ≠ y.getLsbD i

/-- The word with this bit. -/
def unit (i : Fin m) : BitVec m := BitVec.twoPow m i

theorem getLsbD_unit (i j : Fin m) : (unit i).getLsbD j = decide (j = i) := by
  rw [unit, BitVec.getLsbD_twoPow, decide_eq_true i.isLt, Bool.true_and]
  exact decide_eq_decide.mpr ⟨fun h => Fin.ext h.symm, fun h => congrArg Fin.val h.symm⟩

theorem getLsbD_xor_flips (x y : BitVec m) (i : Fin m) :
    (x ^^^ y).getLsbD i = decide (i ∈ flips x y) := by
  have hmem : i ∈ flips x y ↔ x.getLsbD i ≠ y.getLsbD i := by simp only [flips, Finset.mem_filter_univ]
  have hxor : ∀ a b : Bool, (a ^^ b) = decide (a ≠ b) := by decide
  rw [BitVec.getLsbD_xor, hxor]
  exact (decide_eq_decide.mpr hmem).symm

section
variable {x y : BitVec m} {i j k : Fin m}

theorem xor_of_flips_one (h : flips x y = {i}) : x ^^^ y = unit i := by
  apply BitVec.eq_of_getLsbD_eq
  intro n hn
  have hx := getLsbD_xor_flips x y ⟨n, hn⟩
  have hi := getLsbD_unit i ⟨n, hn⟩
  rw [hx, hi, h]
  exact decide_eq_decide.mpr Finset.mem_singleton

theorem xor_of_flips_two (hij : i ≠ j) (h : flips x y = {i, j}) : x ^^^ y = unit i ^^^ unit j := by
  apply BitVec.eq_of_getLsbD_eq
  intro n hn
  have hx := getLsbD_xor_flips x y ⟨n, hn⟩
  have hi := getLsbD_unit i ⟨n, hn⟩
  have hj := getLsbD_unit j ⟨n, hn⟩
  rw [hx, BitVec.getLsbD_xor, hi, hj, h]
  by_cases hni : (⟨n, hn⟩ : Fin m) = i
  · simp [hni, hij]
  · simp [hni]

theorem xor_of_flips_three (hij : i ≠ j) (hik : i ≠ k) (hjk : j ≠ k) (h : flips x y = {i, j, k}) :
    x ^^^ y = unit i ^^^ unit j ^^^ unit k := by
  apply BitVec.eq_of_getLsbD_eq
  intro n hn
  have hx := getLsbD_xor_flips x y ⟨n, hn⟩
  have hi := getLsbD_unit i ⟨n, hn⟩
  have hj := getLsbD_unit j ⟨n, hn⟩
  have hk := getLsbD_unit k ⟨n, hn⟩
  rw [hx, BitVec.getLsbD_xor, BitVec.getLsbD_xor, hi, hj, hk, h]
  by_cases hni : (⟨n, hn⟩ : Fin m) = i
  · simp [hni, hij, hik]
  · by_cases hnj : (⟨n, hn⟩ : Fin m) = j
    · simp [hnj, hij.symm, hjk]
    · simp [hni, hnj]

end

/-- A parity of words. -/
structure Parity (w : ℕ) where
  odd : BitVec w → Bool
  xor : ∀ x y, odd (x ^^^ y) = (odd x ^^ odd y)

theorem Parity.zero (p : Parity w) : p.odd 0 = false := by
  have h := p.xor 0 0
  rw [BitVec.xor_self, Bool.xor_self] at h
  exact h

/-- Words that differ in one to three bits have different values: single values are odd, pairs
are distinct, and three odd values never cancel. -/
theorem Additive.ne_of_flips {f : BitVec m → BitVec w} (hf : Additive f) (p : Parity w)
    (hodd : ∀ i, p.odd (f (unit i)) = true) (hinj : ∀ i j, f (unit i) = f (unit j) → i = j)
    {x y : BitVec m} (h : (flips x y).card ∈ Finset.Icc 1 3) : f x ≠ f y := by
  intro heq
  have hzero : f (x ^^^ y) = 0 := by rw [hf, heq, BitVec.xor_self]; rfl
  have hparity : p.odd (f (x ^^^ y)) = false := by rw [hzero, p.zero]
  obtain ⟨hmin, hmax⟩ := Finset.mem_Icc.mp h
  interval_cases hcard : (flips x y).card
  · obtain ⟨i, hi⟩ := Finset.card_eq_one.mp hcard
    rw [xor_of_flips_one hi, hodd i] at hparity
    exact nomatch hparity
  · obtain ⟨i, j, hij, hflips⟩ := Finset.card_eq_two.mp hcard
    rw [xor_of_flips_two hij hflips, hf] at hzero
    exact hij (hinj i j (BitVec.xor_eq_zero_iff.mp hzero))
  · obtain ⟨i, j, k, hij, hik, hjk, hflips⟩ := Finset.card_eq_three.mp hcard
    rw [xor_of_flips_three hij hik hjk hflips, hf, hf, p.xor, p.xor, hodd, hodd, hodd] at hparity
    exact nomatch hparity

/-- The weight modulo two. -/
def weight (w : ℕ) : Parity w where
  odd x := (List.range w).foldr (fun i b => x.getLsbD i ^^ b) false
  xor x y := by
    have hcomm : ∀ a b c d : Bool, ((a ^^ b) ^^ (c ^^ d)) = ((a ^^ c) ^^ (b ^^ d)) := by decide
    induction List.range w with
    | nil => rfl
    | cons i l ih =>
      rw [List.foldr_cons, List.foldr_cons, List.foldr_cons, ih, BitVec.getLsbD_xor]
      exact hcomm ..

/-! ## Remainders -/

/-- The next bit is shifted in. -/
def step (poly c : BitVec w) : BitVec w := if c.msb then (c <<< 1) ^^^ poly else c <<< 1

/-- The remainder of words after `c`. -/
def remainder (poly c : BitVec w) (bs : List (BitVec w)) : BitVec w :=
  bs.foldl (fun c b => (step poly)^[w] (c ^^^ b)) c

theorem additive_step (poly : BitVec w) : Additive (step poly) := by
  intro x y
  unfold step
  rw [BitVec.msb_xor, BitVec.shiftLeft_xor_distrib]
  cases x.msb <;> cases y.msb
  · rfl
  · exact BitVec.xor_assoc ..
  · simp only [Bool.xor_false, if_true, Bool.false_eq_true, if_false]
    ac_rfl
  · simp only [Bool.xor_self, if_true, Bool.false_eq_true, if_false]
    calc (x <<< 1) ^^^ (y <<< 1) = (x <<< 1) ^^^ (y <<< 1) ^^^ (poly ^^^ poly) := by
          rw [BitVec.xor_self, BitVec.xor_zero]
      _ = (x <<< 1) ^^^ poly ^^^ ((y <<< 1) ^^^ poly) := by ac_rfl

theorem Additive.iterate {f : BitVec w → BitVec w} (hf : Additive f) (k : ℕ) : Additive f^[k] := by
  induction k with
  | zero => exact fun _ _ => rfl
  | succ k ih =>
    intro x y
    rw [Function.iterate_succ_apply, hf, ih]
    rfl

theorem remainder_xor (poly c c' : BitVec w) (bs bs' : List (BitVec w)) (h : bs.length = bs'.length) :
    remainder poly (c ^^^ c') (List.zipWith (· ^^^ ·) bs bs') =
      remainder poly c bs ^^^ remainder poly c' bs' := by
  induction bs generalizing c c' bs' with
  | nil =>
    obtain rfl := List.length_eq_zero_iff.mp h.symm
    rfl
  | cons b bs ih =>
    cases bs' with
    | nil => exact nomatch h
    | cons b' bs' =>
      have hstep : (step poly)^[w] (c ^^^ c' ^^^ (b ^^^ b')) =
          (step poly)^[w] (c ^^^ b) ^^^ (step poly)^[w] (c' ^^^ b') := by
        rw [← (additive_step poly).iterate w]
        congr 1
        ac_rfl
      rw [List.zipWith_cons_cons, remainder, List.foldl_cons, hstep]
      exact ih _ _ _ (Nat.succ.inj h)

theorem additive_reverse : Additive (BitVec.reverse (w := w)) := by
  intro x y
  apply BitVec.eq_of_getLsbD_eq
  intro i _
  rw [BitVec.getLsbD_xor, BitVec.getLsbD_reverse, BitVec.getLsbD_reverse, BitVec.getLsbD_reverse,
    BitVec.getMsbD_xor]

end W1Retap.Crc

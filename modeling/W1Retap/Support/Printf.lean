import W1Retap.Support.CStrings
import Mathlib

/-!
# Numbers in text

What `printf` makes of a double with `%.nf` and `%g`, and a reader for such numbers, which
follows the grammar of JSON. A double is an exact rational here; conversions round to the
nearest digit, ties to even.
-/
namespace W1Retap.Printf

open CStrings

/-! ## Numerals -/

/-- A decimal number with its sign, digits and exponent. -/
structure Numeral where
  neg : Bool := false
  int : List Char
  frac : List Char := []
  exp : Option Int := none
  deriving DecidableEq, Repr

/-- `n` with leading zeros up to this width. -/
def padded (width n : ℕ) : List Char :=
  List.replicate (width - (Nat.toDigits 10 n).length) '0' ++ Nat.toDigits 10 n

def expText : Option Int → List Char
  | none => []
  | some e => 'e' :: (if e < 0 then '-' else '+') :: padded 2 e.natAbs

def Numeral.text (n : Numeral) : List Char :=
  (if n.neg then ['-'] else []) ++ n.int ++ (if n.frac = [] then [] else '.' :: n.frac) ++
    expText n.exp

def Numeral.value (n : Numeral) : ℚ :=
  (if n.neg then -1 else 1) * digitsVal (n.int ++ n.frac) * 10 ^ (n.exp.getD 0 - n.frac.length)

/-- The digits are digits, and the first is a zero only if it is alone before the point. -/
structure Numeral.Proper (n : Numeral) : Prop where
  int : ∀ c ∈ n.int, isdigit c = true
  frac : ∀ c ∈ n.frac, isdigit c = true
  ne : n.int ≠ []
  first : n.int.head? = some '0' → n.int = ['0']

/-! ## Reading -/

def readDigits (s : List Char) : Option (List Char × List Char) :=
  if s.takeWhile isdigit = [] then none else some (s.takeWhile isdigit, s.dropWhile isdigit)

def readMinus : List Char → ℚ × List Char
  | '-' :: s => (-1, s)
  | s => (1, s)

def readFrac : List Char → Option (List Char × List Char)
  | '.' :: s => readDigits s
  | s => some ([], s)

def readExp : List Char → Option (Int × List Char)
  | [] => some (0, [])
  | c :: s =>
    if c = 'e' ∨ c = 'E' then
      (readDigits (sign s).2).map fun r => ((sign s).1 * digitsVal r.1, r.2)
    else some (0, c :: s)

/-- A number at the start of a text, and what follows it. -/
def readNumber (s : List Char) : Option (ℚ × List Char) := do
  let (sgn, s) := readMinus s
  let (ds, s) ← readDigits s
  if ds.head? = some '0' ∧ ds ≠ ['0'] then none
  else
    let (fs, s) ← readFrac s
    let (e, s) ← readExp s
    return (sgn * digitsVal (ds ++ fs) * 10 ^ (e - fs.length), s)

/-- The text denotes the number. -/
def Denotes (s : List Char) (x : ℚ) : Prop := readNumber s = some (x, [])

/-- No number goes on with such a text. -/
def Ends (rest : List Char) : Prop :=
  ∀ c cs, rest = c :: cs → isdigit c = false ∧ c ≠ '.' ∧ c ≠ 'e' ∧ c ≠ 'E'

theorem ends_nil : Ends [] := fun _ _ h => nomatch h

/-! ## Digits -/

section
variable {s ds rest : List Char} {k n : ℕ}

theorem isdigit_toDigits : ∀ c ∈ Nat.toDigits 10 n, isdigit c = true := by
  intro c hc
  have h := Nat.isDigit_of_mem_toDigits (by omega) (by omega) hc
  simp only [Char.isDigit, Bool.and_eq_true, decide_eq_true_eq] at h
  simp only [isdigit, Bool.and_eq_true, decide_eq_true_eq]
  exact h

theorem isdigit_padded : ∀ c ∈ padded k n, isdigit c = true := by
  intro c hc
  rcases List.mem_append.mp hc with hc | hc
  · rw [List.eq_of_mem_replicate hc]
    rfl
  · exact isdigit_toDigits c hc

theorem padded_ne_nil : padded k n ≠ [] := by
  have hne : Nat.toDigits 10 n ≠ [] := Nat.toDigits_ne_nil
  simp [padded, hne]

theorem digitsVal_append (ds ds' : List Char) :
    digitsVal (ds ++ ds') = digitsVal ds * 10 ^ ds'.length + digitsVal ds' := by
  have hstart : ∀ (ds : List Char) (v : ℕ),
      ds.foldl (fun v c => 10 * v + (c.toNat - 48)) v = v * 10 ^ ds.length + digitsVal ds := by
    intro ds
    induction ds with
    | nil => simp [digitsVal]
    | cons c ds ih =>
      intro v
      have hcons : digitsVal (c :: ds) = (10 * 0 + (c.toNat - 48)) * 10 ^ ds.length + digitsVal ds :=
        ih _
      rw [List.foldl_cons, ih, hcons, List.length_cons, pow_succ]
      ring
  rw [digitsVal, List.foldl_append]
  exact hstart ds' (digitsVal ds)

theorem digitsVal_zeros : digitsVal (List.replicate k '0') = 0 := by
  induction k with
  | zero => rfl
  | succ k ih =>
    rw [List.replicate_succ', digitsVal_append, ih]
    rfl

theorem digitsVal_toDigits : digitsVal (Nat.toDigits 10 n) = n := by
  conv_rhs => rw [← Nat.ofDigitChars_ten_toDigits (n := n)]
  rw [Nat.ofDigitChars_eq_foldl]
  rfl

theorem digitsVal_padded : digitsVal (padded k n) = n := by
  rw [padded, digitsVal_append, digitsVal_zeros, Nat.zero_mul, Nat.zero_add, digitsVal_toDigits]

theorem length_padded (h : n < 10 ^ k) (hk : 0 < k) : (padded k n).length = k := by
  have hle : (Nat.toDigits 10 n).length ≤ k := (Nat.length_toDigits_le_iff (by omega) hk).mpr h
  rw [padded, List.length_append, List.length_replicate]
  omega

theorem readDigits_append (hds : ∀ c ∈ ds, isdigit c = true) (hne : ds ≠ [])
    (hrest : ∀ c cs, rest = c :: cs → isdigit c = false) :
    readDigits (ds ++ rest) = some (ds, rest) := by
  have htake : (ds ++ rest).takeWhile isdigit = ds := by
    rw [List.takeWhile_append_of_pos hds]
    cases rest with
    | nil => simp
    | cons c cs => simp [hrest c cs rfl]
  have hdrop : (ds ++ rest).dropWhile isdigit = rest := by
    rw [List.dropWhile_append_of_pos hds]
    cases rest with
    | nil => rfl
    | cons c cs => simp [hrest c cs rfl]
  rw [readDigits, htake, hdrop, if_neg hne]

/-! ## A numeral is read back -/

theorem readExp_expText (e : Option Int) (hrest : Ends rest) :
    readExp (expText e ++ rest) = some (e.getD 0, rest) := by
  cases e with
  | none =>
    cases rest with
    | nil => rfl
    | cons c cs =>
      obtain ⟨-, -, he, hE⟩ := hrest c cs rfl
      change readExp (c :: cs) = _
      rw [readExp, if_neg (not_or.mpr ⟨he, hE⟩)]
      rfl
  | some e =>
    have hread := readDigits_append (isdigit_padded (k := 2) (n := e.natAbs)) padded_ne_nil
      fun c cs h => (hrest c cs h).1
    change readExp ('e' :: ((if e < 0 then '-' else '+') :: (padded 2 e.natAbs ++ rest))) = _
    rw [readExp, if_pos (Or.inl rfl)]
    by_cases he : e < 0
    · rw [if_pos he]
      simp only [sign, hread, Option.map_some, digitsVal_padded, Option.getD_some]
      congr 2
      omega
    · rw [if_neg he]
      simp only [sign, hread, Option.map_some, digitsVal_padded, Option.getD_some]
      congr 2
      omega

theorem readFrac_text {fs : List Char} (hfs : ∀ c ∈ fs, isdigit c = true)
    (hrest : ∀ c cs, rest = c :: cs → isdigit c = false ∧ c ≠ '.') :
    readFrac ((if fs = [] then [] else '.' :: fs) ++ rest) = some (fs, rest) := by
  by_cases hne : fs = []
  · rw [if_pos hne, hne, List.nil_append]
    unfold readFrac
    split
    · exact absurd rfl (hrest _ _ rfl).2
    · rfl
  · rw [if_neg hne]
    exact readDigits_append hfs hne fun c cs h => (hrest c cs h).1

/-- What follows the digits before the point. -/
theorem ends_expText (e : Option Int) (hrest : Ends rest) (c : Char) (cs : List Char)
    (h : expText e ++ rest = c :: cs) : isdigit c = false ∧ c ≠ '.' := by
  cases e with
  | none =>
    obtain ⟨hdigit, hdot, -⟩ := hrest c cs h
    exact ⟨hdigit, hdot⟩
  | some e =>
    obtain ⟨rfl, -⟩ := List.cons.inj h
    exact ⟨rfl, by decide⟩

theorem readNumber_text {n : Numeral} (hn : n.Proper) (hrest : Ends rest) :
    readNumber (n.text ++ rest) = some (n.value, rest) := by
  have htail : ∀ c cs, (if n.frac = [] then [] else '.' :: n.frac) ++ (expText n.exp ++ rest) =
      c :: cs → isdigit c = false := by
    intro c cs h
    by_cases hfrac : n.frac = []
    · rw [if_pos hfrac, List.nil_append] at h
      exact (ends_expText n.exp hrest c cs h).1
    · rw [if_neg hfrac] at h
      obtain ⟨rfl, -⟩ := List.cons.inj h
      rfl
  have hminus : readMinus (n.text ++ rest) = (if n.neg then -1 else 1, n.int ++
      ((if n.frac = [] then [] else '.' :: n.frac) ++ (expText n.exp ++ rest))) := by
    unfold Numeral.text
    cases n.neg with
    | true => simp [readMinus]
    | false =>
      cases hint : n.int with
      | nil => exact absurd hint hn.ne
      | cons c cs =>
        have hc : c ≠ '-' := by
          rintro rfl
          have := hn.int '-' (by simp [hint])
          exact absurd this (by decide)
        simp [readMinus, hc]
  have hfirst : ¬ (n.int.head? = some '0' ∧ n.int ≠ ['0']) := fun h => h.2 (hn.first h.1)
  rw [readNumber, hminus]
  simp only [readDigits_append hn.int hn.ne htail, Option.bind_eq_bind, Option.bind_some,
    if_neg hfirst, readFrac_text hn.frac (ends_expText n.exp hrest), readExp_expText n.exp hrest]
  rfl

end

/-- The text of a numeral denotes its value. -/
theorem denotes_text {n : Numeral} (hn : n.Proper) : Denotes n.text n.value := by
  have h := readNumber_text hn ends_nil
  rwa [List.append_nil] at h

theorem denotes_unique {s : List Char} {x y : ℚ} (hx : Denotes s x) (hy : Denotes s y) : x = y :=
  congrArg Prod.fst (Option.some.inj (hx.symm.trans hy))

/-! ## Conversions -/

/-- `%ld` -/
def whole (n : Int) : Numeral where
  neg := n < 0
  int := Nat.toDigits 10 n.natAbs


/-- The nearest integer; of two that are equally near, the even one. -/
def roundEven (x : ℚ) : Int :=
  if x - ⌊x⌋ < 1 / 2 ∨ x - ⌊x⌋ = 1 / 2 ∧ ⌊x⌋ % 2 = 0 then ⌊x⌋ else ⌊x⌋ + 1

theorem roundEven_int (n : Int) : roundEven n = n := by
  simp [roundEven]

theorem roundEven_mem (x : ℚ) : ⌊x⌋ ≤ roundEven x ∧ roundEven x ≤ ⌊x⌋ + 1 := by
  unfold roundEven
  split <;> omega

theorem roundEven_nonneg {x : ℚ} (h : 0 ≤ x) : 0 ≤ roundEven x :=
  (Int.floor_nonneg.mpr h).trans (roundEven_mem x).1

/-- `x` in units of the last place of `%.pf`, without its sign. -/
def scaled (p : ℕ) (x : ℚ) : ℕ := (roundEven (|x| * 10 ^ p)).toNat

/-- `%.pf` -/
def fixed (p : ℕ) (x : ℚ) : Numeral where
  neg := x < 0
  int := Nat.toDigits 10 (scaled p x / 10 ^ p)
  frac := if p = 0 then [] else padded p (scaled p x % 10 ^ p)

/-- The number that `%.pf` prints. -/
def roundTo (p : ℕ) (x : ℚ) : ℚ := (if x < 0 then -1 else 1) * scaled p x / 10 ^ p

/-- The digits of a natural number start with a zero only if it is zero. -/
theorem head?_toDigits {n : ℕ} (h : (Nat.toDigits 10 n).head? = some '0') :
    Nat.toDigits 10 n = ['0'] := by
  rcases Nat.eq_zero_or_pos n with rfl | hpos
  · rfl
  · obtain ⟨c, ds, hds, hc⟩ := toDigits_cons hpos
    rw [hds] at h
    exact absurd (Option.some.inj h) hc

theorem proper_whole (n : Int) : (whole n).Proper where
  int := isdigit_toDigits
  frac := by simp [whole]
  ne := Nat.toDigits_ne_nil
  first := head?_toDigits

theorem value_whole (n : Int) : (whole n).value = n := by
  have hdigits : digitsVal ((whole n).int ++ (whole n).frac) = n.natAbs := by
    rw [whole, List.append_nil, digitsVal_toDigits]
  have habs : (n.natAbs : ℚ) = |(n : ℚ)| := by
    rw [Nat.cast_natAbs, Int.cast_abs]
  rw [Numeral.value, hdigits, habs]
  by_cases hn : n < 0
  · have hcast : |(n : ℚ)| = -n := abs_of_neg (Int.cast_lt_zero.mpr hn)
    simp [whole, hn, hcast]
  · have hcast : |(n : ℚ)| = n := abs_of_nonneg (Int.cast_nonneg (not_lt.mp hn))
    simp [whole, hn, hcast]

/-- `%ld` is exact. -/
theorem denotes_whole (n : Int) : Denotes (whole n).text n :=
  value_whole n ▸ denotes_text (proper_whole n)

theorem proper_fixed (p : ℕ) (x : ℚ) : (fixed p x).Proper where
  int := isdigit_toDigits
  frac := by
    intro c hc
    unfold fixed at hc
    by_cases hp : p = 0
    · simp [hp] at hc
    · simp only [if_neg hp] at hc
      exact isdigit_padded c hc
  ne := Nat.toDigits_ne_nil
  first := head?_toDigits

theorem value_fixed (p : ℕ) (x : ℚ) : (fixed p x).value = roundTo p x := by
  have hfrac : (fixed p x).frac.length = p ∧
      digitsVal ((fixed p x).int ++ (fixed p x).frac) = scaled p x := by
    by_cases hp : p = 0
    · simp [fixed, hp, digitsVal_toDigits]
    · have hlt : scaled p x % 10 ^ p < 10 ^ p := Nat.mod_lt _ (by positivity)
      have hlen := length_padded hlt (Nat.pos_of_ne_zero hp)
      simp only [fixed, if_neg hp]
      refine ⟨hlen, ?_⟩
      rw [digitsVal_append, hlen, digitsVal_toDigits, digitsVal_padded, Nat.div_add_mod']
  rw [Numeral.value, hfrac.1, hfrac.2]
  simp [fixed, roundTo, zpow_neg, div_eq_mul_inv]

theorem denotes_fixed (p : ℕ) (x : ℚ) : Denotes (fixed p x).text (roundTo p x) :=
  value_fixed p x ▸ denotes_text (proper_fixed p x)

/-- A natural number has nothing to round. -/
theorem roundTo_nat (p n : ℕ) : roundTo p n = n := by
  have hscaled : scaled p n = n * 10 ^ p := by
    have hcast : |(n : ℚ)| * 10 ^ p = ((n * 10 ^ p : ℕ) : Int) := by
      rw [abs_of_nonneg (Nat.cast_nonneg n)]
      push_cast
      rfl
    rw [scaled, hcast, roundEven_int, Int.toNat_natCast]
  rw [roundTo, hscaled, if_neg (not_lt.mpr (Nat.cast_nonneg n))]
  push_cast
  field_simp

/-- The digits that `%g` prints of a positive number, six of them, and the exponent of the
first. -/
def significant (a : ℚ) : ℕ × Int :=
  let e := Int.log 10 a
  let m := (roundEven (a * 10 ^ (5 - e))).toNat
  if m = 10 ^ 6 then (10 ^ 5, e + 1) else (m, e)

def stripZeros (ds : List Char) : List Char := ds.rdropWhile (· == '0')

/-- `%g` -/
def general (x : ℚ) : Numeral :=
  if x = 0 then { int := ['0'] }
  else
    let (m, e) := significant |x|
    let ds := Nat.toDigits 10 m
    if e < -4 ∨ 6 ≤ e then
      { neg := x < 0, int := ds.take 1, frac := stripZeros (ds.drop 1), exp := some e }
    else if 0 ≤ e then
      { neg := x < 0, int := ds.take (e.toNat + 1), frac := stripZeros (ds.drop (e.toNat + 1)) }
    else
      { neg := x < 0, int := ['0']
        frac := stripZeros (List.replicate ((-e).toNat - 1) '0' ++ ds) }

/-- The number that `%g` prints. -/
def roundSix (x : ℚ) : ℚ :=
  if x = 0 then 0
  else (if x < 0 then -1 else 1) * (significant |x|).1 * 10 ^ ((significant |x|).2 - 5)

/-- Six digits before rounding. -/
theorem leading_bounds {a : ℚ} (ha : 0 < a) :
    10 ^ 5 ≤ a * 10 ^ (5 - Int.log 10 a) ∧ a * 10 ^ (5 - Int.log 10 a) < 10 ^ 6 := by
  have hlow : (10 : ℚ) ^ Int.log 10 a ≤ a := by exact_mod_cast Int.zpow_log_le_self (b := 10) (by norm_num) ha
  have hhigh : a < (10 : ℚ) ^ (Int.log 10 a + 1) := by
    exact_mod_cast Int.lt_zpow_succ_log_self (b := 10) (by norm_num) a
  have hpos : (0 : ℚ) < 10 ^ (5 - Int.log 10 a) := by positivity
  have hge : (10 : ℚ) ^ 5 ≤ a * 10 ^ (5 - Int.log 10 a) := by
    calc (10 : ℚ) ^ 5 = 10 ^ Int.log 10 a * 10 ^ (5 - Int.log 10 a) := by
          rw [← zpow_add₀ (by norm_num)]
          norm_num
      _ ≤ a * 10 ^ (5 - Int.log 10 a) := by gcongr
  have hlt : a * 10 ^ (5 - Int.log 10 a) < (10 : ℚ) ^ 6 := by
    calc a * 10 ^ (5 - Int.log 10 a) < 10 ^ (Int.log 10 a + 1) * 10 ^ (5 - Int.log 10 a) := by gcongr
      _ = 10 ^ 6 := by
          rw [← zpow_add₀ (by norm_num), show Int.log 10 a + 1 + (5 - Int.log 10 a) = 6 by ring]
          norm_num
  exact ⟨hge, hlt⟩

theorem significant_bounds {a : ℚ} (ha : 0 < a) :
    10 ^ 5 ≤ (significant a).1 ∧ (significant a).1 < 10 ^ 6 := by
  obtain ⟨hge, hlt⟩ := leading_bounds ha
  have hfloor : 10 ^ 5 ≤ ⌊a * 10 ^ (5 - Int.log 10 a)⌋ := Int.le_floor.mpr (by exact_mod_cast hge)
  have hfloor' : ⌊a * 10 ^ (5 - Int.log 10 a)⌋ < 10 ^ 6 := Int.floor_lt.mpr (by exact_mod_cast hlt)
  have hround := roundEven_mem (a * 10 ^ (5 - Int.log 10 a))
  unfold significant
  simp only
  split
  · norm_num
  · omega

theorem stripZeros_append (ds : List Char) :
    ∃ k, ds = stripZeros ds ++ List.replicate k '0' := by
  refine ⟨(ds.rtakeWhile (· == '0')).length, ?_⟩
  have hzeros : ds.rtakeWhile (· == '0') =
      List.replicate (ds.rtakeWhile (· == '0')).length '0' := by
    apply List.eq_replicate_of_mem
    intro c hc
    simpa using List.mem_rtakeWhile_imp hc
  rw [← hzeros, stripZeros, List.rdropWhile_append_rtakeWhile]

theorem mem_stripZeros {c : Char} {ds : List Char} (h : c ∈ stripZeros ds) : c ∈ ds :=
  (List.rdropWhile_prefix (· == '0') (l := ds)).subset h

/-- Zeros at the end of the fraction do not count. -/
theorem digitsVal_stripZeros (int frac : List Char) (e : Int) :
    (digitsVal (int ++ stripZeros frac) : ℚ) * 10 ^ (e - (stripZeros frac).length) =
      digitsVal (int ++ frac) * 10 ^ (e - frac.length) := by
  obtain ⟨k, hk⟩ := stripZeros_append frac
  have hlen : (frac.length : Int) = (stripZeros frac).length + k := by
    conv_lhs => rw [hk]
    simp
  have hval : digitsVal (int ++ frac) = digitsVal (int ++ stripZeros frac) * 10 ^ k := by
    conv_lhs => rw [hk]
    rw [← List.append_assoc, digitsVal_append, digitsVal_zeros, List.length_replicate, Nat.add_zero]
  have hexp : e - (stripZeros frac).length = (e - frac.length) + k := by omega
  rw [hval, hexp, zpow_add₀ (by norm_num)]
  push_cast
  rw [zpow_natCast]
  ring

theorem length_six {m : ℕ} (h : 10 ^ 5 ≤ m) (h' : m < 10 ^ 6) : (Nat.toDigits 10 m).length = 6 := by
  have hle := (Nat.length_toDigits_le_iff (n := m) (b := 10) (k := 6) (by omega) (by omega)).mpr h'
  have hgt : ¬ (Nat.toDigits 10 m).length ≤ 5 := by
    rw [Nat.length_toDigits_le_iff (by omega) (by omega)]
    omega
  omega

/-- Digits cut off from the front of a number start like the number. -/
theorem take_digits {m k : ℕ} (hm : 10 ^ 5 ≤ m) (hk : 0 < k) :
    (Nat.toDigits 10 m).take k ≠ [] ∧ ((Nat.toDigits 10 m).take k).head? ≠ some '0' := by
  obtain ⟨c, ds, hds, hc⟩ := toDigits_cons (n := m) (by omega)
  obtain ⟨k, rfl⟩ := Nat.exists_eq_succ_of_ne_zero hk.ne'
  rw [hds, List.take_succ_cons]
  exact ⟨List.cons_ne_nil _ _, fun h => hc (Option.some.inj h)⟩

theorem proper_general (x : ℚ) : (general x).Proper := by
  by_cases hx : x = 0
  · have hzero : general x = { int := ['0'] } := if_pos hx
    rw [hzero]
    exact ⟨by decide, by decide, by decide, fun _ => rfl⟩
  · obtain ⟨hm, -⟩ := significant_bounds (abs_pos.mpr hx)
    generalize hs : significant |x| = s at hm
    obtain ⟨m, e⟩ := s
    have hdigits : ∀ c ∈ Nat.toDigits 10 m, isdigit c = true := isdigit_toDigits
    have htake : ∀ k, 0 < k → ∀ frac exp, (∀ c ∈ frac, c ∈ Nat.toDigits 10 m) →
        Numeral.Proper { neg := x < 0, int := (Nat.toDigits 10 m).take k, frac, exp } := by
      intro k hk frac exp hfrac
      refine ⟨fun c hc => hdigits c (List.mem_of_mem_take hc), fun c hc => hdigits c (hfrac c hc),
        (take_digits hm hk).1, fun h => absurd h (take_digits hm hk).2⟩
    simp only [general, if_neg hx, hs]
    by_cases hbig : e < -4 ∨ 6 ≤ e
    · rw [if_pos hbig]
      exact htake 1 Nat.one_pos _ _ fun c hc => List.mem_of_mem_drop (mem_stripZeros hc)
    · rw [if_neg hbig]
      by_cases he : 0 ≤ e
      · rw [if_pos he]
        exact htake _ (Nat.succ_pos _) _ _ fun c hc => List.mem_of_mem_drop (mem_stripZeros hc)
      · rw [if_neg he]
        refine ⟨?_, ?_, List.cons_ne_nil _ _, fun _ => rfl⟩
        · intro c hc
          rw [List.mem_singleton.mp hc]
          rfl
        intro c hc
        rcases List.mem_append.mp (mem_stripZeros hc) with hc | hc
        · rw [List.eq_of_mem_replicate hc]
          rfl
        · exact hdigits c hc

theorem value_general (x : ℚ) : (general x).value = roundSix x := by
  by_cases hx : x = 0
  · have hzero : general x = { int := ['0'] } := if_pos hx
    rw [hzero, roundSix, if_pos hx]
    simp [Numeral.value, digitsVal]
  · obtain ⟨hm, hm'⟩ := significant_bounds (abs_pos.mpr hx)
    rw [roundSix, if_neg hx]
    generalize hs : significant |x| = s at hm hm'
    obtain ⟨m, e⟩ := s
    have hlen := length_six hm hm'
    have hvalue : ∀ (int frac : List Char) (exp : Option Int),
        digitsVal (int ++ frac) = m → exp.getD 0 - frac.length = e - 5 →
        Numeral.value { neg := x < 0, int, frac := stripZeros frac, exp } =
          (if x < 0 then -1 else 1) * m * 10 ^ (e - 5) := by
      intro int frac exp hdigits hexp
      rw [Numeral.value, mul_assoc, digitsVal_stripZeros, hdigits, hexp, mul_assoc]
      simp only [decide_eq_true_eq]
    simp only [general, if_neg hx, hs]
    by_cases hbig : e < -4 ∨ 6 ≤ e
    · rw [if_pos hbig]
      apply hvalue
      · rw [List.take_append_drop, digitsVal_toDigits]
      · rw [List.length_drop, hlen]
        rfl
    · rw [if_neg hbig]
      by_cases he : 0 ≤ e
      · rw [if_pos he]
        apply hvalue
        · rw [List.take_append_drop, digitsVal_toDigits]
        · rw [List.length_drop, hlen]
          simp only [Option.getD_none]
          omega
      · rw [if_neg he]
        apply hvalue
        · rw [← List.append_assoc, digitsVal_append, digitsVal_toDigits, ← List.singleton_append,
            digitsVal_append, digitsVal_zeros]
          simp [digitsVal]
        · rw [List.length_append, List.length_replicate, hlen]
          simp only [Option.getD_none]
          omega

/-- A number with six digits has nothing to round. -/
theorem roundSix_eq {a : ℚ} (ha : 0 < a) {m : ℕ} (hm : a * 10 ^ (5 - Int.log 10 a) = m) :
    roundSix a = a := by
  have hlt : m ≠ 10 ^ 6 := by
    have h := (leading_bounds ha).2
    rw [hm] at h
    have : m < 10 ^ 6 := by exact_mod_cast h
    omega
  have hround : (roundEven (a * 10 ^ (5 - Int.log 10 a))).toNat = m := by
    rw [hm]
    exact congrArg Int.toNat (roundEven_int m)
  have hsig : significant |a| = (m, Int.log 10 a) := by
    rw [abs_of_pos ha, significant]
    simp only [hround, if_neg hlt]
  rw [roundSix, if_neg ha.ne', if_neg ha.le.not_gt, hsig, ← hm, one_mul, mul_assoc,
    ← zpow_add₀ (by norm_num)]
  simp

/-- `%g` is exact for the natural numbers of six significant digits. -/
theorem roundSix_nat_iff (n : ℕ) : roundSix n = n ↔ ∃ m k, m < 10 ^ 6 ∧ n = m * 10 ^ k := by
  rcases Nat.eq_zero_or_pos n with rfl | hn
  · exact iff_of_true (by simp [roundSix]) ⟨0, 0, by norm_num, rfl⟩
  have hpos : (0 : ℚ) < n := by exact_mod_cast hn
  constructor
  · intro h
    obtain ⟨-, hlt⟩ := significant_bounds (abs_pos.mpr hpos.ne')
    rw [roundSix, if_neg hpos.ne', if_neg hpos.le.not_gt, one_mul] at h
    generalize (significant |(n : ℚ)|).1 = m at h hlt
    generalize (significant |(n : ℚ)|).2 = e at h
    by_cases he : 5 ≤ e
    · obtain ⟨k, hk⟩ := Int.eq_ofNat_of_zero_le (show 0 ≤ e - 5 by omega)
      refine ⟨m, k, hlt, ?_⟩
      rw [hk, zpow_natCast] at h
      exact_mod_cast h.symm
    · refine ⟨n, 0, ?_, (Nat.mul_one n).symm⟩
      have hle : (10 : ℚ) ^ (e - 5) ≤ 1 := zpow_le_one_of_nonpos₀ (by norm_num) (by omega)
      have hnm : (n : ℚ) ≤ m := by
        rw [← h]
        exact mul_le_of_le_one_right (Nat.cast_nonneg m) hle
      exact lt_of_le_of_lt (by exact_mod_cast hnm) hlt
  · rintro ⟨m, k, hm, hmk⟩
    have hlog : Int.log 10 (n : ℚ) = Nat.log 10 n := Int.log_natCast 10 n
    by_cases hfew : Nat.log 10 n ≤ 5
    · refine roundSix_eq hpos (m := n * 10 ^ (5 - Nat.log 10 n)) ?_
      rw [hlog, show (5 : Int) - Nat.log 10 n = (5 - Nat.log 10 n : ℕ) by omega, zpow_natCast]
      push_cast
      rfl
    · have hle : 10 ^ Nat.log 10 n ≤ n := Nat.pow_log_le_self 10 hn.ne'
      have hlt : n < 10 ^ (6 + k) := by
        rw [hmk, pow_add]
        exact Nat.mul_lt_mul_of_pos_right hm (by positivity)
      have hk : Nat.log 10 n < 6 + k := (Nat.pow_lt_pow_iff_right (by norm_num)).mp (hle.trans_lt hlt)
      refine roundSix_eq hpos (m := m * 10 ^ (k - (Nat.log 10 n - 5))) ?_
      have hexp : (k : Int) + (5 - Nat.log 10 n) = (k - (Nat.log 10 n - 5) : ℕ) := by omega
      rw [hlog, hmk, Nat.cast_mul, Nat.cast_pow, Nat.cast_ofNat, ← zpow_natCast, mul_assoc,
        ← hmk, ← zpow_add₀ (by norm_num), hexp, zpow_natCast]
      push_cast
      rfl

theorem denotes_general (x : ℚ) : Denotes (general x).text (roundSix x) :=
  value_general x ▸ denotes_text (proper_general x)

end W1Retap.Printf

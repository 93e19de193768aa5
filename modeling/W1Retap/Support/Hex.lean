import W1Retap.Support.CStrings
import Mathlib

/-!
# Hexadecimal text

A byte is printed as two hexadecimal digits, and a text is read two characters at a time, through
a function that gives every character a value below sixteen.
-/
namespace W1Retap.Hex

open CStrings

/-- `"%02X"` -/
def byteText (b : UInt8) : List Char :=
  let ds := (Nat.toDigits 16 b.toNat).map Char.toUpper
  List.replicate (2 - ds.length) '0' ++ ds

def digit (n : ℕ) : Char := "0123456789ABCDEF".toList.getD n '0'

theorem byteText_eq (b : UInt8) : byteText b = [digit (b.toNat / 16), digit (b.toNat % 16)] := by
  have hall : ∀ n < 256, (let ds := (Nat.toDigits 16 n).map Char.toUpper
      List.replicate (2 - ds.length) '0' ++ ds) = [digit (n / 16), digit (n % 16)] := by
    decide +kernel
  exact hall b.toNat b.toNat_lt

theorem isxdigit_digit : ∀ n < 16, isxdigit (digit n) = true := by decide

theorem isxdigit_flatMap (bs : List UInt8) : ∀ c ∈ bs.flatMap byteText, isxdigit c = true := by
  intro c hc
  obtain ⟨b, -, hc⟩ := List.mem_flatMap.mp hc
  have hb := b.toNat_lt
  rw [byteText_eq, List.mem_cons, List.mem_singleton] at hc
  rcases hc with rfl | rfl
  · exact isxdigit_digit _ (by omega)
  · exact isxdigit_digit _ (by omega)

theorem length_flatMap (bs : List UInt8) : (bs.flatMap byteText).length = 2 * bs.length := by
  induction bs with
  | nil => rfl
  | cons b bs ih =>
    rw [List.flatMap_cons, byteText_eq, List.length_append, ih, List.length_cons]
    simp only [List.length_cons, List.length_nil]
    omega

/-! ## Two digits make a byte -/

/-- The high digit and the low one, added up in a byte. -/
def join (hi lo : UInt8) : UInt8 := (hi <<< 4) + lo

theorem join_toNat {hi lo : UInt8} (hhi : hi < 16) (hlo : lo < 16) :
    (join hi lo).toNat = 16 * hi.toNat + lo.toNat := by
  have hhi' : hi.toNat < 16 := UInt8.lt_iff_toNat_lt.mp hhi
  have hlo' : lo.toNat < 16 := UInt8.lt_iff_toNat_lt.mp hlo
  rw [join, UInt8.toNat_add, UInt8.toNat_shiftLeft]
  change ((hi.toNat <<< 4) % 256 + lo.toNat) % 256 = _
  rw [Nat.shiftLeft_eq]
  omega

theorem join_inj {hi lo hi' lo' : UInt8} (hhi : hi < 16) (hlo : lo < 16) (hhi' : hi' < 16)
    (hlo' : lo' < 16) : join hi lo = join hi' lo' ↔ hi = hi' ∧ lo = lo' := by
  have hlt : lo.toNat < 16 := UInt8.lt_iff_toNat_lt.mp hlo
  have hlt' : lo'.toNat < 16 := UInt8.lt_iff_toNat_lt.mp hlo'
  rw [← UInt8.toNat_inj, join_toNat hhi hlo, join_toNat hhi' hlo', ← UInt8.toNat_inj,
    ← UInt8.toNat_inj]
  omega

/-! ## Reading a text -/

/-- `value` takes the case of a digit for nothing, tells digits that differ in more apart, and
reads any other character as zero. -/
structure Reads (value : Char → UInt8) : Prop where
  lt : ∀ c, value c < 16
  digit : ∀ n < 16, value (digit n) = UInt8.ofNat n
  caseless : ∀ c, value (tolower c) = value c
  inj : ∀ c c', isxdigit c → isxdigit c' → value c = value c' → tolower c = tolower c'
  other : ∀ c, isxdigit c = false → value c = value '0'

/-- The bytes of a text, of which each takes two characters. -/
def readPairs (value : Char → UInt8) : List Char → List UInt8
  | hi :: lo :: rest => join (value hi) (value lo) :: readPairs value rest
  | _ => []

/-- The digit that a character counts as. -/
def counted (c : Char) : Char := if isxdigit c then c else '0'

theorem isxdigit_counted (c : Char) : isxdigit (counted c) = true := by
  unfold counted
  split
  · assumption
  · decide

theorem map_counted {s : List Char} (h : ∀ c ∈ s, isxdigit c = true) : s.map counted = s := by
  conv_rhs => rw [← List.map_id s]
  apply List.map_congr_left
  intro c hc
  exact if_pos (h c hc)

section
variable {value : Char → UInt8} {s s' : List Char}

theorem Reads.value_counted (hv : Reads value) (c : Char) : value (counted c) = value c := by
  unfold counted
  split
  · rfl
  · rename_i hc
    exact (hv.other c (by simpa using hc)).symm

theorem Reads.value_eq_iff (hv : Reads value) (c c' : Char) :
    value c = value c' ↔ tolower (counted c) = tolower (counted c') := by
  rw [← hv.value_counted c, ← hv.value_counted c']
  constructor
  · exact hv.inj _ _ (isxdigit_counted c) (isxdigit_counted c')
  · intro h
    rw [← hv.caseless (counted c), h, hv.caseless]

theorem readPairs_flatMap (hv : Reads value) (bs : List UInt8) :
    readPairs value (bs.flatMap byteText) = bs := by
  induction bs with
  | nil => rfl
  | cons b bs ih =>
    have hb := b.toNat_lt
    have hjoin : join (value (digit (b.toNat / 16))) (value (digit (b.toNat % 16))) = b := by
      apply UInt8.toNat_inj.mp
      rw [join_toNat (hv.lt _) (hv.lt _), hv.digit _ (by omega), hv.digit _ (by omega),
        UInt8.toNat_ofNat', UInt8.toNat_ofNat']
      omega
    rw [List.flatMap_cons, byteText_eq]
    exact congrArg₂ List.cons hjoin ih

/-- Texts of one even length have the same bytes when their characters have the same values. -/
theorem readPairs_inj (hv : Reads value) (n : ℕ) (hs : s.length = 2 * n) (hs' : s'.length = 2 * n) :
    readPairs value s = readPairs value s' ↔ s.map value = s'.map value := by
  induction n generalizing s s' with
  | zero =>
    obtain rfl := List.length_eq_zero_iff.mp hs
    obtain rfl := List.length_eq_zero_iff.mp hs'
    exact iff_of_true rfl rfl
  | succ n ih =>
    obtain ⟨hi, s, rfl⟩ := List.exists_cons_of_length_eq_add_one hs
    obtain ⟨lo, s, rfl⟩ := List.exists_cons_of_length_eq_add_one (Nat.succ.inj hs)
    obtain ⟨hi', s', rfl⟩ := List.exists_cons_of_length_eq_add_one hs'
    obtain ⟨lo', s', rfl⟩ := List.exists_cons_of_length_eq_add_one (Nat.succ.inj hs')
    have hlen : s.length = 2 * n := by
      simp only [List.length_cons] at hs
      omega
    have hlen' : s'.length = 2 * n := by
      simp only [List.length_cons] at hs'
      omega
    rw [readPairs, readPairs, List.cons.injEq, ih hlen hlen',
      join_inj (hv.lt hi) (hv.lt lo) (hv.lt hi') (hv.lt lo')]
    simp [and_assoc]

/-- Characters have the same values when the digits that they count as are equal up to case. -/
theorem map_value_eq_iff (hv : Reads value) :
    s.map value = s'.map value ↔ strcaseeq (s.map counted) (s'.map counted) = true := by
  rw [strcaseeq, beq_iff_eq, List.map_map, List.map_map]
  induction s generalizing s' with
  | nil => cases s' <;> simp
  | cons c s ih =>
    cases s' with
    | nil => simp
    | cons c' s' =>
      rw [List.map_cons, List.map_cons, List.cons.injEq, List.map_cons, List.map_cons,
        List.cons.injEq, ih, hv.value_eq_iff]
      rfl

theorem map_value_congr (hv : Reads value) (h : strcaseeq s s' = true) : s.map value = s'.map value := by
  have hcase : value ∘ tolower = value := funext hv.caseless
  rw [strcaseeq, beq_iff_eq] at h
  have hmap := congrArg (List.map value) h
  rwa [List.map_map, List.map_map, hcase] at hmap

/-- The bytes by their positions. -/
theorem readPairs_eq_ofFn (d : Char) (n : ℕ) (hs : s.length = 2 * n) :
    readPairs value s =
      List.ofFn fun i : Fin n => join (value (s.getD (2 * i) d)) (value (s.getD (2 * i + 1) d)) := by
  induction n generalizing s with
  | zero =>
    obtain rfl := List.length_eq_zero_iff.mp hs
    rfl
  | succ n ih =>
    obtain ⟨hi, s, rfl⟩ := List.exists_cons_of_length_eq_add_one hs
    obtain ⟨lo, s, rfl⟩ := List.exists_cons_of_length_eq_add_one (Nat.succ.inj hs)
    have hlen : s.length = 2 * n := by
      simp only [List.length_cons] at hs
      omega
    rw [readPairs, ih hlen, List.ofFn_succ]
    rfl

end
end W1Retap.Hex

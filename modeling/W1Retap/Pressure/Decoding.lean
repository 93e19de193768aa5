import W1Retap.Pressure.Interface

/-!
# Four words and six coefficients

The coefficients of a pressure sensor are bit fields of four words of sixteen bits, two of
them split over two words. Packing them is the inverse of the loops that decode them.
-/
namespace W1Retap.Tai8570

/-! ## Packing -/

/-- The lowest `width` bits of `n`, most significant first. -/
def bits (width n : ℕ) : CString :=
  (List.range width).map fun i => if n.testBit (width - 1 - i) then '1' else '0'

/-- The words that hold the coefficients. -/
def Coefficients.pack (c : Coefficients) : Words where
  sw1 := bits 15 c.c1 ++ bits 1 (c.c5 >>> 10)
  sw2 := bits 10 c.c5 ++ bits 6 c.c6
  sw3 := bits 10 c.c4 ++ bits 6 (c.c2 >>> 6)
  sw4 := bits 10 c.c3 ++ bits 6 c.c2

/-- The coefficients fit into their fields. -/
structure Coefficients.Fits (c : Coefficients) : Prop where
  c1 : c.c1 < 2 ^ 15
  c2 : c.c2 < 2 ^ 12
  c3 : c.c3 < 2 ^ 10
  c4 : c.c4 < 2 ^ 10
  c5 : c.c5 < 2 ^ 11
  c6 : c.c6 < 2 ^ 6

/-- A word of sixteen bits. -/
structure IsWord (sw : CString) : Prop where
  length : sw.length = 16
  digits : ∀ c ∈ sw, c = '0' ∨ c = '1'

structure Words.Full (sw : Words) : Prop where
  sw1 : IsWord sw.sw1
  sw2 : IsWord sw.sw2
  sw3 : IsWord sw.sw3
  sw4 : IsWord sw.sw4

section
variable {sw : CString} {hi lo k n m a b i c : ℕ}

theorem length_bits : (bits a n).length = a := by simp [bits]

/-- Bit `k` of a field of `a` bits at the start of a word. -/
theorem bits_append_left {rest : CString} (hk : k < a) :
    (bits a n ++ rest)[a - 1 - k]? = some '1' ↔ n.testBit k = true := by
  have hlt : a - 1 - k < (bits a n).length := by
    rw [length_bits]
    omega
  have hback : a - 1 - (a - 1 - k) = k := by omega
  rw [List.getElem?_append_left hlt, bits, List.getElem?_map, List.getElem?_range (by omega),
    Option.map_some, hback]
  cases n.testBit k with
  | false => simp
  | true => simp

/-- Bit `k` of a field of `b` bits at the end. -/
theorem bits_append_right (hk : k < b) :
    (bits a m ++ bits b n)[a + b - 1 - k]? = some '1' ↔ n.testBit k = true := by
  have hle : (bits a m).length ≤ a + b - 1 - k := by
    rw [length_bits]
    omega
  have hindex : a + b - 1 - k - a = b - 1 - k := by omega
  rw [List.getElem?_append_right hle, length_bits, hindex, ← List.append_nil (bits b n)]
  exact bits_append_left hk

theorem bits_digits {c : Char} (h : c ∈ bits a n) : c = '0' ∨ c = '1' := by
  obtain ⟨i, -, rfl⟩ := List.mem_map.mp h
  split
  · exact .inr rfl
  · exact .inl rfl

theorem isWord_bits (hab : a + b = 16) : IsWord (bits a m ++ bits b n) where
  length := by rw [List.length_append, length_bits, length_bits, hab]
  digits := by
    intro c hc
    rcases List.mem_append.mp hc with hc | hc
    · exact bits_digits hc
    · exact bits_digits hc

/-- A word with these fields. -/
theorem bits_append_bits (hsw : IsWord sw) (hab : a + b = 16)
    (hm : ∀ k < a, (m.testBit k = true ↔ sw[a - 1 - k]? = some '1'))
    (hn : ∀ k < b, (n.testBit k = true ↔ sw[15 - k]? = some '1')) : bits a m ++ bits b n = sw := by
  have hone : ∀ i < 16, ((bits a m ++ bits b n)[i]? = some '1' ↔ sw[i]? = some '1') := by
    intro i hi
    by_cases hia : i < a
    · have hk : a - 1 - (a - 1 - i) = i := by omega
      have hleft : (bits a m ++ bits b n)[a - 1 - (a - 1 - i)]? = some '1' ↔
          m.testBit (a - 1 - i) = true := bits_append_left (by omega)
      have hword := hm (a - 1 - i) (by omega)
      rw [hk] at hleft hword
      exact hleft.trans hword
    · have hk : a + b - 1 - (15 - i) = i := by omega
      have hk' : 15 - (15 - i) = i := by omega
      have hright := bits_append_right (a := a) (m := m) (n := n) (show 15 - i < b by omega)
      have hword := hn (15 - i) (by omega)
      rw [hk] at hright
      rw [hk'] at hword
      exact hright.trans hword
  have hdigit : ∀ l : CString, IsWord l → ∀ i (hi : i < 16), l[i]? = some '1' ∨ l[i]? = some '0' := by
    intro l hl i hi
    have hlt : i < l.length := by
      rw [hl.length]
      exact hi
    rw [List.getElem?_eq_getElem hlt]
    rcases hl.digits _ (List.getElem_mem hlt) with h | h
    · exact .inr (congrArg some h)
    · exact .inl (congrArg some h)
  have hbits : IsWord (bits a m ++ bits b n) := isWord_bits hab
  apply List.ext_getElem?
  intro i
  by_cases hi : i < 16
  · rcases hdigit sw hsw i hi with h | h
    · rw [h]
      exact (hone i hi).mpr h
    · rcases hdigit _ hbits i hi with h' | h'
      · rw [(hone i hi).mp h'] at h
        exact absurd h (by decide)
      · rw [h, h']
  · rw [List.getElem?_eq_none (by rw [hbits.length]; omega), List.getElem?_eq_none (by rw [hsw.length]; omega)]

/-! ## The loops -/

theorem downFrom_eq : downFrom hi lo = (List.range' lo (hi + 1 - lo)).reverse := by
  rw [downFrom, List.range_eq_range', List.drop_range']
  congr 2
  omega

theorem mem_downFrom : i ∈ downFrom hi lo ↔ lo ≤ i ∧ i ≤ hi := by
  rw [downFrom_eq, List.mem_reverse, List.mem_range'_1]
  omega

theorem getElem?_downFrom (h : (downFrom hi lo)[k]? = some i) : hi - i = k := by
  obtain ⟨hk, rfl⟩ := List.getElem?_eq_some_iff.mp h
  simp only [downFrom_eq, List.length_reverse, List.length_range'] at hk
  simp only [downFrom_eq, List.getElem_reverse, List.getElem_range', List.length_range']
  omega

theorem testBit_orBit : (orBit sw i m c).testBit k = true ↔
    c.testBit k = true ∨ m = k ∧ sw[i]? = some '1' := by
  unfold orBit
  split
  · rename_i hone
    rw [Nat.testBit_or, Nat.one_shiftLeft, Nat.testBit_two_pow, Bool.or_eq_true, decide_eq_true_eq]
    simp [hone]
  · rename_i hone
    simp [hone]

/-- A loop sets the bits whose characters are ones. -/
theorem testBit_foldl_orBit {shift : ℕ → ℕ} (is : List ℕ) :
    (is.foldl (fun c i => orBit sw i (shift i) c) c).testBit k = true ↔
      c.testBit k = true ∨ ∃ i ∈ is, shift i = k ∧ sw[i]? = some '1' := by
  induction is generalizing c with
  | nil => simp
  | cons i is ih =>
    rw [List.foldl_cons, ih, testBit_orBit]
    simp only [List.mem_cons, exists_eq_or_imp, or_assoc]

theorem testBit_orBits (h : lo ≤ hi) : (orBits sw hi lo c).testBit k = true ↔
    c.testBit k = true ∨ k ≤ hi - lo ∧ sw[hi - k]? = some '1' := by
  unfold orBits
  rw [testBit_foldl_orBit]
  refine or_congr_right ⟨?_, ?_⟩
  · rintro ⟨i, hi', rfl, hone⟩
    obtain ⟨hlo, hle⟩ := mem_downFrom.mp hi'
    refine ⟨by omega, ?_⟩
    rwa [Nat.sub_sub_self hle]
  · rintro ⟨hk, hone⟩
    exact ⟨hi - k, mem_downFrom.mpr ⟨by omega, by omega⟩, by omega, hone⟩

/-- The counter of a loop is its shift. -/
theorem foldl_counted (shift : ℕ → ℕ) {is : List ℕ} (h : ∀ k i : ℕ, is[k]? = some i → shift i = m + k) :
    is.foldl (fun r i => (orBit sw i r.2 r.1, r.2 + 1)) (c, m) =
      (is.foldl (fun c i => orBit sw i (shift i) c) c, m + is.length) := by
  induction is generalizing c m with
  | nil => rfl
  | cons i is ih =>
    have hi : shift i = m := h 0 i rfl
    have hrest : ∀ k i : ℕ, is[k]? = some i → shift i = m + 1 + k := by
      intro k i' hi'
      have := h (k + 1) i' hi'
      omega
    rw [List.foldl_cons, List.foldl_cons, ih hrest, hi, List.length_cons]
    congr 1
    omega

theorem orCounted_eq : orCounted sw hi lo (c, m) =
    ((downFrom hi lo).foldl (fun c i => orBit sw i (m + (hi - i)) c) c, m + (hi + 1 - lo)) := by
  have hlen : (downFrom hi lo).length = hi + 1 - lo := by simp [downFrom_eq]
  rw [orCounted, foldl_counted fun i => m + (hi - i), hlen]
  intro k i hi'
  rw [getElem?_downFrom hi']

theorem testBit_orCounted (h : lo ≤ hi) : (orCounted sw hi lo (c, m)).1.testBit k = true ↔
    c.testBit k = true ∨ m ≤ k ∧ k ≤ m + (hi - lo) ∧ sw[hi - (k - m)]? = some '1' := by
  rw [orCounted_eq, testBit_foldl_orBit]
  refine or_congr_right ⟨?_, ?_⟩
  · rintro ⟨i, hi', rfl, hone⟩
    obtain ⟨hlo, hle⟩ := mem_downFrom.mp hi'
    refine ⟨by omega, by omega, ?_⟩
    rwa [Nat.add_sub_cancel_left, Nat.sub_sub_self hle]
  · rintro ⟨hm, hk, hone⟩
    exact ⟨hi - (k - m), mem_downFrom.mpr ⟨by omega, by omega⟩, by omega, hone⟩

end

/-! ## The fields -/

section
variable (sw : Words) {k : ℕ}

theorem decode_c1 : sw.decode.c1.testBit k = true ↔ k ≤ 14 ∧ sw.sw1[14 - k]? = some '1' := by
  rw [Words.decode, testBit_orBits (by omega)]
  simp

theorem decode_c2 : sw.decode.c2.testBit k = true ↔
    k ≤ 5 ∧ sw.sw4[15 - k]? = some '1' ∨ 6 ≤ k ∧ k ≤ 11 ∧ sw.sw3[15 - (k - 6)]? = some '1' := by
  rw [Words.decode]
  have hcounter : orCounted sw.sw4 15 10 (0, 0) = ((orCounted sw.sw4 15 10 (0, 0)).1, 6) := by
    rw [orCounted_eq]
  rw [hcounter, testBit_orCounted (by omega), testBit_orCounted (by omega)]
  simp

theorem decode_c3 : sw.decode.c3.testBit k = true ↔ k ≤ 9 ∧ sw.sw4[9 - k]? = some '1' := by
  rw [Words.decode, testBit_orBits (by omega)]
  simp

theorem decode_c4 : sw.decode.c4.testBit k = true ↔ k ≤ 9 ∧ sw.sw3[9 - k]? = some '1' := by
  rw [Words.decode, testBit_orBits (by omega)]
  simp

theorem decode_c5 : sw.decode.c5.testBit k = true ↔
    k ≤ 9 ∧ sw.sw2[9 - k]? = some '1' ∨ k = 10 ∧ sw.sw1[15]? = some '1' := by
  rw [Words.decode, testBit_orBit, testBit_orBits (by omega)]
  simp [eq_comm]

theorem decode_c6 : sw.decode.c6.testBit k = true ↔ k ≤ 5 ∧ sw.sw2[15 - k]? = some '1' := by
  rw [Words.decode, testBit_orBits (by omega)]
  simp

end

theorem lt_two_pow_of_testBit {n w : ℕ} (h : ∀ k, n.testBit k = true → k < w) : n < 2 ^ w :=
  Nat.lt_pow_two_of_testBit n fun k hk => by
    by_contra hbit
    have := h k (by simpa using hbit)
    omega

theorem decode_fits (sw : Words) : sw.decode.Fits where
  c1 := lt_two_pow_of_testBit fun k hk => by
    have := (decode_c1 sw).mp hk
    omega
  c2 := lt_two_pow_of_testBit fun k hk => by
    have := (decode_c2 sw).mp hk
    omega
  c3 := lt_two_pow_of_testBit fun k hk => by
    have := (decode_c3 sw).mp hk
    omega
  c4 := lt_two_pow_of_testBit fun k hk => by
    have := (decode_c4 sw).mp hk
    omega
  c5 := lt_two_pow_of_testBit fun k hk => by
    have := (decode_c5 sw).mp hk
    omega
  c6 := lt_two_pow_of_testBit fun k hk => by
    have := (decode_c6 sw).mp hk
    omega

theorem eq_of_testBit_iff {m n : ℕ} (h : ∀ k, m.testBit k = true ↔ n.testBit k = true) : m = n :=
  Nat.eq_of_testBit_eq fun k => Bool.eq_iff_iff.mpr (h k)

/-- A field that is as wide as its number. -/
theorem field_iff {n w k : ℕ} {p : Prop} (hn : n < 2 ^ w) (h : k < w → (p ↔ n.testBit k = true)) :
    k < w ∧ p ↔ n.testBit k = true := by
  constructor
  · exact fun ⟨hk, hp⟩ => (h hk).mp hp
  · intro hbit
    have hk : k < w := by
      by_contra hk
      have hzero := Nat.testBit_lt_two_pow (hn.trans_le (Nat.pow_le_pow_right (by omega) (not_lt.mp hk)))
      rw [hzero] at hbit
      cases hbit
    exact ⟨hk, (h hk).mpr hbit⟩

theorem pack_full (c : Coefficients) : c.pack.Full where
  sw1 := isWord_bits rfl
  sw2 := isWord_bits rfl
  sw3 := isWord_bits rfl
  sw4 := isWord_bits rfl

theorem decode_pack {c : Coefficients} (h : c.Fits) : c.pack.decode = c := by
  have h1 : c.pack.decode.c1 = c.c1 := eq_of_testBit_iff fun k => by
    rw [decode_c1, ← Nat.lt_succ_iff]
    exact field_iff h.c1 fun hk => bits_append_left hk
  have h2 : c.pack.decode.c2 = c.c2 := eq_of_testBit_iff fun k => by
    rw [decode_c2]
    by_cases hk : k < 6
    · have hbit : c.pack.sw4[15 - k]? = some '1' ↔ c.c2.testBit k = true :=
        bits_append_right (a := 10) hk
      rw [hbit, and_iff_right (by omega), or_iff_left (by omega)]
    · have hbit (hk' : k < 12) : c.pack.sw3[15 - (k - 6)]? = some '1' ↔ c.c2.testBit k = true := by
        have hhigh : (c.c2 >>> 6).testBit (k - 6) = c.c2.testBit k := by
          rw [Nat.testBit_shiftRight, Nat.add_sub_cancel' (not_lt.mp hk)]
        rw [← hhigh]
        exact bits_append_right (a := 10) (by omega)
      rw [or_iff_right (by omega), and_iff_right (by omega), ← Nat.lt_succ_iff]
      exact field_iff h.c2 hbit
  have h3 : c.pack.decode.c3 = c.c3 := eq_of_testBit_iff fun k => by
    rw [decode_c3, ← Nat.lt_succ_iff]
    exact field_iff h.c3 fun hk => bits_append_left hk
  have h4 : c.pack.decode.c4 = c.c4 := eq_of_testBit_iff fun k => by
    rw [decode_c4, ← Nat.lt_succ_iff]
    exact field_iff h.c4 fun hk => bits_append_left hk
  have h5 : c.pack.decode.c5 = c.c5 := eq_of_testBit_iff fun k => by
    rw [decode_c5]
    by_cases hk : k < 10
    · have hbit : c.pack.sw2[9 - k]? = some '1' ↔ c.c5.testBit k = true := bits_append_left hk
      rw [hbit, and_iff_right (by omega), or_iff_left (by omega)]
    · have hbit (hk' : k < 11) : c.pack.sw1[15]? = some '1' ↔ c.c5.testBit k = true := by
        have hhigh : (c.c5 >>> 10).testBit 0 = c.c5.testBit k := by
          rw [Nat.testBit_shiftRight, show 10 + 0 = k by omega]
        rw [← hhigh]
        exact bits_append_right (a := 15) (b := 1) (k := 0) Nat.one_pos
      have hten : k = 10 ↔ k < 11 := by omega
      rw [or_iff_right (by omega), hten]
      exact field_iff h.c5 hbit
  have h6 : c.pack.decode.c6 = c.c6 := eq_of_testBit_iff fun k => by
    rw [decode_c6, ← Nat.lt_succ_iff]
    exact field_iff h.c6 fun hk => bits_append_right (a := 10) hk
  calc c.pack.decode
    _ = ⟨c.pack.decode.c1, c.pack.decode.c2, c.pack.decode.c3, c.pack.decode.c4, c.pack.decode.c5,
        c.pack.decode.c6⟩ := rfl
    _ = c := by rw [h1, h2, h3, h4, h5, h6]

theorem pack_decode {sw : Words} (h : sw.Full) : sw.decode.pack = sw := by
  have h1 : sw.decode.pack.sw1 = sw.sw1 := by
    refine bits_append_bits h.sw1 rfl (fun k hk => ?_) fun k hk => ?_
    · rw [decode_c1, and_iff_right (by omega)]
    · have hzero : k = 0 := by omega
      rw [hzero, Nat.testBit_shiftRight, decode_c5, or_iff_right (by omega), and_iff_right rfl]
  have h2 : sw.decode.pack.sw2 = sw.sw2 := by
    refine bits_append_bits h.sw2 rfl (fun k hk => ?_) fun k hk => ?_
    · rw [decode_c5, and_iff_right (by omega), or_iff_left (by omega)]
    · rw [decode_c6, and_iff_right (by omega)]
  have h3 : sw.decode.pack.sw3 = sw.sw3 := by
    refine bits_append_bits h.sw3 rfl (fun k hk => ?_) fun k hk => ?_
    · rw [decode_c4, and_iff_right (by omega)]
    · have hback : 6 + k - 6 = k := by omega
      rw [Nat.testBit_shiftRight, decode_c2, hback, or_iff_right (by omega),
        and_iff_right (by omega), and_iff_right (by omega)]
  have h4 : sw.decode.pack.sw4 = sw.sw4 := by
    refine bits_append_bits h.sw4 rfl (fun k hk => ?_) fun k hk => ?_
    · rw [decode_c3, and_iff_right (by omega)]
    · rw [decode_c2, and_iff_right (by omega), or_iff_left (by omega)]
  calc sw.decode.pack
    _ = ⟨sw.decode.pack.sw1, sw.decode.pack.sw2, sw.decode.pack.sw3, sw.decode.pack.sw4⟩ := rfl
    _ = sw := by rw [h1, h2, h3, h4]

/-- Packing coefficients that fit and decoding full words are inverse to each other. -/
theorem decode_bijection :
    (∀ c : Coefficients, c.Fits → c.pack.Full ∧ c.pack.decode = c) ∧
      ∀ sw : Words, sw.Full → sw.decode.Fits ∧ sw.decode.pack = sw :=
  ⟨fun c h => ⟨pack_full c, decode_pack h⟩, fun sw h => ⟨decode_fits sw, pack_decode h⟩⟩

theorem decode_bijection_barometer :
    let c : Coefficients := { c1 := 23470, c2 := 1324, c3 := 737, c4 := 393, c5 := 628, c6 := 25 }
    c.pack.decode = c ∧ c.pack.decode.pack = c.pack := by
  intro c
  have hfits : c.Fits := by constructor <;> decide
  have hfull := (decode_bijection.1 c hfits).1
  exact ⟨(decode_bijection.1 c hfits).2, (decode_bijection.2 c.pack hfull).2⟩

end W1Retap.Tai8570

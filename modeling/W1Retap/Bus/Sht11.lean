import W1Retap.Bus.Wire
import W1Retap.Support.Crc

/-!
# `ReadSHT11`

The reader of a humidity sensor behind a microcontroller: up to three times it starts a
conversion, reads ten bytes and looks at their signatures and check sums. What it accepts is
a block whose two fields carry the check sum of the sensor's own command and data.
-/
namespace W1Retap.Bus.Sht11

open Programs

/-! ## Check sums -/

set_option maxRecDepth 4000 in
def crcTable : Vector UInt8 256 :=
  #v[
    0, 49, 98, 83, 196, 245, 166, 151, 185, 136, 219, 234, 125, 76, 31, 46,
    67, 114, 33, 16, 135, 182, 229, 212, 250, 203, 152, 169, 62, 15, 92, 109,
    134, 183, 228, 213, 66, 115, 32, 17, 63, 14, 93, 108, 251, 202, 153, 168,
    197, 244, 167, 150, 1, 48, 99, 82, 124, 77, 30, 47, 184, 137, 218, 235,
    61, 12, 95, 110, 249, 200, 155, 170, 132, 181, 230, 215, 64, 113, 34, 19,
    126, 79, 28, 45, 186, 139, 216, 233, 199, 246, 165, 148, 3, 50, 97, 80,
    187, 138, 217, 232, 127, 78, 29, 44, 2, 51, 96, 81, 198, 247, 164, 149,
    248, 201, 154, 171, 60, 13, 94, 111, 65, 112, 35, 18, 133, 180, 231, 214,
    122, 75, 24, 41, 190, 143, 220, 237, 195, 242, 161, 144, 7, 54, 101, 84,
    57, 8, 91, 106, 253, 204, 159, 174, 128, 177, 226, 211, 68, 117, 38, 23,
    252, 205, 158, 175, 56, 9, 90, 107, 69, 116, 39, 22, 129, 176, 227, 210,
    191, 142, 221, 236, 123, 74, 25, 40, 6, 55, 100, 85, 194, 243, 160, 145,
    71, 118, 37, 20, 131, 178, 225, 208, 254, 207, 156, 173, 58, 11, 88, 105,
    4, 53, 102, 87, 192, 241, 162, 147, 189, 140, 223, 238, 121, 72, 27, 42,
    193, 240, 163, 146, 5, 52, 103, 86, 120, 73, 26, 43, 188, 141, 222, 239,
    130, 179, 224, 209, 70, 119, 36, 21, 59, 10, 89, 104, 255, 206, 157, 172]

/-- `CRC[i]` -/
def crc (i : UInt8) : UInt8 := crcTable.get ⟨i.toNat, i.toNat_lt⟩

/-- `revbits`, in `unsigned long` -/
def revbits (b : UInt8) : UInt8 :=
  ((((b.toUInt64 * 0x0802 &&& 0x22110) ||| (b.toUInt64 * 0x8020 &&& 0x88440)) * 0x10101) >>> 16).toUInt8

/-- `checkcrc`: the first bit is set where the temperature fails, the second where the humidity does. -/
def checkcrc (blk : Vector UInt8 10) : ℕ :=
  (if revbits (crc (crc (crc 3 ^^^ blk[2]) ^^^ blk[3])) ≠ blk[4] then 1 else 0) |||
    (if revbits (crc (crc (crc 5 ^^^ blk[7]) ^^^ blk[8])) ≠ blk[9] then 2 else 0)

/-- `x^8 + x^5 + x^4 + 1` -/
def poly : BitVec 8 := 0x31

/-- The sum of a field is that of its command and its two bytes of data, with the bits reversed. -/
def Checked (cmd data data' sum : UInt8) : Prop :=
  sum.toBitVec = (Crc.remainder poly 0#8 [cmd.toBitVec, data.toBitVec, data'.toBitVec]).reverse

theorem crc_toBitVec (i : UInt8) : (crc i).toBitVec = (Crc.step poly)^[8] i.toBitVec := by
  have htable : crcTable.toList =
      (List.range 256).map fun n => UInt8.ofBitVec ((Crc.step poly)^[8] (.ofNat 8 n)) := by
    decide +kernel
  have hget : some (crc i) = crcTable.toList[i.toNat]? := by
    rw [crc, Vector.getElem?_toList]
    exact (Vector.getElem?_eq_getElem i.toNat_lt).symm
  have hrange : (List.range 256)[i.toNat]? = some i.toNat := List.getElem?_range i.toNat_lt
  rw [htable, List.getElem?_map, hrange] at hget
  have hcrc := congrArg UInt8.toBitVec (Option.some.inj hget)
  have hbits : BitVec.ofNat 8 i.toNat = i.toBitVec := by
    rw [← UInt8.toNat_toBitVec, BitVec.ofNat_toNat, BitVec.setWidth_eq]
  exact hcrc.trans (congrArg (Crc.step poly)^[8] hbits)

theorem revbits_toBitVec (b : UInt8) : (revbits b).toBitVec = b.toBitVec.reverse := by
  have hall : ∀ b : BitVec 8, (revbits (.ofBitVec b)).toBitVec = b.reverse := by decide +kernel
  exact hall b.toBitVec

theorem checked_iff (cmd data data' sum : UInt8) :
    revbits (crc (crc (crc cmd ^^^ data) ^^^ data')) = sum ↔ Checked cmd data data' sum := by
  have hsum : (revbits (crc (crc (crc cmd ^^^ data) ^^^ data'))).toBitVec =
      (Crc.remainder poly 0#8 [cmd.toBitVec, data.toBitVec, data'.toBitVec]).reverse := by
    rw [revbits_toBitVec, crc_toBitVec, UInt8.toBitVec_xor, crc_toBitVec, UInt8.toBitVec_xor, crc_toBitVec]
    simp only [Crc.remainder, List.foldl_cons, List.foldl_nil, BitVec.zero_xor]
  rw [Checked, ← hsum]
  exact ⟨fun h => congrArg _ h.symm, fun h => (UInt8.toBitVec_inj.mp h).symm⟩

theorem checkcrc_eq_zero_iff (blk : Vector UInt8 10) :
    checkcrc blk = 0 ↔ Checked 3 blk[2] blk[3] blk[4] ∧ Checked 5 blk[7] blk[8] blk[9] := by
  rw [← checked_iff, ← checked_iff, checkcrc]
  split_ifs with htemp hrh hrh
  · exact iff_of_false (by decide) fun h => htemp h.1
  · exact iff_of_false (by decide) fun h => htemp h.1
  · exact iff_of_false (by decide) fun h => hrh h.2
  · exact iff_of_true rfl ⟨not_not.mp htemp, not_not.mp hrh⟩

/-! ## Flipped bits -/

/-- The 24 bits of a field. -/
def field (data data' sum : UInt8) : BitVec 24 := data.toBitVec ++ data'.toBitVec ++ sum.toBitVec

/-- What is left of a field when the sum of its data is taken away. -/
def syndrome (x : BitVec 24) : BitVec 8 :=
  Crc.remainder poly 0#8 [x.extractLsb' 16 8, x.extractLsb' 8 8] ^^^ (x.extractLsb' 0 8).reverse

theorem additive_syndrome : Crc.Additive syndrome := by
  intro x y
  have hdata := Crc.remainder_xor poly 0#8 0#8 [x.extractLsb' 16 8, x.extractLsb' 8 8] [y.extractLsb' 16 8, y.extractLsb' 8 8] rfl
  simp only [BitVec.xor_self, List.zipWith_cons_cons, List.zipWith_nil_right] at hdata
  unfold syndrome
  rw [BitVec.extractLsb'_xor, BitVec.extractLsb'_xor, BitVec.extractLsb'_xor, Crc.additive_reverse, hdata]
  ac_rfl

/-- The syndrome of a field that checks depends on the command alone. -/
theorem Checked.syndrome {cmd data data' sum : UInt8} (h : Checked cmd data data' sum) :
    syndrome (field data data' sum) =
      Crc.remainder poly (Crc.remainder poly 0#8 [cmd.toBitVec]) [0#8, 0#8] := by
  have hdata := Crc.remainder_xor poly 0#8 (Crc.remainder poly 0#8 [cmd.toBitVec])
    [data.toBitVec, data'.toBitVec] [0#8, 0#8] rfl
  simp only [BitVec.zero_xor, BitVec.xor_zero, List.zipWith_cons_cons, List.zipWith_nil_right] at hdata
  have hsum : sum.toBitVec.reverse =
      Crc.remainder poly (Crc.remainder poly 0#8 [cmd.toBitVec]) [data.toBitVec, data'.toBitVec] := by
    rw [h, BitVec.reverse_reverse_eq]
    rfl
  have h₁ : (field data data' sum).extractLsb' 16 8 = data.toBitVec := by
    apply BitVec.eq_of_getLsbD_eq
    intro i hi
    rw [field, BitVec.getLsbD_extractLsb', BitVec.getLsbD_append, BitVec.getLsbD_append]
    simp [hi, show ¬ 16 + i < 8 by omega, show ¬ 16 + i - 8 < 8 by omega, show 16 + i - 8 - 8 = i by omega]
  have h₂ : (field data data' sum).extractLsb' 8 8 = data'.toBitVec := by
    apply BitVec.eq_of_getLsbD_eq
    intro i hi
    rw [field, BitVec.getLsbD_extractLsb', BitVec.getLsbD_append, BitVec.getLsbD_append]
    simp [hi]
  have h₃ : (field data data' sum).extractLsb' 0 8 = sum.toBitVec := BitVec.extractLsb'_append_eq_right
  rw [Sht11.syndrome, h₁, h₂, h₃, hsum, hdata, ← BitVec.xor_assoc, BitVec.xor_self, BitVec.zero_xor]

theorem odd_syndrome : ∀ i : Fin 24, (Crc.weight 8).odd (syndrome (Crc.unit i)) = true := by decide +kernel

theorem syndrome_inj : ∀ i j : Fin 24, syndrome (Crc.unit i) = syndrome (Crc.unit j) → i = j := by
  decide +kernel

/-- Two fields with the same command that check do not differ in one to three bits. -/
theorem Checked.flips {cmd data data' sum d d' s : UInt8} (h : Checked cmd data data' sum)
    (h' : Checked cmd d d' s) : (Crc.flips (field d d' s) (field data data' sum)).card ∉ Finset.Icc 1 3 := by
  intro hflips
  have hne := additive_syndrome.ne_of_flips (Crc.weight 8) odd_syndrome syndrome_inj hflips
  exact hne (h'.syndrome.trans h.syndrome.symm)

/-! ## The attempts -/

/-- How an attempt ends. -/
inductive Attempt where
  | refused
  | outOfRange
  | failed
  | read (temp rh : ℚ)
  deriving DecidableEq

/-- An `unsigned short` of two bytes, the high one first. -/
def word (high low : UInt8) : ℕ := (high.toNat <<< 8) ||| low.toNat

def tempOf (so : ℕ) : ℚ := -40 + 1 / 100 * so

def rhOf (so : ℕ) : ℚ := -4 + 405 / 10000 * so - 28 / 10000000 * so * so

/-- What is made of the ten bytes. -/
def judge (blk : Vector UInt8 10) : Attempt :=
  if blk[0] = 'T'.toUInt8 ∧ blk[5] = 'H'.toUInt8 ∧ blk[1] = '='.toUInt8 ∧ blk[6] = '='.toUInt8 then
    if checkcrc blk = 0 then
      if word blk[2] blk[3] > 10000 then .outOfRange
      else if word blk[7] blk[8] < 99 ∨ word blk[7] blk[8] > 3338 then .outOfRange
      else .read (tempOf (word blk[2] blk[3])) (rhOf (word blk[7] blk[8]))
    else .failed
  else .failed

section
variable (wire : Wire)

/-- `k` bytes from the device. -/
def readBytes : (k : ℕ) → Talk (Vector UInt8 k)
  | 0 => return #v[]
  | k + 1 => do
    let blk ← readBytes k
    return blk.push (← owTouchByte wire 0xFF)

/-- One round of the loop. -/
def attempt (ident : Serno) : Talk Attempt := do
  let _ ← owTouchReset wire
  let _ ← owTouchByte wire 0x55
  ident.toList.forM fun b => do
    let _ ← owTouchByte wire b
  if (← owTouchByte wire 0x44) = 0 then return .refused
  else
    msDelay 300
    let _ ← owTouchReset wire
    let _ ← owTouchByte wire 0xCC
    let _ ← owTouchByte wire 0x45
    let blk ← readBytes wire 10
    return judge blk

/-- The loop with the rounds that are left, and the reset behind it. -/
def attempts (ident : Serno) : ℕ → Talk (Option (ℚ × ℚ))
  | 0 => do
    let _ ← owTouchReset wire
    return none
  | rounds + 1 => do
    match ← attempt wire ident with
    | .refused => return none
    | .outOfRange =>
      let _ ← owTouchReset wire
      return none
    | .failed =>
      msDelay 100
      attempts ident rounds
    | .read temp rh =>
      let _ ← owTouchReset wire
      return some (temp, rh)

/-- `ReadSHT11`: `*temp` and `*rh`, if it returns 1. -/
def readSHT11 (ident : Serno) : Talk (Option (ℚ × ℚ)) := attempts wire ident 3

end

/-! ## What an attempt does on the bus -/

/-- Bytes as they were read. -/
def delivery {k : ℕ} (blk : Vector UInt8 k) : List Exchange := (blk.toList.map (.touch 0xFF)).reverse

/-- The exchanges of an attempt that has started a conversion and read this block. -/
def Delivered (ident : Serno) (blk : Vector UInt8 10) (new : List Exchange) : Prop :=
  ∃ (present present' : Bool) (matchRom convert skipRom read : UInt8) (rom : List UInt8), convert ≠ 0 ∧
    rom.length = 8 ∧
    new = delivery blk ++ [.touch 0x45 read, .touch 0xCC skipRom, .reset present', .delay 300,
      .touch 0x44 convert] ++ (List.zipWith .touch ident.toList rom).reverse ++
      [.touch 0x55 matchRom, .reset present]

section
variable {wire : Wire}

theorem adds_readBytes (k : ℕ) : Adds (readBytes wire k) fun blk new => new = delivery blk := by
  induction k with
  | zero => exact .pure rfl
  | succ k ih =>
    refine .bind ih fun blk new hnew => ?_
    refine .bind (.ask (Q := fun b new => new = [.touch 0xFF b]) fun _ => rfl) fun b new' hnew' => ?_
    subst hnew hnew'
    refine .pure ?_
    simp [delivery, Vector.toList_push]

theorem adds_touches (bs : List UInt8) : Adds (bs.forM fun b => do let _ ← owTouchByte wire b)
    fun _ new => ∃ answers : List UInt8, answers.length = bs.length ∧
      new = (List.zipWith .touch bs answers).reverse := by
  induction bs with
  | nil => exact .pure ⟨[], rfl, rfl⟩
  | cons b bs ih =>
    have hone : Adds (do let _ ← owTouchByte wire b) fun _ new => ∃ a, new = [.touch b a] :=
      .bind (.ask (Q := fun a new => new = [.touch b a]) fun _ => rfl) fun a _ h => .pure ⟨a, h⟩
    refine .bind hone fun _ new hnew => ih.conseq fun _ rest hrest => ?_
    obtain ⟨a, rfl⟩ := hnew
    obtain ⟨answers, hlen, rfl⟩ := hrest
    exact ⟨a :: answers, congrArg (· + 1) hlen, by simp⟩

theorem adds_attempt (ident : Serno) : Adds (attempt wire ident) fun a new =>
    ∀ temp rh, a = .read temp rh → ∃ blk, judge blk = .read temp rh ∧ Delivered ident blk new := by
  refine .bind (.ask (Q := fun p new => new = [.reset p]) fun _ => rfl) fun present l₁ h₁ => ?_
  refine .bind (.ask (Q := fun a new => new = [.touch 0x55 a]) fun _ => rfl) fun matchRom l₂ h₂ => ?_
  refine .bind (adds_touches _) fun _ l₃ h₃ => ?_
  obtain ⟨rom, hrom, rfl⟩ := h₃
  refine .bind (.ask (Q := fun a new => new = [.touch 0x44 a]) fun _ => rfl) fun convert l₄ h₄ => ?_
  refine .ite (fun _ => .pure fun _ _ h => nomatch h) fun hconvert => ?_
  refine .bind (.ask (Q := fun _ new => new = [.delay 300]) fun _ => rfl) fun _ l₅ h₅ => ?_
  refine .bind (.ask (Q := fun p new => new = [.reset p]) fun _ => rfl) fun present' l₆ h₆ => ?_
  refine .bind (.ask (Q := fun a new => new = [.touch 0xCC a]) fun _ => rfl) fun skipRom l₇ h₇ => ?_
  refine .bind (.ask (Q := fun a new => new = [.touch 0x45 a]) fun _ => rfl) fun read l₈ h₈ => ?_
  refine .bind (adds_readBytes 10) fun blk l₉ h₉ => .pure fun temp rh hjudge => ?_
  subst h₁ h₂ h₄ h₅ h₆ h₇ h₈ h₉
  refine ⟨blk, hjudge, present, present', matchRom, convert, skipRom, read, rom, hconvert, ?_, ?_⟩
  · rw [hrom]
    exact Vector.length_toList
  · simp

/-- What is accepted was delivered by the attempt before the last reset. -/
theorem adds_attempts (ident : Serno) (rounds : ℕ) : Adds (attempts wire ident rounds) fun r new =>
    ∀ temp rh, r = some (temp, rh) → ∃ blk present call earlier, judge blk = .read temp rh ∧
      Delivered ident blk call ∧ new = .reset present :: call ++ earlier := by
  induction rounds with
  | zero =>
    refine .bind (.ask (Q := fun _ _ => True) fun _ => trivial) fun _ _ _ => .pure fun _ _ h => nomatch h
  | succ rounds ih =>
    refine .bind (adds_attempt ident) fun a call hcall => ?_
    cases a with
    | refused => exact .pure fun _ _ h => nomatch h
    | outOfRange =>
      refine .bind (.ask (Q := fun _ _ => True) fun _ => trivial) fun _ _ _ => .pure fun _ _ h => nomatch h
    | failed =>
      refine .bind (.ask (Q := fun _ _ => True) fun _ => trivial) fun _ l _ => ih.conseq fun r new hnew => ?_
      intro temp rh hr
      obtain ⟨blk, present, call', earlier, hjudge, hdelivered, rfl⟩ := hnew temp rh hr
      exact ⟨blk, present, call', earlier ++ (l ++ call), hjudge, hdelivered, by simp⟩
    | read temp rh =>
      refine .bind (.ask (Q := fun p new => new = [.reset p]) fun _ => rfl) fun present l hl => ?_
      subst hl
      refine .pure fun temp' rh' hr => ?_
      obtain ⟨rfl, rfl⟩ := Prod.mk.inj (Option.some.inj hr)
      obtain ⟨blk, hjudge, hdelivered⟩ := hcall temp rh rfl
      exact ⟨blk, present, call, [], hjudge, hdelivered, by simp⟩

end

/-! ## What is accepted -/

/-- A block with both signatures whose fields check. -/
structure Genuine (blk : Vector UInt8 10) : Prop where
  tempSigned : blk[0] = 'T'.toUInt8 ∧ blk[1] = '='.toUInt8
  rhSigned : blk[5] = 'H'.toUInt8 ∧ blk[6] = '='.toUInt8
  temp : Checked 3 blk[2] blk[3] blk[4]
  rh : Checked 5 blk[7] blk[8] blk[9]

def tempField (blk : Vector UInt8 10) : BitVec 24 := field blk[2] blk[3] blk[4]

def rhField (blk : Vector UInt8 10) : BitVec 24 := field blk[7] blk[8] blk[9]

/-- One to three of the bits of a field are flipped. -/
def Damaged (x y : BitVec 24) : Prop := (Crc.flips x y).card ∈ Finset.Icc 1 3

theorem judge_read {blk : Vector UInt8 10} {temp rh : ℚ} (h : judge blk = .read temp rh) :
    Genuine blk ∧ word blk[2] blk[3] ≤ 10000 ∧ 99 ≤ word blk[7] blk[8] ∧ word blk[7] blk[8] ≤ 3338 ∧
      temp = tempOf (word blk[2] blk[3]) ∧ rh = rhOf (word blk[7] blk[8]) := by
  unfold judge at h
  split_ifs at h with hsigned hcheck htemp hrh
  obtain ⟨hT, hH, heq, heq'⟩ := hsigned
  obtain ⟨hfirst, hsecond⟩ := (checkcrc_eq_zero_iff blk).mp hcheck
  obtain ⟨hlow, hhigh⟩ := not_or.mp hrh
  obtain ⟨rfl, rfl⟩ := Attempt.read.inj h
  exact ⟨⟨⟨hT, heq⟩, ⟨hH, heq'⟩, hfirst, hsecond⟩, not_lt.mp htemp, not_lt.mp hlow, not_lt.mp hhigh, rfl, rfl⟩

/-- A genuine block is not what one to three flipped bits of a field make of another. -/
theorem Genuine.not_damaged {good blk : Vector UInt8 10} (h : Genuine good) (h' : Genuine blk) :
    ¬ Damaged (tempField good) (tempField blk) ∧ ¬ Damaged (rhField good) (rhField blk) :=
  ⟨h'.temp.flips h.temp, h'.rh.flips h.rh⟩

/-- `ReadSHT11` returns 1 only with the values of a genuine block in range that one of its
attempts has read, and never with a genuine block of which one to three bits of a field
have been flipped. -/
theorem readSHT11_accepts (wire : Wire) (ident : Serno) (h h' : List Exchange) (temp rh : ℚ)
    (hrun : (readSHT11 wire ident).run h = .ok (some (temp, rh), h')) :
    ∃ (blk : Vector UInt8 10) (call before after : List Exchange),
      h' = after ++ call ++ before ++ h ∧ Delivered ident blk call ∧ Genuine blk ∧
      word blk[2] blk[3] ≤ 10000 ∧ 99 ≤ word blk[7] blk[8] ∧ word blk[7] blk[8] ≤ 3338 ∧
      temp = tempOf (word blk[2] blk[3]) ∧ rh = rhOf (word blk[7] blk[8]) ∧
      ∀ good, Genuine good →
        ¬ Damaged (tempField good) (tempField blk) ∧ ¬ Damaged (rhField good) (rhField blk) := by
  obtain ⟨new, rfl, hnew⟩ := adds_attempts ident 3 h _ h' hrun
  obtain ⟨blk, present, call, earlier, hjudge, hdelivered, rfl⟩ := hnew temp rh rfl
  obtain ⟨hgenuine, htemp, hlow, hhigh, htempOf, hrhOf⟩ := judge_read hjudge
  refine ⟨blk, call, earlier, [.reset present], rfl, hdelivered, hgenuine, htemp, hlow, hhigh, htempOf, hrhOf, ?_⟩
  intro good hgood
  exact hgood.not_damaged hgenuine

/-- A sensor that sends this block. -/
def sensorWire (blk : Vector UInt8 10) : Wire where
  owTouchReset := fun _ => true
  owAccess := fun _ => true
  owTouchByte := fun h sent => if sent = 0xFF then
    blk.toList.getD (h.takeWhile fun e => match e with | .touch 0xFF _ => true | _ => false).length 0xFF else sent
  owBlock := fun _ block => some block

/-- 20 degrees and 50.45 percent. -/
def sampleBlock : Vector UInt8 10 := #v[0x54, 0x3D, 0x17, 0x70, 0x4F, 0x48, 0x3D, 0x05, 0xDC, 0x86]

def sensorIdent : Serno := #v[0xFF, 0x01, 0x02, 0x03, 0x00, 0x00, 0x00, 0x21]

theorem readSHT11_accepts_sample : ∃ h', (readSHT11 (sensorWire sampleBlock) sensorIdent).run [] =
      .ok (some (20, 5045 / 100), h') ∧ ∃ blk call before after,
        h' = after ++ call ++ before ++ [] ∧ Delivered sensorIdent blk call ∧ Genuine blk := by
  obtain ⟨r, h', hrun, hr⟩ := exists_result_ok (m := readSHT11 (sensorWire sampleBlock) sensorIdent)
    (s := []) (p := fun r => r.1 = some (20, 5045 / 100)) (by decide +kernel)
  obtain rfl : r = some (20, 5045 / 100) := hr
  obtain ⟨blk, call, before, after, heq, hdelivered, hgenuine, -⟩ := readSHT11_accepts _ _ _ _ _ _ hrun
  exact ⟨h', hrun, blk, call, before, after, heq, hdelivered, hgenuine⟩

end W1Retap.Bus.Sht11

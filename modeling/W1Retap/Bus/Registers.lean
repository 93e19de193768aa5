import W1Retap.Bus.Exchanges

/-!
# `ReadCounter` and `ReadAtoDResults`

`cnt1d.c` and `atod20.c`: a command reads registers of a device, and the answer ends with the
complement of a check sum over both. What passes the check is what the device sealed, so a count or
a voltage is one that the device held, even where a burst of up to sixteen bits was changed.
-/
namespace W1Retap.Bus.Ds2480

open Programs Framing

/-! ## The readers -/

/-- The block that sends a command and has room for the answer. -/
def request {k : ℕ} (command : Vector UInt8 k) (n : ℕ) : Vector UInt8 (k + n) :=
  command ++ Vector.replicate n (0xFF : UInt8)

section
variable (com : Com)

/-- A command whose answer is checked: the block. -/
def readSealed {k : ℕ} (command : Vector UInt8 k) (n : ℕ) :
    PortM (Option (Vector UInt8 (k + n))) := do
  if ← owAccess com then
    match ← owBlock com false (request command n) with
    | some block =>
      if Tai8570.crc16 (command.toList ++ block.toList.drop k) = 0xB001 then return some block
      else return none
    | none => return none
  else return none

/-- Read memory and counter, from the last byte of data before the counter on. -/
def counterCommand (counterPage : ℕ) : Vector UInt8 3 :=
  let address := (counterPage <<< 5) + 31
  #v[0xA5, UInt8.ofNat (address &&& 0xFF), UInt8.ofNat (address >>> 8)]

/-- The loop that extracts the counter value. -/
def counterValue {n : ℕ} (block : Vector UInt8 n) : UInt32 :=
  [7, 6, 5, 4].foldl (fun (count : UInt32) i => count <<< 8 ||| (readbuffer block i).toUInt32) 0

def readCounter (serialNum : Serno) (counterPage : ℕ) : PortM (Option UInt32) := do
  owSerialNum serialNum
  return (← readSealed com (counterCommand counterPage) 11).map counterValue

/-- Read memory, from the results on. -/
def atodCommand : Vector UInt8 3 := #v[0xAA, 0x00, 0x00]

/-- The voltage of a channel, in the range that the control data have for it. -/
def atodVoltage {n : ℕ} (ctrl : AtoDControl) (block : Vector UInt8 n) (channel : ℕ) : ℚ :=
  let i := 3 + 2 * channel
  let templong := ((readbuffer block (i + 1)).toNat <<< 8 ||| (readbuffer block i).toNat) &&& 0xFFFF
  templong / 65535 * if readbuffer ctrl (i - 3 + 1) &&& 0x01 ≠ 0 then 512 / 100 else 256 / 100

/-- `ReadAtoDResults` at normal speed -/
def readAtoDResults (serialNum : Serno) (ctrl : AtoDControl) : PortM (Option (Vector ℚ 4)) := do
  owSerialNum serialNum
  return (← readSealed com atodCommand 10).map fun block =>
    .ofFn fun channel => atodVoltage ctrl block channel

end

/-! ## Sealed answers -/

/-- The two bytes of a sum, lowest first, with all their bits the other way. -/
def complemented (crc : UInt16) : List UInt8 := [~~~crc.toUInt8, ~~~(crc >>> 8).toUInt8]

/-- What a device sends for a command. -/
def sealAnswer (command body : List UInt8) : List UInt8 :=
  body ++ complemented (Tai8570.crc16 (command ++ body))

/-- The complement of the sum leaves the same remainder behind every sum. -/
theorem feed_complemented (crc : UInt16) :
    Crc.feed poly16 crc.toBitVec (bitsOf (complemented crc)) = 0xB001#16 := by
  have hlow : (~~~crc.toUInt8).toBitVec = (~~~crc.toBitVec).setWidth 8 := by
    apply BitVec.eq_of_getLsbD_eq
    intro i hi
    have hword : i < 16 := by omega
    simp [hi, hword]
  have hhigh : (~~~(crc >>> 8).toUInt8).toBitVec = ((~~~crc.toBitVec) >>> 8).setWidth 8 := by
    apply BitVec.eq_of_getLsbD_eq
    intro i hi
    have hword : 8 + i < 16 := by omega
    simp [hi, hword]
  have hword : (Crc.word (bitsOf (complemented crc)) : BitVec 16) = ~~~crc.toBitVec := by
    change Crc.word (Crc.bits _ ++ (Crc.bits _ ++ [])) = _
    rw [List.append_nil, Crc.word_append, Crc.word_bits, Crc.word_bits, hlow, hhigh,
      BitVec.xor_comm]
    exact (eq_bytes _).symm
  have hones : crc.toBitVec ^^^ ~~~crc.toBitVec = 0xFFFF#16 := by
    rw [← BitVec.xor_allOnes, ← BitVec.xor_assoc, BitVec.xor_self, BitVec.zero_xor]
    rfl
  have hfits : (bitsOf (complemented crc)).length ≤ 16 := Nat.le_refl 16
  rw [Crc.feed_word poly16 crc.toBitVec hfits, hword, hones]
  change (Crc.shift poly16)^[16] 0xFFFF#16 = 0xB001#16
  decide +kernel

theorem crc16_sealed (command body : List UInt8) :
    Tai8570.crc16 (command ++ sealAnswer command body) = 0xB001 := by
  apply UInt16.toBitVec_inj.mp
  rw [sealAnswer, ← List.append_assoc, crc16_feed, bitsOf_append, Crc.feed_append, ← crc16_feed,
    feed_complemented]
  rfl

/-! ## Integrity -/

section
variable {com : Com} {serno : Serno} {k n : ℕ}

/-- On this line the device answers a command with one of these, but for a burst. -/
def Seals (com : Com) (serno : Serno) (command : Vector UInt8 k) (n : ℕ)
    (bodies : Set (List UInt8)) : Prop :=
  ∀ block, Answer com serno (request command n) block → ∃ body ∈ bodies,
    Crc.Burst 16 (bitsOf (block.toList.drop k)) (bitsOf (sealAnswer command.toList body))

theorem readSealed_sealed {command : Vector UInt8 k} {bodies : Set (List UInt8)} (hk : k + n ≤ 127)
    (hline : Seals com serno command n bodies) :
    KeepsTo (Chosen serno) (readSealed com command n) fun answer _ => ∀ block, answer = some block →
      ∃ body ∈ bodies, block.toList.drop k = sealAnswer command.toList body := by
  have hnone : ∀ {P : Line → Prop}, KeepsTo P (pure none : PortM (Option (Vector UInt8 (k + n))))
      fun answer _ => ∀ block, answer = some block →
        ∃ body ∈ bodies, block.toList.drop k = sealAnswer command.toList body :=
    .pure fun l _ block h => nomatch h
  refine .bind addressed_access fun ok => .ite (fun hok => ?_) fun _ => hnone
  have hblock : KeepsTo (Addressed serno) (owBlock com false (request command n)) fun answer l =>
      Chosen serno l ∧ ∀ r, answer = some r → Answer com serno (request command n) r :=
    addressed_block hk
  refine .bind (hblock.conseq (fun _ h => h.2 hok) fun _ _ h => h) fun answer => ?_
  cases answer with
  | none => exact hnone
  | some block =>
    refine .ite (fun hcrc => .pure fun l h block' hsome => ?_) fun _ => hnone
    obtain rfl := Option.some.inj hsome
    obtain ⟨body, hbody, hburst⟩ := hline block (h.2 block rfl)
    exact ⟨body, hbody, eq_of_crc16 hburst (hcrc.trans (crc16_sealed _ _).symm)⟩

/-! ## Counters -/

/-- The bytes of a count, lowest first. -/
def countBytes (count : UInt32) : List UInt8 :=
  [count.toUInt8, (count >>> 8).toUInt8, (count >>> 16).toUInt8, (count >>> 24).toUInt8]

/-- The last byte of data, the counter, and four bytes that are zero. -/
def counterBody (data : UInt8) (count : UInt32) : List UInt8 :=
  data :: countBytes count ++ [0, 0, 0, 0]

theorem toNat_shift_or {count : UInt32} (h : count.toNat < 2 ^ 24) (b : UInt8) :
    (count <<< 8 ||| b.toUInt32).toNat = 256 * count.toNat + b.toNat := by
  have hb := b.toNat_lt
  have hshift : count.toNat <<< ((8 : UInt32).toNat % 32) % 2 ^ 32 = count.toNat <<< 8 := by
    rw [show (8 : UInt32).toNat % 32 = 8 by rfl, Nat.shiftLeft_eq]
    omega
  rw [UInt32.toNat_or, UInt32.toNat_shiftLeft, UInt8.toNat_toUInt32, hshift,
    ← Nat.shiftLeft_add_eq_or_of_lt hb, Nat.shiftLeft_eq]
  omega

/-- The loop puts the bytes of a count together again. -/
theorem foldl_countBytes (count : UInt32) :
    (countBytes count).reverse.foldl (fun (c : UInt32) b => c <<< 8 ||| b.toUInt32) 0 = count := by
  have hbyte : ∀ n < 32, (count >>> UInt32.ofNat n).toUInt8.toNat = count.toNat / 2 ^ n % 256 := by
    intro n hn
    have hsize : n < UInt32.size := hn.trans (by decide)
    rw [UInt32.toNat_toUInt8, UInt32.toNat_shiftRight, UInt32.toNat_ofNat_of_lt' hsize,
      Nat.mod_eq_of_lt hn, Nat.shiftRight_eq_div_pow]
  have hzero : (0 : UInt32).toNat = 0 := rfl
  have hlt := count.toNat_lt
  have h₀ : count.toUInt8.toNat = count.toNat % 256 := UInt32.toNat_toUInt8 count
  have h₁ : (count >>> 8).toUInt8.toNat = count.toNat / 2 ^ 8 % 256 := hbyte 8 (by decide)
  have h₂ : (count >>> 16).toUInt8.toNat = count.toNat / 2 ^ 16 % 256 := hbyte 16 (by decide)
  have h₃ : (count >>> 24).toUInt8.toNat = count.toNat / 2 ^ 24 % 256 := hbyte 24 (by decide)
  have hfirst : (0 : UInt32).toNat < 2 ^ 24 := by decide
  have hone := toNat_shift_or hfirst (count >>> 24).toUInt8
  have htwo := toNat_shift_or (by rw [hone, h₃, hzero]; omega) (count >>> 16).toUInt8
  have hthree := toNat_shift_or (by rw [htwo, hone, h₃, h₂, hzero]; omega) (count >>> 8).toUInt8
  have hfour := toNat_shift_or (by rw [hthree, htwo, hone, h₃, h₂, h₁, hzero]; omega) count.toUInt8
  apply UInt32.toNat_inj.mp
  refine hfour.trans ?_
  rw [hthree, htwo, hone, h₃, h₂, h₁, h₀, hzero]
  omega

theorem counterValue_eq {block : Vector UInt8 14} {data : UInt8} {count : UInt32}
    {sum : List UInt8} (h : block.toList.drop 3 = counterBody data count ++ sum) :
    counterValue block = count := by
  have hbyte : ∀ i, readbuffer block (3 + i) = (counterBody data count ++ sum).getD i 0 := by
    intro i
    rw [readbuffer, ← h, List.getD_eq_getElem?_getD, List.getD_eq_getElem?_getD, List.getElem?_drop]
  have hfold : counterValue block =
      (countBytes count).reverse.foldl (fun (c : UInt32) b => c <<< 8 ||| b.toUInt32) 0 := by
    rw [counterValue, List.foldl_cons, List.foldl_cons, List.foldl_cons, List.foldl_cons,
      List.foldl_nil, hbyte 4, hbyte 3, hbyte 2, hbyte 1]
    rfl
  rw [hfold, foldl_countBytes]

/-- A count that is read is one that the counter of the page held. -/
theorem readCounter_held {counterPage : ℕ} {counts : Set UInt32}
    (hline : Seals com serno (counterCommand counterPage) 11
      {body | ∃ data, ∃ count ∈ counts, body = counterBody data count})
    {l : Line} {count : UInt32} (h : (readCounter com serno counterPage l).1 = some count) :
    count ∈ counts := by
  have hset : KeepsTo (fun _ => True) (owSerialNum serno) fun _ => Chosen serno :=
    .modify fun _ _ => rfl
  have hrun : KeepsTo (fun _ => True) (readCounter com serno counterPage) fun answer _ =>
      ∀ count, answer = some count → count ∈ counts := by
    refine .bind hset fun _ => .bind (readSealed_sealed (by decide) hline) fun answer => ?_
    refine .pure fun l h count hcount => ?_
    obtain ⟨block, hblock, rfl⟩ := Option.map_eq_some_iff.mp hcount
    obtain ⟨_, ⟨data, count, hcounts, rfl⟩, hbody⟩ := h block hblock
    rwa [counterValue_eq hbody]
  exact hrun l trivial count h

end

/-- A counter that has counted to a thousand, on page 14. -/
def thousand : List UInt8 := sealAnswer (counterCommand 14).toList (counterBody 0 1000)

def counterLine : Com :=
  deviceLine (request (counterCommand 14) 11).toList ((counterCommand 14).toList ++ thousand)

theorem readCounter_thousand : (1000 : UInt32) ∈ ({1000} : Set UInt32) := by
  have hread : (readCounter counterLine #v[0x1D, 1, 0, 0, 0, 0, 0, 0] 14
      { port := { speed := speedselFlex } }).1 = some 1000 := by
    decide +kernel
  refine readCounter_held ?_ hread
  intro block h
  refine ⟨_, ⟨0, 1000, rfl, rfl⟩, ?_⟩
  rw [answer_deviceLine h]
  exact .refl _ _

section
variable {com : Com} {serno : Serno}

/-! ## Voltages -/

/-- The results of a conversion, lowest byte first. -/
def atodBody (results : Vector UInt16 4) : List UInt8 :=
  results.toList.flatMap fun r : UInt16 => [r.toUInt8, (r >>> 8).toUInt8]

/-- What the results stand for. -/
def atodVolts (ctrl : AtoDControl) (results : Vector UInt16 4) : Vector ℚ 4 :=
  .ofFn fun channel => ((results.get channel).toNat : ℚ) / 65535 *
    if readbuffer ctrl (2 * channel + 1) &&& 0x01 ≠ 0 then 512 / 100 else 256 / 100

/-- Two bytes of a result. -/
theorem toNat_result (r : UInt16) :
    ((r >>> 8).toUInt8.toNat <<< 8 ||| r.toUInt8.toNat) &&& 0xFFFF = r.toNat := by
  have hlt := r.toNat_lt
  have hlow : r.toUInt8.toNat = r.toNat % 256 := UInt16.toNat_toUInt8 r
  have hhigh : (r >>> 8).toUInt8.toNat = r.toNat / 2 ^ 8 := by
    rw [UInt16.toNat_toUInt8, UInt16.toNat_shiftRight, show (8 : UInt16).toNat % 16 = 8 by rfl,
      Nat.shiftRight_eq_div_pow]
    omega
  rw [← Nat.shiftLeft_add_eq_or_of_lt r.toUInt8.toNat_lt, Nat.shiftLeft_eq, hlow, hhigh,
    show 0xFFFF = 2 ^ 16 - 1 by rfl, Nat.and_two_pow_sub_one_eq_mod]
  omega

theorem atodVoltage_eq {ctrl : AtoDControl} {block : Vector UInt8 13} {results : Vector UInt16 4}
    {sum : List UInt8} (h : block.toList.drop 3 = atodBody results ++ sum) (channel : Fin 4) :
    atodVoltage ctrl block channel = (atodVolts ctrl results).get channel := by
  have hbyte : ∀ i, readbuffer block (3 + i) = (atodBody results ++ sum).getD i 0 := by
    intro i
    rw [readbuffer, ← h, List.getD_eq_getElem?_getD, List.getD_eq_getElem?_getD, List.getElem?_drop]
  have hresults :
      results.toList = [results.get 0, results.get 1, results.get 2, results.get 3] := by
    refine List.ext_getElem (by simp) fun i hi hi' => ?_
    have hlt : i < 4 := hi'
    interval_cases i <;> rfl
  have hbody : atodBody results = [(results.get 0).toUInt8, (results.get 0 >>> 8).toUInt8,
      (results.get 1).toUInt8, (results.get 1 >>> 8).toUInt8,
      (results.get 2).toUInt8, (results.get 2 >>> 8).toUInt8,
      (results.get 3).toUInt8, (results.get 3 >>> 8).toUInt8] := by
    rw [atodBody, hresults]
    rfl
  have hlow : ∀ channel : Fin 4, (atodBody results ++ sum).getD (2 * channel) 0 =
      (results.get channel).toUInt8 := by
    rw [hbody]
    intro channel
    fin_cases channel <;> rfl
  have hhigh : ∀ channel : Fin 4, (atodBody results ++ sum).getD (2 * channel + 1) 0 =
      (results.get channel >>> 8).toUInt8 := by
    rw [hbody]
    intro channel
    fin_cases channel <;> rfl
  have hctrl : 3 + 2 * channel.val - 3 + 1 = 2 * channel.val + 1 := by omega
  unfold atodVoltage
  simp only
  rw [Nat.add_assoc, hbyte, hbyte, hlow, hhigh, toNat_result, hctrl, atodVolts, Vector.get_ofFn]

/-- Voltages that are read are those of one conversion. -/
theorem readAtoDResults_held {ctrl : AtoDControl} {conversions : Set (Vector UInt16 4)}
    (hline : Seals com serno atodCommand 10
      {body | ∃ results ∈ conversions, body = atodBody results})
    {l : Line} {volts : Vector ℚ 4} (h : (readAtoDResults com serno ctrl l).1 = some volts) :
    ∃ results ∈ conversions, volts = atodVolts ctrl results := by
  have hset : KeepsTo (fun _ => True) (owSerialNum serno) fun _ => Chosen serno :=
    .modify fun _ _ => rfl
  have hrun : KeepsTo (fun _ => True) (readAtoDResults com serno ctrl) fun answer _ =>
      ∀ volts, answer = some volts → ∃ results ∈ conversions, volts = atodVolts ctrl results := by
    refine .bind hset fun _ => .bind (readSealed_sealed (by decide) hline) fun answer => ?_
    refine .pure fun l h volts hvolts => ?_
    obtain ⟨block, hblock, rfl⟩ := Option.map_eq_some_iff.mp hvolts
    obtain ⟨_, ⟨results, hresults, rfl⟩, hbody⟩ := h block hblock
    refine ⟨results, hresults, ?_⟩
    rw [show (fun channel : Fin 4 => atodVoltage ctrl block channel) =
      (atodVolts ctrl results).get from funext fun channel => atodVoltage_eq hbody channel]
    exact Vector.ofFn_getElem
  exact hrun l trivial volts h

end

/-- Four results of a conversion. -/
def quarter : Vector UInt16 4 := #v[0x4000, 0, 0, 0x8000]

def atodLine : Com :=
  deviceLine (request atodCommand 10).toList
    (atodCommand.toList ++ sealAnswer atodCommand.toList (atodBody quarter))

theorem readAtoDResults_quarter : ∃ results ∈ ({quarter} : Set (Vector UInt16 4)),
    #v[16384 / 65535 * (256 / 100 : ℚ), 0, 0, 32768 / 65535 * (256 / 100)] =
      atodVolts (Vector.replicate 16 0) results := by
  have hread : (readAtoDResults atodLine #v[0x20, 1, 0, 0, 0, 0, 0, 0] (Vector.replicate 16 0)
      { port := { speed := speedselFlex } }).1 =
        some #v[16384 / 65535 * (256 / 100), 0, 0, 32768 / 65535 * (256 / 100)] := by
    decide +kernel
  refine readAtoDResults_held ?_ hread
  intro block h
  refine ⟨_, ⟨quarter, rfl, rfl⟩, ?_⟩
  rw [answer_deviceLine h]
  exact .refl _ _

end W1Retap.Bus.Ds2480

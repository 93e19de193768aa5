import W1Retap.Bus.Exchanges
import W1Retap.Sensors.Stores

/-!
# `ReadTemperature`

`temp10.c`: in up to two rounds a conversion is started, the strong pullup stays on for the time
it takes, and the scratchpad is read and checked. The temperature is one that the device held, even
where a burst of up to eight bits was changed on the way.
-/
namespace W1Retap.Bus.Ds2480

open Programs Framing

/-! ## The reader -/

/-- The command for the scratchpad, with room for its nine bytes. -/
def readScratchpad : Vector UInt8 10 :=
  #v[0xBE, 0xFF, 0xFF, 0xFF, 0xFF, 0xFF, 0xFF, 0xFF, 0xFF, 0xFF]

/-- What a block that checks makes of a round: there is none where the conversion is made again,
and no temperature where the function fails. -/
def scratchpadTemp (family : UInt8) (loop : ℕ) (block : Vector UInt8 10) : Option (Option ℚ) :=
  if family = 0x28 then
    let itmp := Int16.ofNat (((readbuffer block 2).toNat <<< 8) ||| (readbuffer block 1).toNat)
    some (some (itmp.toInt / 16))
  else
    let tsht := Int32.ofNat ((readbuffer block 1).toNat / 2)
    let tsht := if readbuffer block 2 &&& 0x01 ≠ 0 then tsht ||| -128 else tsht
    let cr : ℚ := (readbuffer block 7).toNat
    let cpc : ℚ := (readbuffer block 8).toNat
    if cpc - cr = 1 ∧ loop = 0 then none
    else if cpc = 0 then some none
    else some (some (tsht.toInt - 1 / 4 + (cpc - cr) / cpc))

section
variable (com : Com)

/-- The second half of a round. -/
def readRound (family : UInt8) (loop : ℕ) : PortM (Option (Option ℚ)) := do
  if ← owAccess com then
    match ← owBlock com false readScratchpad with
    | some block =>
      if Ds2438.crc8 (block.toList.drop 1) = 0 then return scratchpadTemp family loop block
      else return none
    | none => return none
  else return none

/-- A round of the loop: what the function returns there, unless it goes on. -/
def temperatureRound (family : UInt8) (iwait loop : ℕ) : PortM (Option (Option ℚ)) := do
  if ← owAccess com then
    if ← owWriteBytePower com 0x44 then
      msDelay iwait
      if (← owLevel com modeNormal) = modeNormal then readRound com family loop
      else return some none
    else return some none
  else return none

/-- The loop, and `rt` behind it. -/
def temperatureLoop (family : UInt8) (iwait : ℕ) : List ℕ → PortM (Option ℚ)
  | [] => return none
  | loop :: loops => do
    match ← temperatureRound com family iwait loop with
    | some temp => return temp
    | none => temperatureLoop family iwait loops

def readTemperature (serialNum : Serno) (iwait : ℕ) : PortM (Option ℚ) := do
  owSerialNum serialNum
  temperatureLoop com (serialNum.family) iwait [0, 1]

end

/-! ## What a thermometer holds -/

/-- Nine bytes, of which the last is the check sum of the others. -/
structure Scratchpad where
  bytes : Vector UInt8 9
  checked : Ds2438.crc8 bytes.toList = 0

namespace Scratchpad

/-- The lowest byte comes first. -/
def lsb (pad : Scratchpad) : BitVec 8 := (readbuffer pad.bytes 0).toBitVec

def msb (pad : Scratchpad) : BitVec 8 := (readbuffer pad.bytes 1).toBitVec

/-- `COUNT_REMAIN` and `COUNT_PER_C` -/
def remain (pad : Scratchpad) : ℚ := (readbuffer pad.bytes 6).toNat

def perC (pad : Scratchpad) : ℚ := (readbuffer pad.bytes 7).toNat

/-- A device of family 28 has sixteenths of a degree. The others have halves in nine bits, and the
rest of a count that is a degree long. -/
def temp (pad : Scratchpad) (family : UInt8) : ℚ :=
  if family = 0x28 then (pad.msb ++ pad.lsb).toInt / 16
  else
    let halves : ℤ := (pad.msb.extractLsb' 0 1 ++ pad.lsb).toInt
    ((halves / 2 : ℤ) : ℚ) - 1 / 4 + (pad.perC - pad.remain) / pad.perC

end Scratchpad

/-- Two bytes as a short. -/
theorem toInt_short (low high : UInt8) :
    (Int16.ofNat ((high.toNat <<< 8) ||| low.toNat)).toInt =
      (high.toBitVec ++ low.toBitVec).toInt := by
  have hword : BitVec.ofNat 16 ((high.toNat <<< 8) ||| low.toNat) =
      high.toBitVec ++ low.toBitVec := by
    apply BitVec.eq_of_toNat_eq
    have hlt := (high.toBitVec ++ low.toBitVec).isLt
    rw [BitVec.toNat_append] at hlt ⊢
    rw [BitVec.toNat_ofNat]
    exact Nat.mod_eq_of_lt hlt
  rw [← hword]
  rfl

/-- The halves, without the last one. -/
theorem toInt_halves (low high : UInt8) :
    (if high &&& 0x01 ≠ 0 then Int32.ofNat (low.toNat / 2) ||| -128
      else Int32.ofNat (low.toNat / 2)).toInt =
      (high.toBitVec.extractLsb' 0 1 ++ low.toBitVec).toInt / 2 := by
  have hall : ∀ (low : BitVec 8) (bit : Bool),
      (if bit then Int32.ofNat (low.toNat / 2) ||| -128 else Int32.ofNat (low.toNat / 2)).toInt =
        (BitVec.ofBool bit ++ low).toInt / 2 := by
    decide +kernel
  have hbit : ∀ high : BitVec 8,
      high.extractLsb' 0 1 = BitVec.ofBool (decide (UInt8.ofBitVec high &&& 0x01 ≠ 0)) := by
    decide +kernel
  rw [hbit high.toBitVec, ← hall]
  by_cases h : high &&& 0x01 ≠ 0
  · rw [if_pos h]
    exact congrArg Int32.toInt (if_pos (decide_eq_true h)).symm
  · rw [if_neg h]
    exact congrArg Int32.toInt (if_neg (by simpa using h)).symm

/-- A block that is a scratchpad gives its temperature. -/
theorem scratchpadTemp_eq {family : UInt8} {loop : ℕ} {block : Vector UInt8 10} {pad : Scratchpad}
    (h : block.toList.drop 1 = pad.bytes.toList) {t : ℚ}
    (ht : scratchpadTemp family loop block = some (some t)) : t = pad.temp family := by
  have hbyte : ∀ i, readbuffer block (i + 1) = readbuffer pad.bytes i := by
    intro i
    rw [readbuffer, readbuffer, ← h, List.getD_eq_getElem?_getD, List.getD_eq_getElem?_getD,
      List.getElem?_drop, Nat.add_comm]
  unfold scratchpadTemp at ht
  rw [hbyte 1, hbyte 0, hbyte 6, hbyte 7] at ht
  unfold Scratchpad.temp
  split at ht
  · rename_i hfamily
    rw [if_pos hfamily]
    obtain rfl := Option.some.inj (Option.some.inj ht)
    rw [toInt_short]
    rfl
  · rename_i hfamily
    rw [if_neg hfamily]
    simp only at ht
    split at ht
    · cases ht
    · split at ht
      · cases ht
      · obtain rfl := Option.some.inj (Option.some.inj ht)
        rw [toInt_halves]
        rfl

/-! ## Integrity -/

section
variable {com : Com} {serno : Serno}

/-- Where a round ends the function with a temperature, it is that of a block that checks. -/
def Measured (com : Com) (serno : Serno) (t : ℚ) : Prop :=
  ∃ block loop, Answer com serno readScratchpad block ∧ Ds2438.crc8 (block.toList.drop 1) = 0 ∧
    scratchpadTemp (serno.family) loop block = some (some t)

theorem keeps_readRound {loop : ℕ} :
    KeepsTo (Chosen serno) (readRound com (serno.family) loop) fun result l =>
      Chosen serno l ∧ ∀ t, result = some (some t) → Measured com serno t := by
  have hnone : ∀ {P : Line → Prop}, (∀ l, P l → Chosen serno l) →
      KeepsTo P (pure none : PortM (Option (Option ℚ))) fun result l =>
        Chosen serno l ∧ ∀ t, result = some (some t) → Measured com serno t :=
    fun hP => .pure fun l h => ⟨hP l h, fun t ht => absurd ht.symm (Option.some_ne_none _)⟩
  refine .bind addressed_access fun ok => .ite (fun hok => ?_) fun _ => hnone fun _ h => h.1
  have hblock : KeepsTo (Addressed serno) (owBlock com false readScratchpad) fun answer l =>
      Chosen serno l ∧ ∀ r, answer = some r → Answer com serno readScratchpad r :=
    addressed_block (by decide)
  refine .bind (hblock.conseq (fun _ h => h.2 hok) fun _ _ h => h) fun answer => ?_
  cases answer with
  | none => exact hnone fun _ h => h.1
  | some block =>
    refine .ite (fun hcrc => .pure fun l h => ⟨h.1, fun t ht => ?_⟩) fun _ => hnone fun _ h => h.1
    exact ⟨block, loop, h.2 block rfl, hcrc, ht⟩

theorem keeps_temperatureRound {iwait loop : ℕ} :
    KeepsTo (Chosen serno) (temperatureRound com (serno.family) iwait loop) fun result l =>
      Chosen serno l ∧ ∀ t, result = some (some t) → Measured com serno t := by
  have hfail : ∀ result : Option (Option ℚ), result.join = none →
      KeepsTo (Chosen serno) (pure result) fun result l =>
        Chosen serno l ∧ ∀ t, result = some (some t) → Measured com serno t := by
    refine fun result hjoin => .pure fun l h => ⟨h, fun t ht => ?_⟩
    rw [ht] at hjoin
    cases hjoin
  refine .bind (addressed_access.conseq (fun _ h => h) fun _ _ h => h.1) fun ok =>
    .ite (fun _ => ?_) fun _ => hfail _ rfl
  refine .bind (chosen_writeBytePower _) fun ok => .ite (fun _ => ?_) fun _ => hfail _ rfl
  refine .bind (chosen_tell _) fun _ => .bind (chosen_level _) fun level =>
    .ite (fun _ => keeps_readRound) fun _ => hfail _ rfl

theorem keeps_temperatureLoop {iwait : ℕ} (loops : List ℕ) :
    KeepsTo (Chosen serno) (temperatureLoop com (serno.family) iwait loops) fun temp _ =>
      ∀ t, temp = some t → Measured com serno t := by
  induction loops with
  | nil => exact .pure fun l _ t ht => absurd ht.symm (Option.some_ne_none t)
  | cons loop loops ih =>
    refine .bind keeps_temperatureRound fun result => ?_
    cases result with
    | none => exact ih.conseq (fun _ h => h.1) fun _ _ h => h
    | some temp => exact .pure fun l h t ht => h.2 t (congrArg some ht)

theorem readTemperature_measured {iwait : ℕ} {l : Line} {t : ℚ}
    (h : (readTemperature com serno iwait l).1 = some t) : Measured com serno t := by
  have hset : KeepsTo (fun _ => True) (owSerialNum serno) fun _ => Chosen serno :=
    .modify fun _ _ => rfl
  have hrun : KeepsTo (fun _ => True) (readTemperature com serno iwait) fun temp _ =>
      ∀ t, temp = some t → Measured com serno t :=
    .bind hset fun _ => keeps_temperatureLoop _
  exact hrun l trivial t h

/-- On a line that changes at most one burst of eight bits in what the device sends, a temperature
is one that the device held. -/
theorem readTemperature_held {pads : Set Scratchpad}
    (hline : ∀ block, Answer com serno readScratchpad block → ∃ pad ∈ pads,
      Crc.Burst 8 (bitsOf (block.toList.drop 1)) (bitsOf pad.bytes.toList))
    {iwait : ℕ} {l : Line} {t : ℚ} (h : (readTemperature com serno iwait l).1 = some t) :
    ∃ pad ∈ pads, t = pad.temp (serno.family) := by
  obtain ⟨block, loop, hanswer, hcrc, ht⟩ := readTemperature_measured h
  obtain ⟨pad, hpad, hburst⟩ := hline block hanswer
  have hblock := eq_of_crc8 hburst (hcrc.trans pad.checked.symm)
  exact ⟨pad, hpad, scratchpadTemp_eq hblock ht⟩

end

/-! ## The reader of the daemon -/

/-- A bus on which thermometers are read over the line. -/
def thermometerDriver (com : Com) (rest : Driver Line) : Driver Line :=
  { rest with readTemperature := fun serno scan => readTemperature com serno scan.toNat }

/-- What is quiet offers no value. -/
theorem offered_quiet {σ α : Type} {m : M σ α} (h : Does (Quiet (σ := σ)) m) {s s' : Machine σ}
    {a : α} (hrun : m.run s = .ok (a, s')) {n j : ℕ} {x : ℚ} {t : Int} {ok : Bool}
    (hx : .validate n j x t ok ∈ s'.trace) : .validate n j x t ok ∈ s.trace := by
  have hsteps := h s a s' hrun
  clear hrun
  induction hsteps with
  | refl => exact hx
  | tail _ hstep ih =>
    refine ih ?_
    rcases hstep.trace with htrace | ⟨e, he, htrace⟩
    · rwa [htrace] at hx
    · rw [htrace] at hx
      rcases List.mem_cons.mp hx with rfl | hx
      · exact absurd he Bool.false_ne_true
      · exact hx

/-- What the daemon takes from a thermometer is a temperature that it held, also on a line that
changes a burst of eight bits in each answer. -/
theorem w1ReadTemp_held {com : Com} {pads : Serno → Set Scratchpad}
    (hline : ∀ serno block, Answer com serno readScratchpad block → ∃ pad ∈ pads serno,
      Crc.Burst 8 (bitsOf (block.toList.drop 1)) (bitsOf pad.bytes.toList))
    (rest : Driver Line) {n : ℕ} {m m' : Machine Line} {r : Int}
    (hrun : (w1ReadTemp (thermometerDriver com rest) n).run m = .ok (r, m'))
    {x : ℚ} {t : Int} {ok : Bool} (hx : .validate n 0 x t ok ∈ m'.trace) :
    .validate n 0 x t ok ∈ m.trace ∨
      ∃ d, m'.w1.devs[n]? = some d ∧ ∃ pad ∈ pads d.serno, x = pad.temp d.serno.family := by
  rw [w1ReadTemp, run_bind_ok] at hrun
  obtain ⟨_, m₁, hmake, hrun⟩ := hrun
  obtain ⟨found, m₂, hselect, hrun⟩ := run_bind_ok.mp hrun
  have hbefore : .validate n 0 x t ok ∈ m₂.trace → .validate n 0 x t ok ∈ m.trace := fun h =>
    offered_quiet (does_makeSerial n) hmake (offered_quiet (does_w1SelectDevice _ n) hselect h)
  have hend : ∀ s : Machine Line, (do return if (← slot n 0).valid then (1 : Int) else 0 :
      M Line Int).run s = .ok (r, m') → m' = s := by
    intro s h
    obtain ⟨sensor, s₁, hslot, hpure⟩ := run_bind_ok.mp h
    obtain ⟨-, hs⟩ := run_slot_ok.mp hslot
    exact (run_pure_ok.mp hpure).2.trans hs
  cases found with
  | false =>
    obtain ⟨_, m₃, hclear, hrun⟩ := run_bind_ok.mp hrun
    obtain ⟨-, rfl⟩ := run_modifySlot_ok.mp hclear
    rw [hend _ hrun] at hx
    exact Or.inl (hbefore hx)
  | true =>
    obtain ⟨d, hd, hrun⟩ := run_dev_bind_ok.mp hrun
    rw [run_getW1_bind, run_call_bind] at hrun
    have hdriver : (thermometerDriver com rest).readTemperature d.serno m₂.w1.tempScan m₂.bus =
        readTemperature com d.serno m₂.w1.tempScan.toNat m₂.bus := rfl
    rw [hdriver] at hrun
    cases htemp : (readTemperature com d.serno m₂.w1.tempScan.toNat m₂.bus).1 with
    | none =>
      rw [htemp] at hrun
      rw [hend _ hrun] at hx
      exact Or.inl (hbefore hx)
    | some temp =>
      rw [htemp] at hrun
      obtain ⟨_, m₃, hstore, hrun⟩ := run_bind_ok.mp hrun
      obtain ⟨y, y', es, -, -, hes, -, rfl⟩ := run_store_ok hstore
      obtain rfl := hend _ hrun
      rcases List.mem_append.mp (show _ ∈ (es ++ [_]) ++ m₂.trace from hx) with hx | hx
      · rcases List.mem_append.mp hx with hx | hx
        · obtain ⟨i, dll, he⟩ := hes _ hx
          cases he
        · obtain ⟨pad, hpad, ht⟩ := readTemperature_held (hline d.serno) htemp
          refine Or.inr ⟨d.modifySlot 0 fun _ => y', ?_, pad, hpad, ?_⟩
          · rw [Machine.put]
            change (m₂.w1.devs.modify n _)[n]? = _
            rw [List.getElem?_modify_eq, hd]
            rfl
          · cases List.mem_singleton.mp hx
            exact ht
      · exact Or.inl (hbefore hx)

/-- A line with a thermometer. -/
def thermometer (pad : Scratchpad) : Com :=
  deviceLine readScratchpad.toList (0xBE :: pad.bytes.toList)

theorem answer_thermometer {pad : Scratchpad} {serno : Serno} {block : Vector UInt8 10}
    (h : Answer (thermometer pad) serno readScratchpad block) :
    block.toList.drop 1 = pad.bytes.toList := by
  rw [answer_deviceLine h]
  rfl

/-- A scratchpad with twenty-two degrees. -/
def warm : Scratchpad where
  bytes := #v[0x60, 0x01, 0x4B, 0x46, 0x7F, 0xFF, 0x0C, 0x10, 0x14]
  checked := by decide +kernel

/-- A daemon with one thermometer. -/
def room : Machine Line where
  w1 := { devs := [{
    serno := #v[0x28, 7, 0, 0, 0, 0, 0, 93]
    init := 1
    s := [{ abbrv := some "T".toList, name := some "Temp".toList }]
    ns := 1 }] }
  bus := { port := { speed := speedselFlex } }

def roomDriver : Driver Line :=
  thermometerDriver (thermometer warm)
    { Driver.silent with owSearch := fun _ serno b => ([serno], b) }

theorem w1ReadTemp_warm : ∃ r m' d, (w1ReadTemp roomDriver 0).run room = .ok (r, m') ∧
    m'.w1.devs[0]? = some d ∧ 22 = warm.temp d.serno.family := by
  have htrace : ((w1ReadTemp roomDriver 0).run room).toOption.map (fun r => r.2.trace) =
      some [.validate 0 0 22 0 true, .search 0] := by
    decide +kernel
  cases hrun : (w1ReadTemp roomDriver 0).run room with
  | error e =>
    rw [hrun] at htrace
    cases htrace
  | ok result =>
    obtain ⟨r, m'⟩ := result
    rw [hrun] at htrace
    have hevents : m'.trace = [.validate 0 0 22 0 true, .search 0] := Option.some.inj htrace
    have hx : .validate 0 0 22 0 true ∈ m'.trace := by
      rw [hevents]
      exact List.mem_cons_self
    have hline : ∀ serno block, Answer (thermometer warm) serno readScratchpad block →
        ∃ pad ∈ ({warm} : Set Scratchpad),
          Crc.Burst 8 (bitsOf (block.toList.drop 1)) (bitsOf pad.bytes.toList) := by
      intro serno block h
      refine ⟨warm, rfl, ?_⟩
      rw [answer_thermometer h]
      exact .refl _ _
    rcases w1ReadTemp_held hline _ hrun hx with hbefore | ⟨d, hd, pad, rfl, ht⟩
    · exact absurd hbefore List.not_mem_nil
    · exact ⟨r, m', d, rfl, hd, ht⟩

end W1Retap.Bus.Ds2480

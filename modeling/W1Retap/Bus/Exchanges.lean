import W1Retap.Bus.Callers
import W1Retap.Pressure.Interface
import W1Retap.Support.Bursts

/-!
# Exchanges with a device

A block that follows `owAccess_` goes to the device in `SerialNum`, directly behind an address that
came back as it was sent. The check sums of the library are remainders that miss no burst as long
as their register, so what checks is what the device sent.
-/
namespace W1Retap.Bus.Ds2480

open Programs Framing

/-! ## Check sums -/

/-- `x^8 + x^5 + x^4 + 1`, lowest bit first -/
def poly8 : BitVec 8 := 0x8C

/-- `x^16 + x^15 + x^2 + 1`, lowest bit first -/
def poly16 : BitVec 16 := 0xA001

/-- The bits of a block on the line. -/
def bitsOf (block : List UInt8) : List Bool := Crc.serial (block.map UInt8.toBitVec)

theorem bitsOf_injective : Function.Injective bitsOf := fun _ _ h =>
  List.map_injective_iff.mpr (fun _ _ h => UInt8.toBitVec_inj.mp h) (Crc.serial_injective h)

theorem bitsOf_append (block block' : List UInt8) :
    bitsOf (block ++ block') = bitsOf block ++ bitsOf block' := by
  rw [bitsOf, List.map_append, Crc.serial, List.flatMap_append]
  rfl

/-- The table of `docrc8` holds what eight bits do. -/
theorem dscrcTable_shift (i : UInt8) :
    (Ds2438.dscrcTable.get ⟨i.toNat, i.toNat_lt⟩).toBitVec = (Crc.shift poly8)^[8] i.toBitVec := by
  have hall : ∀ i : BitVec 8,
      (Ds2438.dscrcTable.get ⟨(UInt8.ofBitVec i).toNat, (UInt8.ofBitVec i).toNat_lt⟩).toBitVec =
        (Crc.shift poly8)^[8] i := by
    decide +kernel
  exact hall i.toBitVec

/-- `docrc8` over a block. -/
theorem crc8_feed (block : List UInt8) :
    (Ds2438.crc8 block).toBitVec = Crc.feed poly8 0#8 (bitsOf block) := by
  have hstep : ∀ c b : BitVec 8,
      (fun c b : BitVec 8 => (Crc.shift poly8)^[8] (c ^^^ b)) c b =
        (Crc.shift poly8)^[8] (c ^^^ b.setWidth 8) :=
    fun c b => by rw [BitVec.setWidth_eq]
  have hfold : ∀ (block : List UInt8) (c : UInt8),
      (block.foldl
        (fun crc x => Ds2438.dscrcTable.get ⟨(crc ^^^ x).toNat, (crc ^^^ x).toNat_lt⟩) c).toBitVec =
        (block.map UInt8.toBitVec).foldl (fun c b => (Crc.shift poly8)^[8] (c ^^^ b))
          c.toBitVec := by
    intro block
    induction block with
    | nil => exact fun _ => rfl
    | cons b block ih =>
      intro c
      rw [List.foldl_cons, ih, List.map_cons, List.foldl_cons, dscrcTable_shift, UInt8.toBitVec_xor]
  rw [Ds2438.crc8, hfold, Crc.foldl_serial le_rfl hstep]
  rfl

/-- The two bytes of a register. -/
theorem eq_bytes (x : BitVec 16) :
    x = ((x >>> 8).setWidth 8).setWidth 16 <<< 8 ^^^ (x.setWidth 8).setWidth 16 := by
  apply BitVec.eq_of_getLsbD_eq
  intro i hi
  rw [BitVec.getLsbD_xor, BitVec.getLsbD_shiftLeft, BitVec.getLsbD_setWidth,
    BitVec.getLsbD_setWidth, BitVec.getLsbD_setWidth, BitVec.getLsbD_setWidth,
    BitVec.getLsbD_ushiftRight]
  by_cases h : i < 8
  · simp [h, hi]
  · have hlow : i - 8 < 8 := by omega
    have hword : i - 8 < 16 := by omega
    have hback : 8 + (i - 8) = i := by omega
    simp [h, hi, hlow, hword, hback]

theorem highByte (x : BitVec 16) : ((x >>> 8).setWidth 8).setWidth 16 = x >>> 8 := by
  apply BitVec.eq_of_toNat_eq
  simp only [BitVec.toNat_setWidth, BitVec.toNat_ushiftRight, Nat.shiftRight_eq_div_pow]
  omega

theorem lowByte (crc : UInt16) : crc.toUInt8.toUInt16 = crc &&& 0xff := by
  apply UInt16.toNat_inj.mp
  have hmod := Nat.and_two_pow_sub_one_eq_mod crc.toNat 8
  rw [UInt16.toNat_and]
  simp
  exact hmod.symm

/-- A byte moves the register down, and what comes out below adds a word of its own. -/
theorem docrc16_split (crc : UInt16) (b : UInt8) :
    Tai8570.docrc16 crc b.toUInt16 =
      (crc >>> 8) ^^^ Tai8570.docrc16 0 (b ^^^ crc.toUInt8).toUInt16 := by
  have hdata : (b.toUInt16 ^^^ (crc &&& 0xff)) &&& 0xff =
      ((b ^^^ crc.toUInt8).toUInt16 ^^^ (0 &&& 0xff)) &&& 0xff := by
    rw [UInt8.toUInt16_xor, lowByte]
    simp
  unfold Tai8570.docrc16
  rw [hdata]
  simp only
  split
  · simp [UInt16.xor_assoc]
  · simp [UInt16.xor_assoc]

theorem docrc16_shift (crc : UInt16) (b : UInt8) :
    (Tai8570.docrc16 crc b.toUInt16).toBitVec =
      (Crc.shift poly16)^[8] (crc.toBitVec ^^^ b.toBitVec.setWidth 16) := by
  have hhigh : ∀ hi : BitVec 8,
      (Crc.shift poly16)^[8] (hi.setWidth 16 <<< 8) = hi.setWidth 16 := by
    decide +kernel
  have hlow : ∀ lo : BitVec 8, (Tai8570.docrc16 0 (UInt8.ofBitVec lo).toUInt16).toBitVec =
      (Crc.shift poly16)^[8] (lo.setWidth 16) := by
    decide +kernel
  have hparts : crc.toBitVec ^^^ b.toBitVec.setWidth 16 =
      ((crc.toBitVec >>> 8).setWidth 8).setWidth 16 <<< 8 ^^^
        (b.toBitVec ^^^ crc.toBitVec.setWidth 8).setWidth 16 := by
    conv_lhs => rw [eq_bytes crc.toBitVec]
    rw [BitVec.setWidth_xor]
    ac_rfl
  rw [docrc16_split, UInt16.toBitVec_xor, hparts, (Crc.additive_shift poly16).iterate 8, hhigh,
    highByte]
  exact congrArg _ (hlow (b.toBitVec ^^^ crc.toBitVec.setWidth 8))

/-- `docrc16` over a block. -/
theorem crc16_feed (block : List UInt8) :
    (Tai8570.crc16 block).toBitVec = Crc.feed poly16 0#16 (bitsOf block) := by
  have hfold : ∀ (block : List UInt8) (c : UInt16),
      (block.foldl (fun crc b => Tai8570.docrc16 crc b.toUInt16) c).toBitVec =
        (block.map UInt8.toBitVec).foldl
          (fun c b => (Crc.shift poly16)^[8] (c ^^^ b.setWidth 16)) c.toBitVec := by
    intro block
    induction block with
    | nil => exact fun _ => rfl
    | cons b block ih =>
      intro c
      rw [List.foldl_cons, ih, List.map_cons, List.foldl_cons, docrc16_shift]
  rw [Tai8570.crc16, hfold, Crc.foldl_serial (by decide) fun _ _ => rfl]
  rfl

/-- A block with the check sum of another one that it differs from in one short burst. -/
theorem eq_of_crc8 {block sent : List UInt8} (h : Crc.Burst 8 (bitsOf block) (bitsOf sent))
    (hcrc : Ds2438.crc8 block = Ds2438.crc8 sent) : block = sent := by
  have hfeed : Crc.feed poly8 0#8 (bitsOf block) = Crc.feed poly8 0#8 (bitsOf sent) := by
    rw [← crc8_feed, ← crc8_feed, hcrc]
  exact bitsOf_injective (h.eq_of_feed rfl hfeed)

/-- The same behind a command. -/
theorem eq_of_crc16 {command block sent : List UInt8}
    (h : Crc.Burst 16 (bitsOf block) (bitsOf sent))
    (hcrc : Tai8570.crc16 (command ++ block) = Tai8570.crc16 (command ++ sent)) : block = sent := by
  have hfeed := congrArg UInt16.toBitVec hcrc
  rw [crc16_feed, crc16_feed, bitsOf_append, bitsOf_append, Crc.feed_append, Crc.feed_append]
    at hfeed
  exact bitsOf_injective (h.eq_of_feed rfl hfeed)

/-! ## The device that is addressed -/

/-- The caller has chosen this device. -/
def Chosen (serno : Serno) (l : Line) : Prop := l.port.serialNum = serno

section
variable {com : Com} {serno : Serno}

theorem chosen_modify {f : Port → Port} (hf : ∀ p, (f p).serialNum = p.serialNum) :
    Keeps (Chosen serno) (modifyPort f) :=
  .modify fun l h => (hf l.port).trans h

theorem chosen_tell (t : Traffic) : Keeps (Chosen serno) (tell t) := .modify fun _ h => h

theorem chosen_transfer (sent : List UInt8) (n : ℕ) :
    Keeps (Chosen serno) (transfer com sent n) := by
  refine .bind (chosen_tell _) fun _ => .bind (fun _ h => h) fun ok => ?_
  refine .ite (fun _ => ?_) fun _ => ?_
  · exact fun _ h => h
  · exact .pure none

theorem chosen_changeMode (mode : Framing.Mode) (byte : UInt8) :
    Keeps (Chosen serno) (changeMode mode byte) := by
  refine .bind (fun _ h => h) fun p => .ite (fun _ => .pure _) fun _ => ?_
  exact .bind (chosen_modify fun _ => rfl) fun _ => .pure _

theorem chosen_detect : Keeps (Chosen serno) (ds2480Detect com) := by
  refine .bind (chosen_modify fun _ => rfl) fun _ => .bind (chosen_tell _) fun _ =>
    .bind (chosen_tell _) fun _ => .bind (chosen_tell _) fun _ => .bind (chosen_tell _) fun _ =>
    .bind (fun _ h => h) fun ok => .ite (fun _ => ?_) fun _ => .pure _
  refine .bind (chosen_tell _) fun _ => .bind (chosen_transfer _ _) fun r => ?_
  cases r with
  | some r => exact .pure _
  | none => exact .pure _

theorem chosen_resync {α : Type} (result : α) : Keeps (Chosen serno) (resync com result) :=
  .bind chosen_detect fun _ => .pure _

theorem chosen_level (newLevel : UInt8) : Keeps (Chosen serno) (owLevel com newLevel) := by
  refine .bind (fun _ h => h) fun p => .ite (fun _ => .pure _) fun _ =>
    .bind (chosen_changeMode _ _) fun change => .ite (fun _ => .pure _) fun _ => ?_
  refine .bind ?_ fun rt => .bind ?_ fun _ => .bind (fun _ h => h) fun p => .pure _
  · refine .ite (fun _ => ?_) fun _ => ?_
    · refine .bind (chosen_transfer _ _) fun r => ?_
      cases r with
      | some r =>
        refine .ite (fun _ => ?_) fun _ => .pure _
        exact .bind (chosen_modify fun _ => rfl) fun _ => .pure _
      | none => exact .pure _
    · refine .bind (chosen_transfer _ _) fun r => ?_
      cases r with
      | some r =>
        refine .ite (fun _ => ?_) fun _ => .pure _
        exact .bind (chosen_modify fun _ => rfl) fun _ => .pure _
      | none => exact .pure _
  · exact .ite (fun _ => .pure _) fun _ => chosen_resync _

theorem chosen_touchReset : Keeps (Chosen serno) (owTouchReset com) := by
  refine .bind (chosen_level _) fun _ => .bind (chosen_changeMode _ _) fun change =>
    .bind (fun _ h => h) fun p => .bind (chosen_transfer _ _) fun r => ?_
  cases r with
  | some r =>
    refine .ite (fun _ => ?_) fun _ => chosen_resync _
    exact .bind (chosen_modify fun _ => rfl) fun _ => .pure _
  | none => exact chosen_resync _

theorem chosen_writeBytePower (sendbyte : Int) :
    Keeps (Chosen serno) (owWriteBytePower com sendbyte) := by
  refine .bind ?_ fun echo => ?_
  · refine .bind (chosen_changeMode _ _) fun change => .bind (fun _ h => h) fun p =>
      .bind (chosen_transfer _ _) fun r => ?_
    cases r with
    | some r =>
      refine .ite (fun _ => ?_) fun _ => .pure _
      exact .bind (chosen_modify fun _ => rfl) fun _ => .pure _
    | none => exact .pure _
  · cases echo with
    | some echo => exact .ite (fun _ => .pure _) fun _ => chosen_resync _
    | none => exact chosen_resync _

end

/-! ## Blocks behind an address -/

/-- The bytes that go out for a block. -/
def stuffed (block : List UInt8) : List UInt8 := block.flatMap (stuff modeCommand)

/-- What is on the line after a packet has gone out. -/
def written (sent : List UInt8) (t : List Traffic) : List Traffic :=
  .wrote sent sent.length :: .flush :: t

/-- What is on the line after the address of a device has come back. -/
def echoed (serno : Serno) (change : List UInt8) (t : List Traffic) : List Traffic :=
  .read (some (0x55 :: serno.toList)) :: written (change ++ stuffed (0x55 :: serno.toList)) t

/-- What this line may answer to a block that is sent to this device. -/
def Answer (com : Com) (serno : Serno) {k : ℕ} (tranBuf r : Vector UInt8 k) : Prop :=
  ∃ change t, com.readCOM (written (stuffed tranBuf.toList) (echoed serno change t)) k = some r

/-- A device has just been addressed. -/
structure Addressed (serno : Serno) (l : Line) : Prop where
  chosen : Chosen serno l
  mode : l.port.mode = .data
  echo : ∃ change t, l.traffic = echoed serno change t

/-- A short block fits, whatever is in it. -/
theorem fits_short {block : List UInt8} (h : block.length ≤ 127) : Fits block := by
  have hlength := length_stuff block
  rw [Fits]
  omega

section
variable {com : Com} {serno : Serno} {k : ℕ}

/-- The packet went out, and this came back. -/
theorem keeps_answer {P : Line → Prop} {sent : List UInt8} :
    KeepsTo P (transfer com sent k) fun answer l' => ∀ r, answer = some r → ∃ l, P l ∧
      com.readCOM (written sent l.traffic) k = some r ∧
        l' = { l with traffic := [.read (some r.toList)] ++ written sent l.traffic } := by
  intro l hl r h
  by_cases hcount : min (com.writeCOM (.flush :: l.traffic) sent) sent.length = sent.length
  · have hrun : transfer com sent k l =
        readCOM com k { l with traffic := written sent l.traffic } := by
      change (ite (decide (min (com.writeCOM (.flush :: l.traffic) sent) sent.length =
        sent.length) = true)
        (readCOM com k) (pure none : PortM _)) _ = _
      rw [if_pos (decide_eq_true hcount), hcount]
      rfl
    rw [hrun] at h ⊢
    have hread : com.readCOM (written sent l.traffic) k = some r := h
    refine ⟨l, hl, hread, ?_⟩
    change Line.mk l.port ([.read ((com.readCOM (written sent l.traffic) k).map (·.toList))] ++
      written sent l.traffic) = _
    rw [hread]
    rfl
  · change (ite (decide (min (com.writeCOM (.flush :: l.traffic) sent) sent.length =
      sent.length) = true) (readCOM com k) (pure none : PortM _) _).1 = some r at h
    rw [if_neg (by simpa using hcount)] at h
    cases h

/-- In data mode nothing comes before the data. -/
theorem keeps_toData {P : Line → Prop} : KeepsTo P dataMode fun change l' =>
    change.length ≤ 1 ∧ ∃ l, P l ∧ l' = { l with port := { l.port with mode := .data } } ∧
      (l.port.mode = .data → change = []) := by
  refine fun l hl => ⟨length_changeMode _ _ l, l, hl, ?_⟩
  by_cases hmode : l.port.mode = .data
  · have hrun : dataMode l = ([], l) := by
      change (ite (l.port.mode = .data) (pure [] : PortM (List UInt8)) _) l = _
      rw [if_pos hmode]
      rfl
    rw [hrun]
    exact ⟨by rw [← hmode], fun _ => rfl⟩
  · have hrun : dataMode l = ([modeData], { l with port := { l.port with mode := .data } }) := by
      change (ite (l.port.mode = .data) (pure [] : PortM (List UInt8)) _) l = _
      rw [if_neg hmode]
      rfl
    rw [hrun]
    exact ⟨rfl, fun h => absurd h hmode⟩

/-- The block went out, and this came back. -/
theorem keeps_answered {P : Line → Prop} {tranBuf : Vector UInt8 k} (hk : k ≤ 160)
    (hfits : Fits tranBuf.toList) :
    KeepsTo P (owBlock com false tranBuf) fun answer l' => ∀ r, answer = some r → ∃ l change, P l ∧
      (l.port.mode = .data → change = []) ∧
      com.readCOM (written (change ++ stuffed tranBuf.toList) l.traffic) k = some r ∧
      l' = { port := { l.port with mode := .data }
             traffic := [.read (some r.toList)] ++
              written (change ++ stuffed tranBuf.toList) l.traffic } := by
  refine .ite (fun h => absurd h (Nat.not_lt.mpr hk)) fun _ =>
    .ite (fun h => absurd h Bool.false_ne_true) fun _ => .bind keeps_toData fun change => ?_
  intro l' hl'
  obtain ⟨hlength, l, hl, rfl, hdata⟩ := hl'
  have hpacket : (blockPacket change tranBuf.toList).bytes = change ++ stuffed tranBuf.toList := by
    refine blockPacket_bytes ?_
    rw [Fits] at hfits
    omega
  rw [hpacket]
  refine keeps_answer.bind (P := fun l' => l' = { l with port := { l.port with mode := .data } })
    (S := fun answer l' => ∀ r, answer = some r → ∃ l change, P l ∧
      (l.port.mode = .data → change = []) ∧
      com.readCOM (written (change ++ stuffed tranBuf.toList) l.traffic) k = some r ∧
      l' = { port := { l.port with mode := .data }
             traffic := [.read (some r.toList)] ++
              written (change ++ stuffed tranBuf.toList) l.traffic }) (fun answer => ?_) _ rfl
  cases answer with
  | none =>
    intro l' _ r h
    exact absurd (show some r = none from h.symm) (Option.some_ne_none r)
  | some a =>
    refine .pure fun l' h r hr => ?_
    obtain rfl := Option.some.inj hr
    obtain ⟨_, rfl, hread, rfl⟩ := h a rfl
    exact ⟨l, change, hl, hdata, hread, rfl⟩

theorem chosen_block {doReset : Bool} (tranBuf : Vector UInt8 k) :
    Keeps (Chosen serno) (owBlock com doReset tranBuf) := by
  have hsend : Keeps (Chosen serno) (sendBlock com tranBuf) := by
    refine .bind (chosen_changeMode _ _) fun change => .bind (chosen_transfer _ _) fun r => ?_
    cases r with
    | some r => exact .pure _
    | none => exact chosen_resync _
  refine .ite (fun _ => .pure _) fun _ => .ite (fun _ => ?_) fun _ => hsend
  exact .bind chosen_touchReset fun ok => .ite (fun _ => hsend) fun _ => .pure _

/-- `owAccess_` addresses the device that was chosen. -/
theorem addressed_access : KeepsTo (Chosen serno) (owAccess com)
    fun ok l => Chosen serno l ∧ (ok = true → Addressed serno l) := by
  refine .bind chosen_touchReset fun ok => .ite (fun _ => ?_) fun _ =>
    .pure fun l h => ⟨h, fun h => absurd h Bool.false_ne_true⟩
  have hport : KeepsTo (Chosen serno) port fun p l => Chosen serno l ∧ p.serialNum = serno :=
    fun _ h => ⟨h, h⟩
  refine .bind hport fun p => .given fun hp => ?_
  have hbytes : ((#v[0x55] : Vector UInt8 1) ++ serno).toList = 0x55 :: serno.toList :=
    Vector.toList_append
  rw [hp]
  have hfits : Fits ((#v[0x55] : Vector UInt8 1) ++ serno).toList :=
    fits_short (by rw [Vector.length_toList]; decide)
  have hsent : KeepsTo (Chosen serno) (owBlock com false ((#v[0x55] : Vector UInt8 1) ++ serno))
      fun answer l' => Chosen serno l' ∧ ∀ r, answer = some r →
        l'.port.mode = .data ∧ ∃ change t, l'.traffic = [.read (some r.toList)] ++
          written (change ++ stuffed (0x55 :: serno.toList)) t := by
    refine fun l h => ⟨chosen_block _ l h, fun r hr => ?_⟩
    obtain ⟨l₁, change, -, -, -, hl⟩ := keeps_answered (by decide) hfits l h r hr
    rw [hl, ← hbytes]
    exact ⟨rfl, change, l₁.traffic, rfl⟩
  refine .bind hsent fun answer => ?_
  cases answer with
  | none => exact .pure fun l h => ⟨h.1, fun h => absurd h Bool.false_ne_true⟩
  | some r =>
    refine .pure fun l h => ⟨h.1, fun hok => ?_⟩
    obtain ⟨hchosen, h⟩ := h
    obtain ⟨hmode, change, t, ht⟩ := h r rfl
    obtain ⟨htail, hfirst⟩ := of_decide_eq_true hok
    have hecho : r.toList = 0x55 :: serno.toList := by
      have hlength : 0 < r.toList.length := by
        rw [Vector.length_toList]
        decide
      rw [readbuffer, List.getD_eq_getElem _ _ hlength] at hfirst
      rw [← hfirst, ← htail, List.getElem_cons_drop]
      rfl
    exact ⟨hchosen, hmode, change, t, by rw [ht, hecho]; rfl⟩

/-- A block behind the address gets an answer of that device. -/
theorem addressed_block {tranBuf : Vector UInt8 k} (hk : k ≤ 127) :
    KeepsTo (Addressed serno) (owBlock com false tranBuf)
      fun answer l => Chosen serno l ∧ ∀ r, answer = some r → Answer com serno tranBuf r := by
  have hfits : Fits tranBuf.toList := fits_short (by rwa [Vector.length_toList])
  refine fun l h => ⟨chosen_block _ l h.chosen, fun r hr => ?_⟩
  obtain ⟨l₁, change, h₁, hchange, hread, -⟩ :=
    keeps_answered (P := Addressed serno) (by omega) hfits l h r hr
  obtain ⟨change', t, ht⟩ := h₁.echo
  rw [hchange h₁.mode, ht] at hread
  exact ⟨change', t, hread⟩

end

/-- A line with one device: it echoes an address, has a presence pulse for a reset, does what bits
and pulses ask for, and answers one block. -/
def deviceLine (tranBuf answer : List UInt8) : Com where
  writeCOM _ sent := sent.length
  readCOM t n :=
    match t with
    | .wrote sent _ :: _ =>
      let last := sent.drop (sent.length - n)
      let response : List UInt8 :=
        if sent = stuffed tranBuf then answer
        else if n = 1 then [0xCD]
        else if n = 2 then [0xE0, 0xE0]
        else if last.take 1 = [0x55] then last
        else 0 :: (last.drop 1).map fun bit => if bit &&& bitpolOne = 0 then 0x90 else 0x93
      if h : response.length = n then some ⟨response.toArray, by simpa using h⟩ else none
    | _ => none

theorem answer_deviceLine {serno : Serno} {k : ℕ} {tranBuf r : Vector UInt8 k} {answer : List UInt8}
    (h : Answer (deviceLine tranBuf.toList answer) serno tranBuf r) : r.toList = answer := by
  obtain ⟨change, t, h⟩ := h
  have hresponse : ∀ (response : List UInt8) (r : Vector UInt8 k),
      (if h : response.length = k then some ⟨response.toArray, by simpa using h⟩ else none :
        Option (Vector UInt8 k)) = some r → r.toList = response := by
    intro response r h
    split at h
    · obtain rfl := Option.some.inj h
      rfl
    · cases h
  have hblock := hresponse _ _ h
  rwa [if_pos rfl] at hblock

end W1Retap.Bus.Ds2480

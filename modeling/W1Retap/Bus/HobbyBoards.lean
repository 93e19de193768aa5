import W1Retap.Bus.Wire
import Mathlib

/-!
# The Hobby Boards sensors

The humidity board and the ultraviolet board are read in the same way: select the device, send
one byte, and take what comes back. A read that fails leaves the caller's buffer as it is and
reports nothing.
-/
namespace W1Retap.Bus.HobbyBoards

open Programs

deriving instance DecidableEq for HbhtRes, Hbuv

/-! ## Pairs of bytes -/

/-- Two bytes as a 16 bit number in two's complement, the low one first. -/
def int16 (low high : UInt8) : Int := Int.bmod (low.toNat + 256 * high.toNat) 65536

/-- `(short)(t[0] | (t[1] << 8))` for bytes `t` that are unsigned. -/
def ofUchars (low high : UInt8) : Int :=
  ((low.toBitVec.setWidth 32 ||| high.toBitVec.setWidth 32 <<< 8).setWidth 16).toInt

/-- The same expression for plain `char`, which is signed. -/
def ofChars (low high : UInt8) : Int :=
  ((low.toBitVec.signExtend 32 ||| high.toBitVec.signExtend 32 <<< 8).setWidth 16).toInt

theorem ofUchars_eq (low high : UInt8) : ofUchars low high = int16 low high := by
  have hlow := low.toNat_lt
  have hhigh := high.toNat_lt
  have hor : low.toNat ||| high.toNat <<< 8 = low.toNat + 256 * high.toNat := by
    rw [Nat.or_comm, ← Nat.shiftLeft_add_eq_or_of_lt hlow, Nat.shiftLeft_eq]
    omega
  have hword : ((low.toBitVec.setWidth 32 ||| high.toBitVec.setWidth 32 <<< 8).setWidth 16).toNat =
      low.toNat + 256 * high.toNat := by
    simp only [BitVec.toNat_setWidth, BitVec.toNat_or, BitVec.toNat_shiftLeft, UInt8.toNat_toBitVec]
    rw [Nat.mod_eq_of_lt (show low.toNat < 2 ^ 32 by omega),
      Nat.mod_eq_of_lt (show high.toNat < 2 ^ 32 by omega),
      Nat.mod_eq_of_lt (show high.toNat <<< 8 < 2 ^ 32 by rw [Nat.shiftLeft_eq]; omega), hor]
    omega
  have hcast : ((low.toNat + 256 * high.toNat : ℕ) : Int) = low.toNat + 256 * high.toNat := by norm_cast
  exact (BitVec.toInt_eq_toNat_bmod _).trans (congrArg (Int.bmod · 65536) ((congrArg _ hword).trans hcast))

/-- A low byte with its sign bit set hides the high byte. -/
theorem ofChars_eq (low high : UInt8) :
    ofChars low high = int16 low (if low < 0x80 then high else 0xFF) := by
  have hsigned : ∀ b : BitVec 8, (b.signExtend 32).setWidth 16 =
      (b.setWidth 32).setWidth 16 ||| (if b < 0x80 then 0#16 else 0xFF00) := by decide +kernel
  have hshifted : ∀ b : BitVec 8, (b.signExtend 32 <<< 8).setWidth 16 =
      (b.setWidth 32 <<< 8).setWidth 16 := by decide +kernel
  have hhidden : ∀ b : BitVec 8, (0xFF00 : BitVec 16) ||| (b.setWidth 32 <<< 8).setWidth 16 =
      ((0xFF : BitVec 8).setWidth 32 <<< 8).setWidth 16 := by decide +kernel
  have hword : (low.toBitVec.signExtend 32 ||| high.toBitVec.signExtend 32 <<< 8).setWidth 16 =
      (low.toBitVec.setWidth 32 |||
        (if low < 0x80 then high else 0xFF).toBitVec.setWidth 32 <<< 8).setWidth 16 := by
    rw [BitVec.setWidth_or, BitVec.setWidth_or, hsigned, hshifted]
    have hiff : low.toBitVec < 0x80 ↔ low < 0x80 := UInt8.lt_iff_toBitVec_lt.symm
    by_cases hlow : low < 0x80
    · rw [if_pos hlow, if_pos (hiff.mpr hlow), BitVec.or_zero]
    · rw [if_neg hlow, if_neg (mt hiff.mp hlow), BitVec.or_assoc, hhidden]
      rfl
  rw [← ofUchars_eq, ofChars, ofUchars, hword]

/-- The high byte counts. -/
theorem int16_high_inj {low high high' : UInt8} (h : int16 low high = int16 low high') :
    high = high' := by
  have hmod : ∀ b : UInt8, (int16 low b) % 65536 = low.toNat + 256 * b.toNat := by
    intro b
    have hlow := low.toNat_lt
    have hb := b.toNat_lt
    have hbmod := Int.bmod_emod (x := (low.toNat + 256 * b.toNat : Int)) (m := 65536)
    unfold int16
    omega
  have heq := (hmod high).symm.trans ((congrArg (· % 65536) h).trans (hmod high'))
  apply UInt8.toNat_inj.mp
  omega

theorem ofChars_eq_iff (low high : UInt8) :
    ofChars low high = int16 low high ↔ low < 0x80 ∨ high = 0xFF := by
  rw [ofChars_eq]
  by_cases hlow : low < 0x80
  · rw [if_pos hlow]
    exact iff_of_true rfl (Or.inl hlow)
  · rw [if_neg hlow]
    constructor
    · intro h
      exact Or.inr (int16_high_inj h).symm
    · intro h
      rw [h.resolve_left hlow]

/-! ## The transfers -/

def readTemperature : UInt8 := 0x21
def readUvi : UInt8 := 0x24
def getTemperatureC : UInt8 := 0x40
def getCorrHumid : UInt8 := 0x21

/-- The block that asks for `k` bytes. -/
def request (act : UInt8) (k : ℕ) : Vector UInt8 (1 + k) :=
  (#v[act] : Vector UInt8 1) ++ Vector.replicate k (0xFF : UInt8)

/-- The bytes of the answer. -/
def bytes {k : ℕ} (block : Vector UInt8 (1 + k)) : Vector UInt8 k :=
  Vector.ofFn fun i => block.get ⟨1 + i, by omega⟩

/-- `t[0]` and `t[1]` of a buffer of two bytes. -/
def byte0 (t : Vector UInt8 2) : UInt8 := t.get ⟨0, Nat.two_pos⟩

def byte1 (t : Vector UInt8 2) : UInt8 := t.get (Fin.last 1)

theorem byte0_bytes (block : Vector UInt8 3) : byte0 (bytes (k := 2) block) = block[1] := by
  rw [byte0, Vector.get_eq_getElem]
  exact Vector.getElem_ofFn _

theorem byte1_bytes (block : Vector UInt8 3) : byte1 (bytes (k := 2) block) = block[2] := by
  rw [byte1, Vector.get_eq_getElem]
  exact Vector.getElem_ofFn _

section
variable (wire : Wire)

/-- The functions that read into the buffer `val`, which keeps its bytes where the access or the
transfer fails. -/
def getBytes (access : Talk Bool) (act : UInt8) {k : ℕ} (val : Vector UInt8 k) :
    Talk (Vector UInt8 k) := do
  if ← access then
    match ← owBlock wire (request act k) with
    | some block => return bytes block
    | none => return val
  else return val

/-- `HBHT_access` -/
def hbhtAccess (serno : Serno) : Talk Bool := do
  let _ ← owTouchReset wire
  msDelay 100
  owSerialNum serno
  owAccess wire

/-- `HBHT_get_bytes` -/
def hbhtGetBytes (serno : Serno) (act : UInt8) {k : ℕ} (val : Vector UInt8 k) : Talk (Vector UInt8 k) :=
  getBytes wire (hbhtAccess wire serno) act val

def hbuvAccess (serno : Serno) : Talk Bool := do
  owSerialNum serno
  owAccess wire

/-- `HBUV_get_bytes` -/
def hbuvGetBytes (serno : Serno) (act : UInt8) {k : ℕ} (val : Vector UInt8 k) : Talk (Vector UInt8 k) :=
  getBytes wire (hbuvAccess wire serno) act val

/-- `HBUV_get_byteval` -/
def hbuvGetByteval (serno : Serno) (act : UInt8) (val : UInt8) : Talk UInt8 := do
  return (← getBytes wire (hbuvAccess wire serno) act #v[val])[0]

/-- `HBHT_read_data`, which always returns 1. -/
def hbhtReadData (serno : Serno) : Talk (Option HbhtRes) := do
  let tchar : Vector UInt8 2 := #v[0, 0]
  let tchar ← hbhtGetBytes wire serno getTemperatureC tchar
  let temp : ℚ := ofUchars (byte0 tchar) (byte1 tchar) / 10
  let tchar ← hbhtGetBytes wire serno getCorrHumid tchar
  return some { temp, humid := ofUchars (byte0 tchar) (byte1 tchar) / 100 }

/-- The index, read again if all of its bits are set. -/
def readIndex (serno : Serno) : Talk UInt8 := do
  let uvi ← hbuvGetByteval wire serno readUvi 0
  if uvi = 0xFF then hbuvGetByteval wire serno readUvi uvi else return uvi

/-- `HBUV_read_data`; `tchar` is what its uninitialised buffer holds. -/
def hbuvReadData (serno : Serno) (tchar : Vector UInt8 2) : Talk (Option Hbuv) := do
  let uvi ← readIndex wire serno
  if uvi ≠ 0xFF then
    let tchar ← hbuvGetBytes wire serno readTemperature tchar
    return some { rawTemp := ofChars (byte0 tchar) (byte1 tchar), rawUvi := uvi.toNat }
  else return none

end

/-! ## What a transfer does on the bus -/

/-- A transfer: the device is accessed, and the block is sent if that has worked. -/
inductive Transfer (accessed : Bool → List Exchange → Prop) (act : UInt8) {k : ℕ} (val : Vector UInt8 k) :
    Vector UInt8 k → List Exchange → Prop
  | noAccess {new : List Exchange} : accessed false new → Transfer accessed act val val new
  | noAnswer {new : List Exchange} : accessed true new →
      Transfer accessed act val val (.block (request act k).toList none :: new)
  | answer {new : List Exchange} (block : Vector UInt8 (1 + k)) : accessed true new →
      Transfer accessed act val (bytes block) (.block (request act k).toList (some block.toList) :: new)

def HbhtAccessed (serno : Serno) (ok : Bool) (new : List Exchange) : Prop :=
  ∃ present, new = [.access ok, .select serno, .delay 100, .reset present]

def HbuvAccessed (serno : Serno) (ok : Bool) (new : List Exchange) : Prop :=
  new = [.access ok, .select serno]

section
variable {wire : Wire} {serno : Serno}

theorem adds_getBytes {access : Talk Bool} {accessed : Bool → List Exchange → Prop}
    (haccess : Adds access accessed) (act : UInt8) {k : ℕ} (val : Vector UInt8 k) :
    Adds (getBytes wire access act val) (Transfer accessed act val) := by
  refine .bind haccess fun ok new hnew => ?_
  cases ok with
  | false => exact .pure (.noAccess hnew)
  | true =>
    refine .bind (.ask (Q := fun answer new =>
      new = [.block (request act k).toList (answer.map (·.toList))]) fun _ => rfl) fun a new' hnew' => ?_
    subst hnew'
    cases a with
    | none => exact .pure (.noAnswer hnew)
    | some block => exact .pure (.answer block hnew)

theorem adds_hbhtAccess : Adds (hbhtAccess wire serno) (HbhtAccessed serno) := by
  refine .bind (.ask (Q := fun present new => new = [.reset present]) fun _ => rfl) fun present new hnew => ?_
  refine .bind (.ask (Q := fun _ new => new = [.delay 100]) fun _ => rfl) fun _ new' hnew' => ?_
  refine .bind (.ask (Q := fun _ new => new = [.select serno]) fun _ => rfl) fun _ new'' hnew'' => ?_
  subst hnew hnew' hnew''
  exact .ask fun ok => ⟨present, rfl⟩

theorem adds_hbuvAccess : Adds (hbuvAccess wire serno) (HbuvAccessed serno) := by
  refine .bind (.ask (Q := fun _ new => new = [.select serno]) fun _ => rfl) fun _ new hnew => ?_
  subst hnew
  exact .ask fun ok => rfl

/-- A transfer without a failure has delivered. -/
theorem Transfer.answered {accessed : Bool → List Exchange → Prop} {act : UInt8} {k : ℕ}
    {val res : Vector UInt8 k} {new : List Exchange} (h : Transfer accessed act val res new)
    (hfails : ∀ new, accessed false new → .access false ∈ new) (hok : ∀ e ∈ new, e.ok = true) :
    ∃ block rest, accessed true rest ∧ res = bytes block ∧
      new = .block (request act k).toList (some block.toList) :: rest := by
  cases h with
  | noAccess haccess => exact nomatch hok _ (hfails _ haccess)
  | noAnswer _ => exact nomatch hok _ List.mem_cons_self
  | answer block haccess => exact ⟨block, _, haccess, rfl, rfl⟩

end

/-! ## The humidity board -/

/-- The exchanges of a transfer that has worked. -/
def hbhtTransfer (serno : Serno) (present : Bool) (act : UInt8) (block : Vector UInt8 3) : List Exchange :=
  [.block (request act 2).toList (some block.toList), .access true, .select serno, .delay 100, .reset present]

/-- Both transfers have worked, and each value is that of its own. -/
def HbhtReported (serno : Serno) (res : HbhtRes) (new : List Exchange) : Prop :=
  ∃ (present present' : Bool) (temp humid : Vector UInt8 3),
    new = hbhtTransfer serno present' getCorrHumid humid ++ hbhtTransfer serno present getTemperatureC temp ∧
    res = { temp := int16 temp[1] temp[2] / 10, humid := int16 humid[1] humid[2] / 100 }

/-- What a call does, with the bytes of its buffer after each transfer. -/
structure HbhtCall (serno : Serno) (res : Option HbhtRes) (new : List Exchange) : Prop where
  parts : ∃ (temp humid : Vector UInt8 2) (first second : List Exchange),
    Transfer (HbhtAccessed serno) getTemperatureC #v[0, 0] temp first ∧
    Transfer (HbhtAccessed serno) getCorrHumid temp humid second ∧ new = second ++ first ∧
    res = some { temp := int16 (byte0 temp) (byte1 temp) / 10, humid := int16 (byte0 humid) (byte1 humid) / 100 }

section
variable {wire : Wire} {serno : Serno}

theorem adds_hbhtReadData : Adds (hbhtReadData wire serno) (HbhtCall serno) := by
  refine .bind (adds_getBytes adds_hbhtAccess _ _) fun temp first hfirst => ?_
  refine .bind (adds_getBytes adds_hbhtAccess _ _) fun humid second hsecond => ?_
  refine .pure ⟨temp, humid, first, second, hfirst, hsecond, rfl, ?_⟩
  rw [ofUchars_eq, ofUchars_eq]

theorem HbhtCall.reported {res : HbhtRes} {new : List Exchange} (h : HbhtCall serno (some res) new)
    (hok : ∀ e ∈ new, e.ok = true) : HbhtReported serno res new := by
  obtain ⟨temp, humid, first, second, hfirst, hsecond, rfl, hres⟩ := h.parts
  have hfails : ∀ new, HbhtAccessed serno false new → .access false ∈ new := by
    rintro new ⟨present, rfl⟩
    exact List.mem_cons_self
  obtain ⟨block, rest, ⟨present, rfl⟩, rfl, rfl⟩ :=
    hfirst.answered hfails fun e he => hok e (List.mem_append_right _ he)
  obtain ⟨block', rest', ⟨present', rfl⟩, rfl, rfl⟩ :=
    hsecond.answered hfails fun e he => hok e (List.mem_append_left _ he)
  refine ⟨present, present', block, block', rfl, (Option.some.inj hres).trans ?_⟩
  simp [byte0_bytes, byte1_bytes]

theorem HbhtReported.ok {res : HbhtRes} {new : List Exchange} (h : HbhtReported serno res new) :
    ∀ e ∈ new, e.ok = true := by
  obtain ⟨present, present', temp, humid, rfl, -⟩ := h
  simp [hbhtTransfer, Exchange.ok]

end

/-! ## The ultraviolet board -/

def hbuvTransfer (serno : Serno) (act : UInt8) (k : ℕ) (block : Vector UInt8 (1 + k)) : List Exchange :=
  [.block (request act k).toList (some block.toList), .access true, .select serno]

/-- The transfers that decide about the index: it is read again if all of its bits are set. -/
def UviRead (serno : Serno) (uvi : Vector UInt8 2) (new : List Exchange) : Prop :=
  new = hbuvTransfer serno readUvi 1 uvi ∨ ∃ first : Vector UInt8 2, byte1 first = 0xFF ∧
    new = hbuvTransfer serno readUvi 1 uvi ++ hbuvTransfer serno readUvi 1 first

/-- All transfers have worked, and the temperature is `decode` of the two bytes of its own. -/
def HbuvDecoded (decode : UInt8 → UInt8 → Int) (serno : Serno) (hb : Hbuv) (new : List Exchange) : Prop :=
  ∃ (uvi : Vector UInt8 2) (temp : Vector UInt8 3) (read : List Exchange),
    new = hbuvTransfer serno readTemperature 2 temp ++ read ∧ UviRead serno uvi read ∧
    hb = { rawTemp := decode temp[1] temp[2], rawUvi := (byte1 uvi).toNat }

abbrev HbuvReported : Serno → Hbuv → List Exchange → Prop := HbuvDecoded int16

/-- No temperature with the sign bit of its low byte set, unless the high byte is all ones. -/
def LowBytes (new : List Exchange) : Prop :=
  ∀ block : Vector UInt8 3, .block (request readTemperature 2).toList (some block.toList) ∈ new →
    block[1] < 0x80 ∨ block[2] = 0xFF

section
variable {wire : Wire} {serno : Serno}

theorem adds_hbuvGetByteval (act val : UInt8) : Adds (hbuvGetByteval wire serno act val) fun v new =>
    ∃ vs : Vector UInt8 1, v = vs[0] ∧ Transfer (HbuvAccessed serno) act #v[val] vs new :=
  .bind (adds_getBytes adds_hbuvAccess act #v[val]) fun vs _ h => .pure ⟨vs, rfl, h⟩

/-- The reads of the index. -/
def IndexCall (serno : Serno) (index : UInt8) (new : List Exchange) : Prop :=
  ∃ (uvi uvi' : Vector UInt8 1) (first second : List Exchange),
    Transfer (HbuvAccessed serno) readUvi #v[0] uvi first ∧
    (uvi[0] = 0xFF ∧ Transfer (HbuvAccessed serno) readUvi #v[uvi[0]] uvi' second ∨
      uvi' = uvi ∧ second = []) ∧ new = second ++ first ∧ index = uvi'[0]

theorem adds_readIndex : Adds (readIndex wire serno) (IndexCall serno) := by
  refine .bind (adds_hbuvGetByteval _ _) fun v first hfirst => ?_
  obtain ⟨uvi, rfl, hfirst⟩ := hfirst
  apply Adds.ite
  · intro hff
    refine (adds_hbuvGetByteval _ _).conseq fun v second hv => ?_
    obtain ⟨uvi', rfl, hsecond⟩ := hv
    exact ⟨uvi, uvi', first, second, hfirst, Or.inl ⟨hff, hsecond⟩, rfl, rfl⟩
  · intro _
    exact .pure ⟨uvi, uvi, first, [], hfirst, Or.inr ⟨rfl, rfl⟩, rfl, rfl⟩

/-- What a call does that reports. -/
def HbuvCall (serno : Serno) (tchar : Vector UInt8 2) (hb : Hbuv) (new : List Exchange) : Prop :=
  ∃ (index : UInt8) (temp : Vector UInt8 2) (read last : List Exchange), IndexCall serno index read ∧
    Transfer (HbuvAccessed serno) readTemperature tchar temp last ∧ new = last ++ read ∧
    hb = { rawTemp := ofChars (byte0 temp) (byte1 temp), rawUvi := index.toNat }

theorem adds_hbuvReadData (tchar : Vector UInt8 2) :
    Adds (hbuvReadData wire serno tchar) fun r new => ∀ hb, r = some hb → HbuvCall serno tchar hb new := by
  refine .bind adds_readIndex fun index read hread => .ite (fun _ => ?_) fun _ => .pure fun hb h => nomatch h
  refine .bind (adds_getBytes adds_hbuvAccess _ _) fun temp last hlast => .pure fun hb h => ?_
  exact ⟨index, temp, read, last, hread, hlast, rfl, (Option.some.inj h).symm⟩

theorem HbuvAccessed.fails (new : List Exchange) (h : HbuvAccessed serno false new) :
    .access false ∈ new := by
  rw [h]
  exact List.mem_cons_self

/-- Without a failure the index is that of the last transfer. -/
theorem IndexCall.read {index : UInt8} {new : List Exchange} (h : IndexCall serno index new)
    (hok : ∀ e ∈ new, e.ok = true) : ∃ uvi : Vector UInt8 2, UviRead serno uvi new ∧ index = byte1 uvi := by
  obtain ⟨uvi, uvi', first, second, hfirst, hsecond, rfl, rfl⟩ := h
  obtain ⟨block, rest, rfl, rfl, rfl⟩ :=
    hfirst.answered HbuvAccessed.fails fun e he => hok e (List.mem_append_right _ he)
  rcases hsecond with ⟨hff, hsecond⟩ | ⟨rfl, rfl⟩
  · obtain ⟨block', rest', rfl, rfl, rfl⟩ :=
      hsecond.answered HbuvAccessed.fails fun e he => hok e (List.mem_append_left _ he)
    refine ⟨block', Or.inr ⟨block, ?_, rfl⟩, ?_⟩
    · simpa [byte1, bytes, Vector.get] using hff
    · simp [byte1, bytes, Vector.get]
  · refine ⟨block, Or.inl rfl, ?_⟩
    simp [byte1, bytes, Vector.get]

/-- What is reported without a failure, as the source decodes it. -/
theorem HbuvCall.decoded {tchar : Vector UInt8 2} {hb : Hbuv} {new : List Exchange}
    (h : HbuvCall serno tchar hb new) (hok : ∀ e ∈ new, e.ok = true) : HbuvDecoded ofChars serno hb new := by
  obtain ⟨index, temp, read, last, hread, hlast, rfl, rfl⟩ := h
  obtain ⟨uvi, huvi, rfl⟩ := hread.read fun e he => hok e (List.mem_append_right _ he)
  obtain ⟨block, rest, rfl, rfl, rfl⟩ :=
    hlast.answered HbuvAccessed.fails fun e he => hok e (List.mem_append_left _ he)
  refine ⟨uvi, block, read, rfl, huvi, ?_⟩
  simp [byte0_bytes, byte1_bytes]

theorem UviRead.ok {uvi : Vector UInt8 2} {new : List Exchange} (h : UviRead serno uvi new) :
    ∀ e ∈ new, e.ok = true := by
  rcases h with rfl | ⟨first, -, rfl⟩
  · simp [hbuvTransfer, Exchange.ok]
  · simp [hbuvTransfer, Exchange.ok]

/-- A transfer of the index is none of the temperature. -/
theorem UviRead.no_temperature {uvi : Vector UInt8 2} {new : List Exchange} (h : UviRead serno uvi new)
    (answer : Option (List UInt8)) : .block (request readTemperature 2).toList answer ∉ new := by
  have hne : (request readTemperature 2).toList ≠ (request readUvi 1).toList := by decide +kernel
  rcases h with rfl | ⟨first, -, rfl⟩
  · simp [hbuvTransfer, hne]
  · simp [hbuvTransfer, hne]

theorem HbuvDecoded.ok {decode : UInt8 → UInt8 → Int} {hb : Hbuv} {new : List Exchange}
    (h : HbuvDecoded decode serno hb new) : ∀ e ∈ new, e.ok = true := by
  obtain ⟨uvi, temp, read, rfl, hread, -⟩ := h
  intro e he
  rcases List.mem_append.mp he with he | he
  · simp only [hbuvTransfer, List.mem_cons, List.not_mem_nil, or_false] at he
    rcases he with rfl | rfl | rfl <;> rfl
  · exact hread.ok e he

theorem HbuvDecoded.temperature {decode : UInt8 → UInt8 → Int} {hb : Hbuv} {new : List Exchange}
    (h : HbuvDecoded decode serno hb new) : ∃ temp : Vector UInt8 3, hb.rawTemp = decode temp[1] temp[2] ∧
      ∀ block : Vector UInt8 3,
        .block (request readTemperature 2).toList (some block.toList) ∈ new ↔ block = temp := by
  obtain ⟨uvi, temp, read, rfl, hread, rfl⟩ := h
  refine ⟨temp, rfl, fun block => ?_⟩
  have hnot := hread.no_temperature (some block.toList)
  simp [hbuvTransfer, hnot, Vector.toList_inj]

/-- The two ways to decode agree on low bytes. -/
theorem HbuvDecoded.reported_iff {hb : Hbuv} {new : List Exchange} (h : HbuvDecoded ofChars serno hb new) :
    HbuvReported serno hb new ↔ LowBytes new := by
  obtain ⟨temp, hraw, hmem⟩ := h.temperature
  have hlow : LowBytes new ↔ temp[1] < 0x80 ∨ temp[2] = 0xFF := by
    constructor
    · intro hlow
      exact hlow temp ((hmem temp).mpr rfl)
    · rintro hlow block hblock
      obtain rfl := (hmem block).mp hblock
      exact hlow
  rw [hlow, ← ofChars_eq_iff]
  constructor
  · intro hreported
    obtain ⟨temp', hraw', hmem'⟩ := hreported.temperature
    obtain rfl := (hmem' temp).mp ((hmem temp).mpr rfl)
    exact hraw.symm.trans hraw'
  · intro hdecode
    obtain ⟨uvi, temp', read, rfl, hread, rfl⟩ := h
    obtain rfl := (hmem temp').mp List.mem_cons_self
    exact ⟨uvi, temp', read, rfl, hread, by rw [hdecode]⟩

end

/-- A call that returns non-zero has worked in all its parts, and has decoded what they
delivered, exactly when no access and no transfer in it has failed and, for the ultraviolet
board, the low byte of the temperature does not hide the high one. -/
theorem hobbyBoards_report_iff (wire : Wire) (serno : Serno) (h new : List Exchange) :
    (∀ res, (hbhtReadData wire serno).run h = .ok (some res, new ++ h) →
      (HbhtReported serno res new ↔ ∀ e ∈ new, e.ok = true)) ∧
    ∀ tchar hb, (hbuvReadData wire serno tchar).run h = .ok (some hb, new ++ h) →
      (HbuvReported serno hb new ↔ (∀ e ∈ new, e.ok = true) ∧ LowBytes new) := by
  constructor
  · intro res hrun
    obtain ⟨new', heq, hcall⟩ := adds_hbhtReadData h (some res) _ hrun
    obtain rfl := List.append_cancel_right heq
    exact ⟨HbhtReported.ok, hcall.reported⟩
  · intro tchar hb hrun
    obtain ⟨new', heq, hcall⟩ := adds_hbuvReadData tchar h (some hb) _ hrun
    obtain rfl := List.append_cancel_right heq
    constructor
    · intro hreported
      have hok := hreported.ok
      exact ⟨hok, ((hcall hb rfl).decoded hok).reported_iff.mp hreported⟩
    · rintro ⟨hok, hlow⟩
      exact ((hcall hb rfl).decoded hok).reported_iff.mpr hlow

/-- A board that answers with these two bytes, on a bus where accesses work or do not. -/
def boardWire (works : Bool) (low high : UInt8) : Wire where
  owTouchReset := fun _ => works
  owAccess := fun _ => works
  owTouchByte := fun _ sent => sent
  owBlock := fun _ block => some (block.mapIdx fun i b => if i = 1 then low else if i = 2 then high else b)

def boardSerno : Serno := #v[0xEE, 0x01, 0x02, 0x03, 0x00, 0x00, 0x00, 0x21]

/-- What a call to the humidity board exchanges where everything works. -/
def hbhtCall (low high : UInt8) : List Exchange :=
  hbhtTransfer boardSerno true getCorrHumid #v[getCorrHumid, low, high] ++
    hbhtTransfer boardSerno true getTemperatureC #v[getTemperatureC, low, high]

def hbuvCall (low high : UInt8) : List Exchange :=
  hbuvTransfer boardSerno readTemperature 2 #v[readTemperature, low, high] ++
    hbuvTransfer boardSerno readUvi 1 #v[readUvi, low]

/-- What a call to the humidity board exchanges where no access works. -/
def hbhtFailed : List Exchange :=
  [.access false, .select boardSerno, .delay 100, .reset false,
    .access false, .select boardSerno, .delay 100, .reset false]

/-- Boards that answer with `2A 01`. -/
theorem hobbyBoards_report_works :
    HbhtReported boardSerno { temp := 298 / 10, humid := 298 / 100 } (hbhtCall 0x2A 0x01) ∧
      HbuvReported boardSerno { rawTemp := 298, rawUvi := 42 } (hbuvCall 0x2A 0x01) := by
  constructor
  · refine ((hobbyBoards_report_iff (boardWire true 0x2A 0x01) boardSerno [] (hbhtCall 0x2A 0x01)).1 _ ?_).mpr ?_
    · decide +kernel
    · decide
  · refine ((hobbyBoards_report_iff (boardWire true 0x2A 0x01) boardSerno [] (hbuvCall 0x2A 0x01)).2
      #v[0, 0] _ ?_).mpr ⟨?_, ?_⟩
    · decide +kernel
    · decide
    · intro block hblock
      simp only [hbuvCall, hbuvTransfer, List.cons_append, List.nil_append, List.mem_cons, List.not_mem_nil,
        Exchange.block.injEq, Option.some.injEq, reduceCtorEq, or_false, false_or, Vector.toList_inj] at hblock
      rcases hblock with ⟨-, rfl⟩ | ⟨hreq, -⟩
      · exact Or.inl (by decide)
      · exact absurd hreq (by decide +kernel)

/-- A humidity board that cannot be accessed is reported at 0 degrees, and an ultraviolet
board that answers with `96 00` at -53 degrees. -/
theorem hobbyBoards_misreport :
    ((hbhtReadData (boardWire false 0 0) boardSerno).run [] =
        .ok (some { temp := 0, humid := 0 }, hbhtFailed ++ []) ∧
      ¬ HbhtReported boardSerno { temp := 0, humid := 0 } hbhtFailed) ∧
    (hbuvReadData (boardWire true 0x96 0x00) boardSerno #v[0, 0]).run [] =
        .ok (some { rawTemp := -106, rawUvi := 150 }, hbuvCall 0x96 0x00 ++ []) ∧
      ¬ HbuvReported boardSerno { rawTemp := -106, rawUvi := 150 } (hbuvCall 0x96 0x00) := by
  refine ⟨⟨by decide +kernel, ?_⟩, by decide +kernel, ?_⟩
  · intro hreported
    exact absurd (hreported.ok (.access false) List.mem_cons_self) (by decide)
  · intro hreported
    obtain ⟨temp, hraw, hmem⟩ := hreported.temperature
    obtain rfl : #v[readTemperature, 0x96, 0x00] = temp := (hmem _).mp List.mem_cons_self
    exact absurd hraw (by decide)

end W1Retap.Bus.HobbyBoards

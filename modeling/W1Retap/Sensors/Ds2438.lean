import W1Retap.Sensors.Readers

/-!
# The temperature of a DS2438

`Get_Temperature` of the 1-wire library, over the calls it makes on the bus. It answers with
a number on every path: -1 when the page is not read, 0 when a command is not written, and
also what the page holds when the conversion was never started. `transaction` makes the same
calls and has an answer only for a measurement.
-/
namespace W1Retap.Ds2438

/-- The calls on the bus. `none` is a block that was not exchanged. -/
structure Wire (σ : Type) where
  owSerialNum : Serno → StateM σ Unit
  owAccess : StateM σ Bool
  owWriteByte : UInt8 → StateM σ Bool
  msDelay : ℕ → StateM σ Unit
  owBlock : {k : ℕ} → Vector UInt8 k → StateM σ (Option (Vector UInt8 k))

set_option maxRecDepth 4000 in
def dscrcTable : Vector UInt8 256 :=
  #v[
      0, 94, 188, 226, 97, 63, 221, 131, 194, 156, 126, 32, 163, 253, 31, 65,
      157, 195, 33, 127, 252, 162, 64, 30, 95, 1, 227, 189, 62, 96, 130, 220,
      35, 125, 159, 193, 66, 28, 254, 160, 225, 191, 93, 3, 128, 222, 60, 98,
      190, 224, 2, 92, 223, 129, 99, 61, 124, 34, 192, 158, 29, 67, 161, 255,
      70, 24, 250, 164, 39, 121, 155, 197, 132, 218, 56, 102, 229, 187, 89, 7,
      219, 133, 103, 57, 186, 228, 6, 88, 25, 71, 165, 251, 120, 38, 196, 154,
      101, 59, 217, 135, 4, 90, 184, 230, 167, 249, 27, 69, 198, 152, 122, 36,
      248, 166, 68, 26, 153, 199, 37, 123, 58, 100, 134, 216, 91, 5, 231, 185,
      140, 210, 48, 110, 237, 179, 81, 15, 78, 16, 242, 172, 47, 113, 147, 205,
      17, 79, 173, 243, 112, 46, 204, 146, 211, 141, 111, 49, 178, 236, 14, 80,
      175, 241, 19, 77, 206, 144, 114, 44, 109, 51, 209, 143, 12, 82, 176, 238,
      50, 108, 142, 208, 83, 13, 239, 177, 240, 174, 76, 18, 145, 207, 45, 115,
      202, 148, 118, 40, 171, 245, 23, 73, 8, 86, 180, 234, 105, 55, 213, 139,
      87, 9, 235, 181, 54, 104, 138, 212, 149, 203, 41, 119, 244, 170, 72, 22,
      233, 183, 85, 11, 136, 214, 52, 106, 43, 117, 151, 201, 74, 20, 246, 168,
      116, 42, 200, 150, 21, 75, 169, 247, 182, 232, 10, 84, 215, 137, 107, 53]

/-- `docrc8` over a block, from `setcrc8 (0)`. -/
def crc8 (block : List UInt8) : UInt8 :=
  block.foldl (fun crc x => dscrcTable.get ⟨(crc ^^^ x).toNat, (crc ^^^ x).toNat_lt⟩) 0

/-- The temperature registers of a page that was read; the sign is bit 12. -/
def decode (block : Vector UInt8 11) : ℚ :=
  let itemp := Int16.ofNat (((block[4].toNat <<< 8) ||| block[3].toNat) >>> 3)
  let itemp := if itemp &&& 0x1000 ≠ 0 then itemp ||| ~~~0xFFF else itemp
  itemp.toInt * 0.03125

section
variable {σ : Type} (wire : Wire σ)

/-- The convert command: whether it was written, or `none` if that failed. -/
def convert : StateM σ (Option Bool) := do
  if ← wire.owAccess then
    if ← wire.owWriteByte 0x44 then return some true else return none
  else
    return some false

/-- The recall of page 0; a device that does not answer is no failure. -/
def recallPage : StateM σ Bool := do
  if ← wire.owAccess then
    return (← wire.owBlock #v[0xB8, 0x00]).isSome
  else
    return true

/-- Reading page 0, with its check. -/
def readPage : StateM σ (Option ℚ) := do
  if ← wire.owAccess then
    match ← wire.owBlock #v[0xBE, 0x00, 0xFF, 0xFF, 0xFF, 0xFF, 0xFF, 0xFF, 0xFF, 0xFF, 0xFF] with
    | some block =>
      if crc8 (block.toList.drop 2) = 0 then return some (decode block) else return none
    | none => return none
  else
    return none

/-- `Get_Temperature` -/
def getTemperature (serno : Serno) : StateM σ ℚ := do
  wire.owSerialNum serno
  match ← convert wire with
  | none => return 0
  | some _ =>
    wire.msDelay 10
    if ← recallPage wire then return (← readPage wire).getD (-1) else return 0

/-- The measurement: the command was written, the page read, and its check was good. -/
def transaction (serno : Serno) : StateM σ (Option ℚ) := do
  wire.owSerialNum serno
  match ← convert wire with
  | some true =>
    wire.msDelay 10
    if ← recallPage wire then readPage wire else return none
  | _ => return none

variable {wire}

theorem run_bind {α β : Type} (m : StateM σ α) (f : α → StateM σ β) (b : σ) :
    (m >>= f).run b = (f (m.run b).1).run (m.run b).2 := rfl

/-- What was measured is what `Get_Temperature` answers. -/
theorem getTemperature_of_transaction {serno : Serno} {b : σ} {t : ℚ}
    (h : ((transaction wire serno).run b).1 = some t) :
    ((getTemperature wire serno).run b).1 = t := by
  rw [transaction, run_bind, run_bind] at h
  rw [getTemperature, run_bind, run_bind]
  match ((convert wire).run ((wire.owSerialNum serno).run b).2).1, h with
  | some true, h =>
    rw [run_bind, run_bind] at h ⊢
    split at h
    · rename_i hrecall
      rw [if_pos hrecall, run_bind, h]
      rfl
    · exact nomatch h
  | some false, h => exact nomatch h
  | none, h => exact nomatch h

end
end W1Retap.Ds2438

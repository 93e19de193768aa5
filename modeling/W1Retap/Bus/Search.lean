import W1Retap.Bus.Callers
import W1Retap.Support.BitSearch

/-!
# What a search finds

The devices on the net answer a search together, with one pair of bits for each position. With an
adapter that passes this on, `owNext_` delivers the devices one after the other, in the order of
their serial numbers: each call takes the next one off a list that is fixed when the search is
set up.
-/
namespace W1Retap.Bus.Ds2480

open Programs BitSearch

/-! ## Serial numbers -/

theorem toNat_ext {b c : UInt8} (h : ∀ i < 8, b.toNat.testBit i = c.toNat.testBit i) : b = c := by
  refine UInt8.toNat_inj.mp (Nat.eq_of_testBit_eq fun i => ?_)
  by_cases hi : i < 8
  · exact h i hi
  · have hle : 2 ^ 8 ≤ 2 ^ i := Nat.pow_le_pow_right (by decide) (Nat.not_lt.mp hi)
    rw [Nat.testBit_lt_two_pow (lt_of_lt_of_le b.toNat_lt hle),
      Nat.testBit_lt_two_pow (lt_of_lt_of_le c.toNat_lt hle)]

/-- Bytes that agree bit by bit. -/
theorem getD_of_same {k n : ℕ} {u v : Vector UInt8 k} (h : Same bitRead n u v) {j : ℕ}
    (hj : 8 * j + 8 ≤ n) :
    u.toList.getD j 0 = v.toList.getD j 0 := by
  refine toNat_ext fun i hi => ?_
  have hbit := h (8 * j + i) (by omega)
  rwa [bitRead, bitRead, Nat.mul_add_div (by decide), Nat.div_eq_of_lt hi, Nat.mul_add_mod,
    Nat.mod_eq_of_lt hi, Nat.add_zero] at hbit

theorem take_of_same {k m : ℕ} {u v : Vector UInt8 k} (h : Same bitRead (8 * m) u v) :
    u.toList.take m = v.toList.take m := by
  refine List.ext_getElem (by simp) fun j hj hj' => ?_
  rw [List.length_take] at hj hj'
  have hbyte := getD_of_same h (j := j) (by omega)
  rw [List.getElem_take, List.getElem_take]
  rwa [List.getD_eq_getElem _ _ (by omega), List.getD_eq_getElem _ _ (by omega)] at hbyte

/-- A serial number as it is on a device. -/
structure Valid (serno : Serno) : Prop where
  crc : Ds2438.crc8 serno.toList = 0
  family : readbuffer serno 0 ≠ 0

theorem dscrcTable_zero : ∀ i : Fin 256, Ds2438.dscrcTable.get i = 0 → i = 0 := by
  decide +kernel

theorem crc8_append (block : List UInt8) (b : UInt8) (h : Ds2438.crc8 (block ++ [b]) = 0) :
    b = Ds2438.crc8 block := by
  rw [Ds2438.crc8, List.foldl_append, List.foldl_cons, List.foldl_nil] at h
  have hzero := congrArg Fin.val (dscrcTable_zero _ h)
  have hxor : Ds2438.crc8 block ^^^ b = 0 := UInt8.toNat_inj.mp hzero
  exact (UInt8.xor_eq_zero_iff.mp hxor).symm

theorem crc8_split (w : Serno) : w.toList = w.toList.take 7 ++ [w.toList.getD 7 0] := by
  have hlen : w.toList.length = 8 := by simp
  have hdrop : w.toList.drop 7 = [w.toList.getD 7 0] := by
    rw [List.drop_eq_getElem_cons (by omega), List.drop_of_length_le (by omega),
      List.getD_eq_getElem _ _ (by omega)]
  rw [← hdrop, List.take_append_drop]

/-- The check byte is determined by the others. -/
theorem Valid.eq_of_same {u v : Serno} (hu : Valid u) (hv : Valid v) (h : Same bitRead 56 u v) : u =
    v := by
  have htake : u.toList.take 7 = v.toList.take 7 := take_of_same h
  have hcheck : ∀ {w : Serno}, Valid w → w.toList.getD 7 0 = Ds2438.crc8 (w.toList.take 7) := by
    intro w hw
    have hcrc := hw.crc
    rw [crc8_split w] at hcrc
    exact crc8_append _ _ hcrc
  refine Vector.toList_inj.mp ?_
  rw [crc8_split u, crc8_split v, hcheck hu, hcheck hv, htake]

theorem eq_of_same {u v : Serno} (h : Same bitRead 64 u v) : u = v := by
  refine Vector.toList_inj.mp ?_
  have htake : u.toList.take 8 = v.toList.take 8 := take_of_same h
  rwa [List.take_of_length_le (by simp), List.take_of_length_le (by simp)] at htake

/-! ## Buffers of bits -/

/-- Bits written one after the other are read where they were written. -/
theorem bitRead_foldl {k : ℕ} {f : ℕ → Bool} (is : List ℕ) (hk : ∀ i ∈ is, i < 8 * k)
    (buf : Vector UInt8 k)
    (i : ℕ) : bitRead (is.foldl (fun buf i => bitWrite (f i) i buf) buf) i =
      if i ∈ is then f i else bitRead buf i := by
  induction is generalizing buf with
  | nil => simp
  | cons j is ih =>
    rw [List.foldl_cons, ih (fun i hi => hk i (List.mem_cons_of_mem j hi))]
    by_cases hi : i ∈ is
    · simp [hi]
    · rw [if_neg hi, bitRead_bitWrite _ _ _ (hk j List.mem_cons_self)]
      by_cases hij : i = j
      · simp [hij]
      · rw [if_neg hij, if_neg]
        simp [hij, hi]

theorem bitRead_zero {k : ℕ} (i : ℕ) : bitRead (Vector.replicate k (0 : UInt8)) i = false := by
  rw [bitRead, List.getD_eq_getElem?_getD, Vector.toList_replicate, List.getElem?_replicate]
  split
  · exact Nat.zero_testBit _
  · exact Nat.zero_testBit _

theorem bitRead_behind {k : ℕ} (b : UInt8) (buf : Vector UInt8 k) (i : ℕ) :
    bitRead ((#v[b] : Vector UInt8 1) ++ buf) (8 + i) = bitRead buf i := by
  have hdiv : (8 + i) / 8 = i / 8 + 1 := by omega
  have hmod : (8 + i) % 8 = i % 8 := by omega
  rw [bitRead, bitRead, hdiv, hmod, Vector.toList_append]
  rfl

/-! ## What is sent and what is read -/

theorem bitRead_setDirection {p : Port} {buf : Vector UInt8 16} {i j : ℕ} (hj : j < 64) :
    bitRead (setDirection p buf j) (i * 2 + 1) =
      if i = j then
        if i < p.lastDiscrepancy - 1 then bitRead p.serialNum i
        else if i = p.lastDiscrepancy - 1 then true else bitRead buf (i * 2 + 1)
      else bitRead buf (i * 2 + 1) := by
  unfold setDirection
  by_cases hij : i = j
  · subst hij
    rw [if_pos rfl]
    split
    · rw [bitRead_bitWrite _ _ _ (by omega), if_pos rfl]
    · split
      · rw [bitRead_bitWrite _ _ _ (by omega), if_pos rfl]
      · rfl
  · rw [if_neg hij]
    split
    · rw [bitRead_bitWrite _ _ _ (by omega), if_neg (by omega)]
    · split
      · rw [bitRead_bitWrite _ _ _ (by omega), if_neg (by omega)]
      · rfl

/-- The directions that the packet of a search holds. -/
theorem bitRead_searchBytes {p : Port} {i : ℕ} (hi : i < 64) :
    bitRead (searchBytes p) (i * 2 + 1) = resume bitRead p.serialNum p.lastDiscrepancy i := by
  have hfold : ∀ n, n ≤ 64 →
    bitRead ((List.range n).foldl (setDirection p) (Vector.replicate 16 0)) (i * 2 + 1) =
      if i < n then (if i < p.lastDiscrepancy - 1 then bitRead p.serialNum i else i ==
        p.lastDiscrepancy - 1)
      else false := by
    intro n hn
    induction n with
    | zero => exact bitRead_zero _
    | succ n ih =>
      rw [List.range_succ, List.foldl_append, List.foldl_cons, List.foldl_nil,
        bitRead_setDirection (by omega),
        ih (by omega)]
      by_cases hin : i = n
      · subst hin
        rw [if_pos rfl, if_neg (Nat.lt_irrefl i), if_pos (Nat.lt_succ_self i)]
        by_cases hlast : i = p.lastDiscrepancy - 1
        · rw [if_pos hlast, beq_iff_eq.mpr hlast]
        · rw [if_neg hlast, beq_eq_false_iff_ne.mpr hlast]
      · rw [if_neg hin]
        have hlt : i < n ↔ i < n + 1 := by omega
        rw [if_congr hlt rfl rfl]
  unfold searchBytes resume
  by_cases hzero : p.lastDiscrepancy = 0
  · rw [if_neg (by simpa using hzero), if_pos hzero, bitRead_zero]
  · rw [if_pos hzero, if_neg hzero, hfold 64 (Nat.le_refl 64), if_pos hi]

section
variable {r : Vector UInt8 17} {f : Found}

theorem add_tmpSerialNum (is : List ℕ) : (is.foldl (Found.add r) f).tmpSerialNum =
    is.foldl (fun buf i => bitWrite (bitRead r (8 + (i * 2 + 1))) i buf) f.tmpSerialNum := by
  induction is generalizing f with
  | nil => rfl
  | cons i is ih =>
    rw [List.foldl_cons, ih, List.foldl_cons]
    congr 1
    unfold Found.add
    dsimp only
    split
    · rfl
    · rfl

theorem add_lastZero (is : List ℕ) : (is.foldl (Found.add r) f).lastZero =
    is.foldl (fun last i =>
      if bitRead r (8 + i * 2) && !bitRead r (8 + (i * 2 + 1)) then i + 1 else last)
      f.lastZero := by
  induction is generalizing f with
  | nil => rfl
  | cons i is ih =>
    rw [List.foldl_cons, ih, List.foldl_cons]
    congr 1
    unfold Found.add
    simp only [Bool.and_eq_true, Bool.not_eq_true']
    split
    · rfl
    · rfl

theorem add_lastFamilyDiscrepancy (is : List ℕ) :
    (is.foldl (Found.add r) f).lastFamilyDiscrepancy = is.foldl (fun last i =>
      if bitRead r (8 + i * 2) && !bitRead r (8 + (i * 2 + 1)) then if i < 8 then i + 1 else last
        else last)
      f.lastFamilyDiscrepancy := by
  induction is generalizing f with
  | nil => rfl
  | cons i is ih =>
    rw [List.foldl_cons, ih, List.foldl_cons]
    congr 1
    unfold Found.add
    simp only [Bool.and_eq_true, Bool.not_eq_true']
    split
    · rfl
    · rfl

end

/-- A search shows these pairs. -/
def Shows (r : Vector UInt8 17) (pair : ℕ → Bool × Bool) : Prop :=
  ∀ i < 64, bitRead r (8 + i * 2) = (pair i).1 ∧ bitRead r (8 + (i * 2 + 1)) = (pair i).2

theorem interpret_tmpSerialNum {p : Port} {r : Vector UInt8 17} {pair : ℕ → Bool × Bool}
    (h : Shows r pair)
    {i : ℕ} (hi : i < 64) : bitRead (interpret p r).tmpSerialNum i = (pair i).2 := by
  rw [interpret, add_tmpSerialNum, bitRead_foldl _ fun i hi => List.mem_range.mp hi,
    if_pos (List.mem_range.mpr hi), (h i hi).2]

theorem interpret_lastZero {p : Port} {r : Vector UInt8 17} {pair : ℕ → Bool × Bool}
    (h : Shows r pair) :
    (interpret p r).lastZero = lastZero pair 64 := by
  rw [interpret, add_lastZero, lastZero]
  refine List.foldl_ext _ _ _ fun last i hi => ?_
  obtain ⟨hdiff, hbit⟩ := h i (List.mem_range.mp hi)
  rw [hdiff, hbit]

/-- The last position of the family at which ones were left behind, or what it was before. -/
theorem interpret_lastFamilyDiscrepancy {p : Port} {r : Vector UInt8 17} {pair : ℕ → Bool × Bool}
    (h : Shows r pair) : (interpret p r).lastFamilyDiscrepancy =
      if lastZero pair 8 = 0 then p.lastFamilyDiscrepancy else lastZero pair 8 := by
  have hfold : ∀ n ≤ 64, (List.range n).foldl (fun last i =>
      if bitRead r (8 + i * 2) && !bitRead r (8 + (i * 2 + 1)) then if i < 8 then i + 1 else last
        else last)
      p.lastFamilyDiscrepancy =
        if lastZero pair (min n 8) = 0 then p.lastFamilyDiscrepancy else lastZero pair (min n 8) :=
          by
    intro n hn
    induction n with
    | zero => rfl
    | succ n ih =>
      obtain ⟨hdiff, hbit⟩ := h n (by omega)
      rw [List.range_succ, List.foldl_append, List.foldl_cons, List.foldl_nil, ih (by omega), hdiff,
        hbit]
      by_cases hn8 : n < 8
      · rw [Nat.min_eq_left (by omega), Nat.min_eq_left (by omega), lastZero, lastZero,
          List.range_succ,
          List.foldl_append, List.foldl_cons, List.foldl_nil]
        by_cases hzero : ((pair n).1 && !(pair n).2) = true
        · rw [if_pos hzero, if_pos hn8, if_pos hzero, if_neg (Nat.succ_ne_zero n)]
        · rw [if_neg hzero, if_neg hzero]
      · rw [Nat.min_eq_right (by omega), Nat.min_eq_right (by omega), if_neg hn8, ite_self]
  rw [interpret, add_lastFamilyDiscrepancy, hfold 64 (Nat.le_refl 64)]
  rfl

/-! ## What the net answers -/

/-- The pairs of the answer to a search that is told these directions. -/
def searchPairs (S : List Serno) (bytes : Vector UInt8 16) : ℕ → Bool × Bool :=
  answers bitRead S fun i => bitRead bytes (i * 2 + 1)

def searchAnswer (S : List Serno) (bytes : Vector UInt8 16) : Vector UInt8 16 :=
  (List.range 128).foldl
    (fun buf j => bitWrite (if j % 2 = 0 then (searchPairs S bytes (j / 2)).1
      else (searchPairs S bytes (j / 2)).2) j buf)
    (Vector.replicate 16 0)

theorem shows_searchAnswer (S : List Serno) (bytes : Vector UInt8 16) (echo : UInt8) :
    Shows ((#v[echo] : Vector UInt8 1) ++ searchAnswer S bytes) (searchPairs S bytes) := by
  intro i hi
  have hbit : ∀ j < 128, bitRead (searchAnswer S bytes) j = if j % 2 =
    0 then (searchPairs S bytes (j / 2)).1
      else (searchPairs S bytes (j / 2)).2 := by
    intro j hj
    rw [searchAnswer, bitRead_foldl _ fun i hi => List.mem_range.mp hi,
      if_pos (List.mem_range.mpr hj)]
  constructor
  · rw [bitRead_behind, hbit _ (by omega), if_pos (by omega), Nat.mul_div_cancel _ (by decide)]
  · rw [bitRead_behind, hbit _ (by omega), if_neg (by omega)]
    congr 2
    omega

/-- What has just been written on the line has the chip do `ops`. -/
def Asks (c₀ : Chip) (t : List Traffic) (ops : List (Framing.Op UInt8)) : Prop :=
  ∃ packet t' r, t = .wrote packet packet.length :: t' ∧ (chipAfter c₀ t').receiver = some r ∧
    (receives r packet).2 = ops

/-- An adapter on a net of these devices: what is written goes out, a reset shows whether there is
a device, and a search gets what the devices answer. -/
structure Net (com : Com) (c₀ : Chip) (S : List Serno) : Prop where
  takes : ∀ t sent, sent.length ≤ com.writeCOM t sent
  presence : ∀ t speed, Asks c₀ t [.command (cmdComm ||| functselReset ||| speed)] →
    ∃ b, com.readCOM t 1 = some #v[b] ∧
      (b &&& rbResetMask = rbPresence ∨ b &&& rbResetMask = rbAlarmpresence ↔ S ≠ [])
  search : ∀ t speed (bytes : Vector UInt8 16), S ≠ [] →
    Asks c₀ t
      ([.data 0xF0, .command (cmdComm ||| functselSearchon ||| speed)] ++ bytes.toList.map .data ++
      [.command (cmdComm ||| functselSearchoff ||| speed)]) →
    ∃ echo, com.readCOM t 17 = some ((#v[echo] : Vector UInt8 1) ++ searchAnswer S bytes)

def symbol : Framing.Op UInt8 → UInt8
  | .data b => b
  | .command b => b

/-- What is read after a reset, and after a search. -/
def response (S : List Serno) : List (Framing.Op UInt8) → List UInt8
  | [_] => [if S.isEmpty then rbResetMask else rbPresence]
  | _ :: _ :: rest =>
    let bytes := Vector.ofFn fun i : Fin 16 => (rest.map symbol).getD i 0
    ((#v[0xF0] : Vector UInt8 1) ++ searchAnswer S bytes).toList
  | [] => []

def adapter (c₀ : Chip) (S : List Serno) : Com where
  writeCOM _ sent := sent.length
  readCOM t n :=
    match t with
    | .wrote packet _ :: t =>
      let answer := (chipAfter c₀ t).receiver.elim [] fun r => response S (receives r packet).2
      if h : answer.length = n then some ⟨answer.toArray, by simpa using h⟩ else none
    | _ => none

theorem adapter_reads {c₀ : Chip} {S : List Serno} {t : List Traffic}
    {ops : List (Framing.Op UInt8)} {n : ℕ}
    {answer : Vector UInt8 n} (h : Asks c₀ t ops) (hanswer : response S ops = answer.toList) :
    (adapter c₀ S).readCOM t n = some answer := by
  obtain ⟨packet, t, r, rfl, hr, rfl⟩ := h
  have hlist : (chipAfter c₀ t).receiver.elim [] (fun r => response S (receives r packet).2) =
    answer.toList := by
    rw [hr]
    exact hanswer
  have hlength :
    ((chipAfter c₀ t).receiver.elim [] fun r => response S (receives r packet).2).length = n := by
    rw [hlist, Vector.length_toList]
  change (if h : _ = n then some _ else none) = some answer
  rw [dif_pos hlength]
  refine congrArg some (Vector.toList_inj.mp ?_)
  exact hlist

theorem response_search (S : List Serno) (bytes : Vector UInt8 16) (a b last : Framing.Op UInt8) :
    response S ([a, b] ++ bytes.toList.map .data ++ [last]) =
      ((#v[0xF0] : Vector UInt8 1) ++ searchAnswer S bytes).toList := by
  have hsymbols : (bytes.toList.map Framing.Op.data ++ [last]).map symbol =
    bytes.toList ++ [symbol last] := by
    rw [List.map_append, List.map_map]
    exact congrArg (· ++ [symbol last]) (List.map_id _)
  have hbytes : (Vector.ofFn fun i : Fin 16 => (bytes.toList ++ [symbol last]).getD i 0) = bytes :=
    by
    ext i hi
    rw [Vector.getElem_ofFn, List.getD_append _ _ _ _ (by simpa using hi),
      List.getD_eq_getElem _ _ (by simpa using hi)]
    exact congrArg UInt8.toNat (Vector.getElem_toList (by simpa using hi))
  have hresponse : response S (a :: b :: (bytes.toList.map .data ++ [last])) =
      ((#v[0xF0] : Vector UInt8 1) ++ searchAnswer S (Vector.ofFn fun i : Fin 16 =>
        ((bytes.toList.map Framing.Op.data ++ [last]).map symbol).getD i 0)).toList := rfl
  rw [hsymbols, hbytes] at hresponse
  exact hresponse

theorem net_adapter (c₀ : Chip) (S : List Serno) : Net (adapter c₀ S) c₀ S where
  takes _ sent := Nat.le_refl sent.length
  presence t speed h := by
    refine ⟨if S.isEmpty then rbResetMask else rbPresence, adapter_reads h rfl, ?_⟩
    cases S with
    | nil => simp [rbResetMask, rbPresence, rbAlarmpresence]
    | cons v S =>
      have hbits : rbPresence &&& rbResetMask = rbPresence := by decide
      exact iff_of_true (Or.inl hbits) (List.cons_ne_nil v S)
  search t speed bytes _ h := ⟨0xF0, adapter_reads h (response_search S bytes _ _ _)⟩

/-! ## The line between two searches -/

/-- The state of a search. -/
structure Searching where
  serialNum : Serno
  lastDiscrepancy : ℕ
  lastDevice : Bool
  lastFamilyDiscrepancy : ℕ

def Port.searching (p : Port) : Searching where
  serialNum := p.serialNum
  lastDiscrepancy := p.lastDiscrepancy
  lastDevice := p.lastDevice
  lastFamilyDiscrepancy := p.lastFamilyDiscrepancy

/-- The chip is in step, with the net at its normal level, and this is the state of the search. -/
structure Held (c₀ : Chip) (s : Searching) (l : Line) : Prop where
  searching : l.port.searching = s
  speed : l.port.speed = speedselFlex ∨ l.port.speed = speedselOd
  level : l.port.level = modeNormal
  receiver : (chipAfter c₀ l.traffic).receiver = some (.on l.port.mode)

/-- `UMode` has been changed, and `change` is to be sent. -/
structure Turning (c₀ : Chip) (s : Searching) (wanted : Framing.Mode) (change : List UInt8)
    (l : Line) :
    Prop where
  searching : l.port.searching = s
  speed : l.port.speed = speedselFlex ∨ l.port.speed = speedselOd
  level : l.port.level = modeNormal
  mode : l.port.mode = wanted
  before : ∃ mode, (chipAfter c₀ l.traffic).receiver = some (.on mode) ∧
    change = Framing.change modeCommand modeData mode wanted

section
variable {com : Com} {c₀ : Chip} {S : List Serno} {s : Searching}

theorem held_changeMode {wanted : Framing.Mode} {byte : UInt8}
    (hbyte : ∀ mode, mode ≠ wanted → [byte] = Framing.change modeCommand modeData mode wanted) :
    KeepsTo (Held c₀ s) (changeMode wanted byte) (Turning c₀ s wanted) := by
  intro l h
  change Turning c₀ s wanted (ite (l.port.mode = wanted) (pure [] : PortM (List UInt8)) _ l).1
    (ite (l.port.mode = wanted) (pure [] : PortM (List UInt8)) _ l).2
  by_cases hmode : l.port.mode = wanted
  · rw [if_pos hmode]
    exact ⟨h.searching, h.speed, h.level, hmode, l.port.mode, h.receiver, (if_pos hmode).symm⟩
  · rw [if_neg hmode]
    exact ⟨h.searching, h.speed, h.level, rfl, l.port.mode, h.receiver, hbyte _ hmode⟩

/-- A packet goes out and is answered. -/
theorem Net.transfers (hnet : Net com c₀ S) {l : Line} {r : Framing.Receiver} {packet : List UInt8}
    {new : List (Framing.Op UInt8)} {n : ℕ} (hsearching : l.port.searching = s)
    (hspeed : l.port.speed = speedselFlex ∨ l.port.speed = speedselOd)
      (hlevel : l.port.level = modeNormal)
    (hr : (chipAfter c₀ l.traffic).receiver = some r)
    (hpacket : receives r packet = (.on l.port.mode, new)) :
    Held c₀ s (transfer com packet n l).2 ∧
      ∃ t, Asks c₀ t new ∧ (transfer com packet n l).1 = com.readCOM t n := by
  have hcount : min (com.writeCOM (.flush :: l.traffic) packet) packet.length = packet.length :=
    Nat.min_eq_right (hnet.takes _ packet)
  have hrun : transfer com packet n l =
      readCOM com n { l with traffic := .wrote packet packet.length :: .flush :: l.traffic } := by
    change (ite (decide (min (com.writeCOM (.flush :: l.traffic) packet) packet.length =
      packet.length) = true)
      (readCOM com n) (pure none : PortM _)) _ = _
    rw [if_pos (decide_eq_true hcount), hcount]
  rw [hrun]
  refine ⟨⟨hsearching, hspeed, hlevel, ?_⟩, _, ⟨packet, .flush :: l.traffic, r, rfl, hr, ?_⟩, rfl⟩
  · change ((chipAfter c₀ (.flush :: l.traffic)).take (packet.take packet.length)).receiver = _
    have htake := Chip.take_some hr packet
    rw [hpacket] at htake
    rw [List.take_length]
    exact congrArg Chip.receiver htake
  · rw [hpacket]

/-- A packet that depends on the port, and its response. -/
theorem keeps_asking {α : Type} {n : ℕ} {packet : Port → List UInt8}
    {k : Option (Vector UInt8 n) → PortM α}
    {P : Line → Prop} {R : Option (Vector UInt8 n) → Line → Prop} {Q : α → Line → Prop}
    (hsend : ∀ l, P l → R (transfer com (packet l.port) n l).1 (transfer com (packet l.port) n l).2)
    (hk : ∀ answer, KeepsTo (R answer) (k answer) Q) :
    KeepsTo P (port >>= fun p => transfer com (packet p) n >>= k) Q :=
  fun l h => hk _ _ (hsend l h)

/-- The same when the port is changed before it is sent. -/
theorem keeps_asking_after {α : Type} {n : ℕ} {f : Port → Port} {packet : Port → List UInt8}
    {k : Option (Vector UInt8 n) → PortM α}
    {P : Line → Prop} {R : Option (Vector UInt8 n) → Line → Prop} {Q : α → Line → Prop}
    (hsend : ∀ l, P l → R (transfer com (packet l.port) n { l with port := f l.port }).1
      (transfer com (packet l.port) n { l with port := f l.port }).2)
    (hk : ∀ answer, KeepsTo (R answer) (k answer) Q) :
    KeepsTo P (port >>= fun p => modifyPort f >>= fun _ => transfer com (packet p) n >>= k) Q :=
  fun l h => hk _ _ (hsend l h)

/-- During the detection of the chip. -/
structure Broken (c₀ : Chip) (s : Searching) (receiver : Option Framing.Receiver) (l : Line) :
    Prop where
  searching : l.port.searching = s
  speed : l.port.speed = speedselFlex
  level : l.port.level = modeNormal
  mode : l.port.mode = .command
  receiver : (chipAfter c₀ l.traffic).receiver = receiver

theorem Broken.unseen {r : Option Framing.Receiver} {t : Traffic} {l : Line} (h : Broken c₀ s r l)
    (ht : t.Unseen) : Broken c₀ s r { l with traffic := t :: l.traffic } where
  searching := h.searching
  speed := h.speed
  level := h.level
  mode := h.mode
  receiver := (congrArg Chip.receiver (chipAfter_unseen ht)).trans h.receiver

/-- After a break the chip is in step again, and the search has not changed. -/
theorem Net.detects (hnet : Net com c₀ S) : KeepsTo (Held c₀ s) (ds2480Detect com) fun _ =>
    Held c₀ s := by
  have hunseen : ∀ {r} t, Traffic.Unseen t → KeepsTo (Broken c₀ s r) (tell t) fun _ =>
    Broken c₀ s r :=
    fun t ht => .modify fun l h => h.unseen ht
  have hport : KeepsTo (Held c₀ s)
      (modifyPort fun p => { p with mode := .command, baud := parmset9600, speed := speedselFlex })
      fun _ l => ∃ r, Broken c₀ s r l :=
    .modify fun l h => ⟨_, h.searching, rfl, h.level, rfl, rfl⟩
  have hbaud : KeepsTo (fun l => ∃ r, Broken c₀ s r l) (setBaudCOM parmset9600) fun _ l => ∃ r,
    Broken c₀ s r l :=
    .modify fun l h => ⟨_, h.choose_spec.unseen trivial⟩
  have hbreak : KeepsTo (fun l => ∃ r, Broken c₀ s r l) breakCOM fun _ => Broken c₀ s none :=
    .modify fun l h => by
      obtain ⟨r, h⟩ := h
      exact ⟨h.searching, h.speed, h.level, h.mode, rfl⟩
  have htiming : KeepsTo (Broken c₀ s none) (writeCOM com [0xC1])
      fun ok l => ok = true ∧ Broken c₀ s (some (.on .command)) l := by
    intro l h
    have hcount : min (com.writeCOM l.traffic [0xC1]) [(0xC1 : UInt8)].length = 1 :=
      Nat.min_eq_right (hnet.takes _ _)
    refine ⟨decide_eq_true hcount, h.searching, h.speed, h.level, h.mode, ?_⟩
    change ((chipAfter c₀ l.traffic).take ([0xC1].take
      (min (com.writeCOM l.traffic [0xC1]) [(0xC1 : UInt8)].length))).receiver = _
    rw [hcount]
    exact congrArg Chip.receiver (Chip.take_none h.receiver 0xC1)
  have hdetect : KeepsTo (Broken c₀ s (some (.on .command))) (transfer com detectPacket 5) fun _ =>
    Held c₀ s := by
    intro l h
    have hreceives : receives (.on .command) detectPacket =
      (.on l.port.mode, detectPacket.map .command) := by
      rw [h.mode]
      exact receives_commands (by decide +kernel)
    exact (hnet.transfers h.searching (Or.inl h.speed) h.level h.receiver hreceives).1
  refine .bind hport fun _ => .bind hbaud fun _ => .bind hbreak fun _ =>
    .bind (hunseen _ trivial) fun _ => ?_
  refine .bind (hunseen _ trivial) fun _ => .bind htiming fun ok => .ite (fun _ => ?_) fun hok => ?_
  · refine .bind (Q := fun _ => Broken c₀ s (some (.on .command))) ?_ fun _ =>
      .bind hdetect fun r => ?_
    · exact .modify fun l h => h.2.unseen trivial
    · cases r with
      | none => exact .pure fun _ h => h
      | some r => exact .pure fun _ h => h
  · exact fun l h => absurd h.1 hok

/-- A reset shows whether there is a device. -/
theorem Net.resets (hnet : Net com c₀ S) : KeepsTo (Held c₀ s) (owTouchReset com)
    fun ok l => (ok = true ↔ S ≠ []) ∧ Held c₀ s l := by
  have hlevel : KeepsTo (Held c₀ s) (owLevel com modeNormal) fun _ => Held c₀ s := by
    intro l h
    change Held c₀ s (ite (modeNormal = l.port.level) (pure _ : PortM UInt8) _ l).2
    rw [if_pos h.level.symm]
    exact h
  have hmode : KeepsTo (Held c₀ s) commandMode (Turning c₀ s .command) :=
    held_changeMode fun mode hmode => by
      cases mode with
      | data => rfl
      | command => exact absurd rfl hmode
  have hresync : ∀ {P : Line → Prop}, (∀ l, P l → S = [] ∧ Held c₀ s l) →
      KeepsTo P (resync com false) fun ok l => (ok = true ↔ S ≠ []) ∧ Held c₀ s l := by
    intro P hP
    have hdetect : KeepsTo (fun l => Held c₀ s l ∧ S = []) (ds2480Detect com) fun _ l => S = [] ∧
      Held c₀ s l :=
      .given fun hS => hnet.detects.conseq (fun _ h => h) fun _ _ h => ⟨hS, h⟩
    refine .bind (hdetect.conseq (fun l h => (hP l h).symm) fun _ _ h => h) fun _ =>
      .pure fun l h => ⟨?_, h.2⟩
    exact iff_of_false Bool.false_ne_true fun hne => hne h.1
  refine .bind hlevel fun _ => .bind hmode fun change =>
    keeps_asking (R := fun answer l => Held c₀ s l ∧
    ∃ b, answer = some #v[b] ∧
      (b &&& rbResetMask = rbPresence ∨ b &&& rbResetMask = rbAlarmpresence ↔ S ≠ []))
    (fun l h => ?_) fun answer => ?_
  · obtain ⟨mode, hr, hchange⟩ := h.before
    have hreceives : receives (.on mode) (change ++ [cmdComm ||| functselReset ||| l.port.speed]) =
        (.on l.port.mode, [.command (cmdComm ||| functselReset ||| l.port.speed)]) := by
      rw [hchange, h.mode]
      exact Framing.receiveAll_commands (plain_reset l.port h.speed)
        (List.cons_ne_nil _ _)
    obtain ⟨hheld, t, hasks, hanswer⟩ :=
      hnet.transfers (n := 1) h.searching h.speed h.level hr hreceives
    obtain ⟨b, hread, hpresence⟩ := hnet.presence t l.port.speed hasks
    exact ⟨hheld, b, hanswer.trans hread, hpresence⟩
  · cases answer with
    | none =>
      intro l h
      obtain ⟨-, b, hb, -⟩ := h
      cases hb
    | some r =>
      refine .ite (fun hpresent => ?_) fun habsent => hresync fun l h => ?_
      · refine .bind (Q := fun _ l => S ≠ [] ∧ Held c₀ s l) (.modify fun l h => ?_) fun _ =>
          .pure fun l h => ?_
        · obtain ⟨hheld, b, hb, hpresence⟩ := h
          obtain rfl := Option.some.inj hb
          exact ⟨hpresence.mp hpresent, hheld.searching, hheld.speed, hheld.level, hheld.receiver⟩
        · exact ⟨iff_of_true rfl h.1, h.2⟩
      · obtain ⟨hheld, b, hb, hpresence⟩ := h
        obtain rfl := Option.some.inj hb
        exact ⟨by_contra fun hne => habsent (hpresence.mpr hne), hheld⟩

/-- The state after `u` has been found. -/
def Searching.found (s : Searching) (u : Serno) (pair : ℕ → Bool × Bool) : Searching where
  serialNum := u
  lastDiscrepancy := lastZero pair 64
  lastDevice := if lastZero pair 64 = 0 then true else s.lastDevice
  lastFamilyDiscrepancy := if lastZero pair 8 = 0 then s.lastFamilyDiscrepancy else lastZero pair 8

theorem Searching.found_lastDiscrepancy (s : Searching) (u : Serno) (pair : ℕ → Bool × Bool) :
    (s.found u pair).lastDiscrepancy = lastZero pair 64 := rfl

theorem held_checkResults {r : Vector UInt8 17} {pair : ℕ → Bool × Bool} (hr : Shows r pair)
    {u : Serno}
    (hu : Valid u) (hbits : ∀ i < 64, bitRead u i = (pair i).2) (hlast : s.lastDiscrepancy ≠ 63) :
    KeepsTo (Held c₀ s) (checkResults r) fun ok l => ok = true ∧ Held c₀ (s.found u pair) l := by
  intro l h
  have hfound : (interpret l.port r).tmpSerialNum = u :=
    eq_of_same fun i hi => (interpret_tmpSerialNum hr hi).trans (hbits i hi).symm
  have hgood :
    ¬ (Ds2438.crc8 (interpret l.port r).tmpSerialNum.toList ≠ 0 ∨ l.port.lastDiscrepancy = 63 ∨
      readbuffer (interpret l.port r).tmpSerialNum 0 = 0) := by
    rw [hfound]
    rintro (hcrc | h63 | hfamily)
    · exact hcrc hu.crc
    · refine hlast ?_
      rw [← h.searching]
      exact h63
    · exact hu.family hfamily
  change (ite _ (resetSearch >>= fun _ => pure false : PortM Bool) _ l).1 = true ∧
    Held c₀ _ (ite _ (resetSearch >>= fun _ => pure false : PortM Bool) _ l).2
  rw [if_neg hgood]
  refine ⟨rfl, ?_, h.speed, h.level, h.receiver⟩
  rw [← h.searching, Searching.found, ← interpret_lastZero (p := l.port) hr, ← hfound]
  exact congrArg (Searching.mk _ _ _) (interpret_lastFamilyDiscrepancy hr)

/-- The directions that the next search is told. -/
def Searching.dirs (s : Searching) : ℕ → Bool := resume bitRead s.serialNum s.lastDiscrepancy

/-- The search goes to one of the devices. -/
theorem Net.searches (hnet : Net com c₀ S) {u : Serno} (hu : Valid u) (huS : u ∈ S)
    (hpath : OnPath bitRead S s.dirs 64 u) (hlast : s.lastDiscrepancy ≠ 63) :
    KeepsTo (Held c₀ s) (Ds2480.search com false)
      fun ok l => ok = true ∧ Held c₀ (s.found u (answers bitRead S s.dirs)) l := by
  have hmode : KeepsTo (Held c₀ s) dataMode (Turning c₀ s .data) :=
    held_changeMode fun mode hmode => by
      cases mode with
      | data => exact absurd rfl hmode
      | command => rfl
  refine .bind hmode fun change => ?_
  have hsend : ∀ l, Turning c₀ s .data change l →
      Held c₀ s (transfer com (change ++ searchPacket false l.port) 17
        { l with port := { l.port with mode := .command } }).2 ∧
      ∃ r, (transfer com (change ++ searchPacket false l.port) 17
        { l with port := { l.port with mode := .command } }).1 = some r ∧
        Shows r (answers bitRead S s.dirs) := by
    intro l h
    obtain ⟨mode, hr, hchange⟩ := h.before
    have hreceives : receives (.on mode) (change ++ searchPacket false l.port) =
        (.on .command, searchOps false l.port) := by
      rw [hchange]
      exact receives_search h.speed
    obtain ⟨hheld, t, hasks, hanswer⟩ := hnet.transfers (n := 17)
      (l := { l with port := { l.port with mode := .command } }) h.searching h.speed h.level hr
        hreceives
    obtain ⟨echo, hread⟩ :=
      hnet.search t l.port.speed (searchBytes l.port) (List.ne_nil_of_mem huS) hasks
    refine ⟨hheld, _, hanswer.trans hread, fun i hi => ?_⟩
    have hpairs : searchPairs S (searchBytes l.port) i = answers bitRead S s.dirs i := by
      refine answers_congr fun j hj => ?_
      rw [bitRead_searchBytes (by omega), Searching.dirs, ← h.searching]
      rfl
    rw [← hpairs]
    exact shows_searchAnswer S (searchBytes l.port) echo i hi
  refine keeps_asking_after (R := fun answer l => Held c₀ s l ∧ ∃ r, answer = some r ∧
    Shows r (answers bitRead S s.dirs)) hsend fun answer l h => ?_
  obtain ⟨hheld, r, rfl, hr⟩ := h
  exact held_checkResults hr hu hpath hlast l hheld

end

/-! ## The devices that are to come -/

/-- These are the devices that the coming calls deliver. -/
def Coming (S : List Serno) (s : Searching) : List Serno → Prop
  | [] => s.lastDevice = true ∨ S = []
  | w :: ws => s.lastDevice = false ∧ s.lastDiscrepancy ≠ 63 ∧ w ∈ S ∧
    OnPath bitRead S s.dirs 64 w ∧
      After bitRead 64 S w ws

section
variable {S : List Serno} {s : Searching} {u w : Serno} {ws : List Serno}

theorem distinct_of_valid (S : List Serno) : Distinct bitRead 64 S :=
  fun _ _ _ _ h => eq_of_same h

/-- Ones are never left behind among the bits of the check byte. -/
theorem lastZero_le (hS : ∀ v ∈ S, Valid v) (huS : u ∈ S) (hu : OnPath bitRead S s.dirs 64 u) :
    lastZero (answers bitRead S s.dirs) 64 ≤ 56 := by
  by_contra hgt
  obtain ⟨k, hk⟩ : ∃ k, lastZero (answers bitRead S s.dirs) 64 = k + 1 :=
    Nat.exists_eq_succ_of_ne_zero (by omega)
  obtain ⟨hk64, ⟨hdiff, -⟩, -⟩ := lastZero_succ hk
  obtain ⟨v, hv, hsame, hbit⟩ := hu.exists_parted hk64 hdiff
  have heq : u = v := (hS u huS).eq_of_same (hS v hv) (hsame.mono (by omega))
  rw [heq] at hbit
  cases hb : bitRead v k with
  | false => simp [hb] at hbit
  | true => simp [hb] at hbit

/-- Finding the first of them leaves the others. -/
theorem Coming.found (h : Coming S s (w :: ws)) (hS : ∀ v ∈ S, Valid v) :
    Coming S (s.found w (answers bitRead S s.dirs)) ws := by
  obtain ⟨hdevice, -, hw, hpath, hafter⟩ := h
  cases hlast : lastZero (answers bitRead S s.dirs) 64 with
  | zero =>
    rw [hafter.last hpath hw hlast]
    left
    rw [Searching.found, hlast]
    rfl
  | succ k =>
    obtain ⟨w', ws', rfl, hw', hpath', hafter'⟩ := hafter.next (distinct_of_valid S) hpath hw hlast
    have hle := lastZero_le hS hw hpath
    refine ⟨?_, ?_, hw', ?_, hafter'⟩
    · rw [Searching.found, hlast]
      exact hdevice
    · rw [Searching.found_lastDiscrepancy]
      omega
    · rw [Searching.dirs, Searching.found, hlast]
      exact hpath'

/-- A new search finds all of them. -/
theorem coming_first (hdevice : s.lastDevice = false) (hlast : s.lastDiscrepancy = 0) :
    ∃ ws, Coming S s ws ∧ ws.Pairwise (Before bitRead 64) ∧ ∀ v, v ∈ ws ↔ v ∈ S := by
  by_cases hne : S = []
  · exact ⟨[], Or.inr hne, .nil, by simp [hne]⟩
  · obtain ⟨w, hw, hpath⟩ : ∃ w ∈ S, OnPath bitRead S s.dirs 64 w := exists_onPath hne 64
    obtain ⟨ws, hafter⟩ := exists_after (distinct_of_valid S) w
    have hfirst : ∀ v ∈ S, v = w ∨ Before bitRead 64 w v := by
      intro v hv
      rcases hpath.first hw (fun i _ => by rw [Searching.dirs, resume, if_pos hlast]) hv with h | h
      · exact Or.inl (eq_of_same h).symm
      · exact Or.inr h
    refine ⟨w :: ws, ⟨hdevice, by omega, hw, hpath, hafter⟩, hafter.sorted, fun v => ?_⟩
    constructor
    · intro hv
      rcases List.mem_cons.mp hv with rfl | hv
      · exact hw
      · exact ((hafter.mem v).mp hv).1
    · intro hv
      rcases hfirst v hv with rfl | h
      · exact List.mem_cons_self
      · exact List.mem_cons_of_mem w ((hafter.mem v).mpr ⟨hv, h⟩)

/-- The bits that a search for a family follows. -/
theorem bitRead_family (searchFamily : UInt8) (i : ℕ) :
    bitRead (#v[searchFamily, 0, 0, 0, 0, 0, 0, 0] : Serno) i =
      if i < 8 then searchFamily.toNat.testBit i else false := by
  have hlist : (#v[searchFamily, 0, 0, 0, 0, 0, 0, 0] : Serno).toList =
    searchFamily :: List.replicate 7 0 := rfl
  rw [bitRead, hlist]
  by_cases hi : i < 8
  · rw [if_pos hi, Nat.div_eq_of_lt hi, Nat.mod_eq_of_lt hi]
    rfl
  · obtain ⟨j, hj⟩ : ∃ j, i / 8 = j + 1 := Nat.exists_eq_succ_of_ne_zero (by omega)
    rw [if_neg hi, hj, List.getD_cons_succ, List.getD_eq_getElem?_getD,
      List.getElem?_getD_replicate_default_eq]
    exact Nat.zero_testBit _

/-- A search for a family finds all of its devices, and what comes after them. -/
theorem coming_family {searchFamily : UInt8} (hS : ∀ v ∈ S, Valid v)
    (hdevice : s.lastDevice = false)
    (hlast : s.lastDiscrepancy = 64) (hserial : s.serialNum = #v[searchFamily, 0, 0, 0, 0, 0, 0, 0])
      :
    ∃ ws, Coming S s ws ∧ ws.Pairwise (Before bitRead 64) ∧ (∀ v ∈ ws, v ∈ S) ∧
      ∀ v ∈ S, readbuffer v 0 = searchFamily → v ∈ ws := by
  by_cases hne : S = []
  · exact ⟨[], Or.inr hne, .nil, by simp, by simp [hne]⟩
  · obtain ⟨w, hw, hpath⟩ : ∃ w ∈ S, OnPath bitRead S s.dirs 64 w := exists_onPath hne 64
    obtain ⟨ws, hafter⟩ := exists_after (distinct_of_valid S) w
    refine ⟨w :: ws, ⟨hdevice, by omega, hw, hpath, hafter⟩, hafter.sorted, fun v hv => ?_,
      fun v hv hfamily => ?_⟩
    · rcases List.mem_cons.mp hv with rfl | hv
      · exact hw
      · exact ((hafter.mem v).mp hv).1
    · by_cases hsame : Same bitRead 64 w v
      · exact eq_of_same hsame ▸ List.mem_cons_self
      · obtain ⟨i, hi, hsame, hne⟩ := exists_parting hsame
        have hdir := (hpath.parts hw hv hi hsame hne).2
        have hi56 : i < 56 := by
          by_contra hge
          have heq := (hS w hw).eq_of_same (hS v hv) (hsame.mono (by omega))
          exact hne (congrArg (bitRead · i) heq)
        rw [Searching.dirs, resume, if_neg (by omega), if_pos (by omega), hserial] at hdir
        have hi8 : 8 ≤ i := by
          by_contra hlt
          rw [bitRead_family, if_pos (by omega)] at hdir
          refine hne (hdir.trans ?_)
          rw [bitRead, Nat.div_eq_of_lt (by omega), Nat.mod_eq_of_lt (by omega), ← hfamily]
          rfl
        rw [bitRead_family, if_neg (by omega)] at hdir
        refine List.mem_cons_of_mem w ((hafter.mem v).mpr ⟨hv, i, hi, hsame, hdir, ?_⟩)
        cases hbit : bitRead v i with
        | true => rfl
        | false => exact absurd (hdir.trans hbit.symm) hne

end
end W1Retap.Bus.Ds2480

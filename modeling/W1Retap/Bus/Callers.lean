import W1Retap.Bus.InStep

/-!
# What uses the library

A caller makes one call of the library after the other, each of them chosen by what the ones before
returned. In every run of every caller the chip stays in the mode that `UMode` says, and does what
the calls ask for, one after the other and nothing else, as long as nothing has to be re-synced.
-/
namespace W1Retap.Bus.Ds2480

open Programs Framing

/-- The calls at one rate of the line, with what they return. -/
inductive Call : Type → Type where
  | ds2480Detect : Call Bool
  | owLevel (newLevel : UInt8) : Call UInt8
  | owTouchReset : Call Bool
  | owTouchBit (sendbit : Int) : Call Bool
  | owTouchByte (sendbyte : Int) : Call UInt8
  | owProgramPulse : Call Bool
  | owWriteBytePower (sendbyte : Int) : Call Bool
  | owReadBytePower : Call UInt8
  | owReadBitPower (applyPowerResponse : Int) : Call Bool
  | owBlock (doReset : Bool) {k : ℕ} (tranBuf : Vector UInt8 k) : Call (Option (Vector UInt8 k))
  | owSerialNum (serialnumBuf : Serno) : Call Unit
  | readSerialNum : Call Serno
  | owFamilySearchSetup (searchFamily : UInt8) : Call Unit
  | owSkipFamily : Call Unit
  | owFirst (doReset alarmOnly : Bool) : Call Bool
  | owNext (doReset alarmOnly : Bool) : Call Bool

/-- The port at the beginning of a search. -/
def Port.resetSearch (p : Port) : Port :=
  { p with lastDiscrepancy := 0, lastDevice := false, lastFamilyDiscrepancy := 0 }

section
variable {α : Type} (com : Com)

def Call.run : Call α → PortM α
  | .ds2480Detect => Ds2480.ds2480Detect com
  | .owLevel newLevel => Ds2480.owLevel com newLevel
  | .owTouchReset => Ds2480.owTouchReset com
  | .owTouchBit sendbit => Ds2480.owTouchBit com sendbit
  | .owTouchByte sendbyte => Ds2480.owTouchByte com sendbyte
  | .owProgramPulse => Ds2480.owProgramPulse com
  | .owWriteBytePower sendbyte => Ds2480.owWriteBytePower com sendbyte
  | .owReadBytePower => Ds2480.owReadBytePower com
  | .owReadBitPower response => Ds2480.owReadBitPower com response
  | .owBlock doReset tranBuf => Ds2480.owBlock com doReset tranBuf
  | .owSerialNum serialnumBuf => Ds2480.owSerialNum serialnumBuf
  | .readSerialNum => Ds2480.readSerialNum
  | .owFamilySearchSetup searchFamily => Ds2480.owFamilySearchSetup searchFamily
  | .owSkipFamily => Ds2480.owSkipFamily
  | .owFirst doReset alarmOnly => Ds2480.owFirst com doReset alarmOnly
  | .owNext doReset alarmOnly => Ds2480.owNext com doReset alarmOnly

/-- What a call that returned `a` asks of the chip, at this state of the port. -/
def Call.asked : Call α → Port → α → List (Op UInt8)
  | .ds2480Detect, _, _ => []
  | .owLevel newLevel, p, _ => levelOps p newLevel
  | .owTouchReset, p, _ => resetOps p
  | .owTouchBit sendbit, p, _ => touchBitOps p sendbit
  | .owTouchByte sendbyte, p, _ => levelOps p modeNormal ++ [.data (UInt8.ofInt sendbyte)]
  | .owProgramPulse, p, _ => programPulseOps p
  | .owWriteBytePower sendbyte, p, _ => powerOps p (UInt8.ofInt sendbyte)
  | .owReadBytePower, p, _ => powerOps p 0xFF
  | .owReadBitPower _, p, ok => readBitOps p ok
  | .owBlock doReset tranBuf, p, _ => blockOps p doReset tranBuf.toList
  | .owSerialNum _, _, _ => []
  | .readSerialNum, _, _ => []
  | .owFamilySearchSetup _, _, _ => []
  | .owSkipFamily, _, _ => []
  | .owFirst doReset alarmOnly, p, _ => nextOps p.resetSearch doReset alarmOnly
  | .owNext doReset alarmOnly, p, _ => nextOps p doReset alarmOnly

/-- A call as the library means it: one of the levels, and where there is the voltage for it; a byte;
a block that fits. -/
def Call.Sound : Call α → Port → Prop
  | .owLevel newLevel, p => Level newLevel ∧ (newLevel = modeProgram → p.programAvailable = true)
  | .owTouchByte sendbyte, _ => Comparable sendbyte
  | .owBlock _ (k := k) tranBuf, _ => k ≤ 160 → Fits tranBuf.toList
  | _, _ => True

end

section
variable {α : Type} {com : Com} {c₀ : Chip} {l₀ : Line} {ops : List (Op UInt8)}

/-- From the port as it is to what the call leaves. -/
theorem keeps_from {p : Port} {m : PortM α} {Q : α → Line → Prop}
    (h : KeepsTo (Unlost (Reached c₀ l₀ (Is True p) ops)) m Q) :
    KeepsTo (fun l => Unlost (Reached c₀ l₀ (Is True p) ops) l ∧ l.port = p) m Q :=
  h.conseq (fun _ hl => hl.1) fun _ _ h => h

theorem Reached.trivial {Φ : Port → Prop} {l : Line} (h : Reached c₀ l₀ Φ ops l) :
    Reached c₀ l₀ (fun _ => True) ops l :=
  h.mono fun _ => ⟨True.intro, rfl⟩

theorem keeps_trivial {m : PortM α} {P : Line → Prop} {Φ : Port → Prop}
    {asked : α → List (Op UInt8)}
    (h : KeepsTo P m fun a => Unlost (Reached c₀ l₀ Φ (ops ++ asked a))) :
    KeepsTo P m fun a => Unlost (Reached c₀ l₀ (fun _ => True) (ops ++ asked a)) :=
  h.conseq (fun _ h => h) fun _ _ h hlost => (h hlost).trivial

/-- A call that only concerns the search state. -/
theorem keeps_setter {p : Port} {f : Port → Port}
    (hf : ∀ p, (f p).mode = p.mode ∧ (f p).speed = p.speed) :
    KeepsTo (Unlost (Reached c₀ l₀ (Is True p) ops)) (modifyPort f)
      fun _ => Unlost (Reached c₀ l₀ (fun _ => True) (ops ++ [])) := by
  rw [List.append_nil]
  exact keeps_searchState hf fun _ _ => True.intro

/-- One call. -/
theorem Call.keeps (c : Call α) {p : Port} (hsound : c.Sound p) :
    KeepsTo (fun l => Unlost (Reached c₀ l₀ (Is True p) ops) l ∧ l.port = p) (c.run com)
      fun a => Unlost (Reached c₀ l₀ (fun _ => True) (ops ++ c.asked p a)) := by
  cases c with
  | ds2480Detect =>
    change KeepsTo _ (Ds2480.ds2480Detect com) fun _ =>
      Unlost (Reached c₀ l₀ (fun _ => True) (ops ++ []))
    exact keeps_detect.conseq (fun _ h hlost => (h.1 hlost).toAdrift) fun _ _ h => h
  | owLevel newLevel =>
    rintro l ⟨hl, rfl⟩
    have hset : KeepsTo (Unlost fun l' => Reached c₀ l₀ (Is True l.port) ops l' ∧ l'.port = l.port)
        (setLevel com l.port newLevel) fun _ => Unlost (Reached c₀ l₀
          (Is True { l.port with level := newLevel }) (ops ++ levelOps l.port newLevel)) :=
      keeps_setLevel hsound.1 hsound.2
    exact fun hlost => (hset l (fun hlost => ⟨hl hlost, rfl⟩) hlost).trivial
  | owTouchReset =>
    have hreset : KeepsTo (Unlost (Reached c₀ l₀ (Is True p) ops)) (Ds2480.owTouchReset com)
        fun ok =>
          Unlost (Reached c₀ l₀ (fun q => ok = true ∧ AfterReset True p q) (ops ++ resetOps p)) :=
      keeps_owTouchReset
    exact keeps_from (hreset.conseq (fun _ h => h) fun _ _ h hlost => (h hlost).trivial)
  | owTouchBit sendbit => exact keeps_trivial (keeps_from keeps_owTouchBit)
  | owTouchByte sendbyte => exact keeps_trivial (keeps_from (keeps_owTouchByte hsound))
  | owProgramPulse => exact keeps_from keeps_owProgramPulse
  | owWriteBytePower sendbyte => exact keeps_trivial (keeps_from keeps_owWriteBytePower)
  | owReadBytePower => exact keeps_trivial (keeps_from keeps_owReadBytePower)
  | owReadBitPower response => exact keeps_from keeps_owReadBitPower
  | owBlock doReset tranBuf => exact keeps_from (keeps_owBlock hsound)
  | owSerialNum serialnumBuf => exact keeps_from (keeps_setter fun _ => ⟨rfl, rfl⟩)
  | readSerialNum =>
    change KeepsTo _ Ds2480.readSerialNum fun _ =>
      Unlost (Reached c₀ l₀ (fun _ => True) (ops ++ []))
    rw [List.append_nil]
    exact fun l hl hlost => (hl.1 hlost).trivial
  | owFamilySearchSetup searchFamily => exact keeps_from (keeps_setter fun _ => ⟨rfl, rfl⟩)
  | owSkipFamily => exact keeps_from (keeps_setter fun _ => ⟨rfl, rfl⟩)
  | owFirst doReset alarmOnly =>
    have hreset : KeepsTo (Unlost (Reached c₀ l₀ (Is True p) ops)) resetSearch
        fun _ => Unlost (Reached c₀ l₀ (Is True p.resetSearch) ops) :=
      keeps_searchState (fun _ => ⟨rfl, rfl⟩) fun q hq => hq.map (f := Port.resetSearch) fun _ _ =>
        rfl
    exact keeps_from (.bind hreset fun _ => keeps_owNext)
  | owNext doReset alarmOnly => exact keeps_from keeps_owNext

end

/-! ## Runs -/

/-- It is done, or makes a call and goes on with what that returns. -/
inductive Caller (α : Type) : Type 1 where
  | done (a : α)
  | call {β : Type} (c : Call β) (k : β → Caller α)

namespace Caller

section
variable {α : Type} (com : Com)

def run : Caller α → PortM α
  | .done a => pure a
  | .call c k => c.run com >>= fun b => (k b).run

/-- What its calls ask of the chip when it starts at this line. -/
def asked : Caller α → Line → List (Op UInt8)
  | .done _, _ => []
  | .call c k, l => c.asked l.port (c.run com l).1 ++ (k (c.run com l).1).asked (c.run com l).2

/-- Each of its calls is one that the library means, where it is made. -/
def Sound : Caller α → Line → Prop
  | .done _, _ => True
  | .call c k, l => c.Sound l.port ∧ (k (c.run com l).1).Sound (c.run com l).2

end

/-- `owWriteByte_` -/
def writeByte (sendbyte : Int) : Caller Bool :=
  .call (.owTouchByte sendbyte) fun b => .done (b = UInt8.ofInt sendbyte)

/-- `owAccess_` -/
def access : Caller Bool :=
  .call .owTouchReset fun ok =>
    if ok then
      .call .readSerialNum fun serialNum =>
        .call (.owBlock false (Vector.singleton (0x55 : UInt8) ++ serialNum)) fun
          | some r => .done (r.toList.drop 1 = serialNum.toList ∧ readbuffer r 0 = 0x55)
          | none => .done false
    else .done false

/-- `owVerify_` -/
def verify (alarmOnly : Bool) : Caller Bool :=
  .call .readSerialNum fun serialNum =>
    .call (.owBlock true
      (Vector.singleton (if alarmOnly then 0xEC else 0xF0 : UInt8) ++ verifyBytes serialNum)) fun
      | some r => .done (8 ≤ goodBits serialNum r (List.range 64) 0)
      | none => .done false

theorem run_writeByte (com : Com) (sendbyte : Int) : (writeByte sendbyte).run com =
    owWriteByte com sendbyte :=
  rfl

theorem run_access (com : Com) : access.run com = owAccess com := by
  simp only [access, run, Call.run, owAccess]
  refine congrArg (owTouchReset com >>= ·) (funext fun ok => ?_)
  cases ok with
  | false => rfl
  | true =>
    simp only [if_pos, run, Call.run, readSerialNum, bind_assoc, pure_bind]
    refine bind_congr fun p => bind_congr fun r => ?_
    cases r with
    | none => rfl
    | some r => rfl

theorem run_verify (com : Com) (alarmOnly : Bool) : (verify alarmOnly).run com =
    owVerify com alarmOnly := by
  simp only [verify, run, Call.run, readSerialNum, owVerify, bind_assoc, pure_bind]
  refine bind_congr fun p => bind_congr fun r => ?_
  cases r with
  | none => rfl
  | some r => rfl

section
variable {α : Type} {com : Com} {c₀ : Chip} {l₀ : Line} {ops : List (Op UInt8)}

/-- A run from a line that was reached. -/
theorem reaches (caller : Caller α) {l : Line} (hsound : caller.Sound com l)
    (hl : Unlost (Reached c₀ l₀ (fun _ => True) ops) l) :
    Unlost (Reached c₀ l₀ (fun _ => True) (ops ++ caller.asked com l)) (caller.run com l).2 := by
  induction caller generalizing l ops with
  | done a =>
    rw [asked, List.append_nil]
    exact hl
  | call c k ih =>
    obtain ⟨hcall, hrest⟩ := hsound
    have hport : Unlost (Reached c₀ l₀ (Is True l.port) ops) l :=
      fun hlost =>
        ⟨⟨(hl hlost).toAdrift, fun _ => ⟨rfl, True.intro⟩, (hl hlost).done⟩, (hl hlost).receiver⟩
    have hstep : Unlost (Reached c₀ l₀ (fun _ => True) (ops ++ c.asked l.port (c.run com l).1))
      (c.run com l).2 :=
      c.keeps hcall l ⟨hport, rfl⟩
    have hrun := ih _ hrest hstep
    rw [asked, ← List.append_assoc]
    exact hrun

end

end Caller

/-! ## Where the library loses the chip -/

section
variable {com : Com} {c₀ : Chip}

/-- Without the voltage `owLevel_` returns before it has sent the change that `UMode` already
says. -/
theorem owLevel_unpowered {l : Line} (hlevel : modeProgram ≠ l.port.level)
    (hvoltage : l.port.programAvailable = false) :
    (owLevel com modeProgram l).2 = { l with port := { l.port with mode := .command } } := by
  have hmode : KeepsTo (fun s => s = l) commandMode
      fun _ s => s = { l with port := { l.port with mode := .command } } := by
    intro s hs
    subst hs
    change (ite (s.port.mode = Framing.Mode.command) (pure [] : PortM (List UInt8)) _ s).2 = _
    by_cases h : s.port.mode = .command
    · rw [if_pos h, ← h]
      rfl
    · rw [if_neg h]
      rfl
  have hset : KeepsTo (fun s => s = l) (setLevel com l.port modeProgram)
      fun _ s => s = { l with port := { l.port with mode := .command } } :=
    .ite (fun h => absurd h hlevel) fun _ => .bind hmode fun _ =>
      .ite (fun _ => .pure fun _ h => h) fun h => absurd ⟨rfl, hvoltage⟩ h
  exact hset l rfl

theorem owLevel_inStep_iff {newLevel : UInt8} {l : Line} (hl : InStep c₀ l)
    (hlevel : Level newLevel)
    (hlost : ¬ Lost (owLevel com newLevel l).2.traffic) :
    InStep c₀ (owLevel com newLevel l).2 ↔
      ¬ (newLevel = modeProgram ∧ l.port.level ≠ modeProgram ∧ l.port.programAvailable = false ∧
        l.port.mode = .data) := by
  have hreached : Reached c₀ l (Is True l.port) [] l :=
    ⟨⟨⟨hl.speed, le_rfl⟩, fun _ => ⟨rfl, True.intro⟩, fun _ => (List.append_nil _).symm⟩,
      hl.receiver⟩
  have hpowered : (newLevel = modeProgram → l.port.programAvailable = true) →
      InStep c₀ (owLevel com newLevel l).2 := by
    intro hvoltage
    have hset : KeepsTo (Unlost fun l' => Reached c₀ l (Is True l.port) [] l' ∧ l'.port = l.port)
        (setLevel com l.port newLevel) fun _ => Unlost (Reached c₀ l
          (Is True { l.port with level := newLevel }) ([] ++ levelOps l.port newLevel)) :=
      keeps_setLevel hlevel hvoltage
    have h := hset l (fun _ => ⟨hreached, rfl⟩) hlost
    exact ⟨h.receiver, h.speed⟩
  by_cases hprogram : newLevel = modeProgram
  swap
  · exact iff_of_true (hpowered fun h => absurd h hprogram) fun h => hprogram h.1
  subst hprogram
  cases hvoltage : l.port.programAvailable with
  | true => exact iff_of_true (hpowered fun _ => hvoltage) fun h => absurd h.2.2.1 (by decide)
  | false =>
    by_cases hsame : modeProgram = l.port.level
    · have hline : (owLevel com modeProgram l).2 = l := by
        change (ite (modeProgram = l.port.level) (pure _ : PortM UInt8) _ l).2 = l
        rw [if_pos hsame]
        rfl
      rw [hline]
      exact iff_of_true hl fun h => h.2.1 hsame.symm
    · rw [owLevel_unpowered hsame hvoltage]
      constructor
      · rintro h ⟨-, -, -, hmode⟩
        have hreceiver := hl.receiver.symm.trans h.receiver
        rw [hmode] at hreceiver
        cases hreceiver
      · intro h
        have hmode : l.port.mode = .command := by
          cases hmode : l.port.mode with
          | command => rfl
          | data => exact absurd ⟨rfl, Ne.symm hsame, rfl, hmode⟩ h
        refine ⟨?_, hl.speed⟩
        rw [← hmode]
        exact hl.receiver

/-- A port whose chip is in data mode, and which has not seen the voltage. -/
theorem not_inStep_unpowered : ¬ InStep { receiver := some (.on .data) }
    (owLevel { writeCOM := fun _ sent => sent.length, readCOM := fun _ _ => none } modeProgram
      { port := { speed := speedselFlex } }).2 := by
  have hlost : ¬ Lost (owLevel { writeCOM := fun _ sent => sent.length, readCOM := fun _ _ => none }
      modeProgram { port := { speed := speedselFlex } }).2.traffic := by
    rintro ⟨count, -, hmem⟩
    exact absurd hmem List.not_mem_nil
  intro h
  refine (owLevel_inStep_iff ⟨rfl, Or.inl rfl⟩ (Or.inr (Or.inr rfl)) hlost).mp h ?_
  exact ⟨rfl, by decide, rfl, rfl⟩

/-! ## Blocks that do not fit -/

theorem length_stuff (bytes : List UInt8) :
    (bytes.flatMap (stuff modeCommand)).length ≤ 2 * bytes.length := by
  induction bytes with
  | nil => exact Nat.le_refl 0
  | cons b bytes ih =>
    have hone : (stuff modeCommand b).length ≤ 2 := by
      unfold stuff
      split
      · exact Nat.le_refl 2
      · exact Nat.le_succ 1
    rw [List.flatMap_cons, List.length_append, List.length_cons]
    omega

theorem length_bytes (packet : Packet) : packet.bytes.length = packet.sendlen.toNat := by
  rw [Packet.bytes, List.length_take, Vector.length_toList]
  exact Nat.min_eq_left (Nat.le_of_lt packet.sendlen.toNat_lt)

theorem sendlen_pushes (packet : Packet) (bytes : List UInt8) :
    (bytes.foldl Packet.push packet).sendlen.toNat = (packet.sendlen.toNat + bytes.length) % 256 :=
      by
  induction bytes generalizing packet with
  | nil => exact (Nat.mod_eq_of_lt packet.sendlen.toNat_lt).symm
  | cons b bytes ih =>
    have hpush : (packet.push b).sendlen.toNat = (packet.sendlen.toNat + 1) % 256 :=
      UInt8.toNat_add packet.sendlen 1
    rw [List.foldl_cons, ih, hpush, List.length_cons, Nat.mod_add_mod]
    congr 1
    omega

/-- The length wraps. -/
theorem sendlen_blockPacket (change bytes : List UInt8) : (blockPacket change bytes).sendlen.toNat =
    (change.length + (bytes.flatMap (stuff modeCommand)).length) % 256 := by
  rw [blockPacket, foldl_add, ← List.foldl_append, sendlen_pushes, List.length_append]
  exact congrArg (· % 256) (Nat.zero_add _)

theorem length_change (mode : Framing.Mode) :
    (Framing.change modeCommand modeData mode .data).length ≤ 1 := by
  cases mode with
  | data => exact Nat.zero_le 1
  | command => exact Nat.le_refl 1

/-- On a line that takes everything and answers. -/
theorem keeps_wholeTransfer {n : ℕ} {t : List Traffic} {r : Receiver} {packet : List UInt8}
    (hr : (chipAfter c₀ t).receiver = some r)
    (hwrite : ∀ t sent, sent.length ≤ com.writeCOM t sent) (hread : ∀ t, (com.readCOM t n).isSome) :
    KeepsTo (fun l => l.traffic = t) (transfer com packet n) fun answer l => answer.isSome ∧
      (chipAfter c₀ l.traffic).ops = (chipAfter c₀ t).ops ++ (receives r packet).2 := by
  have hflush : KeepsTo (fun l => l.traffic = t) flushCOM fun _ l => l.traffic = .flush :: t :=
    .modify fun l h => congrArg (_ :: ·) h
  have hsend : KeepsTo (fun l => l.traffic = .flush :: t) (writeCOM com packet)
      fun ok l => ok = true ∧ l.traffic = .wrote packet packet.length :: .flush :: t := by
    intro l h
    have hcount : min (com.writeCOM l.traffic packet) packet.length = packet.length :=
      Nat.min_eq_right (hwrite l.traffic packet)
    refine ⟨decide_eq_true hcount, ?_⟩
    change .wrote packet (min (com.writeCOM l.traffic packet) packet.length) :: l.traffic = _
    rw [hcount, h]
  refine .bind hflush fun _ => .bind hsend fun ok => .ite (fun _ => ?_) fun hok => ?_
  · rintro l ⟨-, h⟩
    refine ⟨hread l.traffic, ?_⟩
    change (chipAfter c₀ l.traffic).ops = _
    rw [h, chipAfter, List.take_length, chipAfter, Chip.take_some hr]
  · exact fun l h => absurd h.1 hok

/-- A block is sent if and only if its packet fits. -/
theorem owBlock_sent_iff {k : ℕ} {tranBuf : Vector UInt8 k} {l : Line} (hl : InStep c₀ l)
    (hk : k ≤ 160)
    (hwrite : ∀ t sent, sent.length ≤ com.writeCOM t sent) (hread : ∀ t, (com.readCOM t k).isSome) :
    (chipAfter c₀ (owBlock com false tranBuf l).2.traffic).ops =
        (chipAfter c₀ l.traffic).ops ++ tranBuf.toList.map .data ↔
      (if l.port.mode = .data then 0 else 1) + (tranBuf.toList.flatMap (stuff modeCommand)).length <
        256 := by
  have hmode : KeepsTo (fun s => s = l) dataMode fun c s => s.traffic = l.traffic ∧
      c = Framing.change modeCommand modeData l.port.mode .data := by
    intro s hs
    subst hs
    change (ite (s.port.mode = Framing.Mode.data) (pure [] : PortM (List UInt8)) _ s).2.traffic =
      _ ∧
      (ite (s.port.mode = Framing.Mode.data) (pure [] : PortM (List UInt8)) _ s).1 = _
    cases h : s.port.mode with
    | data => exact ⟨rfl, rfl⟩
    | command => exact ⟨rfl, rfl⟩
  have hblock : KeepsTo (fun s => s = l) (owBlock com false tranBuf) fun _ s =>
      (chipAfter c₀ s.traffic).ops = (chipAfter c₀ l.traffic).ops ++ (receives (.on l.port.mode)
        (blockPacket (Framing.change modeCommand modeData l.port.mode .data)
          tranBuf.toList).bytes).2 := by
    refine .ite (fun h => absurd hk (Nat.not_le_of_lt h)) fun _ => ?_
    change KeepsTo _ (sendBlock com tranBuf) _
    refine .bind hmode fun c => .given fun hc =>
      .bind (keeps_wholeTransfer hl.receiver hwrite hread) fun r => ?_
    subst hc
    cases r with
    | none => exact fun s h => absurd h.1 Bool.false_ne_true
    | some r => exact .pure fun s h => h.2
  rw [hblock l rfl, List.append_cancel_left_eq]
  have hlen : (Framing.change modeCommand modeData l.port.mode .data).length =
      if l.port.mode = .data then 0 else 1 := by
    cases l.port.mode with
    | data => rfl
    | command => rfl
  rw [← hlen]
  constructor
  · intro h
    by_contra hno
    have hops := congrArg List.length h
    rw [List.length_map, Vector.length_toList] at hops
    have hshort : (receives (.on l.port.mode) (blockPacket
        (Framing.change modeCommand modeData l.port.mode .data) tranBuf.toList).bytes).2.length ≤
          _ :=
      length_receiveAll _
    have hstuff := length_stuff tranBuf.toList
    have hsend :=
      sendlen_blockPacket (Framing.change modeCommand modeData l.port.mode .data) tranBuf.toList
    have hchange := length_change l.port.mode
    rw [Vector.length_toList] at hstuff
    rw [length_bytes, hsend] at hshort
    omega
  · intro h
    rw [blockPacket_bytes h]
    have hreceive :
      receives (.on l.port.mode) (Framing.change modeCommand modeData l.port.mode .data ++
        tranBuf.toList.flatMap (stuff modeCommand)) = (.on .data, tranBuf.toList.map .data) :=
      receiveAll_data tranBuf.toList
    rw [hreceive]

/-- The longest block, of bytes that all come twice. -/
theorem not_sent_escapes : ¬ (chipAfter { receiver := some (.on .data) } (owBlock
      { writeCOM := fun _ sent => sent.length, readCOM := fun _ n => some (Vector.replicate n 0) }
      false (Vector.replicate 160 0xE3) { port := { speed := speedselFlex } }).2.traffic).ops =
    (chipAfter { receiver := some (.on .data) } []).ops ++
      (Vector.replicate 160 0xE3).toList.map .data := by
  intro h
  have hfits := (owBlock_sent_iff ⟨rfl, Or.inl rfl⟩ (Nat.le_refl 160)
    (fun _ sent => Nat.le_refl sent.length) fun _ => rfl).mp h
  revert hfits
  decide +kernel

end
end W1Retap.Bus.Ds2480

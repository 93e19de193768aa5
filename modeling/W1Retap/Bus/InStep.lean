import W1Retap.Bus.Network
import W1Retap.Support.Lockstep
import W1Retap.Support.Framing

/-!
# The library and the chip in step

The DS2480 receives what is written on the line; after a break it waits for a timing byte and is
in command mode then. Between two calls the chip is in the mode that `UMode` says, and as long as
the library does not have to re-sync, what the chip does is what the calls ask for.
-/
namespace W1Retap.Bus.Ds2480

open Programs Framing

/-! ## The chip -/

/-- The receiver, which is none from a break to the timing byte, and what has been done, in
order. -/
structure Chip where
  receiver : Option Receiver
  ops : List (Op UInt8) := []

def receives : Receiver → List UInt8 → Receiver × List (Op UInt8) := receiveAll modeCommand modeData

def Chip.take (c : Chip) (bytes : List UInt8) : Chip :=
  match c.receiver, bytes with
  | none, [] => c
  | none, _ :: rest =>
    let r := receives (.on .command) rest
    { receiver := some r.1, ops := c.ops ++ r.2 }
  | some r, bytes =>
    let r := receives r bytes
    { receiver := some r.1, ops := c.ops ++ r.2 }

theorem Chip.take_some {c : Chip} {r : Receiver} (h : c.receiver = some r) (bytes : List UInt8) :
    c.take bytes =
      { receiver := some (receives r bytes).1, ops := c.ops ++ (receives r bytes).2 } := by
  unfold Chip.take
  rw [h]

theorem Chip.take_none {c : Chip} (h : c.receiver = none) (byte : UInt8) :
    c.take [byte] = { receiver := some (.on .command), ops := c.ops } := by
  unfold Chip.take
  rw [h]
  exact congrArg (Chip.mk _) (List.append_nil c.ops)

/-- The chip after what has happened on the line, the latest first. -/
def chipAfter (c₀ : Chip) : List Traffic → Chip
  | [] => c₀
  | .wrote sent count :: t => (chipAfter c₀ t).take (sent.take count)
  | .break :: t => { chipAfter c₀ t with receiver := none }
  | .read _ :: t => chipAfter c₀ t
  | .flush :: t => chipAfter c₀ t
  | .baud _ :: t => chipAfter c₀ t
  | .delay _ :: t => chipAfter c₀ t

/-- A timing byte has not gone out. -/
def Lost (t : List Traffic) : Prop := ∃ count, count ≠ 1 ∧ .wrote [0xC1] count ∈ t

def breaks (t : List Traffic) : ℕ := t.count .break

/-- The chip is in the mode that the library thinks it is in. -/
structure InStep (c₀ : Chip) (l : Line) : Prop where
  receiver : (chipAfter c₀ l.traffic).receiver = some (.on l.port.mode)
  speed : l.port.speed = speedselFlex ∨ l.port.speed = speedselOd

/-! ## From one line to a later one -/

section
variable (c₀ : Chip) (l₀ : Line)

/-- Later, perhaps after a break. -/
structure Adrift (l : Line) : Prop where
  speed : l.port.speed = speedselFlex ∨ l.port.speed = speedselOd
  later : breaks l₀.traffic ≤ breaks l.traffic

/-- Without a break, the chip has done `ops` since, and `Φ` holds of the port. -/
structure Aboard (Φ : Port → Prop) (ops : List (Op UInt8)) (l : Line) :
    Prop extends Adrift l₀ l where
  port : breaks l.traffic = breaks l₀.traffic → Φ l.port
  done : breaks l.traffic = breaks l₀.traffic →
    (chipAfter c₀ l.traffic).ops = (chipAfter c₀ l₀.traffic).ops ++ ops

structure Reached (Φ : Port → Prop) (ops : List (Op UInt8)) (l : Line) : Prop
    extends Aboard c₀ l₀ Φ ops l where
  receiver : (chipAfter c₀ l.traffic).receiver = some (.on l.port.mode)

/-- `UMode` has been changed, and `change` is to be sent. -/
structure Turned (wanted : Framing.Mode) (change : List UInt8) (Φ : Port → Prop)
    (ops : List (Op UInt8)) (l : Line) : Prop extends Aboard c₀ l₀ Φ ops l where
  mode : l.port.mode = wanted
  before : ∃ mode, (chipAfter c₀ l.traffic).receiver = some (.on mode) ∧
    change = Framing.change modeCommand modeData mode wanted

/-- A packet that makes the chip do `new` and puts it in step is to be sent. -/
structure Sending (packet : List UInt8) (new : List (Op UInt8)) (Φ : Port → Prop)
    (ops : List (Op UInt8)) (l : Line) : Prop extends Aboard c₀ l₀ Φ ops l where
  takes : ∃ r, (chipAfter c₀ l.traffic).receiver = some r ∧ receives r packet =
    (.on l.port.mode, new)

end

/-- The fact, as long as no timing byte is lost. -/
def Unlost (P : Line → Prop) (l : Line) : Prop := ¬ Lost l.traffic → P l

variable {c₀ : Chip} {l₀ : Line} {Φ Ψ : Port → Prop} {ops new : List (Op UInt8)} {α : Type}

/-- Traffic that the chip does not see. -/
def Traffic.Unseen : Traffic → Prop
  | .wrote _ _ => False
  | .break => False
  | _ => True

theorem chipAfter_unseen {t : Traffic} {ts : List Traffic} (ht : t.Unseen) :
    chipAfter c₀ (t :: ts) = chipAfter c₀ ts := by
  cases t with
  | wrote sent count => cases ht
  | «break» => cases ht
  | _ => rfl

theorem breaks_unseen {t : Traffic} {ts : List Traffic} (ht : t.Unseen) :
    breaks (t :: ts) = breaks ts := by
  cases t with
  | «break» => cases ht
  | _ => rfl

theorem breaks_break (ts : List Traffic) : breaks (.break :: ts) = breaks ts + 1 :=
  List.count_cons_self

theorem Lost.cons {ts : List Traffic} (h : Lost ts) (t : Traffic) : Lost (t :: ts) := by
  obtain ⟨count, hcount, hmem⟩ := h
  exact ⟨count, hcount, List.mem_cons_of_mem t hmem⟩

/-! ## Single steps -/

theorem keeps_tell {P Q : Line → Prop} {t : Traffic}
    (h : ∀ l, P l → Q { l with traffic := t :: l.traffic }) :
    KeepsTo (Unlost P) (tell t) fun _ => Unlost Q :=
  .modify fun l hl hlost => h l (hl fun hl' => hlost (hl'.cons t))

theorem keeps_modifyPort {P Q : Line → Prop} {f : Port → Port}
    (h : ∀ l, P l → Q { l with port := f l.port }) :
    KeepsTo (Unlost P) (modifyPort f) fun _ => Unlost Q :=
  .modify fun l hl hlost => h l (hl hlost)

/-- The port is read. -/
theorem keeps_port {P : Line → Prop} {β : Type} {f : Port → PortM β} {Q : β → Line → Prop}
    (h : ∀ p, KeepsTo (Unlost fun l => P l ∧ l.port = p) (f p) Q) :
    KeepsTo (Unlost P) (port >>= f) Q :=
  fun l hl => h l.port l fun hlost => ⟨hl hlost, rfl⟩

theorem Aboard.unseen {t : Traffic} {l : Line} (h : Aboard c₀ l₀ Φ ops l) (ht : t.Unseen) :
    Aboard c₀ l₀ Φ ops { l with traffic := t :: l.traffic } where
  speed := h.speed
  later := (breaks_unseen ht).symm ▸ h.later
  port hb := h.port ((breaks_unseen ht).symm.trans hb)
  done hb := by
    rw [chipAfter_unseen ht]
    exact h.done ((breaks_unseen ht).symm.trans hb)

theorem Reached.unseen {t : Traffic} {l : Line} (h : Reached c₀ l₀ Φ ops l) (ht : t.Unseen) :
    Reached c₀ l₀ Φ ops { l with traffic := t :: l.traffic } where
  toAboard := h.toAboard.unseen ht
  receiver := (congrArg Chip.receiver (chipAfter_unseen ht)).trans h.receiver

theorem Sending.unseen {t : Traffic} {l : Line} {packet : List UInt8}
    (h : Sending c₀ l₀ packet new Φ ops l) (ht : t.Unseen) :
    Sending c₀ l₀ packet new Φ ops { l with traffic := t :: l.traffic } where
  toAboard := h.toAboard.unseen ht
  takes := by
    rw [chipAfter_unseen ht]
    exact h.takes

theorem Adrift.cons {l : Line} (h : Adrift l₀ l) (t : Traffic) :
    Adrift l₀ { l with traffic := t :: l.traffic } where
  speed := h.speed
  later := h.later.trans List.count_le_count_cons

/-- Sent in full, the packet has its effect. -/
theorem Sending.sent {l : Line} {packet : List UInt8} (h : Sending c₀ l₀ packet new Φ ops l) :
    Reached c₀ l₀ Φ (ops ++ new)
      { l with traffic := .wrote packet packet.length :: l.traffic } := by
  obtain ⟨r, hr, htakes⟩ := h.takes
  have htake : (chipAfter c₀ l.traffic).take (packet.take packet.length) =
      { receiver := some (.on l.port.mode), ops := (chipAfter c₀ l.traffic).ops ++ new } := by
    rw [List.take_length, Chip.take_some hr, htakes]
  constructor
  · refine ⟨⟨h.speed, h.later⟩, h.port, fun hb => ?_⟩
    rw [chipAfter, htake, h.done hb, List.append_assoc]
  · rw [chipAfter, htake]

/-! ## The calls on the line -/

section
variable {com : Com} {packet : List UInt8}

/-- What is known after a packet: it has had its effect, or the chip has to be re-synced. -/
structure Sent (c₀ : Chip) (l₀ : Line) (Φ : Port → Prop) (ops : List (Op UInt8)) (ok : Bool)
    (l : Line) : Prop extends Adrift l₀ l where
  reached : ok = true → Reached c₀ l₀ Φ ops l

theorem keeps_writeCOM : KeepsTo (Unlost (Sending c₀ l₀ packet new Φ ops)) (writeCOM com packet)
    fun ok => Unlost (Sent c₀ l₀ Φ (ops ++ new) ok) := by
  intro l hl
  change ¬ Lost (_ :: l.traffic) → _
  intro hlost
  have h := hl fun hl' => hlost (hl'.cons _)
  refine ⟨h.toAdrift.cons _, fun hok => ?_⟩
  have hcount : min (com.writeCOM l.traffic packet) packet.length = packet.length :=
    of_decide_eq_true hok
  have hsent := h.sent
  rw [← hcount] at hsent
  exact hsent

theorem keeps_readCOM {n : ℕ} :
    KeepsTo (Unlost (Sent c₀ l₀ Φ ops true)) (readCOM com n)
      fun _ => Unlost (Sent c₀ l₀ Φ ops true) := by
  intro l hl
  change ¬ Lost (_ :: l.traffic) → _
  intro hlost
  have h := hl fun hl' => hlost (hl'.cons _)
  exact ⟨h.toAdrift.cons _, fun hok => (h.reached hok).unseen trivial⟩

theorem keeps_transfer {n : ℕ} :
    KeepsTo (Unlost (Sending c₀ l₀ packet new Φ ops)) (transfer com packet n)
      fun r => Unlost (Sent c₀ l₀ Φ (ops ++ new) r.isSome) := by
  refine .bind (keeps_tell fun l h => h.unseen trivial) fun _ => .bind keeps_writeCOM fun ok => ?_
  cases ok with
  | false => exact .pure fun _ h => h
  | true =>
    refine keeps_readCOM.conseq (fun _ h => h) fun r l h hlost => ?_
    exact ⟨(h hlost).toAdrift, fun _ => (h hlost).reached rfl⟩

/-- Commands of which none changes the mode. -/
def PlainBytes (bytes : List UInt8) : Prop := ∀ b ∈ bytes, b ≠ modeCommand ∧ b ≠ modeData

instance (bytes : List UInt8) : Decidable (PlainBytes bytes) :=
  inferInstanceAs (Decidable (∀ b ∈ bytes, b ≠ modeCommand ∧ b ≠ modeData))

theorem receives_commands {bytes : List UInt8} (h : PlainBytes bytes) :
    receives (.on .command) bytes = (.on .command, bytes.map .command) := by
  induction bytes with
  | nil => rfl
  | cons b bytes ih =>
    obtain ⟨hesc, hent⟩ := h b List.mem_cons_self
    have hb : receive modeCommand modeData (.on .command) b = (.on .command, [.command b]) := by
      rw [receive, receiveCommand, if_neg hent, if_neg hesc]
    have hrest := ih fun b hb => h b (List.mem_cons_of_mem _ hb)
    rw [receives] at hrest ⊢
    rw [receiveAll, hb, hrest]
    rfl

/-- After a break, in command mode; `receiver` is none until the timing byte. -/
structure Reset (c₀ : Chip) (l₀ : Line) (receiver : Option Receiver) (l : Line) : Prop where
  mode : l.port.mode = .command
  speed : l.port.speed = speedselFlex
  later : breaks l₀.traffic < breaks l.traffic
  receiver : (chipAfter c₀ l.traffic).receiver = receiver

theorem Reset.unseen {r : Option Receiver} {t : Traffic} {l : Line} (h : Reset c₀ l₀ r l)
    (ht : t.Unseen) : Reset c₀ l₀ r { l with traffic := t :: l.traffic } where
  mode := h.mode
  speed := h.speed
  later := (breaks_unseen ht).symm ▸ h.later
  receiver := (congrArg Chip.receiver (chipAfter_unseen ht)).trans h.receiver

theorem Reset.reached {l : Line} (h : Reset c₀ l₀ (some (.on .command)) l) :
    Reached c₀ l₀ Φ ops l where
  speed := Or.inl h.speed
  later := Nat.le_of_lt h.later
  port hb := absurd hb (Nat.ne_of_gt h.later)
  done hb := absurd hb (Nat.ne_of_gt h.later)
  receiver := by rw [h.mode, h.receiver]

/-- The chip stays in command mode, however much of the commands goes out. -/
theorem keeps_commands (h : PlainBytes packet) {n : ℕ} :
    KeepsTo (Unlost (Reset c₀ l₀ (some (.on .command)))) (transfer com packet n)
      fun _ => Unlost (Reset c₀ l₀ (some (.on .command))) := by
  have hwrite : KeepsTo (Unlost (Reset c₀ l₀ (some (.on .command)))) (writeCOM com packet)
      fun _ => Unlost (Reset c₀ l₀ (some (.on .command))) := by
    intro l hl
    change ¬ Lost (_ :: l.traffic) → _
    intro hlost
    have hr := hl fun hl' => hlost (hl'.cons _)
    refine ⟨hr.mode, hr.speed, hr.later, ?_⟩
    have htake := Chip.take_some hr.receiver
      (packet.take (min (com.writeCOM l.traffic packet) packet.length))
    rw [receives_commands fun b hb => h b (List.mem_of_mem_take hb)] at htake
    exact congrArg Chip.receiver htake
  refine .bind (keeps_tell fun l h => h.unseen trivial) fun _ => .bind hwrite fun ok => ?_
  cases ok with
  | false => exact .pure fun _ h => h
  | true =>
    intro l hl
    change ¬ Lost (_ :: l.traffic) → _
    exact fun hlost => (hl fun hl' => hlost (hl'.cons _)).unseen trivial

/-- The timing byte goes out, or is lost. -/
theorem keeps_timing : KeepsTo (Unlost (Reset c₀ l₀ none)) (writeCOM com [0xC1])
    fun _ => Unlost (Reset c₀ l₀ (some (.on .command))) := by
  intro l hl
  change ¬ Lost (_ :: l.traffic) → _
  intro hlost
  have hr := hl fun hl' => hlost (hl'.cons _)
  refine ⟨hr.mode, hr.speed, hr.later, ?_⟩
  have hcount : min (com.writeCOM l.traffic [0xC1]) [(0xC1 : UInt8)].length = 1 := by
    by_contra hne
    exact hlost ⟨_, hne, List.mem_cons_self⟩
  change ((chipAfter c₀ l.traffic).take ([0xC1].take
    (min (com.writeCOM l.traffic [0xC1]) [(0xC1 : UInt8)].length))).receiver = _
  rw [hcount]
  exact congrArg Chip.receiver (Chip.take_none hr.receiver 0xC1)

/-- After a break the chip is in step again, whatever it answers, unless the timing byte is lost. -/
theorem keeps_detect : KeepsTo (Unlost (Adrift l₀)) (ds2480Detect com)
    fun _ => Unlost (Reached c₀ l₀ Φ ops) := by
  have hport : KeepsTo (Unlost (Adrift l₀))
      (modifyPort fun p => { p with mode := .command, baud := parmset9600, speed := speedselFlex })
      fun _ => Unlost fun l => l.port.mode = .command ∧ l.port.speed = speedselFlex ∧
        breaks l₀.traffic ≤ breaks l.traffic :=
    keeps_modifyPort fun l h => ⟨rfl, rfl, h.later⟩
  have hbaud : KeepsTo (Unlost fun l => l.port.mode = .command ∧ l.port.speed = speedselFlex ∧
      breaks l₀.traffic ≤ breaks l.traffic) (setBaudCOM parmset9600)
      fun _ => Unlost fun l => l.port.mode = .command ∧ l.port.speed = speedselFlex ∧
        breaks l₀.traffic ≤ breaks l.traffic :=
    keeps_tell fun l h => h
  have hbreak : KeepsTo (Unlost fun l => l.port.mode = .command ∧ l.port.speed = speedselFlex ∧
      breaks l₀.traffic ≤ breaks l.traffic) breakCOM fun _ => Unlost (Reset c₀ l₀ none) := by
    refine keeps_tell fun l h => ⟨h.1, h.2.1, ?_, rfl⟩
    rw [breaks_break]
    exact Nat.lt_succ_of_le h.2.2
  refine .bind hport fun _ => .bind hbaud fun _ => .bind hbreak fun _ => ?_
  refine .bind (keeps_tell fun l h => h.unseen trivial) fun _ => ?_
  refine .bind (keeps_tell fun l h => h.unseen trivial) fun _ => .bind keeps_timing fun ok => ?_
  cases ok with
  | false => exact .pure fun _ h hlost => (h hlost).reached
  | true =>
    refine .bind (keeps_tell fun l h => h.unseen trivial) fun _ => ?_
    refine .bind (keeps_commands (by decide +kernel)) fun r => ?_
    cases r with
    | none => exact .pure fun _ h hlost => (h hlost).reached
    | some r => exact .pure fun _ h hlost => (h hlost).reached

theorem keeps_resync {a : α} : KeepsTo (Unlost (Adrift l₀)) (resync com a)
    fun _ => Unlost (Reached c₀ l₀ Φ ops) :=
  .bind keeps_detect fun _ => .pure fun _ h => h

/-! ## Changes of the mode -/

/-- The fact says nothing about the mode. -/
def Modeless (Φ : Port → Prop) : Prop := ∀ p mode, Φ p → Φ { p with mode }

theorem Reached.mono {ops' : List (Op UInt8)} {l : Line} (h : Reached c₀ l₀ Φ ops l)
    (hΦ : Φ l.port → Ψ l.port ∧ ops = ops') : Reached c₀ l₀ Ψ ops' l where
  speed := h.speed
  later := h.later
  port hb := (hΦ (h.port hb)).1
  done hb := (h.done hb).trans (congrArg (_ ++ ·) (hΦ (h.port hb)).2)
  receiver := h.receiver

theorem keeps_changeMode {wanted : Framing.Mode} {byte : UInt8} (hΦ : Modeless Φ)
    (hbyte : ∀ mode, mode ≠ wanted → [byte] = change modeCommand modeData mode wanted) :
    KeepsTo (Unlost (Reached c₀ l₀ Φ ops)) (changeMode wanted byte)
      fun change => Unlost (Turned c₀ l₀ wanted change Φ ops) := by
  refine keeps_port fun p => .ite (fun hmode => .pure fun l h hlost => ?_) fun hmode => ?_
  · obtain ⟨hr, rfl⟩ := h hlost
    refine ⟨hr.toAboard, hmode, l.port.mode, hr.receiver, ?_⟩
    simp [Framing.change, hmode]
  · refine .bind (keeps_modifyPort (Q := Turned c₀ l₀ wanted [byte] Φ ops) fun l h => ?_) fun _ =>
      .pure fun _ h => h
    obtain ⟨hr, rfl⟩ := h
    exact ⟨⟨⟨hr.speed, hr.later⟩, fun hb => hΦ _ _ (hr.port hb), hr.done⟩, rfl, l.port.mode,
      hr.receiver, hbyte _ hmode⟩

theorem keeps_commandMode (hΦ : Modeless Φ) :
    KeepsTo (Unlost (Reached c₀ l₀ Φ ops)) commandMode
      fun change => Unlost (Turned c₀ l₀ .command change Φ ops) :=
  keeps_changeMode hΦ fun mode hmode => by
    cases mode with
    | data => rfl
    | command => exact absurd rfl hmode

theorem keeps_dataMode (hΦ : Modeless Φ) :
    KeepsTo (Unlost (Reached c₀ l₀ Φ ops)) dataMode
      fun change => Unlost (Turned c₀ l₀ .data change Φ ops) :=
  keeps_changeMode hΦ fun mode hmode => by
    cases mode with
    | data => exact absurd rfl hmode
    | command => rfl

/-- Behind the change come commands. -/
theorem Turned.commands {change bytes : List UInt8} {l : Line}
    (h : Turned c₀ l₀ .command change Φ ops l) (hbytes : PlainBytes bytes) (hne : bytes ≠ []) :
    Sending c₀ l₀ (change ++ bytes) (bytes.map .command) Φ ops l := by
  obtain ⟨mode, hr, rfl⟩ := h.before
  refine ⟨h.toAboard, _, hr, ?_⟩
  rw [h.mode]
  exact receiveAll_commands hbytes hne

/-- Behind the change come data, stuffed. -/
theorem Turned.data {change bytes : List UInt8} {l : Line}
    (h : Turned c₀ l₀ .data change Φ ops l) :
    Sending c₀ l₀ (change ++ bytes.flatMap (stuff modeCommand)) (bytes.map .data) Φ ops l := by
  obtain ⟨mode, hr, rfl⟩ := h.before
  refine ⟨h.toAboard, _, hr, ?_⟩
  rw [h.mode]
  exact receiveAll_data bytes

/-- What is known of the port that was read is known of it. -/
theorem keeps_turnedPort {β : Type} {wanted : Framing.Mode} {change : List UInt8}
    {f : Port → PortM β}
    {Q : β → Line → Prop} (h : ∀ p, KeepsTo (Unlost fun l =>
      Turned c₀ l₀ wanted change (fun q => Φ q ∧ Φ p) ops l ∧ l.port = p) (f p) Q) :
    KeepsTo (Unlost (Turned c₀ l₀ wanted change Φ ops)) (port >>= f) Q :=
  keeps_port fun p => (h p).conseq (fun l hl hlost => by
    obtain ⟨ht, rfl⟩ := hl hlost
    exact ⟨⟨⟨ht.toAdrift, fun hb => ⟨ht.port hb, ht.port hb⟩, ht.done⟩, ht.mode, ht.before⟩, rfl⟩)
    fun _ _ h => h

/-! ## The functions -/

/-- After a break nothing is known of the port. -/
theorem Reached.any {l : Line} (h : Reached c₀ l₀ (fun _ => False) [] l) : Reached c₀ l₀ Φ ops l :=
  ⟨⟨h.toAdrift, fun hb => absurd (h.port hb) id, fun hb => absurd (h.port hb) id⟩, h.receiver⟩

/-- Where something went wrong, anything goes on from there. -/
theorem keeps_failed {P : Line → Prop} {Ψ : α → Port → Prop} {a : α} {ops' : α → List (Op UInt8)}
    (hP : ∀ l, P l → Adrift l₀ l) :
    KeepsTo (Unlost P) (resync com a) fun b => Unlost (Reached c₀ l₀ (Ψ b) (ops' b)) := by
  have hresync : KeepsTo (Unlost P) (resync com a) fun _ =>
    Unlost (Reached c₀ l₀ (fun _ => False) []) :=
    keeps_resync.conseq (fun l h hlost => hP l (h hlost)) fun _ _ h => h
  exact hresync.conseq (fun _ h => h) fun _ _ h hlost => (h hlost).any

/-- A packet with a response; where it fails, the chip is re-synced. -/
theorem keeps_exchange {n : ℕ} {k : Option (Vector UInt8 n) → PortM α} {new' : List (Op UInt8)}
    {Q : α → Line → Prop} (hΦ : ∀ p, Φ p → new = new')
    (hfail : KeepsTo (Unlost (Adrift l₀)) (k none) fun a => Unlost (Q a))
    (hsome : ∀ r, KeepsTo (Unlost (Reached c₀ l₀ Φ (ops ++ new'))) (k (some r)) fun a =>
      Unlost (Q a)) :
    KeepsTo (Unlost (Sending c₀ l₀ packet new Φ ops)) (transfer com packet n >>= k)
      fun a => Unlost (Q a) := by
  refine .bind keeps_transfer fun r => ?_
  cases r with
  | none => exact hfail.conseq (fun l h hlost => (h hlost).toAdrift) fun _ _ h => h
  | some r =>
    refine (hsome r).conseq (fun l h hlost => ?_) fun _ _ h => h
    exact ((h hlost).reached rfl).mono fun hp => ⟨hp, congrArg (ops ++ ·) (hΦ _ hp)⟩

/-- The port is that one, but for the mode; and something else is known. -/
def Is (φ : Prop) (p q : Port) : Prop := { q with mode := p.mode } = p ∧ φ

variable {φ : Prop}

theorem modeless_is (p : Port) : Modeless (Is φ p) := fun _ _ h => h

theorem Modeless.and (hΦ : Modeless Φ) (φ : Prop) : Modeless fun q => Φ q ∧ φ :=
  fun p mode h => ⟨hΦ p mode h.1, h.2⟩

theorem Is.available {p q : Port} (h : Is φ p q) : p.programAvailable = q.programAvailable := by
  rw [← h.1]

/-- What is read of the port is known of it from then on. -/
theorem keeps_readIs {β : Type} {p : Port} {f : Port → PortM β} {Q : β → Line → Prop}
    (h : ∀ q, KeepsTo (Unlost (Reached c₀ l₀ (Is (Is φ p q) p) ops)) (f q) Q) :
    KeepsTo (Unlost (Reached c₀ l₀ (Is φ p) ops)) (port >>= f) Q :=
  keeps_port fun q => (h q).conseq (fun l hl hlost => by
    obtain ⟨hr, rfl⟩ := hl hlost
    exact hr.mono fun hp => ⟨⟨hp.1, hp⟩, rfl⟩) fun _ _ h => h

/-- The commands that put the net back to normal. -/
def stopCommands : List UInt8 := [modeStopPulse,
  cmdComm ||| functselChmod ||| speedselPulse ||| bitpol5V ||| prime5VFalse, modeStopPulse]

/-- What `owLevel_` has the chip do. -/
def levelOps (p : Port) (newLevel : UInt8) : List (Op UInt8) :=
  if newLevel = p.level then []
  else if newLevel = modeNormal then stopCommands.map .command
  else (pulseCommands newLevel).map .command

theorem plain_stopCommands : PlainBytes stopCommands := by decide +kernel

theorem plain_pulseCommands (newLevel : UInt8) : PlainBytes (pulseCommands newLevel) := by
  unfold pulseCommands
  split
  · decide +kernel
  · split
    · decide +kernel
    · decide +kernel

/-- The level that the call is to set, if there is one. -/
def Level (newLevel : UInt8) : Prop :=
  newLevel = modeNormal ∨ newLevel = modeStrong5 ∨ newLevel = modeProgram

theorem Adrift.unsent {l : Line} (h : Adrift l₀ l) : Sent c₀ l₀ Φ ops false l :=
  ⟨h, fun hok => absurd hok Bool.false_ne_true⟩

/-- A packet after which the level is a new one, if the response is good. -/
theorem keeps_pulse {n : ℕ} {k : Option (Vector UInt8 n) → PortM α} {g : Vector UInt8 n → Prop}
    [DecidablePred g] {x : UInt8} {v : Vector UInt8 n → α} {b : α} (ok : α → Bool)
    (hbad : ok b = false) (hnone : k none = pure b)
    (hsome : ∀ r, k (some r) = if g r then
      (do modifyPort fun p => { p with level := x }
          return v r) else return b)
    (hΦ : ∀ p, Φ p → Ψ { p with level := x }) :
    KeepsTo (Unlost (Sending c₀ l₀ packet new Φ ops)) (transfer com packet n >>= k)
      fun a => Unlost (Sent c₀ l₀ Ψ (ops ++ new) (ok a)) := by
  refine .bind keeps_transfer fun r => ?_
  cases r with
  | none =>
    rw [hnone]
    exact .pure fun l h hlost => hbad ▸ (h hlost).toAdrift.unsent
  | some r =>
    rw [hsome]
    refine .ite (fun _ => ?_) fun _ => .pure fun l h hlost => hbad ▸ (h hlost).toAdrift.unsent
    have hmodify :
      KeepsTo (Unlost (Sent c₀ l₀ Φ (ops ++ new) true)) (modifyPort fun p => { p with level := x })
        fun _ => Unlost (Reached c₀ l₀ Ψ (ops ++ new)) :=
      keeps_modifyPort fun l h => by
        have hr := h.reached rfl
        exact ⟨⟨⟨h.speed, h.later⟩, fun hb => hΦ _ (hr.port hb), hr.done⟩, hr.receiver⟩
    exact .bind hmodify fun _ => .pure fun l h hlost => ⟨(h hlost).toAdrift, fun _ => h hlost⟩

theorem keeps_stopPulse {change : List UInt8} (hΦ : ∀ p, Φ p → Ψ { p with level := modeNormal }) :
    KeepsTo (Unlost (Turned c₀ l₀ .command change Φ ops)) (stopPulse com change)
      fun ok => Unlost (Sent c₀ l₀ Ψ (ops ++ stopCommands.map .command) ok) :=
  (keeps_pulse id rfl rfl (fun _ => rfl) hΦ).conseq
    (fun _ h hlost => (h hlost).commands plain_stopCommands (List.cons_ne_nil _ _)) fun _ _ h => h

theorem keeps_startPulse {change : List UInt8} {newLevel : UInt8}
    (hne : pulseCommands newLevel ≠ [])
    (hΦ : ∀ p, Φ p → Ψ { p with level := newLevel }) :
    KeepsTo (Unlost (Turned c₀ l₀ .command change Φ ops)) (startPulse com newLevel change)
      fun ok => Unlost (Sent c₀ l₀ Ψ (ops ++ (pulseCommands newLevel).map .command) ok) :=
  (keeps_pulse id rfl rfl (fun _ => rfl) hΦ).conseq
    (fun _ h hlost => (h hlost).commands (plain_pulseCommands newLevel) hne) fun _ _ h => h

theorem pulseCommands_ne_nil {newLevel : UInt8} (h : Level newLevel)
    (hnormal : newLevel ≠ modeNormal) :
    pulseCommands newLevel ≠ [] := by
  rcases h with h | rfl | rfl
  · exact absurd h hnormal
  · exact List.cons_ne_nil _ _
  · exact List.cons_ne_nil _ _

/-- Where a result says that something went wrong, the chip is re-synced. -/
theorem keeps_recover {rt : Bool} : KeepsTo (Unlost (Sent c₀ l₀ Φ ops rt)) (recover com rt)
    fun _ => Unlost (Reached c₀ l₀ Φ ops) := by
  cases rt with
  | false => exact keeps_failed fun _ h => h.toAdrift
  | true => exact .pure fun l h hlost => (h hlost).reached rfl

theorem Is.speed {p q : Port} (h : Is φ p q) : p.speed = q.speed := by
  rw [← h.1]

/-- A fact about the port that does not depend on the mode carries over. -/
theorem Is.map {p q : Port} {f : Port → Port} (h : Is φ p q)
    (hf : ∀ q mode, f { q with mode } = { f q with mode }) : Is φ (f p) (f q) := by
  obtain ⟨hp, hφ⟩ := h
  refine ⟨?_, hφ⟩
  have hmode : (f p).mode = p.mode := by
    have h := congrArg Port.mode (hf p p.mode)
    exact h
  rw [hmode, ← hf, hp]

theorem Sent.mono {ok : Bool} {ops' : List (Op UInt8)} {l : Line} (h : Sent c₀ l₀ Φ ops ok l)
    (hΦ : ∀ q, Φ q → Ψ q ∧ ops = ops') : Sent c₀ l₀ Ψ ops' ok l :=
  ⟨h.toAdrift, fun hok => (h.reached hok).mono (hΦ _)⟩

theorem keeps_changeLevel {p : Port} {newLevel : UInt8} {change : List UInt8}
    (hlevel : Level newLevel)
    (hΦ : ∀ q, Φ q → Is φ p q ∧ newLevel ≠ p.level) :
    KeepsTo (Unlost (Turned c₀ l₀ .command change Φ ops)) (changeLevel com newLevel change)
      fun rt => Unlost
        (Sent c₀ l₀ (Is φ { p with level := newLevel }) (ops ++ levelOps p newLevel) rt) := by
  have hset : ∀ q, Φ q → Is φ { p with level := newLevel } { q with level := newLevel } ∧
      newLevel ≠ p.level := by
    intro q hq
    obtain ⟨hp, hdiff⟩ := hΦ q hq
    exact ⟨hp.map (f := fun q => { q with level := newLevel }) fun _ _ => rfl, hdiff⟩
  refine .ite (fun hnormal => ?_) fun hpulse => ?_
  · subst hnormal
    have hstop : KeepsTo (Unlost (Turned c₀ l₀ .command change Φ ops)) (stopPulse com change)
        fun rt =>
          Unlost (Sent c₀ l₀ (fun q => Is φ { p with level := modeNormal } q ∧ modeNormal ≠ p.level)
          (ops ++ stopCommands.map .command) rt) := keeps_stopPulse hset
    refine hstop.conseq (fun _ h => h) fun rt l h hlost => (h hlost).mono fun q hq => ?_
    rw [levelOps, if_neg hq.2, if_pos rfl]
    exact ⟨hq.1, rfl⟩
  · have hstart :
      KeepsTo (Unlost (Turned c₀ l₀ .command change Φ ops)) (startPulse com newLevel change)
        fun rt =>
          Unlost (Sent c₀ l₀ (fun q => Is φ { p with level := newLevel } q ∧ newLevel ≠ p.level)
          (ops ++ (pulseCommands newLevel).map .command) rt) :=
      keeps_startPulse (pulseCommands_ne_nil hlevel hpulse) hset
    refine hstart.conseq (fun _ h => h) fun rt l h hlost => (h hlost).mono fun q hq => ?_
    rw [levelOps, if_neg hq.2, if_neg hpulse]
    exact ⟨hq.1, rfl⟩

theorem keeps_setLevel {p q : Port} {newLevel : UInt8} (hlevel : Level newLevel)
    (hvoltage : newLevel = modeProgram → q.programAvailable = true) :
    KeepsTo (Unlost fun l => Reached c₀ l₀ (Is φ p) ops l ∧ l.port = q) (setLevel com q newLevel)
      fun _ => Unlost
        (Reached c₀ l₀ (Is φ { p with level := newLevel }) (ops ++ levelOps p newLevel)) := by
  refine .ite (fun hsame => .pure fun l h hlost => ?_) fun hdiff => ?_
  · obtain ⟨hr, rfl⟩ := h hlost
    refine hr.mono fun hp => ?_
    have hp' : newLevel = p.level := by rw [hsame, ← hp.1]
    refine ⟨?_, by rw [levelOps, if_pos hp', List.append_nil]⟩
    rw [hp']
    exact hp
  · have hturn : KeepsTo (Unlost fun l => Reached c₀ l₀ (Is φ p) ops l ∧ l.port = q) commandMode
        fun change =>
          Unlost (Turned c₀ l₀ .command change (fun r => Is φ p r ∧ newLevel ≠ p.level) ops) :=
      (keeps_commandMode ((modeless_is p).and _)).conseq (fun l h hlost => by
        obtain ⟨hr, rfl⟩ := h hlost
        refine hr.mono fun hp => ⟨⟨hp, fun hp' => hdiff ?_⟩, rfl⟩
        rw [hp', ← hp.1]) fun _ _ h => h
    refine .bind hturn fun change => .ite (fun hno => ?_) fun _ => ?_
    · rw [hvoltage hno.1] at hno
      exact absurd hno.2.symm Bool.false_ne_true
    · refine .bind (keeps_changeLevel hlevel fun q hq => hq) fun rt => .bind keeps_recover fun _ =>
        ?_
      exact keeps_port fun r => .pure fun l h hlost => (h hlost).1

/-- A port whose net is at its normal level. -/
def Port.normal (p : Port) : Port := { p with level := modeNormal }

theorem keeps_normalLevel {p : Port} :
    KeepsTo (Unlost (Reached c₀ l₀ (Is φ p) ops)) (owLevel com modeNormal)
      fun _ => Unlost (Reached c₀ l₀ (Is φ p.normal) (ops ++ levelOps p modeNormal)) :=
  keeps_port fun _ => keeps_setLevel (Or.inl rfl) fun h => absurd h (by decide)

/-- Commands that the speed of the port may be part of, and their response. -/
theorem keeps_command {p : Port} {n : ℕ} {bytes : Port → List UInt8}
    {k : Option (Vector UInt8 n) → PortM α} {Q : α → Line → Prop}
    (hplain : ∀ q, q.speed = speedselFlex ∨ q.speed = speedselOd → PlainBytes (bytes q))
    (hne : ∀ q, bytes q ≠ []) (hsame : ∀ q, Is φ p q → bytes q = bytes p)
    (hfail : KeepsTo (Unlost (Adrift l₀)) (k none) fun a => Unlost (Q a))
    (hsome : ∀ r,
      KeepsTo (Unlost (Reached c₀ l₀ (Is φ p) (ops ++ (bytes p).map .command))) (k (some r))
      fun a => Unlost (Q a)) :
    KeepsTo (Unlost (Reached c₀ l₀ (Is φ p) ops))
      (commandMode >>= fun change => port >>= fun q => transfer com (change ++ bytes q) n >>= k)
      fun a => Unlost (Q a) := by
  refine .bind (keeps_commandMode (modeless_is p)) fun change => keeps_turnedPort fun q => ?_
  have hexchange : KeepsTo (Unlost (Sending c₀ l₀ (change ++ bytes q) ((bytes q).map .command)
      (fun r => Is φ p r ∧ Is φ p q) ops)) (transfer com (change ++ bytes q) n >>= k) fun a =>
        Unlost (Q a) := by
    refine keeps_exchange (fun _ h => ?_) hfail fun r => (hsome r).conseq
      (fun l h hlost => (h hlost).mono fun hp => ⟨hp.1, rfl⟩) fun _ _ h => h
    rw [hsame q h.2]
  refine hexchange.conseq (fun l h hlost => ?_) fun _ _ h => h
  obtain ⟨ht, rfl⟩ := h hlost
  exact ht.commands (hplain _ ht.speed) (hne _)

theorem plain_reset (q : Port) (h : q.speed = speedselFlex ∨ q.speed = speedselOd) :
    PlainBytes [cmdComm ||| functselReset ||| q.speed] := by
  rcases h with h | h
  · rw [h]
    decide +kernel
  · rw [h]
    decide +kernel

/-- What is left of the port by a reset: the response says something about the chip. -/
def AfterReset (φ : Prop) (p q : Port) : Prop :=
  Is φ { p.normal with version := q.version, programAvailable := q.programAvailable } q

/-- The operations of a reset. -/
def resetOps (p : Port) : List (Op UInt8) :=
  levelOps p modeNormal ++ [.command (cmdComm ||| functselReset ||| p.speed)]

theorem keeps_owTouchReset {p : Port} :
    KeepsTo (Unlost (Reached c₀ l₀ (Is φ p) ops)) (owTouchReset com)
      fun ok =>
        Unlost (Reached c₀ l₀ (fun q => ok = true ∧ AfterReset φ p q) (ops ++ resetOps p)) := by
  refine .bind keeps_normalLevel fun _ => ?_
  rw [resetOps, ← List.append_assoc]
  refine keeps_command plain_reset (fun _ => List.cons_ne_nil _ _) (fun q h => by rw [h.speed])
    (keeps_failed fun _ h => h) fun r => .ite (fun _ => ?_) fun _ => ?_
  · refine .bind (keeps_modifyPort fun l h => ?_) fun _ => .pure fun _ h => h
    refine ⟨⟨⟨h.speed, h.later⟩, fun hb => ⟨rfl, ?_⟩, h.done⟩, h.receiver⟩
    obtain ⟨hp, hφ⟩ : Is φ p.normal l.port := h.port hb
    refine ⟨?_, hφ⟩
    rw [← hp]
  · exact keeps_failed fun _ h => h.toAdrift

theorem plain_bitCommand (bit : Bool) (q : Port) (h : q.speed = speedselFlex ∨ q.speed = speedselOd)
    (prime : Bool) :
      bitCommand bit q.speed ||| (if prime then prime5VTrue else prime5VFalse) ≠ modeCommand ∧
      bitCommand bit q.speed ||| (if prime then prime5VTrue else prime5VFalse) ≠ modeData := by
  have hall : ∀ bit prime : Bool, ∀ speed ∈ [speedselFlex, speedselOd],
      bitCommand bit speed ||| (if prime then prime5VTrue else prime5VFalse) ≠ modeCommand ∧
        bitCommand bit speed ||| (if prime then prime5VTrue else prime5VFalse) ≠ modeData := by
    decide +kernel
  refine hall bit prime q.speed ?_
  simpa using h

def touchBitOps (p : Port) (sendbit : Int) : List (Op UInt8) :=
  levelOps p modeNormal ++ [.command (bitCommand (sendbit ≠ 0) p.speed)]

theorem keeps_owTouchBit {p : Port} {sendbit : Int} :
    KeepsTo (Unlost (Reached c₀ l₀ (Is φ p) ops)) (owTouchBit com sendbit)
      fun _ => Unlost (Reached c₀ l₀ (Is φ p.normal) (ops ++ touchBitOps p sendbit)) := by
  refine .bind keeps_normalLevel fun _ => ?_
  rw [touchBitOps, ← List.append_assoc]
  refine keeps_command (fun q h b hb => ?_) (fun _ => List.cons_ne_nil _ _)
    (fun q h => by rw [h.speed]) (keeps_failed fun _ h => h) fun r => .pure fun _ h => h
  obtain rfl := List.mem_singleton.mp hb
  have hplain := plain_bitCommand (decide (sendbit ≠ 0)) q h false
  simpa [prime5VFalse] using hplain

/-- Data, and their response. -/
theorem keeps_data {n : ℕ} {bytes packet : List UInt8} {change : List UInt8}
    {k : Option (Vector UInt8 n) → PortM α} {Q : α → Line → Prop}
    (hpacket : packet = change ++ bytes.flatMap (stuff modeCommand))
    (hfail : KeepsTo (Unlost (Adrift l₀)) (k none) fun a => Unlost (Q a))
    (hsome : ∀ r, KeepsTo (Unlost (Reached c₀ l₀ Φ (ops ++ bytes.map .data))) (k (some r))
      fun a => Unlost (Q a)) :
    KeepsTo (Unlost (Turned c₀ l₀ .data change Φ ops)) (transfer com packet n >>= k)
      fun a => Unlost (Q a) := by
  rw [hpacket]
  exact (keeps_exchange (fun _ _ => rfl) hfail hsome).conseq
    (fun l h hlost => (h hlost).data) fun _ _ h => h

/-- A byte that is compared with the change to command mode as what it is. -/
def Comparable (sendbyte : Int) : Prop :=
  UInt8.ofInt sendbyte = modeCommand → sendbyte = modeCommand.toNat

theorem touchPacket_eq {sendbyte : Int} (h : Comparable sendbyte) :
    touchPacket sendbyte = [UInt8.ofInt sendbyte].flatMap (stuff modeCommand) := by
  rw [List.flatMap_singleton, stuff, touchPacket]
  by_cases hbyte : UInt8.ofInt sendbyte = modeCommand
  · rw [if_pos (h hbyte), if_pos hbyte]
    rfl
  · rw [if_neg hbyte, if_neg fun heq => hbyte (by rw [heq]; rfl)]
    rfl

theorem keeps_owTouchByte {p : Port} {sendbyte : Int} (h : Comparable sendbyte) :
    KeepsTo (Unlost (Reached c₀ l₀ (Is φ p) ops)) (owTouchByte com sendbyte)
      fun _ => Unlost (Reached c₀ l₀ (Is φ p.normal)
        (ops ++ (levelOps p modeNormal ++ [.data (UInt8.ofInt sendbyte)]))) := by
  refine .bind keeps_normalLevel fun _ => .bind (keeps_dataMode (modeless_is _)) fun change => ?_
  rw [← List.append_assoc]
  exact keeps_data (congrArg (change ++ ·) (touchPacket_eq h)) (keeps_failed fun _ h => h)
    fun r => .pure fun _ h => h

theorem plain_powerBits (byte : UInt8) (q : Port)
    (h : q.speed = speedselFlex ∨ q.speed = speedselOd) :
    PlainBytes (durationInfinite :: powerBits byte q.speed) := by
  intro b hb
  rcases List.mem_cons.mp hb with rfl | hb
  · decide +kernel
  · obtain ⟨i, -, rfl⟩ := List.mem_map.mp hb
    have hplain := plain_bitCommand (byte.toNat.testBit i) q h (decide (i = 7))
    simpa using hplain

def powerOps (p : Port) (byte : UInt8) : List (Op UInt8) :=
  (durationInfinite :: powerBits byte p.speed).map .command

theorem keeps_transferPower {p : Port} {byte : UInt8} :
    KeepsTo (Unlost (Reached c₀ l₀ (Is φ p) ops)) (transferPower com byte)
      fun echo => Unlost (Sent c₀ l₀ (Is φ { p with level := modeStrong5 }) (ops ++ powerOps p byte)
        echo.isSome) := by
  refine .bind (keeps_commandMode (modeless_is p)) fun change => keeps_turnedPort fun q => ?_
  refine KeepsTo.conseq
    (P := Unlost
      (Sending c₀ l₀ (change ++ durationInfinite :: powerBits byte q.speed) (powerOps q byte)
      (fun r => Is φ p r ∧ Is φ p q) ops))
    (Q := fun echo =>
      Unlost (Sent c₀ l₀ (fun r => Is φ { p with level := modeStrong5 } r ∧ Is φ p q)
      (ops ++ powerOps q byte) echo.isSome))
    ?_ (fun l h hlost => ?_) fun echo l h hlost => (h hlost).mono fun r hr => ⟨hr.1, ?_⟩
  · refine keeps_pulse (g := fun r => readbuffer r 0 &&& 0x81 = 0) (v := fun r => some (echoByte r))
      (b := none) (x := modeStrong5) Option.isSome ?_ ?_ ?_ ?_
    · rfl
    · rfl
    · exact fun _ => rfl
    · exact fun r hr =>
        ⟨hr.1.map (f := fun q => { q with level := modeStrong5 }) fun _ _ => rfl, hr.2⟩
  · obtain ⟨ht, rfl⟩ := h hlost
    exact ht.commands (plain_powerBits byte _ ht.speed) (List.cons_ne_nil _ _)
  · rw [powerOps, powerOps, hr.2.speed]

theorem keeps_owWriteBytePower {p : Port} {sendbyte : Int} :
    KeepsTo (Unlost (Reached c₀ l₀ (Is φ p) ops)) (owWriteBytePower com sendbyte)
      fun _ => Unlost (Reached c₀ l₀ (Is φ { p with level := modeStrong5 })
        (ops ++ powerOps p (UInt8.ofInt sendbyte))) := by
  refine .bind keeps_transferPower fun echo => ?_
  cases echo with
  | none => exact keeps_failed fun _ h => h.toAdrift
  | some echo =>
    refine .ite (fun _ => .pure fun l h hlost => (h hlost).reached rfl) fun _ => ?_
    exact keeps_failed fun _ h => h.toAdrift

theorem keeps_owReadBytePower {p : Port} :
    KeepsTo (Unlost (Reached c₀ l₀ (Is φ p) ops)) (owReadBytePower com)
      fun _ => Unlost
        (Reached c₀ l₀ (Is φ { p with level := modeStrong5 }) (ops ++ powerOps p 0xFF)) := by
  refine .bind keeps_transferPower fun echo => ?_
  cases echo with
  | none => exact keeps_failed fun _ h => h.toAdrift
  | some echo => exact .pure fun l h hlost => (h hlost).reached rfl

/-- The single bit with power, and the end of the pulse where it is not the wanted one. -/
def readBitOps (p : Port) (ok : Bool) : List (Op UInt8) :=
  [.command durationInfinite, .command (bitCommand true p.speed ||| prime5VTrue)] ++
    if ok then [] else stopCommands.map .command

theorem keeps_owReadBitPower {p : Port} {applyPowerResponse : Int} :
    KeepsTo (Unlost (Reached c₀ l₀ (Is φ p) ops)) (owReadBitPower com applyPowerResponse)
      fun ok => Unlost (Reached c₀ l₀ (fun _ => True) (ops ++ readBitOps p ok)) := by
  refine keeps_command (fun q h b hb => ?_) (fun _ => List.cons_ne_nil _ _)
    (fun q h => by rw [h.speed]) (keeps_failed fun _ h => h) fun r => .ite (fun _ => ?_) fun _ => ?_
  · rcases List.mem_cons.mp hb with rfl | hb
    · decide +kernel
    · obtain rfl := List.mem_singleton.mp hb
      exact plain_bitCommand true q h true
  · have hlevel : KeepsTo (Unlost (Reached c₀ l₀ (Is φ p) (ops ++ [.command durationInfinite,
        .command (bitCommand true p.speed ||| prime5VTrue)])))
        (modifyPort fun p => { p with level := modeStrong5 })
        fun _ => Unlost (Reached c₀ l₀ (Is φ { p with level := modeStrong5 })
          (ops ++ [.command durationInfinite,
            .command (bitCommand true p.speed ||| prime5VTrue)])) :=
      keeps_modifyPort fun l h => ⟨⟨⟨h.speed, h.later⟩, fun hb =>
        (h.port hb).map (f := fun q => { q with level := modeStrong5 }) fun _ _ => rfl, h.done⟩,
          h.receiver⟩
    refine .bind hlevel fun _ => .ite (fun _ => .pure fun l h hlost => ?_) fun _ => ?_
    · exact (h hlost).mono fun _ => ⟨trivial, rfl⟩
    · refine .bind keeps_normalLevel fun _ => .pure fun l h hlost => (h hlost).mono fun _ =>
        ⟨trivial, ?_⟩
      have hstrong : modeNormal ≠ modeStrong5 := by decide
      rw [levelOps, if_neg hstrong, if_pos rfl, List.append_assoc]
      rfl
  · exact keeps_failed fun _ h => h.toAdrift

/-- A pulse for which there is the voltage. -/
def programPulseOps (p : Port) : List (Op UInt8) :=
  if p.programAvailable then levelOps p modeNormal ++ [.command duration512us, .command pulse12V]
    else []

theorem keeps_owProgramPulse {p : Port} :
    KeepsTo (Unlost (Reached c₀ l₀ (Is φ p) ops)) (owProgramPulse com)
      fun _ => Unlost (Reached c₀ l₀ (fun _ => True) (ops ++ programPulseOps p)) := by
  refine keeps_readIs fun q => .ite (fun hq => ?_) fun hq => .pure fun l h hlost => ?_
  · have hsend : ∀ change, KeepsTo (Unlost (Turned c₀ l₀ .command change (Is (Is φ p q) p.normal)
        (ops ++ levelOps p modeNormal))) (transfer com (change ++ [duration512us, pulse12V]) 2)
        fun r => Unlost (Sent c₀ l₀ (Is (Is φ p q) p.normal)
          (ops ++ levelOps p modeNormal ++ [.command duration512us, .command pulse12V]) r.isSome) :=
      fun change => keeps_transfer.conseq
        (fun l h hlost => (h hlost).commands (by decide +kernel) (List.cons_ne_nil _ _)) fun _ _
          h => h
    refine .bind keeps_normalLevel fun _ => .bind (keeps_commandMode (modeless_is _)) fun change =>
      ?_
    refine .bind (hsend change) fun r => ?_
    cases r with
    | none => exact keeps_failed fun _ h => h.toAdrift
    | some r =>
      refine .ite (fun _ => .pure fun l h hlost => ?_) fun _ => keeps_failed fun _ h => h.toAdrift
      refine ((h hlost).reached rfl).mono fun hp => ⟨trivial, ?_⟩
      rw [programPulseOps, if_pos (hp.2.available.trans hq), List.append_assoc]
  · refine (h hlost).mono fun hp => ⟨trivial, ?_⟩
    rw [programPulseOps, if_neg (by rw [hp.2.available]; exact hq), List.append_nil]

/-! ## Blocks -/

theorem Packet.push_bytes {packet : Packet} (h : packet.sendlen.toNat + 1 < 256) (byte : UInt8) :
    (packet.push byte).bytes = packet.bytes ++ [byte] ∧
      (packet.push byte).sendlen.toNat = packet.sendlen.toNat + 1 := by
  have hlen : (packet.sendlen + 1).toNat = packet.sendlen.toNat + 1 := by
    rw [UInt8.toNat_add]
    exact Nat.mod_eq_of_lt h
  refine ⟨?_, hlen⟩
  rw [Packet.bytes, Packet.bytes, Packet.push, hlen, Vector.toList_set]
  have hsize : packet.sendlen.toNat < packet.sendpacket.toList.length := by
    rw [Vector.length_toList]
    omega
  rw [List.take_succ_eq_append_getElem (by rwa [List.length_set]), List.getElem_set_self,
    List.take_set_of_le (Nat.le_refl _)]

/-- A packet that is not longer than its length can say. -/
theorem Packet.pushes_bytes {packet : Packet} {bytes : List UInt8}
    (h : packet.sendlen.toNat + bytes.length < 256) :
    (bytes.foldl Packet.push packet).bytes = packet.bytes ++ bytes ∧
      (bytes.foldl Packet.push packet).sendlen.toNat = packet.sendlen.toNat + bytes.length := by
  induction bytes generalizing packet with
  | nil => simp
  | cons b bytes ih =>
    rw [List.length_cons] at h
    obtain ⟨hbytes, hlen⟩ := packet.push_bytes (by omega) b
    have hroom : (packet.push b).sendlen.toNat + bytes.length < 256 := by omega
    obtain ⟨hrest, hlast⟩ := ih hroom
    rw [List.foldl_cons, hrest, hbytes, hlast, hlen, List.length_cons]
    exact ⟨by simp, by omega⟩

theorem foldl_add (packet : Packet) (bytes : List UInt8) :
    bytes.foldl Packet.add packet = (bytes.flatMap (stuff modeCommand)).foldl Packet.push packet :=
      by
  induction bytes generalizing packet with
  | nil => rfl
  | cons b bytes ih =>
    rw [List.foldl_cons, ih, List.flatMap_cons, List.foldl_append, Packet.add, stuff]
    split
    · rfl
    · rfl

/-- The bytes of a block and of the change before it, with the data that come twice. -/
theorem blockPacket_bytes {change bytes : List UInt8}
    (h : change.length + (bytes.flatMap (stuff modeCommand)).length < 256) :
    (blockPacket change bytes).bytes = change ++ bytes.flatMap (stuff modeCommand) := by
  have hempty : ({} : Packet).bytes = [] := rfl
  have hzero : ({} : Packet).sendlen.toNat = 0 := rfl
  rw [blockPacket, foldl_add, ← List.foldl_append]
  have hroom :
    ({} : Packet).sendlen.toNat + (change ++ bytes.flatMap (stuff modeCommand)).length < 256 := by
    rw [hzero, List.length_append]
    omega
  rw [(Packet.pushes_bytes hroom).1, hempty, List.nil_append]

/-- There is room for the block and the change before it. -/
def Fits (tranBuf : List UInt8) : Prop := (tranBuf.flatMap (stuff modeCommand)).length < 255

theorem length_changeMode (wanted : Framing.Mode) (byte : UInt8) (l : Line) :
    (changeMode wanted byte l).1.length ≤ 1 := by
  change ((if l.port.mode = wanted then (pure [] : PortM (List UInt8))
    else modifyPort (fun p => { p with mode := wanted }) >>= fun _ => pure [byte]) l).1.length ≤ 1
  split
  · exact Nat.zero_le 1
  · exact Nat.le_refl 1

theorem keeps_sendBlock {k : ℕ} {tranBuf : Vector UInt8 k} (hfits : Fits tranBuf.toList)
    (hΦ : Modeless Φ) :
    KeepsTo (Unlost (Reached c₀ l₀ Φ ops)) (sendBlock com tranBuf)
      fun _ => Unlost (Reached c₀ l₀ Φ (ops ++ tranBuf.toList.map .data)) := by
  have hmode : KeepsTo (Unlost (Reached c₀ l₀ Φ ops)) dataMode fun change l =>
      Unlost (Turned c₀ l₀ .data change Φ ops) l ∧ change.length ≤ 1 :=
    fun l hl => ⟨keeps_dataMode hΦ l hl, length_changeMode _ _ l⟩
  refine .bind hmode fun change => .given fun hchange => ?_
  have hbytes : (blockPacket change tranBuf.toList).bytes =
      change ++ tranBuf.toList.flatMap (stuff modeCommand) := by
    refine blockPacket_bytes ?_
    rw [Fits] at hfits
    omega
  exact keeps_data hbytes (keeps_failed fun _ h => h) fun r => .pure fun _ h => h

def blockOps (p : Port) (doReset : Bool) (tranBuf : List UInt8) : List (Op UInt8) :=
  if tranBuf.length > 160 then []
  else (if doReset then resetOps p else []) ++ tranBuf.map .data

theorem keeps_owBlock {p : Port} {k : ℕ} {doReset : Bool} {tranBuf : Vector UInt8 k}
    (hfits : k ≤ 160 → Fits tranBuf.toList) :
    KeepsTo (Unlost (Reached c₀ l₀ (Is φ p) ops)) (owBlock com doReset tranBuf)
      fun _ => Unlost (Reached c₀ l₀ (fun _ => True) (ops ++ blockOps p doReset tranBuf.toList)) :=
        by
  refine .ite (fun hk => ?_) fun hk => ?_
  · have hops : blockOps p doReset tranBuf.toList = [] := by
      rw [blockOps, if_pos (by rwa [Vector.length_toList])]
    rw [hops, List.append_nil]
    exact .pure fun l h hlost => (h hlost).mono fun _ => ⟨trivial, rfl⟩
  have hroom := hfits (Nat.le_of_not_lt hk)
  have hops : blockOps p doReset tranBuf.toList =
      (if doReset then resetOps p else []) ++ tranBuf.toList.map .data := by
    rw [blockOps, if_neg (by rwa [Vector.length_toList])]
  rw [hops]
  refine .ite (fun hreset => .bind keeps_owTouchReset fun ok => ?_) fun hreset => ?_
  · rw [if_pos hreset, ← List.append_assoc]
    refine .ite (fun _ => ?_) fun hok => .pure fun l h hlost => ?_
    · exact (keeps_sendBlock hroom fun _ _ h => h).conseq (fun _ h => h)
        fun _ l h hlost => (h hlost).mono fun _ => ⟨trivial, rfl⟩
    · exact (h hlost).mono fun hq => absurd hq.1 hok
  · rw [if_neg hreset, List.nil_append]
    exact (keeps_sendBlock hroom (modeless_is p)).conseq (fun _ h => h)
      fun _ l h hlost => (h hlost).mono fun _ => ⟨trivial, rfl⟩

/-! ## Searches -/

/-- A buffer in which only the odd bits are written has none of the even ones. -/
theorem even_searchBytes (p : Port) (i : ℕ) : bitRead (searchBytes p) (2 * i) = false := by
  have hzero : ∀ loc, bitRead (Vector.replicate 16 (0 : UInt8)) loc = false := by
    intro loc
    rw [bitRead, List.getD_eq_getElem?_getD, Vector.toList_replicate, List.getElem?_replicate]
    split
    · exact Nat.zero_testBit _
    · exact Nat.zero_testBit _
  have hset : ∀ (buf : Vector UInt8 16) (n : ℕ), n < 64 → bitRead buf (2 * i) = false →
      bitRead (setDirection p buf n) (2 * i) = false := by
    intro buf n hn hbuf
    unfold setDirection
    split
    · rw [bitRead_bitWrite _ _ _ (by omega), if_neg (by omega), hbuf]
    · split
      · rw [bitRead_bitWrite _ _ _ (by omega), if_neg (by omega), hbuf]
      · exact hbuf
  have hfold : ∀ (ns : List ℕ) (buf : Vector UInt8 16), (∀ n ∈ ns, n < 64) → bitRead buf (2 * i) =
    false →
      bitRead (ns.foldl (setDirection p) buf) (2 * i) = false := by
    intro ns
    induction ns with
    | nil => exact fun _ _ h => h
    | cons n ns ih =>
      intro buf hns hbuf
      exact ih _ (fun m hm => hns m (List.mem_cons_of_mem n hm))
        (hset buf n (hns n List.mem_cons_self) hbuf)
  unfold searchBytes
  split
  · exact hfold _ _ (fun n hn => List.mem_range.mp hn) (hzero _)
  · exact hzero _

/-- None of them looks like a change of the mode. -/
theorem searchBytes_ne (p : Port) : ∀ b ∈ (searchBytes p).toList, b ≠ modeCommand := by
  intro b hb hcommand
  obtain ⟨j, hj, rfl⟩ := List.mem_iff_getElem.mp hb
  have heven := even_searchBytes p (4 * j)
  rw [bitRead, show 2 * (4 * j) / 8 = j by omega, show 2 * (4 * j) % 8 = 0 by omega,
    List.getD_eq_getElem?_getD, List.getElem?_eq_getElem hj, Option.getD_some, hcommand] at heven
  exact absurd heven (by decide)

def searchOps (alarmOnly : Bool) (p : Port) : List (Op UInt8) :=
  [.data (if alarmOnly then 0xEC else 0xF0), .command (cmdComm ||| functselSearchon ||| p.speed)] ++
    (searchBytes p).toList.map .data ++ [.command (cmdComm ||| functselSearchoff ||| p.speed)]

theorem receives_append (r : Receiver) (as bs : List UInt8) :
    receives r (as ++ bs) =
      ((receives (receives r as).1 bs).1, (receives r as).2 ++ (receives (receives r as).1 bs).2) :=
  receiveAll_append as bs

theorem flatMap_stuff {bytes : List UInt8} (h : ∀ b ∈ bytes, b ≠ modeCommand) :
    bytes.flatMap (stuff modeCommand) = bytes := by
  induction bytes with
  | nil => rfl
  | cons b bytes ih =>
    rw [List.flatMap_cons, ih fun c hc => h c (List.mem_cons_of_mem b hc), stuff,
      if_neg (h b List.mem_cons_self)]
    rfl

theorem plain_search (q : Port) (h : q.speed = speedselFlex ∨ q.speed = speedselOd) :
    PlainBytes [cmdComm ||| functselSearchon ||| q.speed] ∧
      PlainBytes [cmdComm ||| functselSearchoff ||| q.speed] := by
  rcases h with h | h
  · rw [h]
    decide +kernel
  · rw [h]
    decide +kernel

/-- The packet of a search is what it says. -/
theorem receives_search {mode : Framing.Mode} {alarmOnly : Bool} {p : Port}
    (hspeed : p.speed = speedselFlex ∨ p.speed = speedselOd) :
    receives (.on mode) (Framing.change modeCommand modeData mode .data ++ searchPacket alarmOnly p)
      =
      (.on .command, searchOps alarmOnly p) := by
  have hdata : ∀ (mode : Framing.Mode) (bytes : List UInt8), (∀ b ∈ bytes, b ≠ modeCommand) →
      receives (.on mode) (Framing.change modeCommand modeData mode .data ++ bytes) =
        (.on .data, bytes.map .data) := by
    intro mode bytes hbytes
    have h : receives (.on mode) (Framing.change modeCommand modeData mode .data ++
        bytes.flatMap (stuff modeCommand)) = (.on .data, bytes.map .data) :=
      receiveAll_data bytes
    rwa [flatMap_stuff hbytes] at h
  have hcommand : ∀ b, PlainBytes [b] →
      receives (.on .data) (Framing.change modeCommand modeData .data .command ++ [b]) =
        (.on .command, [.command b]) :=
    fun b hb => receiveAll_commands hb (List.cons_ne_nil _ _)
  have hescape : Framing.change modeCommand modeData .data .command = [modeCommand] := rfl
  rw [hescape] at hcommand
  obtain ⟨hon, hoff⟩ := plain_search p hspeed
  have hfirst :=
    hdata mode [if alarmOnly then 0xEC else 0xF0] (by cases alarmOnly <;> decide +kernel)
  have hbytes : receives (.on .command) (modeData :: (searchBytes p).toList) =
      (.on .data, (searchBytes p).toList.map .data) :=
    hdata .command _ (searchBytes_ne p)
  have hpacket : Framing.change modeCommand modeData mode .data ++ searchPacket alarmOnly p =
      (Framing.change modeCommand modeData mode .data ++ [if alarmOnly then 0xEC else 0xF0]) ++
        ([modeCommand, cmdComm ||| functselSearchon ||| p.speed] ++
          ((modeData :: (searchBytes p).toList) ++
            [modeCommand, cmdComm ||| functselSearchoff ||| p.speed])) := by
    simp [searchPacket]
  have hsearch := hcommand _ hon
  have hdone := hcommand _ hoff
  rw [List.singleton_append] at hsearch hdone
  rw [hpacket, receives_append, hfirst, receives_append, hsearch, receives_append, hbytes, hdone]
  simp [searchOps]

/-- What a search depends on. -/
def SameSearch (p q : Port) : Prop :=
  q.speed = p.speed ∧ q.serialNum = p.serialNum ∧ q.lastDiscrepancy = p.lastDiscrepancy

theorem SameSearch.sameOps {p q : Port} (h : SameSearch p q) (alarmOnly : Bool) :
    searchOps alarmOnly q = searchOps alarmOnly p := by
  have hbytes : searchBytes q = searchBytes p := by
    unfold searchBytes
    have hset : setDirection q = setDirection p := by
      funext buf i
      unfold setDirection
      rw [h.2.1, h.2.2]
    rw [h.2.2, hset]
  rw [searchOps, searchOps, hbytes, h.1]

/-- A change of the search state. -/
theorem keeps_searchState {f : Port → Port} (hf : ∀ p, (f p).mode = p.mode ∧ (f p).speed = p.speed)
    (hΦ : ∀ p, Φ p → Ψ (f p)) :
    KeepsTo (Unlost (Reached c₀ l₀ Φ ops)) (modifyPort f) fun _ => Unlost (Reached c₀ l₀ Ψ ops) :=
  keeps_modifyPort fun l h => ⟨⟨⟨by rw [(hf l.port).2]; exact h.speed, h.later⟩,
    fun hb => hΦ _ (h.port hb), h.done⟩, by rw [(hf l.port).1]; exact h.receiver⟩

theorem keeps_checkResults {r : Vector UInt8 17} :
    KeepsTo (Unlost (Reached c₀ l₀ Φ ops)) (checkResults r)
      fun _ => Unlost (Reached c₀ l₀ (fun _ => ∃ q, Φ q) ops) := by
  refine keeps_port fun q => KeepsTo.conseq (P := Unlost (Reached c₀ l₀ Φ ops)) ?_
    (fun l h hlost => (h hlost).1) fun _ _ h => h
  refine .ite (fun _ => ?_) fun _ => ?_
  · exact .bind (keeps_searchState (fun _ => ⟨rfl, rfl⟩) fun q hq => ⟨q, hq⟩) fun _ =>
      .pure fun _ h => h
  · exact .bind (keeps_searchState (fun _ => ⟨rfl, rfl⟩) fun q hq => ⟨q, hq⟩) fun _ =>
      .pure fun _ h => h

/-- The whole of a search goes out in one packet, after which the chip is in command mode. -/
theorem keeps_search {p : Port} {alarmOnly : Bool} (hΦ : Modeless Φ)
    (hsame : ∀ q, Φ q → SameSearch p q) :
    KeepsTo (Unlost (Reached c₀ l₀ Φ ops)) (search com alarmOnly)
      fun _ => Unlost (Reached c₀ l₀ (fun _ => ∃ q, Φ q) (ops ++ searchOps alarmOnly p)) := by
  refine .bind (keeps_dataMode hΦ) fun change => keeps_turnedPort fun q => ?_
  have hmode :
    KeepsTo (Unlost fun l => Turned c₀ l₀ .data change (fun r => Φ r ∧ Φ q) ops l ∧ l.port = q)
      (modifyPort fun p => { p with mode := .command })
      fun _ => Unlost (Sending c₀ l₀ (change ++ searchPacket alarmOnly q) (searchOps alarmOnly q)
        (fun _ => Φ q) ops) := by
    refine keeps_modifyPort fun l h => ?_
    obtain ⟨ht, rfl⟩ := h
    obtain ⟨mode, hr, rfl⟩ := ht.before
    exact ⟨⟨⟨ht.speed, ht.later⟩, fun hb => (ht.port hb).2, ht.done⟩, _, hr,
      receives_search ht.speed⟩
  refine .bind hmode fun _ => keeps_exchange (fun _ h => (hsame q h).sameOps alarmOnly) ?_
    fun r => keeps_checkResults.conseq (fun _ h => h)
      fun _ l h hlost => (h hlost).mono fun hq => ⟨⟨q, hq.choose_spec⟩, rfl⟩
  have hresync : KeepsTo (Unlost (Adrift l₀)) (resync com ())
      fun _ => Unlost (Reached c₀ l₀ (fun _ => False) []) := keeps_resync
  have hreset : KeepsTo (Unlost (Reached c₀ l₀ (fun _ => False) [])) resetSearch
      fun _ => Unlost (Reached c₀ l₀ (fun _ => False) []) :=
    keeps_searchState (fun _ => ⟨rfl, rfl⟩) fun _ h => h
  exact .bind hresync fun _ => .bind hreset fun _ => .pure fun _ h hlost => (h hlost).any

/-- What a call of `owNext_` has the chip do, if its reset finds a device. -/
def nextOps (p : Port) (doReset alarmOnly : Bool) : List (Op UInt8) :=
  if p.lastDevice then []
  else (if doReset then resetOps p else []) ++ searchOps alarmOnly p

theorem Is.lastDevice {p q : Port} (h : Is φ p q) : p.lastDevice = q.lastDevice := by
  rw [← h.1]

theorem Is.sameSearch {p q : Port} (h : Is φ p q) : SameSearch p q := by
  rw [SameSearch, ← h.1]
  exact ⟨rfl, rfl, rfl⟩

theorem AfterReset.sameSearch {p q : Port} (h : AfterReset φ p q) : SameSearch p q := by
  have h' : Is φ { p.normal with version := q.version, programAvailable := q.programAvailable } q :=
    h
  have hsame := h'.sameSearch
  exact hsame

theorem keeps_owNext {p : Port} {doReset alarmOnly : Bool} :
    KeepsTo (Unlost (Reached c₀ l₀ (Is φ p) ops)) (owNext com doReset alarmOnly)
      fun _ => Unlost (Reached c₀ l₀ (fun _ => True) (ops ++ nextOps p doReset alarmOnly)) := by
  refine keeps_readIs fun q => .ite (fun hlast => ?_) fun hlast => ?_
  · have hreset : KeepsTo (Unlost (Reached c₀ l₀ (Is (Is φ p q) p) ops)) resetSearch
        fun _ => Unlost (Reached c₀ l₀ (fun _ => Is φ p q) ops) :=
      keeps_searchState (fun _ => ⟨rfl, rfl⟩) fun _ h => h.2
    refine .bind hreset fun _ => .pure fun l h hlost => (h hlost).mono fun hq => ⟨trivial, ?_⟩
    rw [nextOps, if_pos (hq.lastDevice.trans hlast), List.append_nil]
  · have hops : Is φ p q → (if doReset then resetOps p else []) ++ searchOps alarmOnly p =
        nextOps p doReset alarmOnly := by
      intro hq
      rw [nextOps, hq.lastDevice, if_neg hlast]
    refine .ite (fun hreset => .bind keeps_owTouchReset fun ok => ?_) fun hreset => ?_
    · rw [if_pos hreset] at hops
      refine .ite (fun _ => ?_) fun hok => ?_
      · have hsearch :
          KeepsTo (Unlost (Reached c₀ l₀ (fun r => ok = true ∧ AfterReset (Is φ p q) p r)
            (ops ++ resetOps p))) (search com alarmOnly) fun _ => Unlost (Reached c₀ l₀
              (fun _ => ∃ r, ok = true ∧ AfterReset (Is φ p q) p r)
              (ops ++ resetOps p ++ searchOps alarmOnly p)) :=
          keeps_search (fun _ _ h => h) fun r hr => hr.2.sameSearch
        refine hsearch.conseq (fun _ h => h) fun _ l h hlost => (h hlost).mono fun hr =>
          ⟨trivial, ?_⟩
        obtain ⟨r, -, hr⟩ := hr
        rw [List.append_assoc, hops hr.2]
      · have hfailed :
          KeepsTo (Unlost (Reached c₀ l₀ (fun r => ok = true ∧ AfterReset (Is φ p q) p r)
            (ops ++ resetOps p)))
              (modifyPort fun p => { p with lastDiscrepancy := 0, lastFamilyDiscrepancy := 0 })
            fun _ => Unlost (Reached c₀ l₀ (fun _ => ok = true) (ops ++ resetOps p)) :=
          keeps_searchState (fun _ => ⟨rfl, rfl⟩) fun _ hr => hr.1
        exact .bind hfailed fun _ => .pure fun l h hlost => (h hlost).mono fun hr => absurd hr hok
    · rw [if_neg hreset, List.nil_append] at hops
      refine (keeps_search (modeless_is p) fun r hr => hr.sameSearch).conseq (fun _ h => h)
        fun _ l h hlost => (h hlost).mono fun hr => ⟨trivial, ?_⟩
      obtain ⟨r, hr⟩ := hr
      rw [hops hr.2]

end
end W1Retap.Bus.Ds2480

import W1Retap.Pressure.Turns
import W1Retap.Support.Unwinding

/-!
# Pressure sensors that share the static variables

`pressure.c` keeps the serial numbers, the roles and the coefficients of one sensor, the one
that was initialised last, and `w1_read_pressure` reads an initialised sensor with whatever they
are. As long as they are its own, what it stores depends on its own two switches alone, in any
run of read passes; two sensors that are read in turn get each other's.
-/
namespace W1Retap.Tai8570

open Programs Unwinding

section
variable {τ ρ ρ' : Type}

/-- What happens in the course of read passes. The clock runs, and what goes on at the two
switches is not up to the program. -/
inductive Move (τ : Type)
  | clock (logtime : Int)
  | chips (u : τ)
  | start (secs : Int)
  | read (secs : Int) (m : ℕ)
  | finish

def Move.run (drv : Driver (Statics (Shared τ ρ))) : Move τ → M (Statics (Shared τ ρ)) Unit
  | .clock logtime => modifyW1 fun w1 => { w1 with logtime }
  | .chips u => modify fun s => s.setBus { s.bus with bus := { s.bus.bus with chips := u } }
  | .start secs => do
    event (.readAll secs)
    acquire drv
  | .read secs m => do
    let _ ← readDevice drv secs m
  | .finish => w1AllCouplersOff drv

def Move.Step (drv : Driver (Statics (Shared τ ρ))) (move : Move τ) (s t : State τ ρ) : Prop :=
  (move.run drv).run s = .ok ((), t)

/-- An initialised pressure sensor that comes to be read was initialised last. -/
def Move.Kept : Move τ → State τ ρ → Prop
  | .read secs m, s => LastInitialised secs m s
  | _, _ => True

def Move.KeptStep (drv : Driver (Statics (Shared τ ρ))) (move : Move τ) (s t : State τ ρ) : Prop :=
  move.Kept s ∧ move.Step drv s t

/-- What concerns one sensor. -/
inductive Seen (τ : Type)
  | clock (logtime : Int)
  | chips (u : τ)
  | read (secs : Int)

/-- What of a step concerns device `n`. -/
def Move.seen (n : ℕ) : Move τ → Option (Seen τ)
  | .clock logtime => some (.clock logtime)
  | .chips u => some (.chips u)
  | .read secs m => if m = n then some (.read secs) else none
  | _ => none

def Seen.move (n : ℕ) : Seen τ → Move τ
  | .clock logtime => .clock logtime
  | .chips u => .chips u
  | .read secs => .read secs n

theorem Move.seen_eq_some {n : ℕ} {move : Move τ} {a : Seen τ} (h : move.seen n = some a) :
    move = a.move n := by
  cases move with
  | clock logtime =>
    obtain rfl := Option.some.inj h
    rfl
  | chips u =>
    obtain rfl := Option.some.inj h
    rfl
  | start secs => cases h
  | read secs m =>
    obtain ⟨rfl, hread⟩ := Option.ite_none_right_eq_some.mp h
    obtain rfl := Option.some.inj hread
    rfl
  | finish => cases h

/-- The steps of a pass over `k` devices. -/
def passMoves (secs : Int) (k : ℕ) : List (Move τ) :=
  .start secs :: (List.range k).map (.read secs) ++ [.finish]

section
variable {drv : Driver (Statics (Shared τ ρ))} {s t : State τ ρ}

theorem runs_reads {secs r : Int} {ms : List ℕ}
    (h : (readDevices drv secs ms).run s = .ok (r, t)) :
    Unwinding.Runs (Move.Step drv) (ms.map (.read secs)) s t := by
  induction ms generalizing s r with
  | nil =>
    obtain ⟨-, rfl⟩ := run_pure_ok.mp h
    exact .nil _
  | cons m ms ih =>
    obtain ⟨r₁, s₁, hread, h⟩ := run_bind_ok.mp h
    obtain ⟨r₂, s₂, hreads, h⟩ := run_bind_ok.mp h
    obtain ⟨-, rfl⟩ := run_pure_ok.mp h
    have hstep : (Move.read secs m : Move τ).Step drv s s₁ :=
      run_bind_ok.mpr ⟨r₁, s₁, hread, run_pure_ok.mpr ⟨rfl, rfl⟩⟩
    exact .cons hstep (ih hreads)

/-- A read pass is a run. -/
theorem runs_w1ReadAllSensors {secs nv : Int} (hread : s.w1.doread = true)
    (h : (w1ReadAllSensors drv secs).run s = .ok (nv, t)) :
    Unwinding.Runs (Move.Step drv) (passMoves secs s.w1.devs.length) s t := by
  rw [w1ReadAllSensors, run_getW1_bind, if_pos hread, run_event_bind] at h
  obtain ⟨_, s₁, hacquire, h⟩ := run_bind_ok.mp h
  obtain ⟨r, s₂, hreads, h⟩ := run_bind_ok.mp h
  obtain ⟨_, s₃, hoff, h⟩ := run_bind_ok.mp h
  obtain ⟨-, rfl⟩ := run_pure_ok.mp h
  have hstart : (Move.start secs : Move τ).Step drv s s₁ := by
    change ((do event (.readAll secs); acquire drv : M _ _)).run s = _
    rw [run_event_bind]
    exact hacquire
  exact .cons hstart ((runs_reads hreads).append (.cons hoff (.nil t)))

end

/-! ## Steps of the others and its own -/

section
variable {c : Chips τ} {exp : ℚ → ℚ} {o : Others ρ} {o' : Others ρ'} {n n' : ℕ}
  {s t : State τ ρ} {s' t' : State τ ρ'}

/-- A step that does not concern the sensor leaves it alone. -/
theorem steady_move {move : Move τ} (hseen : move.seen n = none) (hapart : o.Apart c)
    (hs : Standing c n s) (h : move.KeptStep (sharedDriver c exp o) s t) : Steady c n s t := by
  obtain ⟨hkept, hstep⟩ := h
  cases move with
  | clock logtime => cases hseen
  | chips u => cases hseen
  | start secs =>
    have hidle : Does (Idle (τ := τ) (ρ := ρ) none)
        ((Move.start secs).run (sharedDriver c exp o)) :=
      .bind (does_mark _) fun _ => does_acquireBy fun _ _ => .setBus rfl rfl rfl
    exact (Steady.refl hs).idle (idle_of_does hidle hstep) (by simp)
  | read secs m =>
    have hmn : m ≠ n := by
      intro hmn
      rw [Move.seen, if_pos hmn] at hseen
      cases hseen
    obtain ⟨r, s₁, hread, h⟩ := run_bind_ok.mp hstep
    obtain ⟨-, rfl⟩ := run_pure_ok.mp h
    exact steady_readDevice hmn hapart hs hkept hread
  | finish =>
    have hidle : Does (Idle (τ := τ) (ρ := ρ) none) (w1AllCouplersOff (sharedDriver c exp o)) :=
      does_w1AllCouplersOff (withoutPressure (sharedDriver c exp o))
    exact (Steady.refl hs).idle (idle_of_does hidle hstep) (by simp)

theorem Beside.clock (h : Beside c n n' s s') (logtime : Int) :
    Beside c n n' (s.setW1 { s.w1 with logtime }) (s'.setW1 { s'.w1 with logtime }) := by
  have hsettings := h.settings
  simp only [DevList.settings, Prod.mk.injEq] at hsettings
  obtain ⟨haltitude, htemp, -⟩ := hsettings
  refine ⟨⟨h.record, ?_, h.chips, ⟨h.left.owner, h.left.strangers, h.left.below, h.left.tidy⟩,
    ⟨h.right.owner, h.right.strangers, h.right.below, h.right.tidy⟩⟩, h.kits⟩
  simp only [DevList.settings, Machine.setW1_w1, haltitude, htemp]

theorem Beside.chipsChange (h : Beside c n n' s s') (u : τ) :
    Beside c n n' (s.setBus { s.bus with bus := { s.bus.bus with chips := u } })
      (s'.setBus { s'.bus with bus := { s'.bus.bus with chips := u } }) :=
  ⟨⟨h.record, h.settings, rfl, ⟨h.left.owner, h.left.strangers, h.left.below, h.left.tidy⟩,
    ⟨h.right.owner, h.right.strangers, h.right.below, h.right.tidy⟩⟩, h.kits⟩

/-- A step that concerns the sensor, made in both runs. -/
theorem Beside.move {move move' : Move τ} {a : Seen τ} (h : Beside c n n' s s')
    (hseen : move.seen n = some a) (hseen' : move'.seen n' = some a)
    (hstep : move.KeptStep (sharedDriver c exp o) s t)
    (hstep' : move'.KeptStep (sharedDriver c exp o') s' t') : Beside c n n' t t' := by
  obtain rfl := Move.seen_eq_some hseen
  obtain rfl := Move.seen_eq_some hseen'
  obtain ⟨hkept, hrun⟩ := hstep
  obtain ⟨hkept', hrun'⟩ := hstep'
  cases a with
  | clock logtime =>
    have hclock : (modifyW1 fun w1 => { w1 with logtime }).run s = .ok ((), t) := hrun
    have hclock' : (modifyW1 fun w1 => { w1 with logtime }).run s' = .ok ((), t') := hrun'
    obtain rfl := run_modifyW1_ok.mp hclock
    obtain rfl := run_modifyW1_ok.mp hclock'
    exact h.clock logtime
  | chips u =>
    obtain rfl : t = s.setBus { s.bus with bus := { s.bus.bus with chips := u } } :=
      run_modify_ok.mp hrun
    obtain rfl : t' = s'.setBus { s'.bus with bus := { s'.bus.bus with chips := u } } :=
      run_modify_ok.mp hrun'
    exact h.chipsChange u
  | read secs =>
    obtain ⟨r, s₁, hread, hrun⟩ := run_bind_ok.mp hrun
    obtain ⟨-, rfl⟩ := run_pure_ok.mp hrun
    obtain ⟨r', s₁', hread', hrun'⟩ := run_bind_ok.mp hrun'
    obtain ⟨-, rfl⟩ := run_pure_ok.mp hrun'
    exact h.readDevice hkept hkept' hread hread'

/-- The two runs, as they concern the sensor. -/
theorem unwinds (hapart : o.Apart c) (hapart' : o'.Apart c) :
    Unwinds (Move.KeptStep (sharedDriver c exp o)) (Move.KeptStep (sharedDriver c exp o'))
      (Move.seen n) (Move.seen n') (Beside c n n') where
  left _ _ _ _ hseen hstep h := h.steady_left (steady_move hseen hapart h.left hstep)
  right _ _ _ _ hseen hstep h := h.steady_right (steady_move hseen hapart' h.right hstep)
  both _ _ _ _ _ _ _ hseen hseen' hstep hstep' h := h.move hseen hseen' hstep hstep'

/-- While every initialised sensor is read with its own static variables, two runs that agree on
one sensor store the same in it. -/
theorem pressure_apart {moves moves' : List (Move τ)} (hapart : o.Apart c) (hapart' : o'.Apart c)
    (hstart : Beside c n n' s s')
    (hseen : moves'.filterMap (Move.seen n') = moves.filterMap (Move.seen n))
    (hrun : Unwinding.Runs (Move.KeptStep (sharedDriver c exp o)) moves s t)
    (hrun' : Unwinding.Runs (Move.KeptStep (sharedDriver c exp o')) moves' s' t') :
    ∃ d d', t.w1.devs[n]? = some d ∧ t'.w1.devs[n']? = some d' ∧ d'.uncoupled = d.uncoupled := by
  have hend := (unwinds hapart hapart').runs hrun hrun' hseen hstart
  obtain ⟨d, d', hd, hd', hsame, -⟩ := hend.records
  exact ⟨d, d', (Machine.pres?_eq_some.mp hd).1, (Machine.pres?_eq_some.mp hd').1, hsame⟩

end
end

/-! ## Two sensors -/

/-- Switches on which all works, and which deliver the same bit all the time. -/
def constantWire (named : Serno) (bit : Bool) : Wire Unit where
  owSerialNum _ u := u
  owAccess u := (true, u)
  owBlock sent u :=
    (some (sent.mapIdx fun i b => [0xF5, 0x55, 0xFF, 0x60, 0xFF, 0x3A, 0x56].getD i b), u)
  owTouchByte b u := (b, u)
  owTouchBit _ u := (false, u)
  owReadByte u := (if bit then 0x80 else 0, u)
  owWriteByte _ u := u
  owOpenFile _ _ u := (some 0, u)
  owReadFile _ _ u := (named, u)
  owCloseFile _ _ u := u

def switchNo (k : UInt8) : Serno := #v[0x12, k, 0, 0, 0, 0, 0, 0]

/-- One sensor delivers ones. -/
def onesChips : Chips Unit where
  first := switchNo 0x01
  second := switchNo 0x02
  wire := constantWire (switchNo 0x02) true
  present _ := true
  named _ _ := rfl

/-- What another one delivers. -/
def otherSensor (bit : Bool) : Others Unit where
  wire := constantWire (switchNo 0x04) bit
  drv := { Driver.silent with owSearch := fun _ serno b => ([serno], b) }

def tai8570 (serial : String) : Device where
  serial := some serial.toList
  stype := .pres
  s := [{ abbrv := some "TEMP".toList, name := some "Temp".toList },
    { abbrv := some "PRES".toList, name := some "Pressure".toList }]
  ns := 2

def twoSensors : State Unit Unit where
  w1 := { devs := [tai8570 "1201000000000000", tai8570 "1203000000000000"] }
  bus :=
    { bus := { chips := (), others := (), selected := Vector.replicate 8 0 }
      below := Vector.replicate 8 0 }

theorem sensor_made : w1MakeSerial (tai8570 "1201000000000000").serial = .ok (switchNo 0x01) := rfl

theorem other_made : w1MakeSerial (tai8570 "1203000000000000").serial = .ok (switchNo 0x03) := rfl

theorem otherSensor_apart (bit : Bool) : (otherSensor bit).Apart onesChips := by
  have hother : ¬ onesChips.Own (switchNo 0x04) := by decide
  exact fun _ _ _ => hother

theorem twoSensors_pres? {k : ℕ} {e : Device} (he : twoSensors.pres? k = some e) :
    k = 0 ∧ e = tai8570 "1201000000000000" ∨ k = 1 ∧ e = tai8570 "1203000000000000" := by
  have hdev := (Machine.pres?_eq_some.mp he).1
  rcases k with _ | _ | k
  · exact Or.inl ⟨rfl, (Option.some.inj hdev).symm⟩
  · exact Or.inr ⟨rfl, (Option.some.inj hdev).symm⟩
  · cases hdev

/-- Neither sensor has been initialised yet. -/
theorem twoSensors_fresh {k : ℕ} {e : Device} (he : twoSensors.pres? k = some e) : e.init = 0 := by
  rcases twoSensors_pres? he with ⟨-, rfl⟩ | ⟨-, rfl⟩ <;> rfl

theorem twoSensors_standing : Standing onesChips 0 twoSensors := by
  refine ⟨⟨tai8570 "1201000000000000", Machine.pres?_eq_some.mpr ⟨rfl, rfl⟩, ?_,
    fun hinit => absurd rfl hinit⟩, ?_, by decide, Or.inr (by decide)⟩
  · intro serno hserno
    exact Except.ok.inj (hserno.symm.trans sensor_made)
  · intro k e hk he
    rcases twoSensors_pres? he with ⟨hk', -⟩ | ⟨-, rfl⟩
    · exact absurd hk' hk
    · refine ⟨fun serno hserno => ?_, fun hinit => absurd rfl hinit⟩
      obtain rfl := Except.ok.inj (other_made.symm.trans hserno)
      decide

theorem twoSensors_beside : Beside onesChips 0 0 twoSensors twoSensors := by
  refine ⟨⟨rfl, rfl, rfl, twoSensors_standing, twoSensors_standing⟩, ?_⟩
  intro d hd hinit
  have hzero := twoSensors_fresh hd
  omega

/-- Neither of them has anything to keep yet. -/
theorem twoSensors_kept {secs : Int} {m : ℕ} {s : State Unit Unit}
    (h : s.pres? m = twoSensors.pres? m) : LastInitialised secs m s := by
  intro e he _ hinit
  have hzero := twoSensors_fresh (h.symm.trans he)
  omega

/-- The other sensor is read before in one run, and not at all in the other. -/
theorem pressure_apart_ones :
    ∃ t t', Unwinding.Runs (Move.KeptStep (sharedDriver onesChips (fun _ => 1) (otherSensor false)))
        [.read 0 1, .read 0 0] twoSensors t ∧
      Unwinding.Runs (Move.KeptStep (sharedDriver onesChips (fun _ => 1) (otherSensor true)))
        [.read 0 0] twoSensors t' ∧
      ∃ d d', t.w1.devs[0]? = some d ∧ t'.w1.devs[0]? = some d' ∧ d'.uncoupled = d.uncoupled := by
  obtain ⟨_, s₁, hother, _, t, hown, -⟩ := exists_two_runs_ok (p := fun _ _ => True)
    (m := (Move.read 0 1).run (sharedDriver onesChips (fun _ => 1) (otherSensor false)))
    (k := (Move.read 0 0).run (sharedDriver onesChips (fun _ => 1) (otherSensor false)))
    (s := twoSensors) (by decide +kernel)
  obtain ⟨_, t', halone, -⟩ := exists_run_ok (p := fun _ => True)
    (m := (Move.read 0 0).run (sharedDriver onesChips (fun _ => 1) (otherSensor true)))
    (s := twoSensors) (by decide +kernel)
  have hfirst : Move.KeptStep (sharedDriver onesChips (fun _ => 1) (otherSensor false))
      (.read 0 1) twoSensors s₁ := ⟨twoSensors_kept rfl, hother⟩
  have hsteady : Steady onesChips 0 twoSensors s₁ :=
    steady_move rfl (otherSensor_apart false) twoSensors_standing hfirst
  have hsecond : Move.KeptStep (sharedDriver onesChips (fun _ => 1) (otherSensor false))
      (.read 0 0) s₁ t := ⟨twoSensors_kept hsteady.record, hown⟩
  have hrun := Unwinding.Runs.cons hfirst (.cons hsecond (.nil t))
  have hrun' :
    Unwinding.Runs (Move.KeptStep (sharedDriver onesChips (fun _ => 1) (otherSensor true)))
      [.read 0 0] twoSensors t' := .cons ⟨twoSensors_kept rfl, halone⟩ (.nil t')
  have hseen : ([.read 0 0] : List (Move Unit)).filterMap (Move.seen 0) =
      ([.read 0 1, .read 0 0] : List (Move Unit)).filterMap (Move.seen 0) := rfl
  exact ⟨t, t', hrun, hrun', pressure_apart (otherSensor_apart false) (otherSensor_apart true)
    twoSensors_beside hseen hrun hrun'⟩

end W1Retap.Tai8570

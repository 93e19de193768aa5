import W1Retap.Config.Startup

/-!
# The main loop

A run is given by the rounds of the inner loop: the signals that are pending when a
round begins, the time of day before the sleep, and how the sleep ends. All of these
are free, so the runs include every order of ticks, signals and clock steps. SIGUSR2
prints the configuration.
-/
namespace W1Retap

/-- How a sleep ends: by a signal, at a time of day, or with an error. -/
inductive Sleep where
  | interrupted
  | woke (now : Int)
  | failed
  deriving DecidableEq, Repr

structure Round where
  usr1 : Bool := false
  hup : Bool := false
  usr2 : Bool := false
  before : Int
  sleep : Sleep
  deriving DecidableEq, Repr

/-- The readings of a device that are marked valid. -/
def Device.readings (n : ℕ) (d : Device) : List Reading :=
  (List.range d.ns).filterMap fun j =>
    (d.s[j]?).bind fun x => if x.valid then some ⟨n, j, x.value⟩ else none

/-- What a logger finds when it goes through `w1->devs`. -/
def DevList.readings (w1 : DevList) : List Reading :=
  (w1.devs.mapIdx Device.readings).flatten

/-- The snapshot file holds devices only once they are initialised. -/
def DevList.snapshot (w1 : DevList) : List Reading :=
  (w1.devs.mapIdx fun n d => if d.init ≠ 0 then d.readings n else []).flatten

section
variable {σ : Type} (drv : Driver σ) (host : Host)

/-- `w1_tmpfilelog`: without readings the file is left alone. -/
def w1Tmpfilelog : M σ Unit := do
  let w1 ← getW1
  if w1.snapshot ≠ [] then event (.tmpfilelog w1.snapshot)

/-- The loop over the logger plugins. -/
def callLoggers : M σ Unit := do
  let w1 ← getW1
  (List.range w1.ndll).forM fun n =>
    match w1.dlls[n]? with
    | some dll =>
      if dll.type = .l ∧ dll.func.isSome then event (.logger n dll w1.readings) else pure ()
    | none => pure ()

def releaseInterface : M σ Unit := do
  let w1 ← getW1
  if w1.releaseMe then
    call fun b => ((), drv.owRelease w1.portnum b)
    modifyW1 fun w1 => { w1 with portnum := -1 }
    event .release

/-- What the outer loop does when `immed` is set. -/
def readPass (now : Int) : M σ Unit := do
  let nv ← w1ReadAllSensors drv now
  if nv ≠ 0 then
    callLoggers
    let w1 ← getW1
    if w1.logtmp ≠ 0 then
      let phase ← StateT.lift (timeMod now w1.cycle)
      if phase = 0 then w1Tmpfilelog
  releaseInterface drv

/-- The second for which a wake-up is requested. -/
def nextWake (delay now : Int) : Except Stop Int := do
  let ticks ← timeDiv now delay
  return ticks * delay + delay

/-- The signals that are pending at the start of a round. -/
def handleSignals (r : Round) : M σ Unit := do
  if r.usr1 then
    let _ ← w1ReadAllSensors drv 0
    w1Tmpfilelog
  if r.hup then reload drv host
  if r.usr2 then event .showConfig

/-- The sleep of a round; the result is the `now` with which the inner loop is left. -/
def sleepToTick (r : Round) : M σ (Option Int) := do
  let w1 ← getW1
  let wakeup ← StateT.lift (nextWake w1.delay r.before)
  event (.sleep wakeup)
  match r.sleep with
  | .interrupted => return none
  | .failed => return some r.before
  | .woke now => do
    modifyW1 fun w1 => { w1 with logtime := now }
    return some now

def waitRound (r : Round) : M σ (Option Int) := do
  handleSignals drv host r
  sleepToTick r

/-- The loops from the first wait on, for the rounds given: `immed` is set by now. -/
def mainLoop : List Round → M σ Unit
  | [] => pure ()
  | r :: rounds => do
    match ← waitRound drv host r with
    | none => mainLoop rounds
    | some now =>
      readPass drv now
      let w1 ← getW1
      if w1.delay ≠ 0 then mainLoop rounds

/-- The first reading comes at once, for all devices, unless `-w` was given. -/
def main (opts : List Opt) (start : Int) (rounds : List Round) : M σ Unit := do
  let l ← startup drv host opts start
  if l.immed then readPass drv 0
  let w1 ← getW1
  if l.once = false ∧ w1.delay ≠ 0 then mainLoop drv host rounds

/-- The loops when files are edited meanwhile: each round comes with the host it finds. -/
def mainLoopEdited : List (Host × Round) → M σ Unit
  | [] => pure ()
  | (host, r) :: rounds => do
    match ← waitRound drv host r with
    | none => mainLoopEdited rounds
    | some now =>
      readPass drv now
      let w1 ← getW1
      if w1.delay ≠ 0 then mainLoopEdited rounds

/-- `main`, with every round's own host. -/
def mainEdited (opts : List Opt) (start : Int) (rounds : List (Host × Round)) : M σ Unit := do
  let l ← startup drv host opts start
  if l.immed then readPass drv 0
  let w1 ← getW1
  if l.once = false ∧ w1.delay ≠ 0 then mainLoopEdited drv rounds

theorem mainLoopEdited_map (rounds : List Round) :
    mainLoopEdited drv (rounds.map (host, ·)) = mainLoop drv host rounds := by
  induction rounds with
  | nil => rfl
  | cons r rounds ih =>
    rw [List.map_cons, mainLoopEdited, mainLoop]
    refine bind_congr fun left => ?_
    cases left with
    | none => exact ih
    | some now =>
      simp only [ih]

/-- Without edits this is `main`. -/
theorem mainEdited_map (opts : List Opt) (start : Int) (rounds : List Round) :
    mainEdited drv host opts start (rounds.map (host, ·)) = main drv host opts start rounds := by
  rw [mainEdited, main, mainLoopEdited_map]

end

/-! ## A bus with one thermometer -/

/-- A bus on which thermometers deliver the given values one by one. -/
def Driver.thermometers : Driver (List ℚ) :=
  { Driver.silent with
    owSearch := fun _ serno b => ([serno], b)
    readTemperature := fun _ _ b => (b.head?, b.tail) }

/-- A thermometer that is logged every minute and may change by 5/2 degrees a minute. -/
def greenhouse : Host where
  w1rcfile := none
  home := some "/root".toList
  readable := fun _ => true
  contents := fun _ => some "init = w1file\nlog = w1csv\n".toList
  moduleBuildPath := fun name => name
  moduleOpens := fun _ => true
  hasSymbol := fun _ _ => true
  w1Init := fun _ _ =>
    [{ serial := some "286DA467000000AD".toList, stype := .temp, intvl := 60, ns := 1
       s := [{ abbrv := some "GHT".toList, name := some "Greenhouse Temperature".toList
               flags := w1Roc, roc := 5 / 2 }] }]

end W1Retap

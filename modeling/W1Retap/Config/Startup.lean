import W1Retap.Config.RcFile
import W1Retap.Schedule.Intervals
import W1Retap.Sensors.ReadAll

/-!
# Start-up and reload

`main` up to its loop, and what it does on SIGHUP. The delay that `w1_verify_intervals`
stores is the delay with which the next `read_config` begins.
-/
namespace W1Retap

section
variable {σ : Type} (drv : Driver σ) (host : Host)

/-! ## Plugins and sensor table -/

/-- One plugin in the loop of `do_init`; `done` says that a `w1_init` has already run. -/
def initPlugin (done : Bool) (n : ℕ) : M σ Bool := do
  let w1 ← getW1
  match w1.dlls[n]? with
  | none => return done
  | some dll =>
    let symbol (name : String) : Option Func := dll.handle.bind fun handle =>
      if host.hasSymbol handle.file name.toList then some ⟨handle, name.toList⟩ else none
    let resolve (name : String) : M σ Bool :=
      match symbol name with
      | none => throw .exit
      | some func => do
        modifyW1 (·.modifyDll n fun dll => { dll with func := some func })
        return done
    match dll.type with
    | .c =>
      if done then
        return true
      else
        match symbol "w1_init" with
        | none => throw .exit
        | some func => do
          modifyW1 fun w1 =>
            { w1 with devs := (host.w1Init func.handle.file dll.param).map Row.device }
          return true
    | .l => resolve "w1_logger"
    | .r => resolve "w1_report"
    | .unset => return done

def doInit : M σ Unit := do
  let w1 ← getW1
  let done ← (List.range w1.ndll).foldlM (initPlugin host) false
  if done then
    let w1 ← getW1
    let w1 ← StateT.lift (w1VerifyIntervals w1)
    let w1 ← StateT.lift (w1InitializeCouplers w1)
    modifyW1 fun _ => w1
  else
    throw .exit

/-- `init_interfaces`; its last lines are those of `w1_read_all_sensors`. -/
def initInterfaces : M σ Unit := do
  modifyW1 fun w1 => { w1 with iface := some (w1.iface.getD "DS2490-1".toList) }
  acquire drv

/-! ## Reload -/

/-- The loop of `cleanup` over the plugins closes slot `i`. The type that it resets is
that of slot `ndll`. -/
def DevList.closeDll (w1 : DevList) (i : ℕ) : DevList :=
  (w1.modifyDll i fun dll => { dll with handle := none, param := none }).modifyDll w1.ndll
    fun dll => { dll with type := .unset }

def DevList.closeDlls (w1 : DevList) : DevList := (List.range w1.ndll).foldl DevList.closeDll w1

/-- `cleanup`: the devices, the plugins and the name of the rc file are forgotten, and
nothing else is. -/
def cleanup : M σ Unit :=
  modifyW1 fun w1 => { ({ w1 with devs := [] } : DevList).closeDlls with ndll := 0, rcfile := none }

/-- What the main loop does on SIGHUP. -/
def reload : M σ Unit := do
  cleanup
  readConfig host
  doInit host
  initInterfaces drv

/-! ## The command line -/

/-- An option of the command line, as `entries` lists them. -/
inductive Opt where
  | wait | onceOnly | releaseInterface | daemonise | noTmpLog
  | tmpLogName (file : CString)
  | interface (device : CString)
  | cycleTime (secs : Int)
  | dontRead | verbose
  | vaneOffset (val : Int)
  | version | simulate | useUtc
  | reportLog (file : CString)
  deriving DecidableEq, Repr

/-- The variables of `main` that options set. -/
structure Locals where
  immed : Bool := false
  once : Bool := false
  showvers : Bool := false
  deriving DecidableEq, Repr

/-- The option `-T` stores TRUE in `logtmp`, as `-N` does in `doread`. -/
def applyOption (r : Locals × DevList) : Opt → Locals × DevList
  | .wait => ({ r.1 with immed := true }, r.2)
  | .onceOnly => ({ r.1 with once := true }, r.2)
  | .version => ({ r.1 with showvers := true }, r.2)
  | .releaseInterface => (r.1, { r.2 with releaseMe := true })
  | .daemonise => (r.1, { r.2 with daemonise := 1 })
  | .noTmpLog => (r.1, { r.2 with logtmp := 1 })
  | .tmpLogName file => (r.1, { r.2 with tmpname := some file })
  | .interface device => (r.1, { r.2 with iface := some device })
  | .cycleTime secs => (r.1, { r.2 with delay := secs })
  | .dontRead => (r.1, { r.2 with doread := true })
  | .vaneOffset val => (r.1, { r.2 with vaneOffset := val })
  | .useUtc => (r.1, { r.2 with forceUtc := true })
  | .reportLog file => (r.1, { r.2 with repfile := some file })
  | .verbose | .simulate => r

/-- `w1` as `main` prepares it for `read_config`. -/
def Host.initial (host : Host) : DevList :=
  { logtmp := 1, portnum := -1, logDelim := ' ', delay := w1DefaultIntvl, cycle := w1DefaultIntvl
    tempScan := 1000, rcfile := host.w1rcfile }

/-- `main` up to its loop: the options override the rc file. `now` is the time of day. -/
def startup (opts : List Opt) (now : Int) : M σ Locals := do
  modifyW1 fun _ => host.initial
  readConfig host
  let w1 ← getW1
  let (l, w1) := opts.foldl applyOption ({}, w1)
  modifyW1 fun _ => { w1 with
    tmpname := some (w1.tmpname.getD "/tmp/.w1retap.dat".toList)
    doread := !w1.doread
    vaneOffset := w1.vaneOffset % 16 }
  if l.showvers then
    throw .exit
  else
    doInit host
    if (← getW1).doread then
      initInterfaces drv
      modifyW1 fun w1 => { w1 with logtime := now }
      w1Replog
      w1AllCouplersOff drv
      return { l with immed := !l.immed }
    else
      throw .exit

end
end W1Retap

import W1Retap.Model.Machine
import W1Retap.Model.CArith
import W1Retap.Support.CStrings

/-!
# `read_config`

The rc file is read in pieces of at most 255 characters. Each piece is tried against
the `sscanf` patterns in the order of the source; `parseLine` says which one it meets
and `applyLine` makes the assignment. What lies outside the process, the files,
the environment and the plugins, is the `Host`.
-/
namespace W1Retap

open CStrings

/-- The environment, the file system and the plugins. `contents` is what `fopen` finds,
and `w1Init` the table that the `w1_init` of a plugin reads with its parameter. -/
structure Host where
  w1rcfile : Option CString
  home : Option CString
  readable : CString → Bool
  contents : CString → Option CString
  moduleBuildPath : CString → CString
  moduleOpens : CString → Bool
  hasSymbol : CString → CString → Bool
  w1Init : CString → Option CString → List Row

/-! ## Lines -/

/-- The assignment that a line of the rc file asks for. -/
inductive RcLine where
  | device (iface : CString)
  | plugin (type : DllType) (params : CString)
  | pidfile (name : CString)
  | logTimet (on : Bool)
  | allowEscape (on : Bool)
  | forceUtc (on : Bool)
  | releaseIf (on : Bool)
  | logDelim (delim : Char)
  | presReductionTemp (temp : ℚ)
  | delay (v : Int)
  | demonise (v : Int)
  | altitude (v : Int)
  | vaneOffset (v : Int)
  | timestamp (v : Int)
  | logtemp (v : Int)
  | tempScan (v : Int)
  | ignored
  deriving DecidableEq, Repr

/-- The part of a pattern `"key = "`: what follows the equals sign and white space. -/
def scanKey (key : String) (buf : CString) : Option CString :=
  if key.toList.isPrefixOf buf then
    match (buf.drop key.length).dropWhile isspace with
    | '=' :: rest => some (rest.dropWhile isspace)
    | _ => none
  else none

/-- `sscanf (buf, "key = %512[^\n]", lbuf)` -/
def scanText (key : String) (buf : CString) : Option CString := do
  let lbuf := ((← scanKey key buf).takeWhile (· ≠ '\n')).take 512
  if lbuf = [] then none else some lbuf

/-- `sscanf (buf, "key = %d", &v)` -/
def scanInt (key : String) (buf : CString) : Option Int := do
  return wrapInt (← scanLong (← scanKey key buf))

def isTrue (lbuf : CString) : Bool :=
  match lbuf.head? with
  | some c => ['t', 'T', 'y', 'Y', '1'].contains c
  | none => false

/-- The delimiter; `\t` stands for a tab. -/
def delimiter (lbuf : CString) : Char :=
  match lbuf with
  | '\\' :: 't' :: _ => '\t'
  | c :: _ => c
  | [] => '\x00'

/-- The patterns in their order. -/
def patterns (buf : CString) : List (Option RcLine) :=
  [(scanText "device" buf).map .device,
    (scanText "log" buf).map (.plugin .l),
    (scanText "init" buf).map (.plugin .c),
    (scanText "rep" buf).map (.plugin .r),
    (scanText "pidfile" buf).map .pidfile,
    (scanText "log_time_t" buf).map fun s => .logTimet (isTrue s),
    (scanText "allow_rate_escape" buf).map fun s => .allowEscape (isTrue s),
    (scanText "force_utc" buf).map fun s => .forceUtc (isTrue s),
    (scanText "release_if" buf).map fun s => .releaseIf (isTrue s),
    (scanText "log_delimiter" buf).map fun s => .logDelim (delimiter s),
    (scanText "pressure_reduction_temp" buf).map fun s => .presReductionTemp (strtod s),
    (scanInt "delay" buf).map .delay,
    (scanInt "demonise" buf).map .demonise,
    (scanInt "altitude" buf).map .altitude,
    (scanInt "vane_offset" buf).map .vaneOffset,
    (scanInt "timestamp" buf).map .timestamp,
    (scanInt "logtemp" buf).map .logtemp,
    (scanInt "temp_scan" buf).map .tempScan]

/-- The first pattern that a line meets. -/
def parseLine (buf : CString) : RcLine := ((patterns buf).findSome? id).getD .ignored

/-! ## Assignments -/

/-- The part of `params` before the first separator, and the part after it. -/
def dllName (params : CString) : CString :=
  params.takeWhile fun c => !(c == ':' || c == ';' || c == '=')

def dllSep (params : CString) : CString := params.drop ((dllName params).length + 1)

def Host.sofile (host : Host) (name : CString) : CString :=
  if name.head? = some '.' ∨ name.head? = some '/' then name else host.moduleBuildPath name

/-- `dll_parse`: a plugin that does not open leaves its slot to the next one. -/
def dllParse {σ : Type} (host : Host) (type : DllType) (params : CString) : M σ Unit := do
  let s ← get
  if s.w1.ndll = maxDll - 1 then
    throw .exit
  else
    let sofile := host.sofile (dllName params)
    if host.moduleOpens sofile then
      modify fun s =>
        let w1 := s.w1.modifyDll s.w1.ndll fun dll => { dll with
          type, handle := some ⟨sofile, s.modules⟩
          param := if dllSep params = [] then dll.param else some (dllSep params) }
        { s with modules := s.modules + 1, w1 := { w1 with ndll := w1.ndll + 1 } }

/-- The assignment to a setting. -/
def DevList.applySetting (w1 : DevList) : RcLine → DevList
  | .device v => { w1 with iface := some v }
  | .plugin .. | .ignored => w1
  | .pidfile v => { w1 with pidfile := some v }
  | .logTimet v => { w1 with logTimet := v }
  | .allowEscape v => { w1 with allowEscape := v }
  | .forceUtc v => { w1 with forceUtc := v }
  | .releaseIf v => { w1 with releaseMe := v }
  | .logDelim v => { w1 with logDelim := v }
  | .presReductionTemp v => { w1 with presReductionTemp := some v }
  | .delay v => { w1 with delay := v }
  | .demonise v => { w1 with daemonise := v }
  | .altitude v => { w1 with altitude := v }
  | .vaneOffset v => { w1 with vaneOffset := v }
  | .timestamp v => { w1 with timestamp := v }
  | .logtemp v => { w1 with logtmp := v }
  | .tempScan v => { w1 with tempScan := v }

def applyLine {σ : Type} (host : Host) : RcLine → M σ Unit
  | .plugin type params => dllParse host type params
  | line => modifyW1 (·.applySetting line)

/-- The rc file that `read_config` settles on. -/
def Host.rcPath (host : Host) (rcfile : Option CString) : CString :=
  let rcfile := match rcfile with
    | some f => some f
    | none => host.home.map (· ++ "/.config/w1retap/rc".toList)
  match rcfile with
  | some f => if host.readable f then f else "/etc/default/w1retap".toList
  | none => "/etc/default/w1retap".toList

/-- The lines of the rc file; none when it cannot be opened. -/
def Host.rcLines (host : Host) (rcfile : Option CString) : List RcLine :=
  match host.contents (host.rcPath rcfile) with
  | some text => (fgets 255 text []).map parseLine
  | none => []

def readConfig {σ : Type} (host : Host) : M σ Unit := do
  let w1 ← getW1
  modifyW1 fun w => { w with rcfile := some (host.rcPath w1.rcfile) }
  (host.rcLines w1.rcfile).forM (applyLine host)

end W1Retap

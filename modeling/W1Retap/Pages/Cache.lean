import W1Retap.Support.Programs
import W1Retap.Model.Machine

/-!
# The cache of pages

`owcache.c` keeps pages of the devices for eight seconds, in chains that start at a hash of the
serial number and the page. `AddPage` first looks whether the page is there, so as to update it, and
returns when `FindPage` does not find it: no page is ever put into the cache.
-/
namespace W1Retap.Pages

open Programs

/-- `DEPTH` -/
def depth : ℕ := 254

/-- `CACHE_TIMEOUT`, in milliseconds. -/
def cacheTimeout : UInt32 := 8000

/-- No entry. -/
def noEntry : UInt8 := 0xFF

structure Dentry where
  rom : Serno := Vector.replicate 8 0
  tstamp : UInt32 := 0
  fptr : UInt8 := 0
  bptr : UInt8 := 0
  hptr : UInt8 := 0
  page : UInt8 := 0
  data : Vector UInt8 32 := Vector.replicate 32 0

/-- The cache with its static variables, and the times that `msGettick` is going to return. -/
structure Cache where
  space : Vector Dentry depth := Vector.replicate depth {}
  hash : Vector UInt8 depth := Vector.replicate depth 0
  bitMap : Vector UInt8 depth := Vector.replicate depth 0
  didInit : Bool := false
  spot : UInt8 := 0
  ticks : ℕ → UInt32
  ticked : ℕ := 0

abbrev CacheM := Program Stop Cache

def msGettick : CacheM UInt32 := do
  let c ← get
  modify fun c => { c with ticked := c.ticked + 1 }
  return c.ticks c.ticked

/-! ## Accesses to the tables -/

def lookUp {α : Type} (table : Vector α depth) (ptr : UInt8) : CacheM α :=
  match table[ptr.toNat]? with
  | some x => return x
  | none => throw .outOfBounds

def entry (ptr : UInt8) : CacheM Dentry := do lookUp (← get).space ptr

def hashAt (hs : UInt8) : CacheM UInt8 := do lookUp (← get).hash hs

def bitMapAt (ptr : UInt8) : CacheM UInt8 := do lookUp (← get).bitMap ptr

def setEntry (ptr : UInt8) (f : Dentry → Dentry) : CacheM Unit := do
  let d ← entry ptr
  modify fun c => { c with space := c.space.setIfInBounds ptr.toNat (f d) }

def setHash (hs ptr : UInt8) : CacheM Unit := do
  let _ ← hashAt hs
  modify fun c => { c with hash := c.hash.setIfInBounds hs.toNat ptr }

def setBitMap (ptr hashnum : UInt8) : CacheM Unit := do
  let _ ← bitMapAt ptr
  modify fun c => { c with bitMap := c.bitMap.setIfInBounds ptr.toNat hashnum }

/-! ## The functions -/

/-- `InitDHash` -/
def initDHash : CacheM Unit := modify fun c => { c with
  hash := Vector.replicate depth noEntry
  bitMap := Vector.replicate depth noEntry
  space := c.space.map fun d => { d with fptr := noEntry, bptr := noEntry, hptr := noEntry } }

/-- `FindPage` sets the tables up when it is called for the first time. -/
def initOnce : CacheM Unit := do
  if ¬ (← get).didInit then
    initDHash
    modify fun c => { c with didInit := true }

/-- `HashFunction` -/
def hashFunction (snum : Serno) (page : UInt8) : UInt8 :=
  let byte (i : ℕ) := (snum.toList.getD i 0).toNat
  UInt8.ofNat ((byte 1 <<< 12 ||| byte 2 <<< 8 ||| byte 7 <<< 4 ||| page.toNat) % depth)

/-- `FreePage`, which returns no entry whatever it found. -/
def freePage (ptr : UInt8) : CacheM UInt8 := do
  let d ← entry ptr
  let first ← hashAt d.hptr
  if d.fptr ≠ noEntry then
    if first = ptr then
      setHash d.hptr d.fptr
      setEntry d.fptr fun e => { e with bptr := d.hptr }
      setBitMap ptr noEntry
    else
      setEntry d.bptr fun e => { e with fptr := d.fptr }
      setEntry d.fptr fun e => { e with bptr := d.bptr }
      setBitMap ptr noEntry
  else if first = ptr then
    setHash d.hptr noEntry
    setBitMap ptr noEntry
  else
    setEntry d.bptr fun e => { e with fptr := noEntry }
    setBitMap ptr noEntry
  return noEntry

/-- The loop of `FindNew`: an empty or expired place, or else the oldest one. -/
def findPlace (tm : UInt32) : List UInt8 → UInt32 → UInt8 → CacheM UInt8
  | [], _, oldest => do
    let _ ← freePage oldest
    return oldest
  | i :: is, otm, oldest => do
    if (← bitMapAt i) = noEntry then return i
    else
      let d ← entry i
      if tm > d.tstamp then
        let _ ← freePage i
        return i
      else if d.tstamp < otm then findPlace tm is d.tstamp i
      else findPlace tm is otm oldest

/-- `FindNew` -/
def findNew (hashnum : UInt8) : CacheM UInt8 := do
  let spot := (← get).spot
  let t ← if (← bitMapAt spot) = noEntry then pure spot else do
    let tm ← msGettick
    let d ← entry spot
    if tm > d.tstamp then
      let _ ← freePage spot
      pure spot
    else findPlace tm ((List.range depth).map UInt8.ofNat) d.tstamp spot
  modify fun c => { c with spot := if spot = 253 then 0 else spot + 1 }
  setBitMap t hashnum
  return t

/-- The loop of `FindPage` along a chain of entries, each of which is freed first if it is to be
checked and has expired. -/
def searchChain (snum : Serno) (page mflag : UInt8) (time : Bool) (tm : UInt32) :
    ℕ → UInt8 → CacheM UInt8
  | 0, _ => throw .running
  | entries + 1, ptr => do
    if ptr = noEntry then return noEntry
    else
      let d ← entry ptr
      if time ∧ tm > d.tstamp then
        searchChain snum page mflag time tm entries (← freePage ptr)
      else if d.page = page ∧ mflag = d.data.toList.getD 0 0 &&& 0x80 ∧ d.rom = snum then
        return ptr
      else searchChain snum page mflag time tm entries d.fptr

/-- `FindPage`, with the place of the page, its data and what it has for their length. A chain that
does not end within `entries` is not followed further. -/
def findPage (entries : ℕ) (snum : Serno) (page mflag : UInt8) (time : Bool) :
    CacheM (Option (UInt8 × List UInt8 × ℕ)) := do
  initOnce
  let first ← hashAt (hashFunction snum page)
  let ptr ← if first ≠ noEntry then do
      let tm ← msGettick
      searchChain snum page mflag time tm entries first
    else pure noEntry
  if ptr ≠ noEntry then
    let d ← entry ptr
    let len := d.data.toList.getD 0 0
    if (len &&& 0x1F).toNat ≤ 0x1D then
      return some (ptr, (d.data.toList.drop 1).take (len &&& 0x1F).toNat, len.toNat)
    else return none
  else return none

/-- The data of a page, behind their length. -/
def filled (buf : List UInt8) (len : ℕ) (data : Vector UInt8 32) : Vector UInt8 32 :=
  let m := if len &&& 0x1F ≤ 0x1D then len &&& 0x1F else 0
  (List.range m).foldl (fun data i => data.setIfInBounds (i + 1) (buf.getD i 0))
    (data.setIfInBounds 0 (UInt8.ofNat len))

/-- `AddPage` -/
def addPage (entries : ℕ) (snum : Serno) (pg : UInt8) (buf : List UInt8) (len : ℕ) :
    CacheM UInt8 := do
  match ← findPage entries snum pg (UInt8.ofNat len &&& 0x80) false with
  | none => return 0
  | some (found, _, _) =>
    let p ← if found = noEntry then do
        let hs := hashFunction snum pg
        let p ← findNew hs
        let first ← hashAt hs
        setHash hs p
        if first = noEntry then
          setEntry p fun d => { d with fptr := noEntry, bptr := noEntry, hptr := hs }
        else
          setEntry p fun d => { d with fptr := first, hptr := hs }
          setEntry first fun d => { d with bptr := p }
        setEntry p fun d => { d with page := pg, rom := snum }
        pure p
      else pure found
    setEntry p fun d => { d with data := filled buf len d.data }
    let tm ← msGettick
    setEntry p fun d => { d with tstamp := tm + cacheTimeout }
    return p

/-! ## Nothing is found -/

/-- No chain has an entry, once the tables have been set up. -/
def Cache.Vacant (c : Cache) : Prop := c.didInit = true → c.hash = Vector.replicate depth noEntry

/-- The cache with its tables set up. -/
def Cache.ready (c : Cache) : Cache :=
  if c.didInit then c
  else { c with
    hash := Vector.replicate depth noEntry
    bitMap := Vector.replicate depth noEntry
    space := c.space.map fun d => { d with fptr := noEntry, bptr := noEntry, hptr := noEntry }
    didInit := true }

section
variable {c : Cache} {entries len : ℕ} {snum : Serno} {page mflag : UInt8} {time : Bool}
  {buf : List UInt8}

theorem hashFunction_lt (snum : Serno) (page : UInt8) : (hashFunction snum page).toNat < depth := by
  have hmod := Nat.mod_lt ((snum.toList.getD 1 0).toNat <<< 12 |||
    (snum.toList.getD 2 0).toNat <<< 8 ||| (snum.toList.getD 7 0).toNat <<< 4 ||| page.toNat)
    (show 0 < depth by decide)
  have hsize : depth < 256 := by decide
  exact (UInt8.toNat_ofNat_of_lt' (hmod.trans hsize)).trans_lt hmod

theorem Cache.Vacant.ready_hash (h : c.Vacant) : c.ready.hash = Vector.replicate depth noEntry := by
  rw [Cache.ready]
  split
  · rename_i hinit
    exact h hinit
  · rfl

theorem Cache.Vacant.ready (h : c.Vacant) : c.ready.Vacant := fun _ => h.ready_hash

theorem run_initOnce : initOnce.run c = .ok ((), c.ready) := by
  change (if ¬ c.didInit then _ else pure () : CacheM Unit).run c = _
  by_cases hinit : c.didInit = true
  · rw [if_neg (not_not.mpr hinit), Cache.ready, if_pos hinit]
    rfl
  · rw [if_pos hinit, Cache.ready, if_neg hinit]
    rfl

/-- A vacant cache has no page. -/
theorem findPage_vacant (h : c.Vacant) :
    (findPage entries snum page mflag time).run c = .ok (none, c.ready) := by
  have hfirst : (hashAt (hashFunction snum page)).run c.ready = .ok (noEntry, c.ready) := by
    have hcell : c.ready.hash[(hashFunction snum page).toNat]? = some noEntry := by
      rw [h.ready_hash, Vector.getElem?_replicate, if_pos (hashFunction_lt snum page)]
    change (lookUp c.ready.hash (hashFunction snum page)).run c.ready = _
    rw [lookUp, hcell]
    rfl
  rw [findPage, run_bind_of_ok run_initOnce, run_bind_of_ok hfirst]
  rfl

/-- Nothing is put into it. -/
theorem addPage_vacant (h : c.Vacant) :
    (addPage entries snum page buf len).run c = .ok (0, c.ready) := by
  rw [addPage, run_bind_of_ok (findPage_vacant h)]
  rfl

end

/-! ## Every run -/

inductive Request where
  | find (snum : Serno) (page mflag : UInt8) (time : Bool)
  | add (snum : Serno) (pg : UInt8) (buf : List UInt8) (len : ℕ)
  | init
  deriving DecidableEq, Repr

/-- The answer to a request: the page that is found, or the place where it is put. -/
def Request.serve (entries : ℕ) : Request → CacheM (Option (UInt8 × List UInt8 × ℕ) × UInt8)
  | .find snum page mflag time => do return (← findPage entries snum page mflag time, 0)
  | .add snum pg buf len => do return (none, ← addPage entries snum pg buf len)
  | .init => do
    initDHash
    return (none, 0)

theorem serve_vacant (entries : ℕ) (request : Request) {c : Cache} (h : c.Vacant) :
    ∃ c', (request.serve entries).run c = .ok ((none, 0), c') ∧ c'.Vacant := by
  cases request with
  | find snum page mflag time =>
    refine ⟨c.ready, ?_, h.ready⟩
    rw [Request.serve, run_bind_of_ok (findPage_vacant h)]
    rfl
  | add snum pg buf len =>
    refine ⟨c.ready, ?_, h.ready⟩
    rw [Request.serve, run_bind_of_ok (addPage_vacant h)]
    rfl
  | init => exact ⟨_, rfl, fun _ => rfl⟩

/-- From the start of the program no request finds a page or puts one into the cache, and none goes
outside the tables. -/
theorem never_found (entries : ℕ) (ticks : ℕ → UInt32) (requests : List Request) :
    ∃ c', (requests.mapM (Request.serve entries)).run { ticks := ticks } =
      .ok (requests.map fun _ => (none, 0), c') ∧ c'.Vacant := by
  have hrun : ∀ c : Cache, c.Vacant → ∃ c', (requests.mapM (Request.serve entries)).run c =
      .ok (requests.map fun _ => (none, 0), c') ∧ c'.Vacant := by
    induction requests with
    | nil => exact fun c h => ⟨c, rfl, h⟩
    | cons request requests ih =>
      intro c h
      obtain ⟨c₁, hserve, hvacant⟩ := serve_vacant entries request h
      obtain ⟨c₂, hrest, hlast⟩ := ih c₁ hvacant
      refine ⟨c₂, ?_, hlast⟩
      rw [List.mapM_cons, run_bind_of_ok hserve, run_bind_of_ok hrest]
      rfl
  exact hrun _ fun hinit => absurd hinit Bool.false_ne_true

end W1Retap.Pages

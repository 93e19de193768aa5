import W1Retap.Couplers.Initialisation
import W1Retap.Couplers.Switching

/-!
# One branch at a time

A run is any sequence of selections, calls of `w1_all_couplers_off` and reloads that
list the same couplers. While every command works, the couplers stay guarded, so at
most one branch is connected after every event; when a presence search starts it is
the branch of the selected device.
-/
namespace W1Retap

open Programs SwitchBank

/-! ## Runs -/

/-- What the program does with its couplers. -/
inductive CouplerOp where
  | switch (op : SwitchOp)
  | reload (rows : List Row)
  deriving DecidableEq, Repr

/-- The ROM codes of the couplers of a table. -/
def couplerSernos (rows : List Row) : List Serno :=
  rows.filterMap fun r =>
    if r.stype = .coupler then (w1MakeSerial r.serial).toOption else none

/-- The new table lists fewer than `MAXCPL` ids and the couplers of the old one. -/
structure SameCouplers (rows rows' : List Row) : Prop where
  few : (allListedIds (rows'.map Row.device)).length < maxCpl
  sernos : ∀ k, k ∈ couplerSernos rows' ↔ k ∈ couplerSernos rows

/-- Branch `lines` of the coupler `serno` is connected. -/
def Connected (t : List Event) (serno : Serno) (lines : Int) : Prop :=
  linesAfter allOff t serno = lines ∧ lines ≠ couplerAllOff

def AtMostOne (t : List Event) : Prop :=
  ∀ k b k' b', Connected t k b → Connected t k' b' → k = k' ∧ b = b'

section
variable {σ : Type} (drv : Driver σ)

def CouplerOp.run : CouplerOp → M σ Unit
  | switch op => op.run drv
  | reload rows => loadCouplers rows

/-- The coupler and branch that a device hangs on. -/
def ownBranch (s : Machine σ) (n : ℕ) : Option (Serno × Int) := do
  let d ← s.w1.devs[n]?
  let c ← d.coupler
  let e ← s.w1.devs[c.couplerDevice]?
  return (e.serno, c.branch)

/-! ## The invariant -/

/-- `K` is the set of the couplers' ROM codes. -/
structure Interlocked (K : Serno → Prop) (s : Machine σ) : Prop where
  guarded : Guarded couplerUndefined couplerAllOff (bank allOff s)
  wired : ∀ d ∈ s.w1.devs, ∀ c, d.coupler = some c →
    (∃ e, (bank allOff s).entry c.couplerDevice = some e) ∧
      (c.branch = couplerMainOn ∨ c.branch = couplerAuxOn)
  keys : ∀ k, K k ↔ ∃ i p, (bank allOff s).entry i = some (k, p)
  trace : ∀ t, t <:+ s.trace → AtMostOne t

theorem atMostOne_of_guarded {s : Machine σ}
    (h : Guarded couplerUndefined couplerAllOff (bank allOff s)) : AtMostOne s.trace := by
  rintro k b k' b' ⟨rfl, hb⟩ ⟨rfl, hb'⟩
  obtain rfl := h.unique k k' hb hb'
  exact ⟨rfl, rfl⟩

theorem branch_on {b : Int} (h : b = couplerMainOn ∨ b = couplerAuxOn) :
    b ≠ couplerUndefined ∧ b ≠ couplerAllOff := by
  rcases h with rfl | rfl <;> decide

variable {drv} {K : Serno → Prop} {s s' : Machine σ}

/-- What changes neither the devices nor the lines keeps the invariant. -/
theorem Interlocked.log (hs : Interlocked K s) {e : Event} (b : σ)
    (he : linesAfter allOff (e :: s.trace) = linesAfter allOff s.trace) :
    Interlocked K ((s.log e).setBus b) := by
  have hbank : bank allOff ((s.log e).setBus b) = bank allOff s := by
    unfold bank
    congr 1
  have hg : Guarded couplerUndefined couplerAllOff (bank allOff ((s.log e).setBus b)) := by
    rw [hbank]
    exact hs.guarded
  refine ⟨hg, ?_, ?_, ?_⟩
  · rw [hbank]
    exact hs.wired
  · rw [hbank]
    exact hs.keys
  · intro t ht
    rcases List.suffix_cons_iff.mp ht with rfl | ht
    · exact atMostOne_of_guarded hg
    · exact hs.trace t ht

/-- A command that works keeps the invariant, if it switches off, or switches on while
all other couplers are off. -/
theorem Interlocked.set {n : ℕ} {lines : Int} {u : Unit} (hs : Interlocked K s)
    (hdrv : ∀ serno lines b, (drv.setSwitch1F serno lines b).1 = true)
    (hsafe : lines = couplerAllOff ∨ (lines = couplerMainOn ∨ lines = couplerAuxOn) ∧
      OthersOff couplerAllOff (bank allOff s) (some n))
    (h : (w1SetCoupler drv n lines).run s = .ok (u, s')) :
    Interlocked K s' ∧ bank allOff s' = (bank allOff s).set n lines true := by
  obtain ⟨hbank, hwiring, htrace⟩ := w1SetCoupler_ok allOff h
  obtain ⟨d, hd, -⟩ := w1SetCoupler_cases h
  have hans : answer drv n lines s = true := by simp [answer, hd, hdrv]
  rw [hans] at hbank
  have hg : Guarded couplerUndefined couplerAllOff (bank allOff s') := by
    rw [hbank]
    rcases hsafe with rfl | ⟨hon, hoff⟩
    · exact hs.guarded.set_off (by decide) n
    · exact hs.guarded.set_on (branch_on hon).1 (branch_on hon).2 hoff
  have hkey : ∀ i k, (∃ p, (bank allOff s').entry i = some (k, p)) ↔
      ∃ p, (bank allOff s).entry i = some (k, p) := by
    intro i k
    have : ((bank allOff s').entry i).map Prod.fst = ((bank allOff s).entry i).map Prod.fst := by
      rw [hbank]
      exact set_key i
    constructor
    · rintro ⟨p, hp⟩
      rw [hp, Option.map_some, eq_comm, Option.map_eq_some_iff] at this
      obtain ⟨⟨k', q⟩, hq, rfl⟩ := this
      exact ⟨q, hq⟩
    · rintro ⟨p, hp⟩
      rw [hp, Option.map_some, Option.map_eq_some_iff] at this
      obtain ⟨⟨k', q⟩, hq, rfl⟩ := this
      exact ⟨q, hq⟩
  refine ⟨⟨hg, ?_, ?_, ?_⟩, hbank⟩
  · intro d' hd' c hc
    obtain ⟨i, hi⟩ := List.mem_iff_getElem?.mp hd'
    obtain ⟨e, he, hw⟩ := hwiring.dev hi
    have hce : e.coupler = some c := by
      rw [← hc]
      exact (congrArg (fun w => w.2.2) hw).symm
    obtain ⟨⟨⟨k, p⟩, hp⟩, hbranch⟩ := hs.wired e (List.mem_of_getElem? he) c hce
    obtain ⟨q, hq⟩ := (hkey c.couplerDevice k).mpr ⟨p, hp⟩
    exact ⟨⟨_, hq⟩, hbranch⟩
  · intro k
    rw [hs.keys k]
    exact exists_congr fun i => (hkey i k).symm
  · intro t ht
    rcases htrace with ⟨htr, -⟩ | ⟨serno, ok, htr⟩
    · rw [htr] at ht
      exact hs.trace t ht
    · rw [htr] at ht
      rcases List.suffix_cons_iff.mp ht with rfl | ht
      · rw [← htr]
        exact atMostOne_of_guarded hg
      · exact hs.trace t ht

/-- The loops that switch off: afterwards every coupler but `own` is cached as off. -/
theorem switchOff_loop {own : Option ℕ} {u : PUnit} (hs : Interlocked K s)
    (hdrv : ∀ serno lines b, (drv.setSwitch1F serno lines b).1 = true)
    (h : ((List.range s.w1.devs.length).forM (switchOff drv own)).run s = .ok (u, s')) :
    Interlocked K s' ∧ SameWiring s s' ∧ OthersOff couplerAllOff (bank allOff s') own := by
  let I (xs : List ℕ) (t : Machine σ) : Prop := Interlocked K t ∧ SameWiring s t ∧
    ∀ j k q, some j ≠ own → (bank allOff t).entry j = some (k, q) → q = couplerAllOff ∨ j ∈ xs
  have hstep : ∀ x xs, Ends (I (x :: xs)) (switchOff drv own x) fun _ => I xs := by
    rintro x xs t v t' ⟨hi, hw, ho⟩ hr
    rw [switchOff, run_dev_bind_ok] at hr
    obtain ⟨d, hd, hr⟩ := hr
    split at hr
    · obtain ⟨hi', hbank⟩ := hi.set hdrv (Or.inl rfl) hr
      refine ⟨hi', hw.trans (w1SetCoupler_ok allOff hr).2.1, fun j k q hj hq => ?_⟩
      by_cases hjx : j = x
      · subst hjx
        left
        rw [hbank] at hq
        cases he : (bank allOff t).entry j with
        | none => rw [set_none he, he] at hq; simp at hq
        | some e =>
          rw [set_entry_self couplerAllOff true he] at hq
          exact (Prod.mk.inj (Option.some.inj hq)).2.symm
      · rw [hbank, set_entry_of_ne hjx] at hq
        rcases ho j k q hj hq with h | h
        · exact Or.inl h
        · exact Or.inr ((List.mem_cons.mp h).resolve_left hjx)
    · rename_i hc
      obtain ⟨-, rfl⟩ := run_pure_ok.mp hr
      refine ⟨hi, hw, fun j k q hj hq => ?_⟩
      rcases ho j k q hj hq with h | h
      · exact Or.inl h
      · rcases List.mem_cons.mp h with rfl | h
        · rw [bank_entry_eq hd] at hq
          have ht : d.stype = .coupler := by
            by_contra ht
            simp [Device.cached, ht] at hq
          exact absurd ⟨ht, hj.symm⟩ hc
        · exact Or.inr h
  have hinit : I (List.range s.w1.devs.length) s := by
    refine ⟨hs, SameWiring.refl s, fun j k q _ hq => Or.inr ?_⟩
    obtain ⟨d, hd, -⟩ := Option.bind_eq_some_iff.mp hq
    exact List.mem_range.mpr (List.getElem?_eq_some_iff.mp hd).1
  obtain ⟨hi, hw, ho⟩ := Ends.forM hstep _ s u s' hinit h
  refine ⟨hi, hw, fun j k q hj hq => ?_⟩
  exact (ho j k q hj hq).resolve_right (by simp)

/-! ## The operations -/

theorem allCouplersOff_interlocked {u : Unit} (hs : Interlocked K s)
    (hdrv : ∀ serno lines b, (drv.setSwitch1F serno lines b).1 = true)
    (h : (w1AllCouplersOff drv).run s = .ok (u, s')) : Interlocked K s' := by
  rw [w1AllCouplersOff, run_getW1_bind] at h
  split at h
  · exact (switchOff_loop hs hdrv h).1
  · obtain ⟨-, rfl⟩ := run_pure_ok.mp h
    exact hs

/-- A selection keeps the invariant, and when its search starts exactly the branch of
the selected device is connected. -/
theorem selectDevice_interlocked {n : ℕ} {found : Bool} (hs : Interlocked K s)
    (hdrv : ∀ serno lines b, (drv.setSwitch1F serno lines b).1 = true)
    (h : (w1SelectDevice drv n).run s = .ok (found, s')) :
    Interlocked K s' ∧ ∃ t, s'.trace = .search n :: t ∧
      ∀ k b, Connected t k b ↔ ownBranch s n = some (k, b) := by
  rw [w1SelectDevice, run_getW1_bind, run_dev_bind_ok] at h
  obtain ⟨w, hw, h⟩ := h
  rw [run_bind_ok] at h
  obtain ⟨_, s₁, hloop, h⟩ := h
  obtain ⟨hs₁, hsame, hoff⟩ := switchOff_loop hs hdrv hloop
  cases hc : w.coupler with
  | none =>
    rw [hc] at h hoff
    obtain rfl := (run_pure_ok.mp h).2
    refine ⟨hs₁.log _ rfl, s₁.trace, rfl, fun k b => ?_⟩
    have hown : ownBranch s n = none := by simp [ownBranch, hw, hc]
    have hk := hs₁.guarded.lines_of_allOff hoff k
    rw [hown]
    constructor
    · rintro ⟨rfl, hb⟩
      exact absurd hk hb
    · simp
  | some c =>
    rw [hc] at h hoff
    change (w1SetCoupler drv c.couplerDevice c.branch >>= _).run s₁ = _ at h
    rw [run_bind_ok] at h
    obtain ⟨_, s₂, hset, h⟩ := h
    obtain rfl := (run_pure_ok.mp h).2
    -- the own coupler, before and after the others were switched off
    obtain ⟨w₁, hw₁, hwiring⟩ := hsame.symm.dev hw
    have hc₁ : w₁.coupler = some c := (congrArg (·.2.2) hwiring).symm.trans hc
    obtain ⟨⟨⟨k, p⟩, hentry⟩, hbranch⟩ := hs₁.wired w₁ (List.mem_of_getElem? hw₁) c hc₁
    obtain ⟨e₁, he₁, hcached⟩ := Option.bind_eq_some_iff.mp hentry
    obtain ⟨e, he, hew⟩ := hsame.dev he₁
    obtain rfl : k = e.serno := (cached_serno hcached).trans (congrArg (·.2.1) hew)
    have hown : ownBranch s n = some (e.serno, c.branch) := by simp [ownBranch, hw, hc, he]
    obtain ⟨hs₂, hbank⟩ := hs₁.set hdrv (Or.inr ⟨hbranch, hoff⟩) hset
    have hoff₂ : OthersOff couplerAllOff (bank allOff s₂) (some c.couplerDevice) := by
      intro j k q hj hq
      rw [hbank, set_entry_of_ne (by simpa using hj)] at hq
      exact hoff j k q hj hq
    have hon : OnAt couplerUndefined couplerAllOff (bank allOff s₂) c.couplerDevice e.serno
        c.branch :=
      ⟨by rw [hbank, set_entry_self c.branch true hentry], (branch_on hbranch).1,
        (branch_on hbranch).2⟩
    obtain ⟨hself, hothers⟩ := hs₂.guarded.lines_of_othersOff hoff₂ hon
    refine ⟨hs₂.log _ rfl, s₂.trace, rfl, fun k b => ?_⟩
    rw [hown, Option.some.injEq, Prod.mk.injEq]
    constructor
    · rintro ⟨rfl, hb⟩
      by_cases hk : k = e.serno
      · subst hk
        exact ⟨rfl, hself.symm⟩
      · exact absurd (hothers k hk) hb
    · rintro ⟨rfl, rfl⟩
      exact ⟨hself, (branch_on hbranch).2⟩

/-! ## Reloads -/

theorem mem_couplerSernos {rows : List Row} {k : Serno} :
    k ∈ couplerSernos rows ↔
      ∃ r ∈ rows, r.stype = .coupler ∧ w1MakeSerial r.serial = .ok k := by
  rw [couplerSernos, List.mem_filterMap]
  apply exists_congr
  intro r
  apply and_congr_right
  intro _
  split
  · rename_i ht
    cases w1MakeSerial r.serial <;> simp [Except.toOption, ht]
  · rename_i ht
    simp [ht]

/-- A reload keeps the invariant when the new table lists the couplers that may be on. -/
theorem loadCouplers_interlocked {rows : List Row} {u : Unit}
    (htrace : ∀ t, t <:+ s.trace → AtMostOne t)
    (hlisted : ∀ k, linesAfter allOff s.trace k ≠ couplerAllOff → k ∈ couplerSernos rows)
    (hfew : (allListedIds (rows.map Row.device)).length < maxCpl)
    (h : (loadCouplers rows).run s = .ok (u, s')) :
    Interlocked (· ∈ couplerSernos rows) s' := by
  obtain ⟨htr, hall⟩ := loadCouplers_ok h
  rw [← htr] at htrace hlisted
  have hkeys : ∀ k, k ∈ couplerSernos rows ↔ ∃ i p, (bank allOff s').entry i = some (k, p) := by
    intro k
    rw [mem_couplerSernos]
    constructor
    · rintro ⟨r, hr, ht, hser⟩
      obtain ⟨i, hi⟩ := List.mem_iff_getElem?.mp (List.mem_map_of_mem (f := Row.device) hr)
      obtain ⟨d', hd', hd⟩ := forall₂_left hall hi
      obtain ⟨hcached, hser'⟩ := cached_initialised hd hfew ht
      obtain rfl := Except.ok.inj (hser'.symm.trans hser)
      exact ⟨i, couplerUndefined, by rw [bank_entry_eq hd', hcached]⟩
    · rintro ⟨i, p, hi⟩
      obtain ⟨d', hd', hc⟩ := Option.bind_eq_some_iff.mp hi
      obtain ⟨d, hd, hdd'⟩ := forall₂_right hall hd'
      obtain ⟨r, hr, rfl⟩ := List.mem_map.mp (List.mem_of_getElem? hd)
      obtain ⟨ht, hser, -⟩ := initialised_cached hdd' hc
      exact ⟨r, hr, ht, hser⟩
  refine ⟨?_, ?_, hkeys, htrace⟩
  · apply Guarded.of_unknown (by decide)
    · intro i k p hi
      obtain ⟨d', hd', hc⟩ := Option.bind_eq_some_iff.mp hi
      obtain ⟨d, -, hdd'⟩ := forall₂_right hall hd'
      exact (initialised_cached hdd' hc).2.2
    · intro k k' hk hk'
      exact (htrace s'.trace (List.suffix_refl _) k _ k' _ ⟨rfl, hk⟩ ⟨rfl, hk'⟩).1
    · exact fun k hk => (hkeys k).mp (hlisted k hk)
  · intro d' hd' c hc
    obtain ⟨i, hi⟩ := List.mem_iff_getElem?.mp hd'
    obtain ⟨d, hd, hdd'⟩ := forall₂_right hall hi
    have ht : d.stype ≠ .coupler := by
      intro ht
      simp [(hdd'.coupler ht).2.1] at hc
    obtain ⟨⟨e, he, het⟩, hbranch⟩ := (hdd'.other ht).2 c hc
    obtain ⟨e', he', hee'⟩ := forall₂_left hall he
    exact ⟨⟨_, by rw [bank_entry_eq he', (cached_initialised hee' hfew het).1]⟩, hbranch⟩

/-! ## Whole runs -/

theorem op_interlocked {rows : List Row} {op : CouplerOp} {u : Unit}
    (hs : Interlocked (· ∈ couplerSernos rows) s)
    (hdrv : ∀ serno lines b, (drv.setSwitch1F serno lines b).1 = true)
    (hop : ∀ rows', op = .reload rows' → SameCouplers rows rows')
    (h : (op.run drv).run s = .ok (u, s')) : Interlocked (· ∈ couplerSernos rows) s' := by
  cases op with
  | switch op =>
    cases op with
    | allOff => exact allCouplersOff_interlocked hs hdrv h
    | select n =>
      rw [CouplerOp.run, SwitchOp.run, run_bind_ok] at h
      obtain ⟨found, s₁, h₁, h⟩ := h
      obtain ⟨-, rfl⟩ := run_pure_ok.mp h
      exact (selectDevice_interlocked hs hdrv h₁).1
  | reload rows' =>
    obtain ⟨hfew, hsame⟩ := hop rows' rfl
    have hlisted : ∀ k, linesAfter allOff s.trace k ≠ couplerAllOff → k ∈ couplerSernos rows' := by
      intro k hk
      rw [hsame, hs.keys k]
      exact hs.guarded.listed k hk
    have hi := loadCouplers_interlocked hs.trace hlisted hfew h
    exact ⟨hi.guarded, hi.wired, fun k => (hsame k).symm.trans (hi.keys k), hi.trace⟩

/-- In every run that starts with all lines off and loads tables listing the same
couplers, while every command works: after every event at most one branch is
connected, and whenever a selection starts its search it is the device's own branch,
or none for a device without a coupler. -/
theorem couplers_exclusive (drv : Driver σ)
    (hdrv : ∀ serno lines b, (drv.setSwitch1F serno lines b).1 = true)
    (rows : List Row) (ops : List CouplerOp)
    (hops : ∀ rows', .reload rows' ∈ CouplerOp.reload rows :: ops → SameCouplers rows rows')
    (s₀ s : Machine σ) (h₀ : s₀.trace = [])
    (hrun : ((CouplerOp.reload rows :: ops).forM (CouplerOp.run drv)).run s₀ = .ok ((), s)) :
    (∀ t, t <:+ s.trace → AtMostOne t) ∧
      ∀ n < s.w1.devs.length, ∃ found s', (w1SelectDevice drv n).run s = .ok (found, s') ∧
        (∀ t, t <:+ s'.trace → AtMostOne t) ∧
          ∃ t, s'.trace = .search n :: t ∧
            ∀ k b, Connected t k b ↔ ownBranch s n = some (k, b) := by
  let I (ops : List CouplerOp) (t : Machine σ) : Prop :=
    Interlocked (· ∈ couplerSernos rows) t ∧
      ∀ rows', .reload rows' ∈ ops → SameCouplers rows rows'
  have hstep : ∀ op ops, Ends (I (op :: ops)) (op.run drv) fun _ => I ops := by
    rintro op ops t _ t' ⟨hi, hsame⟩ hr
    refine ⟨op_interlocked hi hdrv (fun rows' h => hsame rows' (by simp [h])) hr, ?_⟩
    exact fun rows' h => hsame rows' (by simp [h])
  rw [run_forM_cons_ok] at hrun
  obtain ⟨_, s₁, hfirst, hrest⟩ := hrun
  have hstart : ∀ t, t <:+ s₀.trace → AtMostOne t := by
    rintro t ht k b k' b' ⟨rfl, hb⟩
    rw [h₀, List.suffix_nil] at ht
    subst ht
    exact absurd rfl hb
  have hdark : ∀ k, linesAfter allOff s₀.trace k ≠ couplerAllOff → k ∈ couplerSernos rows := by
    intro k hk
    rw [h₀] at hk
    exact absurd rfl hk
  have hi₁ := loadCouplers_interlocked hstart hdark (hops rows (by simp)).few hfirst
  obtain ⟨hi, -⟩ := Ends.forM hstep ops s₁ () s
    ⟨hi₁, fun rows' h => hops rows' (by simp [h])⟩ hrest
  refine ⟨hi.trace, fun n hn => ?_⟩
  obtain ⟨found, s', h⟩ := w1SelectDevice_total drv (List.getElem?_eq_getElem hn) fun c hc => by
    obtain ⟨⟨e, he⟩, -⟩ := hi.wired _ (List.getElem_mem hn) c hc
    obtain ⟨d, hd, -⟩ := Option.bind_eq_some_iff.mp he
    exact (List.getElem?_eq_some_iff.mp hd).1
  obtain ⟨hi', hsearch⟩ := selectDevice_interlocked hi hdrv h
  exact ⟨found, s', h, hi'.trace, hsearch⟩

theorem branchedTable_exclusive :
    let ops : List CouplerOp :=
      [.switch (.select 2), .switch .allOff, .reload branchedTable, .switch (.select 3),
        .switch (.select 2), .switch (.select 0)]
    ∃ s : Machine Unit,
      ((CouplerOp.reload branchedTable :: ops).forM (CouplerOp.run Driver.silent)).run
        { w1 := {}, bus := () } = .ok ((), s) ∧
      (∀ t, t <:+ s.trace → AtMostOne t) ∧
        ∀ n < s.w1.devs.length,
          ∃ found s', (w1SelectDevice Driver.silent n).run s = .ok (found, s') ∧
          (∀ t, t <:+ s'.trace → AtMostOne t) ∧
            ∃ t, s'.trace = .search n :: t ∧
              ∀ k b, Connected t k b ↔ ownBranch s n = some (k, b) := by
  intro ops
  obtain ⟨_, s, hrun, -⟩ := exists_run_ok (m := (CouplerOp.reload branchedTable :: ops).forM
    (CouplerOp.run Driver.silent)) (s := { w1 := {}, bus := () }) (p := fun _ => True)
    (by decide +kernel)
  refine ⟨s, hrun, couplers_exclusive Driver.silent (fun _ _ _ => rfl) branchedTable ops ?_ _ s rfl
    hrun⟩
  intro rows' h
  have hrows : rows' = branchedTable := by simpa [ops] using h
  rw [hrows]
  exact ⟨by decide +kernel, fun _ => Iff.rfl⟩

end
end W1Retap

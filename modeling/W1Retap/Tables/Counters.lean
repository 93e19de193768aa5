import W1Retap.Sensors.Alone
import W1Retap.Tables.Files

/-!
# The pages of a counter

`w1_read_counter` takes the sensor in slot 0 for the counter on page 14 and the one in
slot 1 for the counter on page 15. The setters fill the slots in order, so a row that
names only the second counter puts it into slot 0.
-/
namespace W1Retap

open Programs

/-- Either setter makes entry `e` of a counter's row. -/
structure LoadedCounter (row : Record) (e : Entry) : Prop where
  device : (filled (row deviceCol)).isSome
  type : (filled (row typeCol)).bind typeOf = some .counter
  loaded : (∃ cols : Columns, MksensOrder cols.names ∧
      stepRow (filledCells cols.names row) .zero = .ok e) ∨
    fileEntry ((row deviceCol).getD []) ((row typeCol).getD [])
      ((fileCols.drop 2).map fun n => (row n).getD []) .zero = .ok e

/-- Device `n` is that of the entry, whatever has been read so far: its ROM code is made
before `init` is set. -/
structure Installed {σ : Type} (e : Entry) (n : ℕ) (s : Machine σ) : Prop where
  setUp : SetUp e.row.device n s
  made : ∀ d, s.w1.devs[n]? = some d → d.init ≠ 0 → (w1MakeSerial d.serial).toOption.isSome

/-- The offset of a counter, as an `int`. -/
def counterOffset (offset : Option ℚ) : Except Stop Int :=
  match offset with
  | some x => doubleToInt x
  | none => .ok 0

/-- A value that the bus has delivered for a page, with the offset added. -/
def Counted {σ : Type} (drv : Driver σ) (page : ℕ) (offset : Option ℚ) (raw : ℚ) : Prop :=
  ∃ serno b cnt off, (drv.readCounter serno page b).1 = some cnt ∧ counterOffset offset = .ok off ∧
    raw = ((cnt + UInt32.ofInt off).toNat : ℚ)

/-- What is stored is a count of the page that the name of the sensor stands for: page 14
for `abbrv1`, page 15 for `abbrv2`. -/
def StoresOwn {σ : Type} (drv : Driver σ) (row : Record) (e : Entry) (n : ℕ) : Event → Prop
  | .validate m j raw _ _ => m = n ∧ ∃ x, e.sensors[j]? = some x ∧ x.abbrv.isSome ∧
      (x.abbrv = filled (row abbrv1Col) ∧ Counted drv 14 (e.params.getD [])[0]? raw ∨
        x.abbrv = filled (row abbrv2Col) ∧ Counted drv 15 (e.params.getD [])[1]? raw)
  | _ => True

/-- On every bus each counter is only ever stored in the sensor of its name. -/
def PagesKept (row : Record) (e : Entry) : Prop :=
  ∀ {σ : Type} (drv : Driver σ) (n : ℕ) (s s' : Machine σ) (r : Int), Installed e n s →
    (w1ReadCounter drv n).run s = .ok (r, s') →
    ∃ new, s'.trace = new ++ s.trace ∧ ∀ ev ∈ new, StoresOwn drv row e n ev

/-- The device of the row has a ROM code, and its first offset fits into an `int`. -/
def Readable (row : Record) : Prop :=
  (w1MakeSerial (row deviceCol)).toOption.isSome ∧
    (counterOffset (((filled (row paramsCol)).bind w1DevParams).getD [])[0]?).toOption.isSome

/-! ## The sensors of a row, by their abbreviations -/

/-- A change to the last sensor keeps the abbreviations that it keeps. -/
theorem map_setLast {xs zs : List Sensor} (f : Sensor → Sensor) (hf : ∀ x, (f x).abbrv = x.abbrv)
    (h : (match xs.getLast? with
      | none => Except.error Stop.noSlot
      | some x => .ok (xs.dropLast ++ [f x])) = .ok zs) : zs.map Sensor.abbrv = xs.map Sensor.abbrv := by
  cases hx : xs.getLast? with
  | none =>
    rw [hx] at h
    cases h
  | some x =>
    rw [hx] at h
    obtain rfl := Except.ok.inj h
    conv_rhs => rw [← List.dropLast_append_getLast? x hx]
    simp [hf]

/-- Whatever the other cells are, the sensors are those of the abbreviations. -/
theorem foldlM_attachCell_abbrv {cells : List (CString × CString)} {xs ys : List Sensor}
    (h : cells.foldlM attachCell xs = .ok ys) :
    ys.map Sensor.abbrv = xs.map Sensor.abbrv ++
      (cells.filter (·.1 ∈ [abbrv1Col, abbrv2Col])).map fun c => some c.2 := by
  induction cells generalizing xs with
  | nil =>
    obtain rfl := Except.ok.inj h
    simp
  | cons c cells ih =>
    rw [List.foldlM_cons] at h
    obtain ⟨zs, hc, h⟩ := bind_ok.mp h
    rw [ih h]
    by_cases habbrv : c.1 = abbrv1Col ∨ c.1 = abbrv2Col
    · rw [attachCell_abbrv xs habbrv] at hc
      obtain rfl := Except.ok.inj hc
      rw [List.filter_cons_of_pos (by simpa using habbrv)]
      simp
    · have hsame : zs.map Sensor.abbrv = xs.map Sensor.abbrv := by
        by_cases hname : c.1 = name1Col ∨ c.1 = name2Col
        · rw [attachCell_name xs hname] at hc
          exact map_setLast (fun x => { x with name := some c.2 }) (fun _ => rfl) hc
        · by_cases hunits : c.1 = units1Col ∨ c.1 = units2Col
          · rw [attachCell_units xs hunits] at hc
            exact map_setLast (fun x => { x with units := some c.2 }) (fun _ => rfl) hc
          · have hother : c.1 ∉ sensorCols := by
              rw [not_or] at habbrv hname hunits
              simp only [sensorCols, List.mem_cons, List.not_mem_nil, or_false, not_or]
              exact ⟨habbrv.1, hname.1, hunits.1, habbrv.2, hname.2, hunits.2⟩
            rw [attachCell_other xs hother] at hc
            rw [← Except.ok.inj hc]
      rw [hsame, List.filter_cons_of_neg (by simpa using habbrv)]

/-- What a counter's row makes, by either setter. -/
theorem LoadedCounter.entry {row : Record} {e : Entry} (h : LoadedCounter row e) :
    e.sensors.map Sensor.abbrv =
        ((filled (row abbrv1Col)).toList ++ (filled (row abbrv2Col)).toList).map some ∧
      e.serial = row deviceCol ∧ e.stype = .counter ∧
      e.params = (filled (row paramsCol)).bind w1DevParams := by
  obtain ⟨ty, hty, htypeOf⟩ := Option.bind_eq_some_iff.mp h.type
  obtain ⟨names, horder, hdev, htype, hparams, hstep⟩ : ∃ names : List CString, MksensOrder names ∧
      deviceCol ∈ names ∧ typeCol ∈ names ∧ paramsCol ∈ names ∧
      stepRow (filledCells names row) .zero = .ok e := by
    rcases h.loaded with ⟨cols, horder, hstep⟩ | hfile
    · exact ⟨cols.names, horder, cols.mksens _ (by decide), cols.mksens _ (by decide),
        cols.mksens _ (by decide), hstep⟩
    · obtain ⟨d, hd⟩ := Option.isSome_iff_exists.mp h.device
      rw [fileEntry_eq ((fieldOf_getD _).trans hd) ((fieldOf_getD _).trans hty) (Or.inl rfl)] at hfile
      refine ⟨fileCols, by unfold MksensOrder; decide, by decide, by decide, by decide, ?_⟩
      rw [← fieldCells_cells]
      exact hfile
  have hfirst : Entry.zero.devtype.or (firstCell typeCol (filledCells names row)) = some ty := by
    rw [firstCell_filledCells, if_pos htype, hty]
    rfl
  rw [stepRow_eq _ _ (by rw [hfirst]; rfl)] at hstep
  obtain ⟨xs, hxs, rfl⟩ := map_ok.mp hstep
  obtain ⟨hs, hserial, -, hstype, hparams', -⟩ := fill_fields Entry.zero (filledCells names row) xs
  refine ⟨?_, ?_, ?_, ?_⟩
  · have hcols : names.filter (· ∈ [abbrv1Col, abbrv2Col]) = [abbrv1Col, abbrv2Col] := by
      rw [horder.filter (by decide)]
      decide
    rw [hs, foldlM_attachCell_abbrv hxs, filledCells_filter names row (· ∈ [abbrv1Col, abbrv2Col]),
      hcols]
    cases h₁ : filled (row abbrv1Col) <;> cases h₂ : filled (row abbrv2Col) <;>
      simp [filledCells, h₁, h₂, Entry.zero, Entry.sensors]
  · rw [hserial, lastCell_filledCells, if_pos hdev, filled_eq h.device]
    exact Option.or_none
  · rw [hstype, hfirst, Option.bind_some, htypeOf]
    rfl
  · rw [hparams', lastCell_filledCells, if_pos hparams]
    cases filled (row paramsCol) <;> rfl

/-- The sensor in a slot of the entry, if it has an abbreviation. -/
theorem Entry.slot_named {e : Entry} {j : ℕ} {x : Sensor} (h : e.s[j]? = some x)
    (hx : x.abbrv.isSome) : e.sensors[j]? = some x := by
  rw [Entry.sensors, List.getElem?_take]
  by_cases hj : j < e.ns
  · rw [if_pos hj, h]
  · -- the slots that are not in use are zeroed
    have hspare : (e.s.drop e.ns)[j - e.ns]? = some x := by
      rw [List.getElem?_drop, show e.ns + (j - e.ns) = j by omega, h]
    rw [e.spare_eq, List.getElem?_replicate] at hspare
    split at hspare
    · obtain rfl := Option.some.inj hspare
      exact absurd hx (by decide)
    · cases hspare

/-! ## What the reader stores -/

section
variable {σ : Type} {drv : Driver σ} {w : Device} {n : ℕ} {P : Machine σ → Prop}

/-- One counter: a count of its page is stored in its slot, or nothing. -/
theorem avoids_readCounterPage (h : Guard (fun _ => False) w n P) {page j : ℕ} {offset : Option ℚ}
    (hlog : ∀ s raw t ok, ((w.s[j]?).bind Sensor.abbrv).isSome → Counted drv page offset raw → P s →
      P (s.log (.validate n j raw t ok))) :
    Avoids (fun _ => False) P (readCounterPage drv n page j offset) fun _ => P := by
  refine .bind (avoids_slot h (fun hf => hf.elim)) fun x => .given fun hlabel => ?_
  refine .ite (fun hx => ?_) fun _ => .pure fun _ hs => hs
  have hnamed : ((w.s[j]?).bind Sensor.abbrv).isSome := by
    obtain ⟨y, hy, hxy⟩ := Option.map_eq_some_iff.mp hlabel
    rw [hy, Option.bind_some, show y.abbrv = x.abbrv from congrArg Prod.fst hxy]
    exact hx
  refine .bind (avoids_dev h n) fun d => .given fun _ => .bind (avoids_call_of h _) fun cnt => .given ?_
  rintro ⟨b, hcnt⟩
  cases cnt with
  | none => exact .bind (avoids_clearValid h fun hf => hf.elim) fun _ => .pure fun _ hs => hs
  | some cnt =>
    have hstore : ∀ off, counterOffset offset = .ok off →
        Avoids (fun _ => False) P (store n j fun x =>
          { x with valid := true, value := ((cnt + UInt32.ofInt off).toNat : ℚ) }) fun _ => P := by
      intro off hoff
      refine avoids_store h (fun hf => hf.elim) (fun _ => rfl) fun s x t ok _ hs => ?_
      exact hlog s _ t ok hnamed ⟨d.serno, b, cnt, off, hcnt.symm, hoff, rfl⟩ hs
    cases offset with
    | none => exact hstore 0 rfl
    | some x =>
      refine .bind (Q := fun off s => P s ∧ doubleToInt x = .ok off)
        (.lift (fun _ _ hf => hf) fun off s hoff hs => ⟨hs, hoff⟩) fun off => ?_
      exact .given (hstore off)

theorem avoids_w1ReadCounter (h : Guard (fun _ => False) w n P)
    (hlog : ∀ j s raw t ok, ((w.s[j]?).bind Sensor.abbrv).isSome →
      (j = 0 ∧ Counted drv 14 (w.params.getD [])[0]? raw ∨
        j = 1 ∧ Counted drv 15 (w.params.getD [])[1]? raw) → P s →
      P (s.log (.validate n j raw t ok))) :
    Avoids (fun _ => False) P (w1ReadCounter drv n) fun _ => P := by
  refine .bind (avoids_makeSerial h) fun _ => .bind (avoids_w1SetInvalid h) fun _ => ?_
  refine .bind (avoids_w1SelectDevice drv h) fun found => .ite (fun _ => ?_) fun _ =>
    .pure fun _ hs => hs
  refine .bind (avoids_dev h n) fun d => .given fun hd => ?_
  have hparams : d.params = w.params := congrArg (·.2.1) (hd rfl)
  rw [hparams]
  refine .bind (avoids_readCounterPage h fun s raw t ok hj hc => ?_) fun _ => ?_
  · exact hlog 0 s raw t ok hj (Or.inl ⟨rfl, hc⟩)
  · refine .bind (avoids_readCounterPage h fun s raw t ok hj hc => ?_) fun _ => .pure fun _ hs => hs
    exact hlog 1 s raw t ok hj (Or.inr ⟨rfl, hc⟩)

/-! ## A bus on which only page 14 answers -/

def firstPageOnly : Driver Unit :=
  { Driver.silent with
    owSearch := fun _ serno b => ([serno], b)
    readCounter := fun _ page b => (if page = 14 then some 1 else none, b) }

theorem firstPageOnly_finds : firstPageOnly.Finds := fun _ _ => by simp [firstPageOnly]

/-- A named sensor in slot 0 is given the count of page 14. -/
theorem completes_firstPage {offset : Option ℚ} (hslot : ((w.s[0]?).bind Sensor.abbrv).isSome)
    (hoffset : (counterOffset offset).toOption.isSome) :
    Completes (Alone w []) (readCounterPage firstPageOnly 0 14 0 offset) fun _ s =>
      ∃ raw t ok, Alone w [.validate 0 0 raw t ok] s := by
  obtain ⟨y, hy, habbrv⟩ : ∃ y, w.s[0]? = some y ∧ y.abbrv.isSome := by
    cases hw : w.s[0]? with
    | none => simp [hw] at hslot
    | some y => exact ⟨y, rfl, by simpa [hw] using hslot⟩
  have hlt : 0 < w.s.length := (List.getElem?_eq_some_iff.mp hy).1
  refine .bind (completes_slot hlt) fun x => .given fun hlabel => ?_
  have hx : x.abbrv.isSome := by
    rw [hy] at hlabel
    have heq : y.abbrv = x.abbrv := congrArg Prod.fst (Option.some.inj hlabel)
    exact heq ▸ habbrv
  refine .ite (fun _ => ?_) fun h => absurd hx h
  refine .bind completes_dev fun d => .given fun _ => .bind (completes_call _) fun cnt => .given ?_
  rintro ⟨b, rfl⟩
  cases offset with
  | none => exact completes_store hslot fun _ => rfl
  | some x =>
    obtain ⟨off, hoff⟩ : ∃ off, doubleToInt x = .ok off := by
      cases hof : doubleToInt x with
      | error e => simp [counterOffset, hof, Except.toOption] at hoffset
      | ok off => exact ⟨off, rfl⟩
    exact .bind (.lift hoff) fun _ => .given fun _ => completes_store hslot fun _ => rfl

theorem completes_w1ReadCounter (hw : w.stype ≠ .coupler)
    (hslot : ((w.s[0]?).bind Sensor.abbrv).isSome) (hsecond : ∃ x, w.s[1]? = some x ∧ x.abbrv = none)
    (hoffset : (counterOffset (w.params.getD [])[0]?).toOption.isSome) :
    Completes (Alone w []) (w1ReadCounter firstPageOnly 0) fun _ s =>
      ∃ raw t ok, Alone w [.validate 0 0 raw t ok] s := by
  obtain ⟨y, hy, hnone⟩ := hsecond
  have hlt : 1 < w.s.length := (List.getElem?_eq_some_iff.mp hy).1
  refine .bind completes_makeSerial fun _ => .bind completes_w1SetInvalid fun _ => ?_
  refine .bind (completes_w1SelectDevice firstPageOnly_finds hw) fun found => .given fun hfound => ?_
  refine .ite (fun _ => ?_) fun h => absurd hfound h
  refine .bind completes_dev fun d => .given ?_
  rintro ⟨hd, -⟩
  have hparams : d.params = w.params := congrArg (·.2.1) hd
  rw [hparams]
  refine .bind (completes_firstPage hslot hoffset) fun nv => ?_
  -- slot 1 is not in use, so page 15 is not read
  refine .exists_pre fun raw => .exists_pre fun t => .exists_pre fun ok => ?_
  refine .bind (Q := fun _ => Alone w [.validate 0 0 raw t ok]) ?_ fun nv' => .pure fun _ hs =>
    ⟨raw, t, ok, hs⟩
  refine .bind (completes_slot hlt) fun x => .given fun hlabel => ?_
  rw [hy] at hlabel
  have hx : x.abbrv = none := (congrArg Prod.fst (Option.some.inj hlabel)).symm.trans hnone
  exact .ite (fun h => absurd h (by simp [hx])) fun _ => .pure fun _ hs => hs

/-! ## When the pages are kept -/

variable {row : Record} {e : Entry}

theorem LoadedCounter.sensor {j : ℕ} {x : Sensor} (h : LoadedCounter row e)
    (hx : e.sensors[j]? = some x) :
    ((filled (row abbrv1Col)).toList ++ (filled (row abbrv2Col)).toList)[j]? = x.abbrv := by
  have hmap := congrArg (·[j]?) h.entry.1
  simp only [List.getElem?_map, hx, Option.map_some] at hmap
  obtain ⟨a, ha, hxa⟩ := Option.map_eq_some_iff.mp hmap.symm
  rw [ha, hxa]

/-- A sensor in slot 0 or 1 goes by the name that its page stands for. -/
theorem storesOwn {j : ℕ} {raw : ℚ} {t : Int} {ok : Bool} (h : LoadedCounter row e)
    (hcond : (filled (row abbrv1Col)).isSome ∨ filled (row abbrv2Col) = none ∨ ¬ Readable row)
    (hlegible : (w1MakeSerial (row deviceCol)).toOption.isSome)
    (hslot : ((e.s[j]?).bind Sensor.abbrv).isSome)
    (hraw : j = 0 ∧ Counted drv 14 (e.params.getD [])[0]? raw ∨
      j = 1 ∧ Counted drv 15 (e.params.getD [])[1]? raw) :
    StoresOwn drv row e n (.validate n j raw t ok) := by
  obtain ⟨x, hx, habbrv⟩ : ∃ x, e.s[j]? = some x ∧ x.abbrv.isSome := by
    cases hs : e.s[j]? with
    | none => simp [hs] at hslot
    | some x => exact ⟨x, rfl, by simpa [hs] using hslot⟩
  have hsensor := Entry.slot_named hx habbrv
  have hnamed := h.sensor hsensor
  refine ⟨rfl, x, hsensor, habbrv, ?_⟩
  cases h₁ : filled (row abbrv1Col) with
  | some a =>
    rw [h₁] at hnamed
    rcases hraw with ⟨rfl, hraw⟩ | ⟨rfl, hraw⟩
    · exact Or.inl ⟨hnamed.symm, hraw⟩
    · refine Or.inr ⟨hnamed.symm.trans ?_, hraw⟩
      cases filled (row abbrv2Col) <;> rfl
  | none =>
    rw [h₁] at hnamed hcond
    rcases hraw with ⟨rfl, hraw⟩ | ⟨rfl, -⟩
    · rcases hcond with hcond | hcond | hcond
      · exact absurd hcond (by decide)
      · rw [hcond] at hnamed
        rw [← hnamed] at habbrv
        exact absurd habbrv (by decide)
      · obtain ⟨serno, b, cnt, off, -, hoff, -⟩ := hraw
        rw [h.entry.2.2.2] at hoff
        exact absurd ⟨hlegible, by rw [hoff]; rfl⟩ hcond
    · rw [← hnamed] at habbrv
      cases hf : filled (row abbrv2Col) <;> simp [hf] at habbrv

theorem storesOwn_isBus {ev : Event} (hev : ev.isBus = true) : StoresOwn drv row e n ev := by
  cases ev with
  | validate => exact absurd hev Bool.false_ne_true
  | _ => exact True.intro

theorem pagesKept_of (h : LoadedCounter row e)
    (hcond : (filled (row abbrv1Col)).isSome ∨ filled (row abbrv2Col) = none ∨ ¬ Readable row) :
    PagesKept row e := by
  intro σ drv n s s' r hs hrun
  by_cases hlegible : (w1MakeSerial (row deviceCol)).toOption.isSome
  · have hguard := guard_adds (σ := σ) e.row.device n s.trace (G := StoresOwn drv row e n)
      fun _ => storesOwn_isBus
    have hruns : Avoids _ _ (w1ReadCounter drv n) _ := avoids_w1ReadCounter hguard
      fun j s raw t ok hslot hraw hs => ⟨hs.1, hs.2.log (storesOwn h hcond hlegible hslot hraw)⟩
    exact ((hruns s ⟨hs.setUp, [], rfl, by simp⟩).2 r s' hrun).2
  · -- the reader does not get past the ROM code
    obtain ⟨d, hd, hsetup⟩ := hs.setUp
    have hserial : d.serial = row deviceCol := (congrArg Prod.fst hsetup).trans h.entry.2.1
    have hinit : d.init = 0 := by
      by_contra hne
      exact hlegible (hserial ▸ hs.made d hd hne)
    rw [w1ReadCounter, run_bind_ok] at hrun
    obtain ⟨_, s₁, h₁, -⟩ := hrun
    rw [makeSerial, run_dev_bind hd, if_pos hinit, run_bind_ok] at h₁
    obtain ⟨serno, s₂, h₂, -⟩ := h₁
    rw [hserial] at h₂
    exact absurd (by rw [(run_lift_ok.mp h₂).1]; rfl) hlegible

/-- On a bus where only page 14 answers, its count goes to the only sensor there is. -/
theorem not_pagesKept (h : LoadedCounter row e) (h₁ : filled (row abbrv1Col) = none)
    (h₂ : (filled (row abbrv2Col)).isSome) (hread : Readable row) : ¬ PagesKept row e := by
  intro hkept
  obtain ⟨hnames, hserial, hstype, hparams⟩ := h.entry
  obtain ⟨b, hb⟩ := Option.isSome_iff_exists.mp h₂
  rw [h₁, hb] at hnames
  obtain ⟨x, hx, hxb⟩ : ∃ x, e.sensors = [x] ∧ x.abbrv = some b := List.map_eq_singleton_iff.mp hnames
  have hslots : e.s = x :: List.replicate 7 ({} : Sensor) := by
    have hns : e.ns = 1 := by
      rw [← e.length_sensors, hx]
      rfl
    have hspare := e.spare_eq
    rw [hns] at hspare
    rw [← List.take_append_drop 1 e.s, hspare]
    rw [Entry.sensors, hns] at hx
    rw [hx]
    rfl
  let d : Device := { e.row.device with init := 2 }
  let s : Machine Unit := { w1 := { devs := [d] }, bus := () }
  have hinstalled : Installed e 0 s := by
    refine ⟨⟨d, rfl, rfl⟩, fun d' hd' _ => ?_⟩
    obtain rfl := Option.some.inj hd'
    rw [show d.serial = e.serial from rfl, hserial]
    exact hread.1
  have halone : Alone e.row.device [] s := ⟨⟨d, rfl, rfl, rfl, rfl, rfl⟩, by simp⟩
  have hcouple : e.row.device.stype ≠ .coupler := by
    rw [show e.row.device.stype = e.stype from rfl, hstype]
    decide
  have hslot : ((e.s[0]?).bind Sensor.abbrv).isSome := by simp [hslots, hxb]
  have hoffset : (counterOffset (e.params.getD [])[0]?).toOption.isSome := by
    rw [hparams]
    exact hread.2
  obtain ⟨r, s', hrun, raw, t, ok, hs'⟩ := completes_w1ReadCounter hcouple hslot
    ⟨{}, by simp [Row.device, Entry.row, hslots], rfl⟩ hoffset s halone
  obtain ⟨new, htrace, hnew⟩ := hkept firstPageOnly 0 s s' r hinstalled hrun
  have hmem : Event.validate 0 0 raw t ok ∈ new := by
    have hseen := hs'.seen _ List.mem_cons_self
    rw [htrace] at hseen
    simpa [s] using hseen
  obtain ⟨-, y, -, hy, ⟨hy₁, -⟩ | ⟨-, serno, b, cnt, off, hcnt, -⟩⟩ := hnew _ hmem
  · rw [hy₁, h₁] at hy
    exact absurd hy (by decide)
  · cases hcnt

/-- A counter that has both sensors. -/
def lightningRow : Record := .of [("device", "1D96E40700000083"), ("type", "DS2423"),
  ("abbrv1", "lighting"), ("name1", "CountsInMs"), ("units1", "ms"), ("abbrv2", "lighting1"),
  ("name2", "Flashescount"), ("units2", "Strikes")]

/-- A rain gauge on the second counter of its chip. -/
def rainRow : Record := .of [("device", "1D47E80700000051"), ("type", "DS2423"), ("abbrv2", "RGC1"),
  ("name2", "Counter1"), ("units2", "tips")]

theorem exists_loadedCounter {row : Record} (hrow : row = lightningRow ∨ row = rainRow) :
    ∃ e, LoadedCounter row e := by
  have hload : ∀ row ∈ [lightningRow, rainRow], (filled (row deviceCol)).isSome ∧
      (filled (row typeCol)).bind typeOf = some .counter ∧
      (stepRow (filledCells mksensColumns.names row) .zero).toOption.isSome := by
    decide +kernel
  obtain ⟨hdevice, htype, hstep⟩ := hload row (List.mem_pair.mpr hrow)
  cases he : stepRow (filledCells mksensColumns.names row) .zero with
  | error err => simp [he, Except.toOption] at hstep
  | ok e =>
    exact ⟨e, hdevice, htype, Or.inl ⟨mksensColumns, by unfold MksensOrder; decide, he⟩⟩

end
end W1Retap

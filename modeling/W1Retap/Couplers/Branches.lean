import W1Retap.Couplers.Initialisation
import W1Retap.Support.Buffers

/-!
# Which branch a device is behind

The first loop of `w1_initialize_couplers` copies the ids of all branches into `clist`,
the second one points every device at the first entry with its serial number. `clist`
has room for `MAXCPL` ids of 31 characters, which is tested once for each coupler
while the index moves with each id.
-/
namespace W1Retap

open Programs Buffers

/-! ## What the first loop collects -/

/-- The entries of a branch of coupler `n`. -/
def slotEntries (n : ℕ) (x : Sensor) : List CoupEntry :=
  match x.listed with
  | some (ids, branch) => ids.map (⟨·, branch, n⟩)
  | none => []

def Device.branchEntries (n : ℕ) (d : Device) : List CoupEntry :=
  if d.stype = .coupler then (d.s.take d.ns).flatMap (slotEntries n) else []

/-- The ids of all branches in use: by coupler, by branch and in the order of the lists. -/
def branchEntries (ds : List Device) (n : ℕ) : List CoupEntry :=
  (ds.zipIdx n).flatMap fun p => p.1.branchEntries p.2

/-- The branch a serial number is listed for first. -/
def firstBranch (clist : List CoupEntry) (serial : CString) : Option Coupler :=
  (clist.find? (·.devid = serial)).map fun e => ⟨e.couplerDevice, e.branch⟩

/-- Every coupler comes before `MAXCPL` ids are listed, of which there are `c` so far. -/
def Unskipped (c : ℕ) (ds : List Device) : Prop :=
  ∀ pre d post, ds = pre ++ d :: post → d.stype = .coupler →
    c + (allListedIds pre).length < maxCpl

/-- `w1_make_serial` reads fifteen characters and the NUL behind them. -/
def Device.Legible (d : Device) : Prop := ∃ serial, d.serial = some serial ∧ 15 ≤ serial.length

/-- `d` as a coupler that was scanned. -/
def Device.scanned (d : Device) (serno : Serno) : Device :=
  ({ d with serno, priv := some (.coupler couplerUndefined) } : Device).keepListed

/-- `d'` is `d` after the first loop, which did not skip it. -/
def ScannedTo (d d' : Device) : Prop :=
  if d.stype = .coupler then ∃ serno, w1MakeSerial d.serial = .ok serno ∧ d' = d.scanned serno
  else d' = d

/-- `clist` has room for the entries. -/
def HasRoom (clist new : List CoupEntry) : Prop := Room maxCpl (·.devid.length < devidSize) clist new

theorem branchEntries_cons (d : Device) (ds : List Device) (n : ℕ) :
    branchEntries (d :: ds) n = d.branchEntries n ++ branchEntries ds (n + 1) := by
  simp [branchEntries]

theorem allListedIds_cons (d : Device) (ds : List Device) :
    allListedIds (d :: ds) = allListedIds [d] ++ allListedIds ds := by
  by_cases hd : d.stype = .coupler <;> simp [allListedIds, hd]

theorem slotEntries_devid (n : ℕ) (x : Sensor) :
    (slotEntries n x).map CoupEntry.devid = (x.listed.map Prod.fst).getD [] := by
  unfold slotEntries
  cases x.listed with
  | none => rfl
  | some r => simp [Function.comp_def]

theorem Device.branchEntries_devid (d : Device) (n : ℕ) :
    (d.branchEntries n).map CoupEntry.devid = allListedIds [d] := by
  by_cases hd : d.stype = .coupler
  · simp [Device.branchEntries, allListedIds, hd, Device.listedIds, List.map_flatMap,
      slotEntries_devid]
  · simp [Device.branchEntries, allListedIds, hd]

theorem branchEntries_devid (ds : List Device) (n : ℕ) :
    (branchEntries ds n).map CoupEntry.devid = allListedIds ds := by
  induction ds generalizing n with
  | nil => rfl
  | cons d ds ih =>
    rw [branchEntries_cons, List.map_append, ih, d.branchEntries_devid, ← allListedIds_cons]

theorem unskipped_cons {c : ℕ} {d : Device} {ds : List Device} :
    Unskipped c (d :: ds) ↔
      (d.stype = .coupler → c < maxCpl) ∧ Unskipped (c + (allListedIds [d]).length) ds := by
  constructor
  · intro h
    refine ⟨fun hd => by simpa [allListedIds] using h [] d ds rfl hd, fun pre e post hds he => ?_⟩
    have hpre := h (d :: pre) e post (by rw [hds, List.cons_append]) he
    rw [allListedIds_cons, List.length_append] at hpre
    omega
  · rintro ⟨hd, hds⟩ pre e post heq he
    cases pre with
    | nil =>
      obtain ⟨rfl, -⟩ := List.cons.inj heq
      simpa [allListedIds] using hd he
    | cons d' pre =>
      obtain ⟨rfl, hrest⟩ := List.cons.inj heq
      have hpre := hds pre e post hrest he
      rw [allListedIds_cons, List.length_append]
      omega

/-! ## The first loop -/

theorem addId_appends (n : ℕ) (branch : Int) (clist : List CoupEntry) (id : CString) :
    Appends maxCpl (·.devid.length < devidSize) (addId n branch clist id) clist [⟨id, branch, n⟩] := by
  intro clist'
  rw [room_singleton]
  unfold addId
  by_cases h : clist.length < maxCpl ∧ id.length < devidSize
  · simp [h, eq_comm]
  · simp [h]

theorem scanSlot_appends (n : ℕ) (clist : List CoupEntry) (x : Sensor) :
    Appends maxCpl (·.devid.length < devidSize) (scanSlot n clist x) clist (slotEntries n x) := by
  unfold scanSlot slotEntries
  cases x.listed with
  | none => exact appends_pure
  | some r =>
    have h := foldlM_appends (f := addId n r.2) (g := fun id => [⟨id, r.2, n⟩]) r.1
      (fun id _ clist => addId_appends n r.2 clist id) clist
    rwa [← List.map_eq_flatMap] at h

theorem w1MakeSerial_iff {asc : Option CString} :
    (∃ serno, w1MakeSerial asc = .ok serno) ↔ ∃ serial, asc = some serial ∧ 15 ≤ serial.length := by
  cases asc with
  | none => simp [w1MakeSerial]
  | some serial =>
    by_cases h : serial.length < 15
    · simp [w1MakeSerial, h]
    · simp [w1MakeSerial, h, Nat.le_of_not_lt h]

theorem scanDevice_iff {n : ℕ} {clist clist' : List CoupEntry} {d d' : Device}
    (hskip : d.stype = .coupler → clist.length < maxCpl) :
    scanDevice n clist d = .ok (d', clist') ↔ ScannedTo d d' ∧
      clist' = clist ++ d.branchEntries n ∧ HasRoom clist (d.branchEntries n) := by
  unfold scanDevice ScannedTo Device.branchEntries
  by_cases hd : d.stype = .coupler
  · have happ := foldlM_appends (d.s.take d.ns) (fun x _ clist => scanSlot_appends n clist x) clist
    rw [if_pos ⟨hd, hskip hd⟩, if_pos hd, if_pos hd, HasRoom, ← happ clist', scanCoupler, bind_ok]
    constructor
    · rintro ⟨serno, hs, h⟩
      obtain ⟨clist₁, hl, h⟩ := bind_ok.mp h
      obtain ⟨rfl, rfl⟩ := Prod.mk.inj (Except.ok.inj h)
      exact ⟨⟨serno, hs, rfl⟩, hl⟩
    · rintro ⟨⟨serno, hs, rfl⟩, hl⟩
      exact ⟨serno, hs, bind_ok.mpr ⟨clist', hl, rfl⟩⟩
  · rw [if_neg fun h => hd h.1, if_neg hd, if_neg hd]
    simp [HasRoom, Room.nil, eq_comm]

/-- Without a coupler that is skipped, the first loop collects the ids of all branches. -/
theorem scanCouplers_iff {ds ds' : List Device} {n : ℕ} {clist clist' : List CoupEntry}
    (hskip : Unskipped clist.length ds) :
    scanCouplers ds n clist = .ok (ds', clist') ↔ List.Forall₂ ScannedTo ds ds' ∧
      clist' = clist ++ branchEntries ds n ∧ HasRoom clist (branchEntries ds n) := by
  induction ds generalizing n clist ds' with
  | nil => simp [scanCouplers, branchEntries, HasRoom, Room.nil, eq_comm]
  | cons d ds ih =>
    obtain ⟨hd, hds⟩ := unskipped_cons.mp hskip
    rw [← d.branchEntries_devid n, List.length_map, ← List.length_append] at hds
    rw [branchEntries_cons, HasRoom, room_append, ← List.append_assoc, scanCouplers, bind_ok]
    constructor
    · rintro ⟨⟨d₁, clist₁⟩, hc, h⟩
      obtain ⟨⟨ds₁, clist₂⟩, hr, h⟩ := bind_ok.mp h
      obtain ⟨rfl, rfl⟩ := Prod.mk.inj (Except.ok.inj h)
      obtain ⟨hto, rfl, hroom⟩ := (scanDevice_iff hd).mp hc
      obtain ⟨htos, hclist, hrooms⟩ := (ih hds).mp hr
      exact ⟨.cons hto htos, hclist, hroom, hrooms⟩
    · rintro ⟨htos, rfl, hroom, hrooms⟩
      cases htos with
      | cons hto htos =>
        exact ⟨_, (scanDevice_iff hd).mpr ⟨hto, rfl, hroom⟩,
          bind_ok.mpr ⟨_, (ih hds).mpr ⟨htos, rfl, hrooms⟩, rfl⟩⟩

/-- A coupler that is skipped keeps its private state, which a new one has not. -/
theorem unskipped_of_priv {ds ds' : List Device} {n : ℕ} {clist clist' : List CoupEntry}
    (hfresh : ∀ d ∈ ds, d.priv = none) (h : scanCouplers ds n clist = .ok (ds', clist'))
    (hpriv : ∀ d ∈ ds', d.stype = .coupler → d.priv.isSome) : Unskipped clist.length ds := by
  induction ds generalizing n clist ds' with
  | nil => exact fun pre d post h => absurd h (by simp)
  | cons d ds ih =>
    rw [scanCouplers] at h
    obtain ⟨⟨d₁, clist₁⟩, hc, h⟩ := bind_ok.mp h
    obtain ⟨⟨ds₁, clist₂⟩, hr, h⟩ := bind_ok.mp h
    obtain ⟨rfl, rfl⟩ := Prod.mk.inj (Except.ok.inj h)
    have hd : d.stype = .coupler → clist.length < maxCpl := by
      intro ht
      by_contra hfull
      rw [scanDevice, if_neg fun hlt => hfull hlt.2] at hc
      obtain ⟨rfl, -⟩ := Prod.mk.inj (Except.ok.inj hc)
      have hnone := hfresh d List.mem_cons_self
      simpa [hnone] using hpriv d List.mem_cons_self ht
    obtain ⟨-, rfl, -⟩ := (scanDevice_iff hd).mp hc
    refine unskipped_cons.mpr ⟨hd, ?_⟩
    rw [← d.branchEntries_devid n, List.length_map, ← List.length_append]
    exact ih (fun e he => hfresh e (List.mem_cons_of_mem _ he)) hr
      fun e he => hpriv e (List.mem_cons_of_mem _ he)

/-! ## The second loop -/

/-- `d` pointed at the first entry of `clist` with its serial number. -/
def Device.attachFirst (clist : List CoupEntry) (d : Device) : Device :=
  if d.stype ≠ .coupler ∧ d.coupler = none then
    { d with coupler := d.serial.bind (firstBranch clist) }
  else d

theorem attachFirst_self {clist : List CoupEntry} {d : Device}
    (h : d.stype ≠ .coupler → d.coupler = none → d.serial.bind (firstBranch clist) = none) :
    d.attachFirst clist = d := by
  unfold Device.attachFirst
  by_cases hd : d.stype ≠ .coupler ∧ d.coupler = none
  · rw [if_pos hd, h hd.1 hd.2, ← hd.2]
  · rw [if_neg hd]

@[simp] theorem attachFirst_stype (clist : List CoupEntry) (d : Device) :
    (d.attachFirst clist).stype = d.stype := by
  unfold Device.attachFirst
  split <;> rfl

@[simp] theorem attachFirst_serial (clist : List CoupEntry) (d : Device) :
    (d.attachFirst clist).serial = d.serial := by
  unfold Device.attachFirst
  split <;> rfl

theorem attach_iff {e : CoupEntry} {d d' : Device} :
    attach e d = .ok d' ↔
      (d.stype ≠ .coupler → d.coupler = none → d.serial.isSome) ∧ d' = d.attachFirst [e] := by
  unfold attach
  by_cases hd : d.stype ≠ .coupler ∧ d.coupler = none
  · rw [if_pos hd]
    cases hs : d.serial with
    | none => simp [hd]
    | some serial =>
      by_cases heq : serial = e.devid
      · have hfirst : d.attachFirst [e] = { d with coupler := some ⟨e.couplerDevice, e.branch⟩ } := by
          simp [Device.attachFirst, hd, hs, firstBranch, heq]
        simp [heq, hs, hfirst, eq_comm]
      · have hother : d.attachFirst [e] = d :=
          attachFirst_self fun _ _ => by simp [hs, firstBranch, Ne.symm heq]
        simp [heq, hother, eq_comm]
  · rw [if_neg hd, attachFirst_self fun ht hc => absurd ⟨ht, hc⟩ hd]
    refine ⟨fun h => ⟨fun ht hc => absurd ⟨ht, hc⟩ hd, (Except.ok.inj h).symm⟩, ?_⟩
    rintro ⟨-, rfl⟩
    rfl

/-- An entry that comes first wins over the ones behind it. -/
theorem attachFirst_cons (e : CoupEntry) (clist : List CoupEntry) (d : Device) :
    (d.attachFirst [e]).attachFirst clist = d.attachFirst (e :: clist) := by
  unfold Device.attachFirst
  by_cases hd : d.stype ≠ .coupler ∧ d.coupler = none
  · rw [if_pos hd, if_pos hd]
    cases hs : d.serial with
    | none => simp [hd]
    | some serial =>
      by_cases heq : e.devid = serial
      · simp [firstBranch, heq]
      · simp [firstBranch, heq, hd.1]
  · rw [if_neg hd, if_neg hd, if_neg hd]

theorem mapM_attach_iff {e : CoupEntry} {ds ds' : List Device} :
    ds.mapM (attach e) = .ok ds' ↔
      (∀ d ∈ ds, d.stype ≠ .coupler → d.coupler = none → d.serial.isSome) ∧
        ds' = ds.map (Device.attachFirst [e]) := by
  induction ds generalizing ds' with
  | nil => simp [pure_ok]
  | cons d ds ih =>
    rw [List.mapM_cons, bind_ok]
    constructor
    · rintro ⟨d₁, hd, h⟩
      obtain ⟨ds₁, hds, h⟩ := bind_ok.mp h
      obtain rfl := Except.ok.inj h
      obtain ⟨hserial, rfl⟩ := attach_iff.mp hd
      obtain ⟨hserials, rfl⟩ := ih.mp hds
      exact ⟨List.forall_mem_cons.mpr ⟨hserial, hserials⟩, rfl⟩
    · rintro ⟨hserials, rfl⟩
      obtain ⟨hserial, hserials⟩ := List.forall_mem_cons.mp hserials
      exact ⟨_, attach_iff.mpr ⟨hserial, rfl⟩, bind_ok.mpr ⟨_, ih.mpr ⟨hserials, rfl⟩, rfl⟩⟩

/-- Every device ends at the first entry with its serial number. -/
theorem attachAll_iff {clist : List CoupEntry} {ds ds' : List Device} :
    clist.foldlM (fun devs e => devs.mapM (attach e)) ds = .ok ds' ↔
      (clist ≠ [] → ∀ d ∈ ds, d.stype ≠ .coupler → d.coupler = none → d.serial.isSome) ∧
        ds' = ds.map (Device.attachFirst clist) := by
  induction clist generalizing ds with
  | nil =>
    have hself : ds.map (Device.attachFirst []) = ds :=
      List.map_id'' (fun d => attachFirst_self fun _ _ => by cases d.serial <;> rfl) ds
    simp [hself, pure_ok]
  | cons e clist ih =>
    have hcomp : (ds.map (Device.attachFirst [e])).map (Device.attachFirst clist) =
        ds.map (Device.attachFirst (e :: clist)) := by
      rw [List.map_map]
      exact List.map_congr_left fun d _ => attachFirst_cons e clist d
    rw [List.foldlM_cons, bind_ok]
    constructor
    · rintro ⟨ds₁, hds, h⟩
      obtain ⟨hserials, rfl⟩ := mapM_attach_iff.mp hds
      obtain ⟨-, rfl⟩ := ih.mp h
      exact ⟨fun _ => hserials, hcomp⟩
    · rintro ⟨hserials, rfl⟩
      refine ⟨_, mapM_attach_iff.mpr ⟨hserials (List.cons_ne_nil e clist), rfl⟩, ih.mpr ⟨?_, hcomp.symm⟩⟩
      intro _ d hd ht hc
      obtain ⟨d₀, hd₀, rfl⟩ := List.mem_map.mp hd
      rw [attachFirst_stype] at ht
      rw [attachFirst_serial]
      apply hserials (List.cons_ne_nil e clist) d₀ hd₀ ht
      by_contra hc₀
      rw [attachFirst_self fun _ h => absurd h hc₀] at hc
      exact hc₀ hc

/-! ## The function -/

/-- The serial numbers can be read: those of couplers for their ROM codes, the others as
soon as an id is compared with them. -/
structure LegibleSerials (ds : List Device) : Prop where
  couplers : ∀ d ∈ ds, d.stype = .coupler → d.Legible
  others : allListedIds ds ≠ [] → ∀ d ∈ ds, d.stype ≠ .coupler → d.serial.isSome

/-- `clist` holds all ids that are listed. -/
structure FitsClist (ds : List Device) : Prop where
  count : (allListedIds ds).length ≤ maxCpl
  short : ∀ id ∈ allListedIds ds, id.length < devidSize

theorem hasRoom_iff {ds : List Device} : HasRoom [] (branchEntries ds 0) ↔ FitsClist ds := by
  have hids := branchEntries_devid ds 0
  have hlen : (branchEntries ds 0).length = (allListedIds ds).length := by
    rw [← hids, List.length_map]
  constructor
  · rintro ⟨hcap, hfits⟩
    constructor
    · by_cases hnil : branchEntries ds 0 = []
      · simp [← hlen, hnil]
      · simpa [hlen] using hcap hnil
    · rw [← hids]
      intro id hid
      obtain ⟨e, he, rfl⟩ := List.mem_map.mp hid
      exact hfits e he
  · rintro ⟨hcount, hshort⟩
    refine ⟨fun _ => by simpa [hlen] using hcount, fun e he => hshort e.devid ?_⟩
    rw [← hids]
    exact List.mem_map_of_mem he

theorem exists_scannedTo {ds : List Device} :
    (∃ ds', List.Forall₂ ScannedTo ds ds') ↔ ∀ d ∈ ds, d.stype = .coupler → d.Legible := by
  induction ds with
  | nil => simp
  | cons d ds ih =>
    rw [List.forall_mem_cons, ← ih]
    constructor
    · rintro ⟨ds', h⟩
      cases h with
      | @cons _ d' _ ds' hd hds =>
        refine ⟨fun ht => ?_, ds', hds⟩
        rw [ScannedTo, if_pos ht] at hd
        obtain ⟨serno, hserno, -⟩ := hd
        exact w1MakeSerial_iff.mp ⟨serno, hserno⟩
    · rintro ⟨hd, ds', hds⟩
      by_cases ht : d.stype = .coupler
      · obtain ⟨serno, hserno⟩ := w1MakeSerial_iff.mpr (hd ht)
        exact ⟨d.scanned serno :: ds', .cons (by rw [ScannedTo, if_pos ht]; exact ⟨serno, hserno, rfl⟩) hds⟩
      · exact ⟨d :: ds', .cons (by rw [ScannedTo, if_neg ht]) hds⟩

theorem ScannedTo.stype {d d' : Device} (h : ScannedTo d d') : d'.stype = d.stype := by
  unfold ScannedTo at h
  split at h
  · obtain ⟨serno, -, rfl⟩ := h
    rw [Device.scanned, keepListed_stype]
  · rw [h]

/-- The first loop leaves alone what is no coupler. -/
theorem ScannedTo.eq {d d' : Device} (h : ScannedTo d d') (ht : d'.stype ≠ .coupler) : d' = d := by
  have ht' : d.stype ≠ .coupler := h.stype ▸ ht
  rwa [ScannedTo, if_neg ht'] at h

theorem ScannedTo.coupler {d d' : Device} (h : ScannedTo d d') (ht : d.stype = .coupler) :
    d'.coupler = d.coupler ∧ d'.priv.isSome ∧
      d'.s.take d'.ns = (d.s.take d.ns).filter (·.listed.isSome) ∧
      d'.ns = ((d.s.take d.ns).filter (·.listed.isSome)).length := by
  rw [ScannedTo, if_pos ht] at h
  obtain ⟨serno, -, rfl⟩ := h
  refine ⟨by simp [Device.scanned], by simp [Device.scanned], ?_⟩
  have hle := d.ns_le
  simp only [Device.scanned, Device.keepListed]
  split
  · simp
  · rename_i hall
    have hfull : (d.s.take d.ns).filter (·.listed.isSome) = d.s.take d.ns := by
      apply List.Sublist.eq_of_length_le List.filter_sublist
      rw [List.length_take]
      omega
    rw [hfull, List.length_take, min_eq_left hle]
    exact ⟨rfl, rfl⟩

/-- `w1_initialize_couplers` on a new device list, of which no coupler is skipped. -/
theorem w1InitializeCouplers_iff {w1 w1' : DevList} (hfresh : ∀ d ∈ w1.devs, d.coupler = none)
    (hskip : Unskipped 0 w1.devs) :
    w1InitializeCouplers w1 = .ok w1' ↔
      FitsClist w1.devs ∧
      (allListedIds w1.devs ≠ [] → ∀ d ∈ w1.devs, d.stype ≠ .coupler → d.serial.isSome) ∧
      ∃ ds, List.Forall₂ ScannedTo w1.devs ds ∧
        w1' = { w1 with devs := ds.map (Device.attachFirst (branchEntries w1.devs 0)) } := by
  have hids : branchEntries w1.devs 0 ≠ [] ↔ allListedIds w1.devs ≠ [] := by
    rw [← branchEntries_devid w1.devs 0, ne_eq, ne_eq, List.map_eq_nil_iff]
  -- the second loop looks at the serial numbers of the devices as they were
  have hothers : ∀ ds, List.Forall₂ ScannedTo w1.devs ds →
      ((∀ d ∈ ds, d.stype ≠ .coupler → d.coupler = none → d.serial.isSome) ↔
        ∀ d ∈ w1.devs, d.stype ≠ .coupler → d.serial.isSome) := by
    intro ds hds
    constructor
    · intro h d hd ht
      obtain ⟨n, hn, rfl⟩ := List.getElem_of_mem hd
      obtain ⟨d', hd', hto⟩ := forall₂_left hds (List.getElem?_eq_getElem hn)
      have heq := hto.eq (hto.stype ▸ ht)
      rw [heq] at hd'
      exact h _ (List.mem_of_getElem? hd') ht (hfresh _ hd)
    · intro h d' hd' ht _
      obtain ⟨n, hn, rfl⟩ := List.getElem_of_mem hd'
      obtain ⟨d, hd, hto⟩ := forall₂_right hds (List.getElem?_eq_getElem hn)
      rw [hto.eq ht]
      exact h d (List.mem_of_getElem? hd) (hto.stype ▸ ht)
  have hscan : ∀ ds clist, scanCouplers w1.devs 0 [] = .ok (ds, clist) ↔
      List.Forall₂ ScannedTo w1.devs ds ∧ clist = [] ++ branchEntries w1.devs 0 ∧
        HasRoom [] (branchEntries w1.devs 0) := fun ds clist => scanCouplers_iff hskip
  rw [w1InitializeCouplers, bind_ok]
  constructor
  · rintro ⟨⟨ds, clist⟩, hsc, h⟩
    obtain ⟨ds', hat, h⟩ := bind_ok.mp h
    obtain rfl := Except.ok.inj h
    obtain ⟨hds, rfl, hroom⟩ := (hscan ds clist).mp hsc
    obtain ⟨hserials, rfl⟩ := attachAll_iff.mp hat
    exact ⟨hasRoom_iff.mp hroom, fun hne => (hothers ds hds).mp (hserials (hids.mpr hne)), ds, hds, rfl⟩
  · rintro ⟨hfits, hserials, ds, hds, rfl⟩
    have hroom := hasRoom_iff.mpr hfits
    refine ⟨_, (hscan ds _).mpr ⟨hds, rfl, hroom⟩, bind_ok.mpr ⟨_, attachAll_iff.mpr ⟨?_, rfl⟩, rfl⟩⟩
    exact fun hne => (hothers ds hds).mpr (hserials (hids.mp hne))

/-! ## Branches -/

/-- `d'` is the device `d` of the list `ds` pointed at its branch, or the coupler `d` with
the branches in use. -/
structure Branched (ds : List Device) (d d' : Device) : Prop where
  other : d.stype ≠ .coupler →
    d' = { d with coupler := d.serial.bind (firstBranch (branchEntries ds 0)) }
  coupler : d.stype = .coupler → d'.stype = .coupler ∧ d'.coupler = none ∧
    d'.s.take d'.ns = (d.s.take d.ns).filter (·.listed.isSome) ∧
    d'.ns = ((d.s.take d.ns).filter (·.listed.isSome)).length

theorem unskipped_of_lt {ds : List Device} (h : (allListedIds ds).length < maxCpl) :
    Unskipped 0 ds := by
  rintro pre d post rfl -
  have hsplit : allListedIds (pre ++ d :: post) = allListedIds pre ++ allListedIds (d :: post) := by
    simp [allListedIds]
  rw [hsplit, List.length_append] at h
  omega

theorem firstBranch_isSome {ds : List Device} {serial : CString} :
    (firstBranch (branchEntries ds 0) serial).isSome ↔ serial ∈ allListedIds ds := by
  rw [← branchEntries_devid ds 0, List.mem_map]
  simp [firstBranch, List.find?_isSome]

theorem ScannedTo.branched {ds : List Device} {d d' : Device} (h : ScannedTo d d')
    (hfresh : d.coupler = none) : Branched ds d (d'.attachFirst (branchEntries ds 0)) := by
  constructor
  · intro ht
    have heq := h.eq (h.stype ▸ ht)
    rw [heq, Device.attachFirst, if_pos ⟨ht, hfresh⟩]
  · intro ht
    obtain ⟨hcoupler, -, htake, hns⟩ := h.coupler ht
    have ht' : d'.stype = .coupler := h.stype ▸ ht
    rw [attachFirst_self fun hne => absurd ht' hne]
    exact ⟨ht', hcoupler.trans hfresh, htake, hns⟩

/-- Below `MAXCPL` ids every device is pointed at the first branch that lists it, and
every coupler keeps the branches in use. -/
theorem initializeCouplers_branches {w1 : DevList} (hfresh : ∀ d ∈ w1.devs, d.coupler = none)
    (hcount : (allListedIds w1.devs).length < maxCpl)
    (hshort : ∀ id ∈ allListedIds w1.devs, id.length < devidSize) :
    ((∃ w1', w1InitializeCouplers w1 = .ok w1') ↔ LegibleSerials w1.devs) ∧
      ∀ w1', w1InitializeCouplers w1 = .ok w1' →
        List.Forall₂ (Branched w1.devs) w1.devs w1'.devs ∧
        (∀ d ∈ w1'.devs, d.stype ≠ .coupler → ∀ serial, d.serial = some serial →
          (d.coupler.isSome ↔ serial ∈ allListedIds w1.devs)) ∧
        ∀ d ∈ w1'.devs, ∀ e ∈ w1'.devs, d.stype ≠ .coupler → e.stype ≠ .coupler →
          d.serial = e.serial → d.coupler = e.coupler := by
  have hfits : FitsClist w1.devs := ⟨hcount.le, hshort⟩
  constructor
  · constructor
    · rintro ⟨w1', h⟩
      obtain ⟨-, hothers, ds, hds, -⟩ :=
        (w1InitializeCouplers_iff hfresh (unskipped_of_lt hcount)).mp h
      exact ⟨exists_scannedTo.mp ⟨ds, hds⟩, hothers⟩
    · rintro ⟨hcouplers, hothers⟩
      obtain ⟨ds, hds⟩ := exists_scannedTo.mpr hcouplers
      exact ⟨_, (w1InitializeCouplers_iff hfresh (unskipped_of_lt hcount)).mpr
        ⟨hfits, hothers, ds, hds, rfl⟩⟩
  · intro w1' h
    obtain ⟨-, -, ds, hds, rfl⟩ := (w1InitializeCouplers_iff hfresh (unskipped_of_lt hcount)).mp h
    have hbranched : List.Forall₂ (Branched w1.devs) w1.devs
        (ds.map (Device.attachFirst (branchEntries w1.devs 0))) := by
      rw [List.forall₂_map_right_iff]
      exact ((List.forall₂_and_left _ _).mpr ⟨hfresh, hds⟩).imp fun d d' h => h.2.branched h.1
    -- a device that is no coupler has the branch its serial number determines
    have hother : ∀ d ∈ ds.map (Device.attachFirst (branchEntries w1.devs 0)),
        d.stype ≠ .coupler → d.coupler = d.serial.bind (firstBranch (branchEntries w1.devs 0)) := by
      intro d' hd' ht
      obtain ⟨n, hn, rfl⟩ := List.getElem_of_mem hd'
      obtain ⟨d, hd, hb⟩ := forall₂_right hbranched (List.getElem?_eq_getElem hn)
      have ht₀ : d.stype ≠ .coupler := fun hc => ht (hb.coupler hc).1
      rw [hb.other ht₀]
    refine ⟨hbranched, fun d hd ht serial hs => ?_, fun d hd e he ht ht' hs => ?_⟩
    · rw [hother d hd ht, hs]
      exact firstBranch_isSome
    · rw [hother d hd ht, hother e he ht', hs]

theorem initializeCouplers_branches_table :
    ∃ w1', w1InitializeCouplers { devs := branchedTable.map Row.device } = .ok w1' ∧
      List.Forall₂ (Branched (branchedTable.map Row.device)) (branchedTable.map Row.device) w1'.devs := by
  have hfresh : ∀ d ∈ ({ devs := branchedTable.map Row.device } : DevList).devs, d.coupler = none := by
    decide
  obtain ⟨hruns, hresult⟩ :=
    initializeCouplers_branches hfresh (by decide +kernel) (by decide +kernel)
  obtain ⟨w1', h⟩ := hruns.mpr
    ⟨by simp [branchedTable, Row.device, Device.Legible], by simp [branchedTable, Row.device]⟩
  exact ⟨w1', h, (hresult w1' h).1⟩

/-! ## Room in `clist` -/

/-- `w1_initialize_couplers` stays within `clist`, and every coupler has its private state. -/
def CouplersSafe (w1 : DevList) : Prop :=
  ∃ w1', w1InitializeCouplers w1 = .ok w1' ∧ ∀ d ∈ w1'.devs, d.stype = .coupler → d.priv.isSome

/-- Sixty-five ids on one branch. -/
def crowdedTable : List Row :=
  [{ serial := some "1F00000000000001".toList, stype := .coupler, ns := 1
     s := [{ abbrv := some ['M'], name := some (List.replicate 65 ['1', ',']).flatten }] }]

theorem initializeCouplers_crowded :
    ¬ CouplersSafe { devs := crowdedTable.map Row.device } := by
  rintro ⟨w1', h, -⟩
  have hstop : (w1InitializeCouplers { devs := crowdedTable.map Row.device }).toOption.isNone = true := by
    decide +kernel
  rw [h] at hstop
  exact Bool.false_ne_true hstop

/-- All entries of `clist` are in bounds and no coupler is passed over exactly for lists
whose ids are few and short, the last coupler with room left before it. -/
theorem initializeCouplers_safe_iff (w1 : DevList) (rows : List Row) :
    let ds := rows.map Row.device
    CouplersSafe { w1 with devs := ds } ↔ FitsClist ds ∧ Unskipped 0 ds ∧ LegibleSerials ds := by
  intro ds
  have hfresh : ∀ d ∈ ds, d.coupler = none ∧ d.priv = none := by
    intro d hd
    obtain ⟨r, -, rfl⟩ := List.mem_map.mp hd
    exact ⟨rfl, rfl⟩
  constructor
  · rintro ⟨w1', h, hpriv⟩
    have hskip : Unskipped 0 ds := by
      obtain ⟨⟨ds₁, clist⟩, hsc, h⟩ := bind_ok.mp h
      obtain ⟨ds₂, hat, h⟩ := bind_ok.mp h
      obtain rfl := Except.ok.inj h
      obtain ⟨-, rfl⟩ := attachAll_iff.mp hat
      refine unskipped_of_priv (fun d hd => (hfresh d hd).2) hsc fun d hd ht => ?_
      have hd' := hpriv (d.attachFirst clist) (List.mem_map_of_mem hd)
      rw [attachFirst_self fun hne => absurd ht hne] at hd'
      exact hd' ht
    obtain ⟨hfits, hothers, ds', hds', -⟩ :=
      (w1InitializeCouplers_iff (fun d hd => (hfresh d hd).1) hskip).mp h
    exact ⟨hfits, hskip, exists_scannedTo.mp ⟨ds', hds'⟩, hothers⟩
  · rintro ⟨hfits, hskip, hcouplers, hothers⟩
    obtain ⟨ds', hds'⟩ := exists_scannedTo.mpr hcouplers
    refine ⟨_, (w1InitializeCouplers_iff (fun d hd => (hfresh d hd).1) hskip).mpr
      ⟨hfits, hothers, ds', hds', rfl⟩, fun d hd ht => ?_⟩
    obtain ⟨d', hd', rfl⟩ := List.mem_map.mp hd
    rw [attachFirst_stype] at ht
    rw [attachFirst_self fun hne => absurd ht hne]
    obtain ⟨n, hn, rfl⟩ := List.getElem_of_mem hd'
    obtain ⟨d, -, hto⟩ := forall₂_right hds' (List.getElem?_eq_getElem hn)
    exact (hto.coupler (hto.stype ▸ ht)).2.1

end W1Retap

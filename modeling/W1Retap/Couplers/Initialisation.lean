import W1Retap.Couplers.Couplers

/-!
# Initialised couplers

When a table lists fewer than `MAXCPL` ids, `w1_initialize_couplers` leaves every
coupler with its ROM code and undefined lines, and every device either without a
coupler or pointed at one branch of an initialised coupler.
-/
namespace W1Retap

open Programs

/-- All ids the couplers of a device list mention. -/
def allListedIds (ds : List Device) : List CString :=
  (ds.filter (·.stype = .coupler)).flatMap Device.listedIds

/-- A coupler `d` that was scanned. -/
structure Undefined (d d' : Device) : Prop where
  stype : d'.stype = .coupler
  serno : w1MakeSerial d.serial = .ok d'.serno
  priv : d'.priv = some (.coupler couplerUndefined)
  coupler : d'.coupler = d.coupler

/-- `d'` is `d` after the loop over the couplers, which skips none while `few` holds. -/
def Scanned (few : Prop) (d d' : Device) : Prop :=
  d.stype = .coupler ∧ Undefined d d' ∨ d' = d ∧ (few → d.stype ≠ .coupler)

/-- An entry of `clist` names a branch of one of the couplers. -/
def CoupEntry.Names (ds : List Device) (e : CoupEntry) : Prop :=
  (∃ d, ds[e.couplerDevice]? = some d ∧ d.stype = .coupler) ∧
    (e.branch = couplerMainOn ∨ e.branch = couplerAuxOn)

/-! ## The loop over the couplers -/

theorem addId_ok {n : ℕ} {branch : Int} {clist clist' : List CoupEntry} {id : CString}
    (h : addId n branch clist id = .ok clist') : clist' = clist ++ [⟨id, branch, n⟩] := by
  unfold addId at h
  split at h
  · exact (Except.ok.inj h).symm
  · simp at h

theorem listed_branch {x : Sensor} {ids : List CString} {branch : Int}
    (h : x.listed = some (ids, branch)) : branch = couplerMainOn ∨ branch = couplerAuxOn := by
  unfold Sensor.listed at h
  split at h
  · split at h
    · obtain ⟨-, rfl⟩ := Prod.mk.inj (Option.some.inj h)
      split
      · exact Or.inl rfl
      · exact Or.inr rfl
    · simp at h
  · simp at h

/-- A slot appends its ids, all for the coupler that is scanned and for one branch. -/
theorem scanSlot_ok {n : ℕ} {clist clist' : List CoupEntry} {x : Sensor}
    (h : scanSlot n clist x = .ok clist') :
    ∃ new, clist' = clist ++ new ∧ new.length = ((x.listed.map Prod.fst).getD []).length ∧
      ∀ e ∈ new, e.couplerDevice = n ∧ (e.branch = couplerMainOn ∨ e.branch = couplerAuxOn) := by
  unfold scanSlot at h
  cases hl : x.listed with
  | none =>
    rw [hl] at h
    exact ⟨[], by simpa using (Except.ok.inj h).symm, by simp, by simp⟩
  | some r =>
    obtain ⟨ids, branch⟩ := r
    have hb := listed_branch hl
    simp only [hl] at h
    clear hl
    induction ids generalizing clist with
    | nil => exact ⟨[], by simpa using (Except.ok.inj h).symm, by simp, by simp⟩
    | cons id ids ih =>
      rw [List.foldlM_cons] at h
      obtain ⟨clist₁, ha, h⟩ := bind_ok.mp h
      obtain ⟨new, rfl, hlen, hnew⟩ := ih h
      obtain rfl := addId_ok ha
      refine ⟨⟨id, branch, n⟩ :: new, by simp, by simpa using hlen, ?_⟩
      intro e he
      rcases List.mem_cons.mp he with rfl | he
      · exact ⟨rfl, hb⟩
      · exact hnew e he

theorem scanSlots_ok {n : ℕ} {xs : List Sensor} {clist clist' : List CoupEntry}
    (h : xs.foldlM (scanSlot n) clist = .ok clist') :
    ∃ new, clist' = clist ++ new ∧
      new.length = (xs.flatMap fun x => (x.listed.map Prod.fst).getD []).length ∧
      ∀ e ∈ new, e.couplerDevice = n ∧ (e.branch = couplerMainOn ∨ e.branch = couplerAuxOn) := by
  induction xs generalizing clist with
  | nil => exact ⟨[], by simpa using (Except.ok.inj h).symm, by simp, by simp⟩
  | cons x xs ih =>
    rw [List.foldlM_cons] at h
    obtain ⟨clist₁, hx, h⟩ := bind_ok.mp h
    obtain ⟨new₁, rfl, hlen₁, hnew₁⟩ := scanSlot_ok hx
    obtain ⟨new₂, rfl, hlen₂, hnew₂⟩ := ih h
    refine ⟨new₁ ++ new₂, by simp, by simp [hlen₁, hlen₂], ?_⟩
    intro e he
    rcases List.mem_append.mp he with he | he
    · exact hnew₁ e he
    · exact hnew₂ e he

@[simp] theorem keepListed_stype (d : Device) : d.keepListed.stype = d.stype := by
  simp only [Device.keepListed]
  split <;> rfl

@[simp] theorem keepListed_serno (d : Device) : d.keepListed.serno = d.serno := by
  simp only [Device.keepListed]
  split <;> rfl

@[simp] theorem keepListed_priv (d : Device) : d.keepListed.priv = d.priv := by
  simp only [Device.keepListed]
  split <;> rfl

@[simp] theorem keepListed_coupler (d : Device) : d.keepListed.coupler = d.coupler := by
  simp only [Device.keepListed]
  split <;> rfl

theorem scanCoupler_ok {n : ℕ} {clist clist' : List CoupEntry} {d d' : Device}
    (hd : d.stype = .coupler) (h : scanCoupler n clist d = .ok (d', clist')) :
    Undefined d d' ∧ ∃ new, clist' = clist ++ new ∧ new.length = d.listedIds.length ∧
      ∀ e ∈ new, e.couplerDevice = n ∧ (e.branch = couplerMainOn ∨ e.branch = couplerAuxOn) := by
  unfold scanCoupler at h
  obtain ⟨serno, hs, h⟩ := bind_ok.mp h
  obtain ⟨clist₁, hl, h⟩ := bind_ok.mp h
  obtain ⟨rfl, rfl⟩ := Prod.mk.inj (Except.ok.inj h)
  exact ⟨⟨by simp [hd], by simp [hs], by simp, by simp⟩, scanSlots_ok hl⟩

/-- The loop initialises every coupler as long as the ids stay below `MAXCPL`, and all
it collects are branches of couplers. -/
theorem scanCouplers_ok {ds ds' : List Device} {n : ℕ} {clist clist' : List CoupEntry}
    (h : scanCouplers ds n clist = .ok (ds', clist')) :
    List.Forall₂ (Scanned (clist.length + (allListedIds ds).length < maxCpl)) ds ds' ∧
      ∃ new, clist' = clist ++ new ∧ ∀ e ∈ new, ∃ k, e.couplerDevice = n + k ∧
        CoupEntry.Names ds { e with couplerDevice := k } := by
  induction ds generalizing n clist ds' with
  | nil =>
    obtain ⟨rfl, rfl⟩ := Prod.mk.inj (Except.ok.inj h)
    exact ⟨.nil, [], by simp, by simp⟩
  | cons d ds ih =>
    -- an entry found further on names the same coupler in the longer list
    have hshift : ∀ e : CoupEntry, (∃ k, e.couplerDevice = n + 1 + k ∧
        CoupEntry.Names ds { e with couplerDevice := k }) →
        ∃ k, e.couplerDevice = n + k ∧ CoupEntry.Names (d :: ds) { e with couplerDevice := k } := by
      rintro e ⟨k, hk, hn⟩
      exact ⟨k + 1, by omega, by simpa [CoupEntry.Names] using hn⟩
    unfold scanCouplers at h
    obtain ⟨⟨d₁, clist₁⟩, hc, h⟩ := bind_ok.mp h
    obtain ⟨⟨ds₁, clist₂⟩, hr, h⟩ := bind_ok.mp h
    obtain ⟨rfl, rfl⟩ := Prod.mk.inj (Except.ok.inj h)
    obtain ⟨hall, new₂, rfl, hnew₂⟩ := ih hr
    unfold scanDevice at hc
    by_cases hd : d.stype = .coupler ∧ clist.length < maxCpl
    · rw [if_pos hd] at hc
      obtain ⟨hsc, new₁, rfl, hlen₁, hnew₁⟩ := scanCoupler_ok hd.1 hc
      have hids : (clist ++ new₁).length + (allListedIds ds).length =
          clist.length + (allListedIds (d :: ds)).length := by
        simp [allListedIds, hd.1, hlen₁]
        omega
      rw [hids] at hall
      refine ⟨.cons (Or.inl ⟨hd.1, hsc⟩) hall, new₁ ++ new₂, by simp, ?_⟩
      intro e he
      rcases List.mem_append.mp he with he | he
      · obtain ⟨hn, hb⟩ := hnew₁ e he
        exact ⟨0, by omega, ⟨d, by simp, hd.1⟩, hb⟩
      · exact hshift e (hnew₂ e he)
    · rw [if_neg hd] at hc
      obtain ⟨rfl, rfl⟩ := Prod.mk.inj (Except.ok.inj hc)
      simp only at hall
      refine ⟨.cons (Or.inr ⟨rfl, fun hfew ht => hd ⟨ht, by omega⟩⟩) (hall.imp ?_), new₂, rfl, ?_⟩
      · rintro e e' (h | ⟨h, hne⟩)
        · exact Or.inl h
        · refine Or.inr ⟨h, fun hfew => hne ?_⟩
          have hle : (allListedIds ds).length ≤ (allListedIds (d :: ds)).length := by
            by_cases ht : d.stype = .coupler <;> simp [allListedIds, ht]
          omega
      · exact fun e he => hshift e (hnew₂ e he)

/-! ## The loop over the listed ids -/

/-- `d'` is `d`, or `d` pointed at a branch that `clist` names. -/
def Attached (clist : List CoupEntry) (d d' : Device) : Prop :=
  d' = d ∨ d.stype ≠ .coupler ∧ ∃ e ∈ clist, d' = { d with coupler := some ⟨e.couplerDevice, e.branch⟩ }

theorem attach_ok {clist : List CoupEntry} {e : CoupEntry} {d d' : Device} (he : e ∈ clist)
    (h : attach e d = .ok d') : Attached clist d d' := by
  unfold attach at h
  split at h
  · rename_i hd
    split at h
    · simp at h
    · rw [← Except.ok.inj h]
      split
      · exact Or.inr ⟨hd.1, e, he, rfl⟩
      · exact Or.inl rfl
  · exact Or.inl (Except.ok.inj h).symm

theorem Attached.trans {clist : List CoupEntry} {d d' d'' : Device} (h : Attached clist d d')
    (h' : Attached clist d' d'') : Attached clist d d'' := by
  rcases h with rfl | ⟨hd, e, he, rfl⟩
  · exact h'
  · rcases h' with rfl | ⟨-, e', he', rfl⟩
    · exact Or.inr ⟨hd, e, he, rfl⟩
    · exact Or.inr ⟨hd, e', he', rfl⟩

theorem attachAll_ok {clist : List CoupEntry} {ds ds' : List Device}
    (h : clist.foldlM (fun devs e => devs.mapM (attach e)) ds = .ok ds') :
    List.Forall₂ (Attached clist) ds ds' := by
  refine foldlM_keeps (P := List.Forall₂ (Attached clist) ds) h ?_ ?_
  · exact List.forall₂_same.mpr fun d _ => Or.inl rfl
  · intro e he ds₁ ds₂ hmap h₁
    have h₂ := (mapM_forall₂ hmap).imp fun d d' hd => attach_ok he hd
    exact forall₂_trans h₁ h₂ fun a b c _ hab hbc => Attached.trans hab hbc

/-! ## The result -/

/-- `d'` is the freshly allocated device `d` after `w1_initialize_couplers`; `ds` is the
whole list, and `few` says that it lists fewer than `MAXCPL` ids. -/
structure Initialised (few : Prop) (ds : List Device) (d d' : Device) : Prop where
  coupler : d.stype = .coupler → d'.stype = .coupler ∧ d'.coupler = none ∧
    (Undefined d d' ∨ ¬ few ∧ d'.priv = none)
  other : d.stype ≠ .coupler → d'.stype ≠ .coupler ∧ ∀ c, d'.coupler = some c →
    (∃ e, ds[c.couplerDevice]? = some e ∧ e.stype = .coupler) ∧
      (c.branch = couplerMainOn ∨ c.branch = couplerAuxOn)

theorem w1InitializeCouplers_ok {w1 w1' : DevList}
    (hfresh : ∀ d ∈ w1.devs, d.coupler = none ∧ d.priv = none)
    (h : w1InitializeCouplers w1 = .ok w1') :
    w1' = { w1 with devs := w1'.devs } ∧
      List.Forall₂ (Initialised ((allListedIds w1.devs).length < maxCpl) w1.devs)
        w1.devs w1'.devs := by
  unfold w1InitializeCouplers at h
  obtain ⟨⟨ds₁, clist⟩, hsc, h⟩ := bind_ok.mp h
  obtain ⟨ds₂, hat, h⟩ := bind_ok.mp h
  obtain rfl := Except.ok.inj h
  obtain ⟨hscanned, new, hnew, hnames⟩ := scanCouplers_ok hsc
  rw [List.nil_append] at hnew
  rw [List.length_nil, Nat.zero_add] at hscanned
  subst hnew
  refine ⟨rfl, forall₂_trans hscanned (attachAll_ok hat) fun d d₁ d₂ hd hs ha => ?_⟩
  obtain ⟨hcoupler, hpriv⟩ := hfresh d hd
  constructor
  · intro ht
    have ht₁ : d₁.stype = .coupler := by
      rcases hs with ⟨-, hu⟩ | ⟨rfl, -⟩
      · exact hu.stype
      · exact ht
    have hd₂ : d₂ = d₁ := ha.resolve_right fun hne => hne.1 ht₁
    subst hd₂
    refine ⟨ht₁, ?_⟩
    rcases hs with ⟨-, hu⟩ | ⟨rfl, hfew⟩
    · exact ⟨hu.coupler.trans hcoupler, Or.inl hu⟩
    · exact ⟨hcoupler, Or.inr ⟨fun hf => hfew hf ht, hpriv⟩⟩
  · intro ht
    rcases hs with ⟨hc, -⟩ | ⟨rfl, -⟩
    · exact absurd hc ht
    · rcases ha with rfl | ⟨-, e, he, rfl⟩
      · exact ⟨ht, fun c hc => by simp [hcoupler] at hc⟩
      · refine ⟨ht, fun c hc => ?_⟩
        obtain rfl := Option.some.inj hc
        obtain ⟨k, hk, hn⟩ := hnames e he
        obtain rfl : e.couplerDevice = k := by omega
        exact hn

@[simp] theorem keepListed_intvl (d : Device) : d.keepListed.intvl = d.intvl := by
  simp only [Device.keepListed]
  split <;> rfl

theorem scanDevice_intvl {n : ℕ} {clist clist' : List CoupEntry} {d d' : Device}
    (h : scanDevice n clist d = .ok (d', clist')) : d'.intvl = d.intvl := by
  unfold scanDevice at h
  split at h
  · unfold scanCoupler at h
    obtain ⟨serno, -, h⟩ := bind_ok.mp h
    obtain ⟨clist₁, -, h⟩ := bind_ok.mp h
    obtain ⟨rfl, -⟩ := Prod.mk.inj (Except.ok.inj h)
    simp
  · obtain ⟨rfl, -⟩ := Prod.mk.inj (Except.ok.inj h)
    rfl

theorem scanCouplers_intvl {ds ds' : List Device} {n : ℕ} {clist clist' : List CoupEntry}
    (h : scanCouplers ds n clist = .ok (ds', clist')) :
    ds'.map (·.intvl) = ds.map (·.intvl) := by
  induction ds generalizing n clist clist' ds' with
  | nil =>
    obtain ⟨rfl, -⟩ := Prod.mk.inj (Except.ok.inj h)
    rfl
  | cons d ds ih =>
    unfold scanCouplers at h
    obtain ⟨⟨d₁, clist₁⟩, hd, h⟩ := bind_ok.mp h
    obtain ⟨⟨ds₁, clist₂⟩, hds, h⟩ := bind_ok.mp h
    obtain ⟨rfl, -⟩ := Prod.mk.inj (Except.ok.inj h)
    rw [List.map_cons, List.map_cons, ih hds, scanDevice_intvl hd]

/-- The intervals are left alone. -/
theorem w1InitializeCouplers_intvl {w1 w1' : DevList} (h : w1InitializeCouplers w1 = .ok w1') :
    w1'.devs.map (·.intvl) = w1.devs.map (·.intvl) := by
  unfold w1InitializeCouplers at h
  obtain ⟨⟨ds₁, clist⟩, hsc, h⟩ := bind_ok.mp h
  obtain ⟨ds₂, hat, h⟩ := bind_ok.mp h
  obtain rfl := Except.ok.inj h
  rw [← scanCouplers_intvl hsc]
  refine (forall₂_eq_iff.mp ((attachAll_ok hat).imp fun d d' ha => ?_)).symm
  rcases ha with rfl | ⟨-, e, -, rfl⟩ <;> rfl

/-- The devices differ in their intervals at most. -/
def SameButIntvl (d d' : Device) : Prop := d' = { d with intvl := d'.intvl }

theorem scanCoupler_intvl (n : ℕ) (clist : List CoupEntry) (d : Device) (x : Int) :
    scanCoupler n clist { d with intvl := x } =
      (scanCoupler n clist d).map fun r => ({ r.1 with intvl := x }, r.2) := by
  have hkeep : ∀ e : Device,
      ({ e with intvl := x } : Device).keepListed = { e.keepListed with intvl := x } := by
    intro e
    simp only [Device.keepListed]
    split <;> rfl
  unfold scanCoupler
  cases w1MakeSerial d.serial with
  | error e => rfl
  | ok serno =>
    cases (d.s.take d.ns).foldlM (scanSlot n) clist with
    | error e => rfl
    | ok clist' =>
      exact congrArg (fun e => Except.ok (e, clist'))
        (hkeep { d with serno, priv := some (.coupler couplerUndefined) })

theorem scanCouplers_sameButIntvl {ds ds' es : List Device} {n : ℕ} {clist clist' : List CoupEntry}
    (hds : List.Forall₂ SameButIntvl ds ds') (h : scanCouplers ds n clist = .ok (es, clist')) :
    ∃ es', scanCouplers ds' n clist = .ok (es', clist') ∧ List.Forall₂ SameButIntvl es es' := by
  induction hds generalizing n clist clist' es with
  | nil =>
    obtain ⟨rfl, rfl⟩ := Prod.mk.inj (Except.ok.inj h)
    exact ⟨[], rfl, .nil⟩
  | @cons d d' ds ds' hd _ ih =>
    unfold scanCouplers at h ⊢
    obtain ⟨⟨e, clist₁⟩, he, h⟩ := bind_ok.mp h
    obtain ⟨⟨es₁, clist₂⟩, hes, h⟩ := bind_ok.mp h
    obtain ⟨rfl, rfl⟩ := Prod.mk.inj (Except.ok.inj h)
    obtain ⟨es', hes', hsame⟩ := ih hes
    have he' : scanDevice n clist d' = .ok ({ e with intvl := d'.intvl }, clist₁) := by
      rw [hd]
      unfold scanDevice at he ⊢
      by_cases hc : d.stype = .coupler ∧ clist.length < maxCpl
      · rw [if_pos hc] at he
        rw [if_pos hc, scanCoupler_intvl, he]
        rfl
      · rw [if_neg hc] at he
        obtain ⟨rfl, rfl⟩ := Prod.mk.inj (Except.ok.inj he)
        rw [if_neg hc]
    exact ⟨_, bind_ok.mpr ⟨_, he', bind_ok.mpr ⟨_, hes', rfl⟩⟩, .cons rfl hsame⟩

theorem attach_sameButIntvl {e : CoupEntry} {d d' f : Device} (hd : SameButIntvl d d')
    (h : attach e d = .ok f) : ∃ f', attach e d' = .ok f' ∧ SameButIntvl f f' := by
  have hmap : attach e { d with intvl := d'.intvl } =
      (attach e d).map fun f => { f with intvl := d'.intvl } := by
    unfold attach
    by_cases hc : d.stype ≠ .coupler ∧ d.coupler = none
    · rw [if_pos hc, if_pos hc]
      cases hs : d.serial with
      | none => rfl
      | some serial =>
        simp only [Except.map]
        split <;> simp [hs]
    · rw [if_neg hc, if_neg hc]
      rfl
  rw [hd, hmap, h]
  exact ⟨_, rfl, rfl⟩

/-- Whether the couplers can be initialised does not depend on the intervals. -/
theorem w1InitializeCouplers_sameButIntvl {w w' : DevList}
    (hds : List.Forall₂ SameButIntvl w.devs w'.devs) (h : ∃ r, w1InitializeCouplers w = .ok r) :
    ∃ r, w1InitializeCouplers w' = .ok r := by
  obtain ⟨r, h⟩ := h
  unfold w1InitializeCouplers at h ⊢
  obtain ⟨⟨ds₁, clist⟩, hsc, h⟩ := bind_ok.mp h
  obtain ⟨ds₂, hat, -⟩ := bind_ok.mp h
  obtain ⟨ds₁', hsc', hsame⟩ := scanCouplers_sameButIntvl hds hsc
  obtain ⟨ds₂', hat', -⟩ := foldlM_related (fun e l l' m hl hm =>
    mapM_related hl (fun d d' f hd hf => attach_sameButIntvl hd hf) hm) hsame hat
  exact ⟨_, bind_ok.mpr ⟨_, hsc', bind_ok.mpr ⟨_, hat', rfl⟩⟩⟩

/-- `w1_initialize_couplers` looks at the devices only. -/
theorem w1InitializeCouplers_congr (w1 w : DevList) (h : w1.devs = w.devs) :
    w1InitializeCouplers w1 = (w1InitializeCouplers w).map fun w' => { w1 with devs := w'.devs } := by
  unfold w1InitializeCouplers
  rw [h]
  cases hs : scanCouplers w.devs 0 [] with
  | error e => simp [bind, Except.bind, Except.map]
  | ok r =>
    cases ha : r.2.foldlM (fun devs e => devs.mapM (attach e)) r.1 with
    | error e => simp [bind, Except.bind, Except.map, ha]
    | ok devs => simp [bind, Except.bind, Except.map, ha, pure, Except.pure]

theorem w1InitializeCouplers_keeps {w w' : DevList} (h : w1InitializeCouplers w = .ok w') :
    w' = { w with devs := w'.devs } := by
  rw [w1InitializeCouplers_congr w w rfl] at h
  obtain ⟨w₀, -, rfl⟩ := map_ok.mp h
  rfl

/-- A sensor table read by `do_init`. -/
def loadCouplers {σ : Type} (rows : List Row) : M σ Unit := do
  let w1 ← getW1
  let w1 ← StateT.lift (w1InitializeCouplers { w1 with devs := rows.map Row.device })
  modifyW1 fun _ => w1

/-- A load changes only the devices, and those are freshly initialised. -/
theorem loadCouplers_ok {σ : Type} {rows : List Row} {s s' : Machine σ} {u : Unit}
    (h : (loadCouplers rows).run s = .ok (u, s')) :
    s'.trace = s.trace ∧ List.Forall₂
      (Initialised ((allListedIds (rows.map Row.device)).length < maxCpl) (rows.map Row.device))
      (rows.map Row.device) s'.w1.devs := by
  rw [loadCouplers, run_getW1_bind, run_bind_ok] at h
  obtain ⟨w1, s₁, hlift, h⟩ := h
  obtain ⟨hinit, rfl⟩ := run_lift_ok.mp hlift
  obtain rfl := run_modifyW1_ok.mp h
  have hfresh : ∀ d ∈ rows.map Row.device, d.coupler = none ∧ d.priv = none := by
    intro d hd
    obtain ⟨r, -, rfl⟩ := List.mem_map.mp hd
    exact ⟨rfl, rfl⟩
  exact ⟨rfl, (w1InitializeCouplers_ok hfresh hinit).2⟩

/-- Two couplers with a thermometer behind the main branch of the first and one behind
the auxiliary branch of the second. -/
def branchedTable : List Row :=
  [{ serial := some "1F00000000000001".toList, stype := .coupler, ns := 1
     s := [{ abbrv := some ['M'], name := some "1000000000000001".toList }] },
   { serial := some "1F00000000000002".toList, stype := .coupler, ns := 1
     s := [{ abbrv := some ['A'], name := some "1000000000000002".toList }] },
   { serial := some "1000000000000001".toList, stype := .temp, ns := 1, s := [{}] },
   { serial := some "1000000000000002".toList, stype := .temp, ns := 1, s := [{}] }]

end W1Retap

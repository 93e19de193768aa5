import W1Retap.Sensors.Temperatures
import W1Retap.Support.TwoRuns

/-!
# Two configurations of one device

What a reader sends on the bus depends on the sensors of its device only through the
channels that they make it read. Two processes whose devices differ in their sensors stay
in step, and read the same voltages, as long as both have a sensor for the same channels.
-/
namespace W1Retap

open Programs

/-- A device without its sensors. -/
def Device.frame (d : Device) : Option CString × Option CString × ℕ × W1Type × Serno ×
    Option Coupler × Option (List ℚ) × Option Private × Int :=
  (d.serial, d.devtype, d.init, d.stype, d.serno, d.coupler, d.params, d.priv, d.intvl)

section
variable {σ : Type} {w w' : Device} {n : ℕ} {s s' t t' : Machine σ}

/-- Nothing but sensors of device `n`, and the trace. -/
structure Aside (n : ℕ) (s t : Machine σ) : Prop where
  bus : t.bus = s.bus
  w1 : t.w1 = { s.w1 with devs := t.w1.devs }
  frames : t.w1.devs.map Device.frame = s.w1.devs.map Device.frame
  setUp : ∀ w, SetUp w n s → SetUp w n t

/-- The same process, where device `n` may have other sensors: `w` on one side, `w'` on the
other. -/
structure Twins (w w' : Device) (n : ℕ) (s s' : Machine σ) : Prop where
  bus : s'.bus = s.bus
  w1 : s'.w1 = { s.w1 with devs := s'.w1.devs }
  frames : s'.w1.devs.map Device.frame = s.w1.devs.map Device.frame
  left : SetUp w n s
  right : SetUp w' n s'

theorem Twins.aside_left (h : Twins w w' n s s') (ha : Aside n s t) : Twins w w' n t s' where
  bus := h.bus.trans ha.bus.symm
  w1 := by
    rw [h.w1, ha.w1]
  frames := h.frames.trans ha.frames.symm
  left := ha.setUp w h.left
  right := h.right

theorem Twins.aside_right (h : Twins w w' n s s') (ha : Aside n s' t') : Twins w w' n s t' where
  bus := ha.bus.trans h.bus
  w1 := by
    rw [ha.w1, h.w1]
  frames := ha.frames.trans h.frames
  left := h.left
  right := ha.setUp w' h.right

/-! ## Steps of one side -/

theorem Aside.log (s : Machine σ) (e : Event) : Aside n s (s.log e) := ⟨rfl, rfl, rfl, fun _ h => h⟩

theorem frames_modify {f : Device → Device} (hf : ∀ d, (f d).frame = d.frame) (ds : List Device) :
    (ds.modify n f).map Device.frame = ds.map Device.frame := by
  apply List.ext_getElem?
  intro k
  rw [List.getElem?_map, List.getElem?_map, List.getElem?_modify]
  cases ds[k]? with
  | none => rfl
  | some d =>
    by_cases hk : n = k
    · simp [hk, hf]
    · simp [hk]

theorem Aside.modifyDev {f : Device → Device} (hframe : ∀ d, (f d).frame = d.frame)
    (hsetup : ∀ d, s.w1.devs[n]? = some d → (f d).setup = d.setup) : Aside n s (s.modifyDev n f) where
  bus := rfl
  w1 := rfl
  frames := frames_modify hframe _
  setUp _ h := h.modifyDev hsetup

theorem aside_w1SetInvalid : Does (Aside n) (w1SetInvalid (σ := σ) n) := by
  intro s u s' h
  obtain rfl := run_modifyDev_ok.mp h
  exact .single (.modifyDev (fun _ => rfl) fun d _ => setup_setInvalid d)

theorem aside_clearValid (j : ℕ) : Does (Aside n) (clearValid (σ := σ) n j) := by
  intro s u s' h
  obtain ⟨-, rfl⟩ := run_modifySlot_ok.mp h
  exact .single (.modifyDev (fun _ => rfl) fun d _ => setup_modifySlot fun _ _ => rfl)

theorem aside_w1Replog : Does (Aside n) (w1Replog (σ := σ)) :=
  does_reports fun s _ _ => .log s _

theorem aside_store (j : ℕ) (v : ℚ) :
    Does (Aside n) (store (σ := σ) n j fun x => { x with value := v }) := by
  intro s r s' h
  obtain ⟨x, x', es, hx, hx', -, -, rfl⟩ := run_store_ok h
  have hlabel := w1Validate_label hx'
  have hput : Aside n s (s.modifyDev n (·.modifySlot j fun _ => x')) := by
    refine .modifyDev (fun _ => rfl) fun d hd => setup_modifySlot fun y hy => ?_
    rw [Machine.slot?, hd, Option.bind_some, hy] at hx
    rw [Option.some.inj hx]
    exact hlabel
  exact .single ⟨hput.bus, hput.w1, hput.frames, hput.setUp⟩

/-- Any of these on either side. -/
theorem agree_aside {α β : Type} {m : M σ α} {k : M σ β} (hm : Does (Aside n) m)
    (hk : Does (Aside n) k) : Agree (Twins w w' n) m k fun _ _ => Twins w w' n :=
  .aside hm hk (fun _ _ _ ha h => h.aside_left ha) fun _ _ _ ha h => h.aside_right ha

/-! ## Steps of both sides -/

theorem agree_call {α : Type} (f : σ → α × σ) :
    Agree (Twins w w' n) (call f) (call f) fun a b s s' => Twins w w' n s s' ∧ b = a := by
  intro s s' a b t t' h hr hr'
  obtain ⟨rfl, rfl⟩ := run_call_ok.mp hr
  obtain ⟨rfl, rfl⟩ := run_call_ok.mp hr'
  rw [h.bus]
  exact ⟨⟨rfl, h.w1, h.frames, h.left, h.right⟩, rfl⟩

theorem agree_event (e e' : Event) :
    Agree (Twins w w' n) (event (σ := σ) e) (event e') fun _ _ => Twins w w' n := by
  intro s s' a b t t' h hr hr'
  obtain rfl := run_event_ok.mp hr
  obtain rfl := run_event_ok.mp hr'
  exact ⟨h.bus, h.w1, h.frames, h.left, h.right⟩

theorem agree_getW1 : Agree (Twins w w' n) (getW1 (σ := σ)) getW1 fun w1 w1' s s' =>
    Twins w w' n s s' ∧ w1' = { w1 with devs := w1'.devs } ∧ w1'.devs.length = w1.devs.length := by
  intro s s' a b t t' h hr hr'
  obtain ⟨rfl, rfl⟩ := run_getW1_ok.mp hr
  obtain ⟨rfl, rfl⟩ := run_getW1_ok.mp hr'
  exact ⟨h, h.w1, by simpa using congrArg List.length h.frames⟩

theorem agree_dev (m : ℕ) : Agree (Twins w w' n) (dev (σ := σ) m) (dev m) fun d d' s s' =>
    Twins w w' n s s' ∧ d'.frame = d.frame := by
  intro s s' d d' t t' h hr hr'
  obtain ⟨hd, rfl⟩ := run_dev_ok.mp hr
  obtain ⟨hd', rfl⟩ := run_dev_ok.mp hr'
  have hframes := congrArg (·[m]?) h.frames
  simp only [List.getElem?_map, hd, hd', Option.map_some] at hframes
  exact ⟨h, Option.some.inj hframes⟩

theorem agree_lift {α : Type} (x : Except Stop α) :
    Agree (Twins w w' n) (StateT.lift x : M σ α) (StateT.lift x) fun a b s s' =>
      Twins w w' n s s' ∧ b = a := by
  intro s s' a b t t' h hr hr'
  obtain ⟨ha, rfl⟩ := run_lift_ok.mp hr
  obtain ⟨hb, rfl⟩ := run_lift_ok.mp hr'
  exact ⟨h, Except.ok.inj (hb.symm.trans ha)⟩

/-- A change of a device that does not look at its sensors. -/
theorem agree_modifyDev (m : ℕ) {f : Device → Device}
    (hframe : ∀ d d', d'.frame = d.frame → (f d').frame = (f d).frame)
    (hsetup : ∀ d, (f d).setup = d.setup) :
    Agree (Twins w w' n) (modifyDev (σ := σ) m f) (modifyDev m f) fun _ _ => Twins w w' n := by
  intro s s' a b t t' h hr hr'
  obtain rfl := run_modifyDev_ok.mp hr
  obtain rfl := run_modifyDev_ok.mp hr'
  refine ⟨h.bus, ?_, ?_, h.left.modifyDev fun d _ => hsetup d, h.right.modifyDev fun d _ => hsetup d⟩
  · rw [Machine.modifyDev, Machine.setW1_w1, h.w1]
    rfl
  · apply List.ext_getElem?
    intro k
    have hk := congrArg (·[k]?) h.frames
    simp only [List.getElem?_map] at hk
    rw [List.getElem?_map, List.getElem?_map, Machine.modifyDev_getElem?, Machine.modifyDev_getElem?]
    by_cases hm : m = k
    · rw [if_pos hm, if_pos hm]
      cases hd : s.w1.devs[k]? with
      | none =>
        cases hd' : s'.w1.devs[k]? with
        | none => rfl
        | some d' => rw [hd, hd'] at hk; cases hk
      | some d =>
        cases hd' : s'.w1.devs[k]? with
        | none => rw [hd, hd'] at hk; cases hk
        | some d' =>
          rw [hd, hd'] at hk
          exact congrArg some (hframe d d' (Option.some.inj hk))
    · rw [if_neg hm, if_neg hm]
      exact hk

theorem frame_serno {d d' : Device} (h : d'.frame = d.frame) : d'.serno = d.serno := by
  simp only [Device.frame, Prod.mk.injEq] at h
  exact h.2.2.2.2.1

theorem frame_coupler {d d' : Device} (h : d'.frame = d.frame) : d'.coupler = d.coupler := by
  simp only [Device.frame, Prod.mk.injEq] at h
  exact h.2.2.2.2.2.1

theorem frame_params {d d' : Device} (h : d'.frame = d.frame) : d'.params = d.params := by
  simp only [Device.frame, Prod.mk.injEq] at h
  exact h.2.2.2.2.2.2.1

/-! ## The bus -/

variable (drv : Driver σ)

theorem agree_w1SetCoupler (m : ℕ) (lines : Int) :
    Agree (Twins w w' n) (w1SetCoupler drv m lines) (w1SetCoupler drv m lines) fun _ _ => Twins w w' n := by
  refine .bind (agree_dev m) fun d d' => .given fun hframe => ?_
  have hsame := hframe
  simp only [Device.frame, Prod.mk.injEq] at hsame
  obtain ⟨-, -, -, hstype, hserno, -, -, hpriv, -⟩ := hsame
  have hlines : d'.activeLines = d.activeLines := by rw [Device.activeLines, hpriv]; rfl
  rw [hstype, hlines, hserno]
  refine .ite Iff.rfl (fun _ _ => ?_) fun _ _ => .pure fun _ _ h => h
  refine .bind (agree_call _) fun ok ok' => .given ?_
  rintro rfl
  refine .bind (agree_event _ _) fun _ _ => agree_modifyDev m (fun d d' h => ?_) fun _ => rfl
  simp only [Device.frame, Prod.mk.injEq] at h ⊢
  tauto

theorem agree_switchOff (own : Option ℕ) (i : ℕ) :
    Agree (Twins w w' n) (switchOff drv own i) (switchOff drv own i) fun _ _ => Twins w w' n := by
  refine .bind (agree_dev i) fun d d' => .given fun hframe => ?_
  simp only [Device.frame, Prod.mk.injEq] at hframe
  rw [hframe.2.2.2.1]
  exact .ite Iff.rfl (fun _ _ => agree_w1SetCoupler drv i _) fun _ _ => .pure fun _ _ h => h

theorem agree_w1SelectDevice (m : ℕ) :
    Agree (Twins w w' n) (w1SelectDevice drv m) (w1SelectDevice drv m) fun a b s s' =>
      Twins w w' n s s' ∧ b = a := by
  refine .bind agree_getW1 fun w1 w1' => ?_
  refine .conseq (R := fun s s' => Twins w w' n s s' ∧ w1'.devs.length = w1.devs.length)
    (.given fun hlen => ?_) (fun _ _ h => ⟨h.1, h.2.2⟩) fun _ _ _ _ h => h
  refine .bind (agree_dev m) fun d d' => .given fun hframe => ?_
  rw [hlen, frame_coupler hframe, frame_serno hframe]
  refine .bind (.forM fun i _ => agree_switchOff drv _ i) fun _ _ => ?_
  refine .bind (Q := fun _ _ => Twins w w' n) ?_ fun _ _ => ?_
  · cases d.coupler with
    | none => exact .pure fun _ _ h => h
    | some c => exact agree_w1SetCoupler drv c.couplerDevice c.branch
  · refine .bind (agree_event _ _) fun _ _ => .bind (agree_call _) fun found found' => .given ?_
    rintro rfl
    exact .pure fun _ _ h => ⟨h, rfl⟩

theorem agree_makeSerial :
    Agree (Twins w w' n) (makeSerial (σ := σ) n) (makeSerial n) fun _ _ => Twins w w' n := by
  refine .bind (agree_dev n) fun d d' => .given fun hframe => ?_
  simp only [Device.frame, Prod.mk.injEq] at hframe
  rw [hframe.1, hframe.2.2.1]
  refine .ite Iff.rfl (fun _ _ => .bind (agree_lift _) fun serno serno' => .given ?_) fun _ _ =>
    .pure fun _ _ h => h
  rintro rfl
  refine agree_modifyDev n (fun d d' h => ?_) fun _ => rfl
  simp only [Device.frame, Prod.mk.injEq] at h ⊢
  tauto

/-! ## The channels -/

theorem agree_matchSensor (name : String) :
    Agree (Twins w w' n) (matchSensor (σ := σ) n name.toList) (matchSensor n name.toList)
      fun r r' s s' => Twins w w' n s s' ∧ r = w.finds name ∧ r' = w'.finds name := by
  intro s s' r r' t t' h hr hr'
  obtain ⟨rfl, rfl⟩ := h.left.matchSensor hr
  obtain ⟨rfl, rfl⟩ := h.right.matchSensor hr'
  exact ⟨h, rfl, rfl⟩

/-- A channel once its value is there: only the count depends on the sensor. -/
def keepChannel (n : ℕ) (j : Option ℕ) (val : ℚ) : M σ (ℕ × Option ℚ) :=
  match j with
  | some j => do
    if val ≠ -1 then
      let nv ← store n j fun x => { x with value := val }
      return (nv, some val)
    else
      clearValid n j
      return (0, some val)
  | none => return (0, some val)

theorem aside_keepChannel (j : Option ℕ) (val : ℚ) : Does (Aside n) (keepChannel (σ := σ) n j val) := by
  cases j with
  | none => exact .pure _
  | some j =>
    refine .ite (fun _ => .bind (aside_store j val) fun _ => .pure _) fun _ => ?_
    exact .bind (aside_clearValid j) fun _ => .pure _

theorem keepChannel_value (j : Option ℕ) (val : ℚ) :
    Ends (fun _ => True) (keepChannel (σ := σ) n j val) fun r _ => r.2 = some val := by
  have hany : ∀ {α : Type} (m : M σ α), Ends (fun _ => True) m fun _ _ => True :=
    fun _ _ _ _ _ _ => trivial
  cases j with
  | none => exact .pure fun _ _ => rfl
  | some j =>
    refine .ite (fun _ => .bind (hany _) fun _ => .pure fun _ _ => rfl) fun _ => ?_
    exact .bind (hany _) fun _ => .pure fun _ _ => rfl

theorem agree_keepChannel (j j' : Option ℕ) (val : ℚ) :
    Agree (Twins w w' n) (keepChannel (σ := σ) n j val) (keepChannel n j' val)
      fun r r' s s' => Twins w w' n s s' ∧ r'.2 = r.2 := by
  have haside : Agree (Twins w w' n) (keepChannel (σ := σ) n j val) (keepChannel n j' val)
      fun _ _ => Twins w w' n := agree_aside (aside_keepChannel j val) (aside_keepChannel j' val)
  refine (haside.values (keepChannel_value j val) (keepChannel_value j' val)).conseq
    (fun _ _ h => h) fun r r' _ _ h => ⟨h.1, ?_⟩
  exact h.2.2.trans h.2.1.symm

theorem agree_readChannel {name : String} (hname : (w'.finds name).isSome = (w.finds name).isSome)
    (wanted : Bool) (read : σ → ℚ × σ) :
    Agree (Twins w w' n) (readChannel n name wanted read) (readChannel n name wanted read)
      fun r r' s s' => Twins w w' n s s' ∧ r'.2 = r.2 := by
  refine .bind (agree_matchSensor name) fun j j' => .given ?_
  rintro ⟨rfl, rfl⟩
  rw [hname]
  refine .ite Iff.rfl (fun _ _ => .bind (agree_call read) fun val val' => .given ?_) fun _ _ =>
    .pure fun _ _ h => ⟨h, rfl⟩
  rintro rfl
  exact agree_keepChannel (w.finds name) (w'.finds name) val'

theorem agree_reportSolar (hsolar : (w'.finds "Solar").isSome = (w.finds "Solar").isSome)
    (vdd : Option ℚ) :
    Agree (Twins w w' n) (reportSolar drv n vdd) (reportSolar drv n vdd) fun _ _ => Twins w w' n := by
  refine .ite Iff.rfl (fun _ _ => .bind (agree_matchSensor "Solar") fun j j' => .given ?_) fun _ _ =>
    .pure fun _ _ h => h
  rintro ⟨rfl, rfl⟩
  rw [hsolar]
  refine .ite Iff.rfl (fun _ _ => .bind (agree_dev n) fun d d' => .given fun hframe => ?_) fun _ _ =>
    .pure fun _ _ h => h
  rw [frame_serno hframe]
  exact .bind (agree_call _) fun _ _ => .given fun _ => agree_aside aside_w1Replog aside_w1Replog

/-- Both devices have a sensor for the same channels. -/
def SameChannels (w w' : Device) : Prop :=
  ∀ name ∈ ["vdd", "vad", "vsens", "Solar"], (w'.finds name).isSome = (w.finds name).isSome

theorem agree_channels (hw : SameChannels w w') (v : Option Ds2438v) :
    Agree (Twins w w' n) (channels drv n v) (channels drv n v) fun r r' s s' =>
      Twins w w' n s s' ∧ r'.2 = r.2 := by
  refine .bind (agree_dev n) fun d d' => .given fun hframe => ?_
  rw [frame_serno hframe]
  refine .bind (agree_readChannel (hw "vdd" (by simp)) _ _) fun vdd vdd' => .given fun hvdd => ?_
  rw [hvdd]
  refine .bind (agree_reportSolar drv (hw "Solar" (by simp)) _) fun _ _ => ?_
  refine .bind (agree_readChannel (hw "vad" (by simp)) _ _) fun vad vad' => .given fun hvad => ?_
  refine .bind (agree_readChannel (hw "vsens" (by simp)) _ _) fun vsens vsens' => .given fun hvsens => ?_
  rw [hvad, hvsens]
  exact .pure fun _ _ h => ⟨h, rfl⟩

/-- Up to the temperature, the two sides read the same. -/
theorem agree_beforeTemp (hw : SameChannels w w') (v : Option Ds2438v) :
    Agree (Twins w w' n) (beforeTemp drv n v) (beforeTemp drv n v) fun r r' s s' =>
      Twins w w' n s s' ∧ r'.map Prod.snd = r.map Prod.snd := by
  refine .bind (agree_makeSerial) fun _ _ => ?_
  refine .bind (Q := fun sel sel' s s' => Twins w w' n s s' ∧ sel' = sel) ?_ fun sel sel' => .given ?_
  · cases v with
    | none => exact agree_w1SelectDevice drv n
    | some v => exact .pure fun _ _ h => ⟨h, rfl⟩
  · rintro rfl
    refine .bind (agree_aside aside_w1SetInvalid aside_w1SetInvalid) fun _ _ => ?_
    refine .ite Iff.rfl (fun _ _ => ?_) fun _ _ => .pure fun _ _ h => ⟨h, rfl⟩
    refine .bind (agree_channels drv hw v) fun r r' => .given fun hr => ?_
    exact .pure fun _ _ h => ⟨h, congrArg some hr⟩

/-! ## Configurations that differ in the temperature sensor -/

/-- The sensors in use that are not for the temperature. -/
def Device.others (d : Device) : List Sensor := (d.s.take d.ns).filter fun x => !x.goesBy "temp"

/-- The same device, but for whether a temperature sensor is listed, and which. -/
structure DifferInTemp (d d' : Device) : Prop where
  frame : d'.frame = d.frame
  others : d'.others = d.others
  alone : ∀ x, x ∈ d.s.take d.ns ∨ x ∈ d'.s.take d'.ns → x.goesBy "temp" = true →
    ∀ name ∈ ["vdd", "vad", "vsens", "Solar"], x.goesBy name = false

def matches? (name : String) (xs : List Sensor) (i : ℕ) : Bool :=
  match matchFrom name.toList xs i with
  | .ok (some _) => true
  | _ => false

theorem finds_isSome (d : Device) (name : String) :
    (d.finds name).isSome = matches? name (d.s.take d.ns) 0 := by
  unfold Device.finds matches? w1MatchSensor
  cases matchFrom name.toList (d.s.take d.ns) 0 with
  | error e => rfl
  | ok r => cases r <;> rfl

/-- Sensors with a name that go by another one may be left out of the search. -/
theorem matches_filter {name : String} {p : Sensor → Bool} {xs : List Sensor} {i i' : ℕ}
    (h : ∀ x ∈ xs, p x = false → x.abbrv.isSome ∧ x.name.isSome ∧ x.goesBy name = false) :
    matches? name (xs.filter p) i' = matches? name xs i := by
  induction xs generalizing i i' with
  | nil => rfl
  | cons x xs ih =>
    have hxs : ∀ y ∈ xs, p y = false → y.abbrv.isSome ∧ y.name.isSome ∧ y.goesBy name = false :=
      fun y hy => h y (by simp [hy])
    unfold matches? at ih ⊢
    by_cases hp : p x = true
    · rw [List.filter_cons_of_pos hp, matchFrom, matchFrom]
      cases x.abbrv with
      | none => exact ih hxs
      | some abbrv =>
        cases x.name with
        | none => rfl
        | some full =>
          by_cases hmatch : (CStrings.strcasestr full name.toList ||
              CStrings.strcaseeq abbrv name.toList) = true
          · simp only [hmatch, if_true]
          · simp only [hmatch]
            exact ih hxs
    · rw [List.filter_cons_of_neg hp, matchFrom]
      obtain ⟨habbrv, hname, hgoes⟩ := h x (by simp) (by simpa using hp)
      obtain ⟨abbrv, habbrv⟩ := Option.isSome_iff_exists.mp habbrv
      obtain ⟨full, hname⟩ := Option.isSome_iff_exists.mp hname
      rw [Sensor.goesBy, habbrv, hname] at hgoes
      rw [habbrv, hname]
      simp only [hgoes]
      exact ih hxs

theorem DifferInTemp.sameChannels {d d' : Device} (h : DifferInTemp d d') : SameChannels d d' := by
  have hothers : ∀ e : Device, (e = d ∨ e = d') → ∀ name ∈ ["vdd", "vad", "vsens", "Solar"],
      (e.finds name).isSome = matches? name e.others 0 := by
    intro e he name hname
    rw [finds_isSome]
    refine (matches_filter fun x hx hp => ?_).symm
    have htemp : x.goesBy "temp" = true := by simpa using hp
    have halone := h.alone x (by rcases he with rfl | rfl <;> tauto) htemp name hname
    unfold Sensor.goesBy at htemp
    split at htemp
    · rename_i habbrv hfull
      exact ⟨by rw [habbrv]; rfl, by rw [hfull]; rfl, halone⟩
    · cases htemp
  intro name hname
  rw [hothers d' (Or.inr rfl) name hname, hothers d (Or.inl rfl) name hname, h.others]

/-- The process with the other configuration. -/
theorem DifferInTemp.twins {d d' : Device} (h : DifferInTemp d d') (hd : s.w1.devs[n]? = some d) :
    Twins d d' n s (s.modifyDev n fun _ => d') where
  bus := rfl
  w1 := rfl
  frames := by
    apply List.ext_getElem?
    intro k
    rw [List.getElem?_map, List.getElem?_map, Machine.modifyDev_getElem?]
    by_cases hk : n = k
    · subst hk
      rw [if_pos rfl, hd]
      exact congrArg some h.frame
    · rw [if_neg hk]
  left := ⟨d, hd, rfl⟩
  right := ⟨d', by rw [Machine.modifyDev_getElem?, if_pos rfl, hd]; rfl, rfl⟩

/-! ## The temperature channel of one configuration -/

theorem agree_readTempChannel (v : Option Ds2438v) :
    Agree (Twins w w n) (readTempChannel drv n v) (readTempChannel drv n v) fun _ _ => Twins w w n := by
  refine .bind (agree_matchSensor "temp") fun j j' => .given ?_
  rintro ⟨rfl, rfl⟩
  refine .bind (agree_dev n) fun d d' => .given fun hframe => ?_
  rw [frame_serno hframe]
  refine .ite Iff.rfl (fun _ _ => .bind (agree_call _) fun val val' => .given ?_) fun _ _ =>
    .pure fun _ _ h => h
  rintro rfl
  -- what either run stores is in the sensors of the device that differs
  refine agree_aside ?_ ?_
  · split
    · exact .bind (aside_store _ _) fun _ => .pure _
    · exact .pure _
  · split
    · exact .bind (aside_store _ _) fun _ => .pure _
    · exact .pure _

theorem agree_voltages (req : ℕ) :
    Agree (Twins w w n) (voltages drv n req) (voltages drv n req) fun _ _ => Twins w w n := by
  refine .bind (Q := fun _ _ => Twins w w n) ?_ fun _ _ => .pure fun _ _ h => h
  rw [w1ReadVoltages_eq]
  refine .bind (agree_beforeTemp drv (fun _ _ => rfl) _) fun r r' => .given fun hr => ?_
  cases r with
  | none =>
    cases r' with
    | none => exact .pure fun _ _ h => h
    | some q => exact nomatch hr
  | some q =>
    cases r' with
    | none => exact nomatch hr
    | some q' =>
      have hv : q'.2 = q.2 := Option.some.inj hr
      simp only [hv]
      exact .bind (agree_readTempChannel drv _) fun _ _ => .pure fun _ _ h => h

end
end W1Retap

import W1Retap.Pressure.Bystanders
import W1Retap.Support.TwoRuns

/-!
# The turn of a pressure sensor

Two runs that have come to a pressure sensor with the same record, settings and switches store
the same in it, if the static variables are its own in both or it still has to be initialised.
What else is on the bus, and where the sensor stands in the list, makes no difference.
-/
namespace W1Retap

open Programs Tai8570

/-- The record of a device, but for the coupler that leads to it. -/
def Device.uncoupled (d : Device) : Device := { d with coupler := none }

/-- Records that agree so far agree in everything that does not look at the coupler. -/
theorem Device.uncoupled_congr {α : Type} {d d' : Device} (g : Device → α)
    (hg : ∀ d, g d.uncoupled = g d) (h : d'.uncoupled = d.uncoupled) : g d' = g d := by
  rw [← hg d', h, hg]

namespace Tai8570

section
variable {τ ρ ρ' : Type}

/-- The sensor is device `n` here and device `n'` there, with the same record, settings and
switches. -/
structure Alike (c : Chips τ) (n n' : ℕ) (s : State τ ρ) (s' : State τ ρ') : Prop where
  record : (s'.pres? n').map Device.uncoupled = (s.pres? n).map Device.uncoupled
  settings : s'.w1.settings = s.w1.settings
  chips : s'.bus.bus.chips = s.bus.bus.chips
  left : Standing c n s
  right : Standing c n' s'

/-- Between the steps: the static variables agree while its serial number is in place. -/
structure Beside (c : Chips τ) (n n' : ℕ) (s : State τ ρ) (s' : State τ ρ') : Prop
    extends Alike c n n' s s' where
  kits : ∀ d, s.pres? n = some d → d.init = 2 → s.bus.switchSN.head = c.first →
    s'.bus.switchSN.head = c.first → KitsAlike c s.bus.kit s'.bus.kit

/-- In its own steps: they agree as soon as it is initialised. -/
structure Turn (c : Chips τ) (n n' : ℕ) (s : State τ ρ) (s' : State τ ρ') : Prop
    extends Alike c n n' s s' where
  ready : ∀ d, s.pres? n = some d → d.init = 2 → KitsAlike c s.bus.kit s'.bus.kit

section
variable {c : Chips τ} {n n' : ℕ} {s t : State τ ρ} {s' t' : State τ ρ'}

theorem Beside.steady_left (h : Beside c n n' s s') (ht : Steady c n s t) :
    Beside c n n' t s' := by
  refine ⟨⟨?_, h.settings.trans ht.settings.symm, h.chips.trans ht.chips.symm, ht.standing,
    h.right⟩, ?_⟩
  · rw [ht.record]
    exact h.record
  · intro d hd hinit hfirst hfirst'
    have hkit := ht.kit hfirst
    have hbefore : s.bus.switchSN.head = c.first := by
      rw [← hfirst]
      exact congrArg (fun k => k.switchSN.head) hkit.symm
    rw [hkit]
    exact h.kits d (ht.record.symm.trans hd) hinit hbefore hfirst'

theorem Beside.steady_right (h : Beside c n n' s s') (ht : Steady c n' s' t') :
    Beside c n n' s t' := by
  refine ⟨⟨?_, ht.settings.trans h.settings, ht.chips.trans h.chips, h.left, ht.standing⟩, ?_⟩
  · rw [ht.record]
    exact h.record
  · intro d hd hinit hfirst hfirst'
    have hkit := ht.kit hfirst'
    have hbefore : s'.bus.switchSN.head = c.first := by
      rw [← hfirst']
      exact congrArg (fun k => k.switchSN.head) hkit.symm
    rw [hkit]
    exact h.kits d hd hinit hfirst hbefore

/-- Both records are there. -/
theorem Alike.records (h : Alike c n n' s s') :
    ∃ d d', s.pres? n = some d ∧ s'.pres? n' = some d' ∧ d'.uncoupled = d.uncoupled ∧
      Owner c d ∧ Owner c d' := by
  obtain ⟨d, hd, howner⟩ := h.left.owner
  obtain ⟨d', hd', howner'⟩ := h.right.owner
  have hsame := h.record
  rw [hd, hd', Option.map_some, Option.map_some] at hsame
  exact ⟨d, d', hd, hd', Option.some.inj hsame, howner, howner'⟩

theorem Turn.beside (h : Turn c n n' s s') : Beside c n n' s s' :=
  ⟨h.toAlike, fun d hd hinit _ _ => h.ready d hd hinit⟩

/-! ## Its own steps -/

/-- A change of the sensor itself. -/
theorem Alike.modifyDev (h : Alike c n n' s s') {f : Device → Device}
    (hf : ∀ d, (f d).uncoupled = f d.uncoupled) (hstype : ∀ d, (f d).stype = d.stype)
    (howner : ∀ d, s.pres? n = some d ∨ s'.pres? n' = some d → Owner c d → Owner c (f d)) :
    Alike c n n' (s.modifyDev n f) (s'.modifyDev n' f) := by
  obtain ⟨d, d', hd, hd', hsame, hown, hown'⟩ := h.records
  have hnow := Machine.pres?_modifyDev_of_some hd hstype
  have hnow' := Machine.pres?_modifyDev_of_some hd' hstype
  refine ⟨?_, h.settings, h.chips,
    ⟨⟨f d, hnow, howner d (Or.inl hd) hown⟩, ?_, h.left.below, h.left.tidy⟩,
    ⟨⟨f d', hnow', howner d' (Or.inr hd') hown'⟩, ?_, h.right.below, h.right.tidy⟩⟩
  · rw [hnow, hnow', Option.map_some, Option.map_some, hf, hf, hsame]
  · intro k e hk he
    rw [Machine.pres?_modifyDev_of_ne fun hnk => hk hnk.symm] at he
    exact h.left.strangers k e hk he
  · intro k e hk he
    rw [Machine.pres?_modifyDev_of_ne fun hnk => hk hnk.symm] at he
    exact h.right.strangers k e hk he

/-- The static variables fit what it says afterwards. -/
theorem Alike.modifyTurn (h : Alike c n n' s s') {f : Device → Device}
    (hf : ∀ d, (f d).uncoupled = f d.uncoupled) (hstype : ∀ d, (f d).stype = d.stype)
    (howner : ∀ d, s.pres? n = some d ∨ s'.pres? n' = some d → Owner c d → Owner c (f d))
    (hready : ∀ d, s.pres? n = some d → (f d).init = 2 → KitsAlike c s.bus.kit s'.bus.kit) :
    Turn c n n' (s.modifyDev n f) (s'.modifyDev n' f) := by
  refine ⟨h.modifyDev hf hstype howner, fun e he hinit => ?_⟩
  obtain ⟨d, -, hd, -⟩ := h.records
  obtain rfl := Option.some.inj ((Machine.pres?_modifyDev_of_some hd hstype).symm.trans he)
  exact hready d hd hinit

/-- The functions of `pressure.c` on the two switches. -/
theorem Alike.setBus {Φ : Kit → Kit → Prop} {p : Statics (Shared τ ρ)} {p' : Statics (Shared τ ρ')}
    (h : Alike c n n' s s') (hp : Paired c Φ p p') (hΦ : ∀ k k', Φ k k' → Numbered c k k') :
    Alike c n n' (s.setBus p) (s'.setBus p') := by
  obtain ⟨hfirst, hfirst'⟩ := hΦ _ _ hp.kits
  exact ⟨h.record, h.settings, hp.chips,
    ⟨h.left.owner, h.left.strangers, hp.below.1, Or.inl hfirst⟩,
    ⟨h.right.owner, h.right.strangers, hp.below.2, Or.inl hfirst'⟩⟩

theorem Turn.idle_left (h : Turn c n n' s s') (hidle : Idle none s t) : Turn c n n' t s' := by
  have hrecord := hidle.records n (by simp)
  refine ⟨⟨?_, h.settings.trans hidle.settings.symm, h.chips.trans hidle.chips.symm,
    h.left.idle hidle (by simp), h.right⟩, ?_⟩
  · rw [hrecord]
    exact h.record
  · intro d hd hinit
    rw [hidle.kit]
    exact h.ready d (hrecord.symm.trans hd) hinit

theorem Turn.idle_right (h : Turn c n n' s s') (hidle : Idle none s' t') : Turn c n n' s t' := by
  refine ⟨⟨?_, hidle.settings.trans h.settings, hidle.chips.trans h.chips, h.left,
    h.right.idle hidle (by simp)⟩, ?_⟩
  · rw [hidle.records n' (by simp)]
    exact h.record
  · intro d hd hinit
    rw [hidle.kit]
    exact h.ready d hd hinit

theorem agree_idle {α β : Type} {prog : M (Statics (Shared τ ρ)) α}
    {prog' : M (Statics (Shared τ ρ')) β} (h : Does (Idle none) prog)
    (h' : Does (Idle none) prog') :
    Programs.Agree (Turn c n n') prog prog' fun _ _ => Turn c n n' :=
  .aside h h' (fun _ _ _ hstep ht => ht.idle_left hstep) fun _ _ _ hstep ht => ht.idle_right hstep

/-- The record that is read is the same. -/
theorem agree_dev {R : State τ ρ → State τ ρ' → Prop}
    (hR : ∀ s s', R s s' → Alike c n n' s s') :
    Programs.Agree R (dev n) (dev n') fun d d' s s' =>
      (R s s' ∧ s.pres? n = some d ∧ s'.pres? n' = some d') ∧ d'.uncoupled = d.uncoupled := by
  intro s s' e e' t t' h hrun hrun'
  obtain ⟨he, rfl⟩ := run_dev_ok.mp hrun
  obtain ⟨he', rfl⟩ := run_dev_ok.mp hrun'
  obtain ⟨d, d', hd, hd', hsame, -, -⟩ := (hR _ _ h).records
  obtain rfl := Option.some.inj ((Machine.pres?_eq_some.mp hd).1.symm.trans he)
  obtain rfl := Option.some.inj ((Machine.pres?_eq_some.mp hd').1.symm.trans he')
  exact ⟨⟨h, hd, hd'⟩, hsame⟩

/-- A change of its sensors. -/
theorem agree_modifyDev {f : Device → Device} (hf : ∀ d, (f d).uncoupled = f d.uncoupled)
    (hidentity : ∀ d, (f d).identity = d.identity) :
    Programs.Agree (Turn c n n') (modifyDev n f) (modifyDev n' f)
      fun _ _ (s : State τ ρ) (s' : State τ ρ') => Turn c n n' s s' := by
  intro s s' u u' t t' h hrun hrun'
  obtain rfl := run_modifyDev_ok.mp hrun
  obtain rfl := run_modifyDev_ok.mp hrun'
  have hparts : ∀ d, (f d).stype = d.stype ∧ (f d).serial = d.serial ∧ (f d).serno = d.serno ∧
      (f d).init = d.init := by simpa [Device.identity] using hidentity
  refine h.toAlike.modifyTurn hf (fun d => (hparts d).1) ?_ ?_
  · intro d _ howner
    obtain ⟨-, hserial, hserno, hinit⟩ := hparts d
    refine ⟨?_, ?_⟩
    · rw [hserial]
      exact howner.serial
    · rw [hserno, hinit]
      exact howner.serno
  · intro d hd hinit
    exact h.ready d hd ((hparts d).2.2.2 ▸ hinit)

theorem agree_getW1 :
    Programs.Agree (Turn c n n') getW1 getW1 fun w1 w1' (s : State τ ρ) (s' : State τ ρ') =>
      Turn c n n' s s' ∧ w1'.settings = w1.settings := by
  intro s s' w1 w1' t t' h hrun hrun'
  obtain ⟨rfl, rfl⟩ := run_getW1_ok.mp hrun
  obtain ⟨rfl, rfl⟩ := run_getW1_ok.mp hrun'
  exact ⟨h, h.settings⟩

theorem agree_slot (j : ℕ) :
    Programs.Agree (Turn c n n') (slot n j) (slot n' j) fun x x' (s : State τ ρ)
      (s' : State τ ρ') =>
      Turn c n n' s s' ∧ x' = x := by
  intro s s' x x' t t' h hrun hrun'
  obtain ⟨hx, rfl⟩ := run_slot_ok.mp hrun
  obtain ⟨hx', rfl⟩ := run_slot_ok.mp hrun'
  obtain ⟨d, d', hd, hd', hsame, -, -⟩ := h.records
  rw [Machine.slot?, (Machine.pres?_eq_some.mp hd).1, Option.bind_some] at hx
  rw [Machine.slot?, (Machine.pres?_eq_some.mp hd').1, Option.bind_some,
    Device.uncoupled_congr (fun d => d.s) (fun _ => rfl) hsame, hx] at hx'
  exact ⟨h, (Option.some.inj hx').symm⟩

theorem agree_modifySlot (j : ℕ) (f : Sensor → Sensor) :
    Programs.Agree (Turn c n n') (modifySlot n j f) (modifySlot n' j f)
      fun _ _ (s : State τ ρ) (s' : State τ ρ') => Turn c n n' s s' :=
  .bind (agree_slot j) fun _ _ => .given fun _ => agree_modifyDev (fun _ => rfl) fun _ => rfl

theorem agree_matchSensor (name : CString) :
    Programs.Agree (Turn c n n') (matchSensor n name) (matchSensor n' name)
      fun j j' (s : State τ ρ) (s' : State τ ρ') => Turn c n n' s s' ∧ j' = j := by
  refine .bind (agree_dev fun _ _ h => h.toAlike) fun d d' => .given fun hsame => ?_
  rw [Device.uncoupled_congr (w1MatchSensor · name) (fun _ => rfl) hsame]
  exact (Programs.Agree.lift _).conseq (fun _ _ h => h.1) fun _ _ _ _ h => h

/-- A value is stored and judged alike. -/
theorem agree_store (j : ℕ) (f : Sensor → Sensor) :
    Programs.Agree (Turn c n n') (store n j f) (store n' j f)
      fun r r' (s : State τ ρ) (s' : State τ ρ') => Turn c n n' s s' ∧ r' = r := by
  refine .bind (agree_modifySlot j f) fun _ _ => .bind agree_getW1 fun w1 w1' => .given fun hw => ?_
  refine .bind (agree_slot j) fun x x' => .given ?_
  rintro rfl
  have htime : w1'.logtime = w1.logtime := by
    simp only [DevList.settings, Prod.mk.injEq] at hw
    exact hw.2.2
  rw [htime]
  refine .bind (.lift _) fun x x' => .given ?_
  rintro rfl
  refine .bind (agree_modifySlot j _) fun _ _ => ?_
  refine .bind (agree_idle (does_mark _) (does_mark _)) fun _ _ => ?_
  refine .ite Iff.rfl (fun _ _ => .pure fun _ _ h => ⟨h, rfl⟩) fun _ _ => ?_
  exact .bind (agree_idle does_w1Replog does_w1Replog) fun _ _ => .pure fun _ _ h => ⟨h, rfl⟩

theorem agree_offer (name : String) (v : ℚ) :
    Programs.Agree (Turn c n n') (offer n name v) (offer n' name v)
      fun r r' (s : State τ ρ) (s' : State τ ρ') => Turn c n n' s s' ∧ r' = r := by
  refine .bind (agree_matchSensor _) fun j j' => .given ?_
  rintro rfl
  cases j' with
  | none => exact .pure fun _ _ h => ⟨h, rfl⟩
  | some j => exact agree_store j _

/-! ## Reading it -/

/-- The serial number is made in both or in neither. -/
theorem agree_makeSerial :
    Programs.Agree (Turn c n n') (makeSerial n) (makeSerial n')
      fun _ _ (s : State τ ρ) (s' : State τ ρ') => Turn c n n' s s' ∧ Made n s := by
  refine .bind (agree_dev fun _ _ h => h.toAlike) fun d d' => ?_
  intro s s' u u' t t' ⟨⟨h, hd, hd'⟩, hsame⟩ hrun hrun'
  obtain ⟨e, e', he, he', -, howner, howner'⟩ := h.records
  obtain rfl := Option.some.inj (hd.symm.trans he)
  have hinit' : d'.init = d.init := Device.uncoupled_congr (fun d => d.init) (fun _ => rfl) hsame
  have hserial' : d'.serial = d.serial :=
    Device.uncoupled_congr (fun d => d.serial) (fun _ => rfl) hsame
  by_cases hinit : d.init = 0
  · rw [if_pos hinit] at hrun
    rw [if_pos (hinit'.trans hinit), hserial'] at hrun'
    obtain ⟨serno, s₁, hlift, hmodify⟩ := run_bind_ok.mp hrun
    obtain ⟨hserno, rfl⟩ := run_lift_ok.mp hlift
    obtain ⟨serno', s₁', hlift', hmodify'⟩ := run_bind_ok.mp hrun'
    obtain ⟨hserno', rfl⟩ := run_lift_ok.mp hlift'
    obtain rfl : serno = serno' := Except.ok.inj (hserno.symm.trans hserno')
    obtain rfl := run_modifyDev_ok.mp hmodify
    obtain rfl := run_modifyDev_ok.mp hmodify'
    obtain rfl := howner.serial serno hserno
    refine ⟨h.toAlike.modifyTurn (fun _ => rfl) (fun _ => rfl)
      (fun e _ hown => ⟨hown.serial, fun _ => rfl⟩) fun e _ htwo => by simp at htwo,
      .modifyDev hd (fun _ => rfl) Nat.one_ne_zero⟩
  · rw [if_neg hinit] at hrun
    rw [if_neg fun h => hinit (hinit'.symm.trans h)] at hrun'
    obtain ⟨-, rfl⟩ := run_pure_ok.mp hrun
    obtain ⟨-, rfl⟩ := run_pure_ok.mp hrun'
    refine ⟨h, fun e he => ?_⟩
    obtain rfl := Option.some.inj (hd.symm.trans he)
    exact hinit

/-- The same one of the two switches is selected in both. -/
def Selected (c : Chips τ) (s : State τ ρ) (s' : State τ ρ') : Prop :=
  s'.bus.bus.selected = s.bus.bus.selected ∧ c.Own s.bus.bus.selected

variable {exp : ℚ → ℚ} {o : Others ρ} {o' : Others ρ'}

/-- A search finds the first switch if it is there. -/
theorem found_first {d : Device} {found : Bool} (hd : s.w1.devs[n]? = some d)
    (hserno : d.serno = c.first)
    (h : (w1SelectDevice (sharedDriver c exp o) n).run s = .ok (found, t)) :
    found = c.present s.bus.bus.chips := by
  have hidle := idle_of_does (does_select none n) h
  obtain ⟨b, hbus, hfound⟩ := w1SelectDevice_ok hd h
  have hown : c.Own d.serno := Or.inl hserno
  have hsearch : ((sharedDriver c exp o).owSearch d.serno.family d.serno b).1.contains d.serno =
      c.present b.bus.chips := by
    simp only [sharedDriver, driver, Statics.call, shareDriver, shareSearch, if_pos hown]
    cases c.present b.bus.chips <;> simp
  have hchips : b.bus.chips = t.bus.bus.chips := by
    rw [hbus]
    rfl
  rw [hfound, hsearch, hchips, hidle.chips]

theorem agree_select :
    Programs.Agree (fun (s : State τ ρ) (s' : State τ ρ') => Turn c n n' s s' ∧ Made n s)
      (w1SelectDevice (sharedDriver c exp o) n) (w1SelectDevice (sharedDriver c exp o') n')
      fun found found' s s' => ((Turn c n n' s s' ∧ Made n s) ∧
        (found = true → Selected c s s')) ∧ found' = found := by
  intro s s' found found' t t' ⟨h, hmade⟩ hrun hrun'
  have hidle := idle_of_does (does_select none n) hrun
  have hidle' := idle_of_does (does_select none n') hrun'
  obtain ⟨d, d', hd, hd', hsame, howner, howner'⟩ := h.records
  have hinit' : d'.init = d.init := Device.uncoupled_congr (fun d => d.init) (fun _ => rfl) hsame
  have hserno := howner.serno (hmade d hd)
  have hserno' := howner'.serno (hinit' ▸ hmade d hd)
  have hdev := (Machine.pres?_eq_some.mp hd).1
  have hdev' := (Machine.pres?_eq_some.mp hd').1
  have hfound : found' = found := by
    rw [found_first hdev hserno hrun, found_first hdev' hserno' hrun', h.chips]
  subst hfound
  refine ⟨⟨⟨(h.idle_left hidle).idle_right hidle', hmade.idle hidle⟩, ?_⟩, rfl⟩
  rintro rfl
  rw [Selected, selected_of_found hdev hrun, selected_of_found hdev' hrun', hserno, hserno']
  exact ⟨rfl, Or.inl rfl⟩

theorem Alike.paired {Φ : Kit → Kit → Prop} (h : Alike c n n' s s') (hsel : Selected c s s')
    (hΦ : Φ s.bus.kit s'.bus.kit) : Paired c Φ s.bus s'.bus :=
  ⟨h.chips, hsel.1, hsel.2, ⟨h.left.below, h.right.below⟩, hΦ⟩

/-- An initialisation works in both or in neither. -/
theorem agree_calibrate :
    Programs.Agree (fun (s : State τ ρ) (s' : State τ ρ') => (Turn c n n' s s' ∧ Made n s) ∧
        Selected c s s')
      (calibrate (sharedDriver c exp o) n) (calibrate (sharedDriver c exp o') n')
      fun _ _ s s' => Turn c n n' s s' ∧ Selected c s s' := by
  rintro s s' u u' t t' ⟨⟨h, hmade⟩, hsel⟩ hrun hrun'
  obtain ⟨d, d', hd, hd', hsame, howner, howner'⟩ := h.records
  have hinit' : d'.init = d.init := Device.uncoupled_congr (fun d => d.init) (fun _ => rfl) hsame
  have hserno := howner.serno (hmade d hd)
  have hserno' := howner'.serno (hinit' ▸ hmade d hd)
  rw [calibrate, run_dev_bind (Machine.pres?_eq_some.mp hd).1] at hrun
  rw [calibrate, run_dev_bind (Machine.pres?_eq_some.mp hd').1] at hrun'
  by_cases hinit : d.init = 1
  · rw [if_pos hinit, run_call_bind, hserno] at hrun
    rw [if_pos (hinit'.trans hinit), run_call_bind, hserno'] at hrun'
    obtain ⟨hvalue, hpaired⟩ := lockstep_initPressure o.wire o'.wire s.bus s'.bus
      (h.toAlike.paired hsel trivial)
    change (if (initPressure (share c o.wire) c.first s.bus).1 = true then _ else _ : M _ _).run
      (s.setBus (initPressure (share c o.wire) c.first s.bus).2) = _ at hrun
    change (if (initPressure (share c o'.wire) c.first s'.bus).1 = true then _ else _ : M _ _).run
      (s'.setBus (initPressure (share c o'.wire) c.first s'.bus).2) = _ at hrun'
    rw [← hvalue] at hrun'
    cases hok : (initPressure (share c o.wire) c.first s.bus).1 with
    | true =>
      rw [hok, if_pos rfl] at hpaired
      rw [hok, if_pos rfl] at hrun hrun'
      obtain rfl := run_modifyDev_ok.mp hrun
      obtain rfl := run_modifyDev_ok.mp hrun'
      have halike := h.toAlike.setBus hpaired fun _ _ hk => hk.roles.numbered
      refine ⟨halike.modifyTurn (fun _ => rfl) (fun _ => rfl) ?_ fun _ _ _ => hpaired.kits,
        hpaired.selected, hpaired.own⟩
      rintro e (he | he) hown
      · obtain rfl := Option.some.inj (hd.symm.trans he)
        exact ⟨hown.serial, fun _ => hserno⟩
      · obtain rfl := Option.some.inj (hd'.symm.trans he)
        exact ⟨hown.serial, fun _ => hserno'⟩
    | false =>
      rw [hok, if_neg Bool.false_ne_true] at hpaired
      rw [hok, if_neg Bool.false_ne_true] at hrun hrun'
      obtain ⟨-, rfl⟩ := run_pure_ok.mp hrun
      obtain ⟨-, rfl⟩ := run_pure_ok.mp hrun'
      refine ⟨⟨h.toAlike.setBus hpaired fun _ _ hk => hk, ?_⟩, hpaired.selected, hpaired.own⟩
      intro e he htwo
      obtain rfl := Option.some.inj (hd.symm.trans he)
      omega
  · rw [if_neg hinit] at hrun
    rw [if_neg fun h => hinit (hinit'.symm.trans h)] at hrun'
    obtain ⟨-, rfl⟩ := run_pure_ok.mp hrun
    obtain ⟨-, rfl⟩ := run_pure_ok.mp hrun'
    exact ⟨h, hsel⟩

theorem Turn.setBus {p : Statics (Shared τ ρ)} {p' : Statics (Shared τ ρ')}
    (h : Turn c n n' s s') (hp : Paired c (KitsAlike c) p p') :
    Turn c n n' (s.setBus p) (s'.setBus p') :=
  ⟨h.toAlike.setBus hp fun _ _ hk => hk.roles.numbered, fun _ _ _ => hp.kits⟩

/-- What an initialised sensor delivers is the same. -/
theorem agree_call {α : Type} {f : Statics (Shared τ ρ) → α × Statics (Shared τ ρ)}
    {f' : Statics (Shared τ ρ') → α × Statics (Shared τ ρ')}
    (hf : Lockstep (Paired c (KitsAlike c)) f f') {d : Device} (hinit : d.init = 2) :
    Programs.Agree (fun s s' => (Turn c n n' s s' ∧ Selected c s s') ∧ s.pres? n = some d) (call f)
      (call f')
      fun v v' s s' => Turn c n n' s s' ∧ v' = v := by
  rintro s s' v v' t t' ⟨⟨h, hsel⟩, hd⟩ hrun hrun'
  obtain ⟨rfl, rfl⟩ := run_call_ok.mp hrun
  obtain ⟨rfl, rfl⟩ := run_call_ok.mp hrun'
  obtain ⟨hvalue, hpaired⟩ := hf s.bus s'.bus (h.toAlike.paired hsel (h.ready d hd hinit))
  exact ⟨h.setBus hpaired, hvalue.symm⟩

theorem agree_offerValues (temp pres : ℚ) :
    Programs.Agree (Turn c n n') (offerValues (sharedDriver c exp o) n temp pres)
      (offerValues (sharedDriver c exp o') n' temp pres)
      fun r r' (s : State τ ρ) (s' : State τ ρ') => Turn c n n' s s' ∧ r' = r := by
  refine .bind agree_getW1 fun w1 w1' => .given fun hw => ?_
  simp only [DevList.settings, Prod.mk.injEq] at hw
  have hreduce : reducePressure (sharedDriver c exp o') w1' pres temp =
      reducePressure (sharedDriver c exp o) w1 pres temp := by
    rw [reducePressure, reducePressure, hw.1, hw.2.1]
    rfl
  rw [hreduce]
  refine .bind (agree_offer _ _) fun r r' => .given ?_
  rintro rfl
  refine .bind (agree_offer _ _) fun k k' => .given ?_
  rintro rfl
  exact .pure fun _ _ h => ⟨h, rfl⟩

/-- The sensor is to be initialised again. -/
theorem agree_setInit {k : ℕ} (hk : k ≠ 2) :
    Programs.Agree (fun (s : State τ ρ) (s' : State τ ρ') => Turn c n n' s s' ∧ (k ≠ 0 → Made n s))
      (modifyDev n fun d => { d with init := k }) (modifyDev n' fun d => { d with init := k })
      fun _ _ s s' => Turn c n n' s s' := by
  rintro s s' u u' t t' ⟨h, hmade⟩ hrun hrun'
  obtain rfl := run_modifyDev_ok.mp hrun
  obtain rfl := run_modifyDev_ok.mp hrun'
  obtain ⟨d, d', hd, hd', hsame, -, -⟩ := h.records
  have hinit' : d'.init = d.init := Device.uncoupled_congr (fun d => d.init) (fun _ => rfl) hsame
  refine h.toAlike.modifyTurn (fun _ => rfl) (fun _ => rfl) ?_ fun _ _ htwo => absurd htwo hk
  rintro e (he | he) hown
  · obtain rfl := Option.some.inj (hd.symm.trans he)
    exact ⟨hown.serial, fun h0 => hown.serno (hmade h0 d hd)⟩
  · obtain rfl := Option.some.inj (hd'.symm.trans he)
    exact ⟨hown.serial, fun h0 => hown.serno (hinit' ▸ hmade h0 d hd)⟩

/-- One attempt. -/
theorem agree_w1ReadPressure :
    Programs.Agree (Turn c n n') (w1ReadPressure (sharedDriver c exp o) n)
      (w1ReadPressure (sharedDriver c exp o') n')
      fun r r' (s : State τ ρ) (s' : State τ ρ') => Turn c n n' s s' ∧ r' = r := by
  refine .bind agree_makeSerial fun _ _ => .bind agree_select fun found found' => .given ?_
  rintro rfl
  refine .ite Iff.rfl (fun hfound _ => ?_) fun _ _ => ?_
  · refine .bind (agree_calibrate.conseq (fun _ _ h => ⟨h.1, h.2 hfound⟩) fun _ _ _ _ h => h)
      fun _ _ => ?_
    refine .bind (agree_dev fun _ _ h => h.1.toAlike) fun d d' => .given fun hsame => ?_
    have hinit' : d'.init = d.init :=
      Device.uncoupled_congr (fun d => d.init) (fun _ => rfl) hsame
    refine .ite (by rw [hinit']) (fun hinit _ => ?_) fun _ _ =>
      .pure fun _ _ h => ⟨h.1.1, rfl⟩
    refine .bind ((agree_call (lockstep_reading o.wire o'.wire) hinit).conseq
      (fun _ _ h => ⟨h.1, h.2.1⟩) fun _ _ _ _ h => h) fun v v' => .given ?_
    rintro rfl
    cases v' with
    | none =>
      exact .bind ((agree_setInit (by decide)).conseq (fun _ _ h => ⟨h, fun h0 => absurd rfl h0⟩)
        fun _ _ _ _ h => h) fun _ _ => .pure fun _ _ h => ⟨h, rfl⟩
    | some v => exact agree_offerValues v.1 v.2
  · exact .bind ((agree_setInit (by decide)).conseq (fun _ _ h => ⟨h.1.1, fun _ => h.1.2⟩)
      fun _ _ _ _ h => h) fun _ _ => .pure fun _ _ h => ⟨h, rfl⟩

theorem agree_readRetrying (rtry : ℕ) :
    Programs.Agree (Turn c n n') (readRetrying (sharedDriver c exp o) n .pres rtry)
      (readRetrying (sharedDriver c exp o') n' .pres rtry)
      fun r r' (s : State τ ρ) (s' : State τ ρ') => Turn c n n' s s' ∧ r' = r := by
  induction rtry with
  | zero => exact .pure fun _ _ h => ⟨h, rfl⟩
  | succ rtry ih =>
    refine .bind agree_w1ReadPressure fun r r' => .given ?_
    rintro rfl
    refine .ite Iff.rfl (fun _ _ => .pure fun _ _ h => ⟨h, rfl⟩) fun _ _ => ?_
    exact .bind (agree_idle does_w1Replog does_w1Replog) fun _ _ => ih

/-- Its place in a pass, when the static variables are its own or it needs none. -/
theorem agree_readDevice (secs : Int) :
    Programs.Agree (Turn c n n') (readDevice (sharedDriver c exp o) secs n)
      (readDevice (sharedDriver c exp o') secs n')
      fun r r' (s : State τ ρ) (s' : State τ ρ') => Turn c n n' s s' ∧ r' = r := by
  refine .bind (agree_modifyDev (fun _ => rfl) fun _ => rfl) fun _ _ => ?_
  refine .bind (agree_dev fun _ _ h => h.toAlike) fun d d' => .given fun hsame => ?_
  have hdue : d'.due secs = d.due secs :=
    Device.uncoupled_congr (fun d => d.due secs) (fun _ => rfl) hsame
  rw [hdue]
  have hrest : Programs.Agree (Turn c n n')
      (if d.due secs = true then do
        event (.read n secs)
        let r ← readRetrying (sharedDriver c exp o) n .pres w1Retry
        return if 0 ≤ r then r else 0
      else return 0)
      (if d.due secs = true then do
        event (.read n' secs)
        let r ← readRetrying (sharedDriver c exp o') n' .pres w1Retry
        return if 0 ≤ r then r else 0
      else return 0)
      fun r r' (s : State τ ρ) (s' : State τ ρ') => Turn c n n' s s' ∧ r' = r := by
    refine .ite Iff.rfl (fun _ _ => ?_) fun _ _ => .pure fun _ _ h => ⟨h, rfl⟩
    refine .bind (agree_idle (does_mark _) (does_mark _)) fun _ _ => ?_
    refine .bind (agree_readRetrying w1Retry) fun r r' => .given ?_
    rintro rfl
    exact .pure fun _ _ h => ⟨h, rfl⟩
  intro s s' r r' t t' ⟨h, hd, hd'⟩ hrun hrun'
  rw [(Machine.pres?_eq_some.mp hd).2] at hrun
  rw [(Machine.pres?_eq_some.mp hd').2] at hrun'
  exact hrest s s' r r' t t' h hrun hrun'

/-- A device that is not due only loses its `valid` marks. -/
theorem run_readDevice_waits {σ : Type} {drv : Driver σ} {s t : Machine σ} {secs r : Int}
    {d : Device} (hd : s.w1.devs[n]? = some d) (hdue : d.due secs = false)
    (h : (readDevice drv secs n).run s = .ok (r, t)) : t = s.modifyDev n Device.setInvalid := by
  obtain ⟨_, s₁, hclear, hrun⟩ := run_bind_ok.mp h
  obtain rfl := run_modifyDev_ok.mp hclear
  have hd₁ : (s.modifyDev n Device.setInvalid).w1.devs[n]? = some d.setInvalid := by
    rw [Machine.modifyDev_getElem?, if_pos rfl, hd, Option.map_some]
  rw [run_dev_bind hd₁,
    if_neg (by rw [show d.setInvalid.due secs = d.due secs from rfl, hdue]; simp)]
    at hrun
  exact (run_pure_ok.mp hrun).2

/-- Its place in a pass leaves the two runs beside each other. -/
theorem Beside.readDevice {secs r r' : Int} (h : Beside c n n' s s')
    (hlast : LastInitialised secs n s) (hlast' : LastInitialised secs n' s')
    (hrun : (readDevice (sharedDriver c exp o) secs n).run s = .ok (r, t))
    (hrun' : (readDevice (sharedDriver c exp o') secs n').run s' = .ok (r', t')) :
    Beside c n n' t t' := by
  obtain ⟨d, d', hd, hd', hsame, howner, howner'⟩ := h.records
  have hdue' : d'.due secs = d.due secs :=
    Device.uncoupled_congr (fun d => d.due secs) (fun _ => rfl) hsame
  have hinit' : d'.init = d.init := Device.uncoupled_congr (fun d => d.init) (fun _ => rfl) hsame
  cases hdue : d.due secs with
  | true =>
    have hturn : Turn c n n' s s' := by
      refine ⟨h.toAlike, fun e he hinit => ?_⟩
      obtain rfl := Option.some.inj (hd.symm.trans he)
      have hfirst := (hlast d hd hdue hinit).trans (howner.serno (by omega))
      have hfirst' := (hlast' d' hd' (hdue'.trans hdue) (hinit'.trans hinit)).trans
        (howner'.serno (by omega))
      exact h.kits d hd hinit hfirst hfirst'
    exact (agree_readDevice secs s s' r r' t t' hturn hrun hrun').1.beside
  | false =>
    obtain rfl := run_readDevice_waits (Machine.pres?_eq_some.mp hd).1 hdue hrun
    obtain rfl := run_readDevice_waits (Machine.pres?_eq_some.mp hd').1 (hdue'.trans hdue) hrun'
    refine ⟨h.toAlike.modifyDev (fun _ => rfl) (fun _ => rfl) fun e _ hown => ⟨hown.1, hown.2⟩, ?_⟩
    intro e he hinit hfirst hfirst'
    have hnow := Machine.pres?_modifyDev_of_some (f := Device.setInvalid) hd fun _ => rfl
    obtain rfl := Option.some.inj (hnow.symm.trans he)
    exact h.kits d hd hinit hfirst hfirst'

end
end
end Tai8570
end W1Retap

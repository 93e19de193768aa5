import W1Retap.Bus.Search
import W1Retap.Couplers.Couplers

/-!
# The loops over a search

`w1_select_device` calls `owNext_` until it has the device that it is to select, `FindDevices`
until it has enough devices of a family, and `w1find` until there are no more. `calls` is how many
calls are waited for; each of the loops is over after one call for each device and one more.
-/
namespace W1Retap.Bus.Ds2480

open Programs BitSearch

/-! ## The loops -/

section
variable (com : Com)

/-- The loop of `w1_select_device`: the devices that were found, of which `serno` is the last one if
it is there. -/
def selectLoop (serno : Serno) : ℕ → PortM (Option (List Serno))
  | 0 => return none
  | calls + 1 => do
    if ← owNext com true false then
      let thisdev ← readSerialNum
      if thisdev = serno then return some [thisdev]
      else return (← selectLoop serno calls).map (thisdev :: ·)
    else return some []

def select (searchFamily : UInt8) (serno : Serno) (calls : ℕ) : PortM (Option (List Serno)) := do
  owFamilySearchSetup searchFamily
  selectLoop com serno calls

/-- The loop of `FindDevices`, with the devices that are in `FamilySN` before it goes on. -/
def findLoop (familyCode : UInt8) (maxDevices : ℕ) : ℕ → List Serno → PortM (Option (List Serno))
  | 0, _ => return none
  | calls + 1, familySN => do
    if ← owNext com true false then
      let snum ← readSerialNum
      let familySN := if readbuffer snum 0 &&& 0x7F =
        familyCode &&& 0x7F then familySN ++ [snum] else familySN
      if familySN.length < maxDevices - 1 then findLoop familyCode maxDevices calls familySN
      else return some familySN
    else return some familySN

/-- `FindDevices` -/
def findDevices (familyCode : UInt8) (maxDevices calls : ℕ) : PortM (Option (List Serno)) := do
  owFamilySearchSetup familyCode
  findLoop com familyCode maxDevices calls []

/-- The loop of `w1find`, which shows all devices but the couplers. -/
def showLoop : ℕ → Bool → PortM (Option (List Serno))
  | 0, _ => return none
  | calls + 1, rslt => do
    if rslt then
      let snum ← readSerialNum
      let rslt ← owNext com true false
      let shown ← showLoop calls rslt
      return shown.map fun shown => if readbuffer snum 0 ≠ 0x1F then snum :: shown else shown
    else return some []

def showDevices (calls : ℕ) : PortM (Option (List Serno)) := do
  let rslt ← owFirst com true false
  showLoop com calls rslt

end

/-! ## The calls take the devices off a list -/

/-- The coming calls deliver these. -/
def Pending (c₀ : Chip) (S ws : List Serno) (l : Line) : Prop := ∃ s, Held c₀ s l ∧ Coming S s ws

section
variable {com : Com} {c₀ : Chip} {S : List Serno} {s : Searching} {w : Serno} {ws : List Serno}

/-- The port is read. -/
theorem keeps_reading {α : Type} {P : Line → Prop} {f : Port → PortM α} {Q : α → Line → Prop}
    (h : ∀ p, KeepsTo (fun l => P l ∧ l.port = p) (f p) Q) : KeepsTo P (port >>= f) Q :=
  fun l hl => h l.port l ⟨hl, rfl⟩

theorem Held.lastDevice {l : Line} (h : Held c₀ s l) : l.port.lastDevice = s.lastDevice :=
  congrArg Searching.lastDevice h.searching

theorem Held.serialNum {l : Line} (h : Held c₀ s l) : l.port.serialNum = s.serialNum :=
  congrArg Searching.serialNum h.searching

/-- A change of the search state. -/
theorem held_search {f : Port → Port} {s' : Searching}
    (hf : ∀ p, p.searching = s → (f p).searching = s')
    (hkeep : ∀ p, (f p).mode = p.mode ∧ (f p).speed = p.speed ∧ (f p).level = p.level) :
    KeepsTo (Held c₀ s) (modifyPort f) fun _ => Held c₀ s' := by
  refine .modify fun l h => ⟨hf _ h.searching, ?_, ?_, ?_⟩
  · rw [(hkeep l.port).2.1]
    exact h.speed
  · rw [(hkeep l.port).2.2]
    exact h.level
  · rw [(hkeep l.port).1]
    exact h.receiver

/-- With a device to come, `owNext_` delivers it. -/
theorem Net.owNext_cons (hnet : Net com c₀ S) (hS : ∀ v ∈ S, Valid v) {doReset : Bool} :
    KeepsTo (Pending c₀ S (w :: ws)) (owNext com doReset false)
      fun ok l => ok = true ∧ l.port.serialNum = w ∧ Pending c₀ S ws l := by
  intro l h
  obtain ⟨s, hheld, hcoming⟩ := h
  have hsearch : KeepsTo (Held c₀ s) (Ds2480.search com false)
      fun ok l => ok = true ∧ l.port.serialNum = w ∧ Pending c₀ S ws l := by
    have hfound := hcoming.found hS
    obtain ⟨-, hlast, hw, hpath, -⟩ := hcoming
    refine (hnet.searches (hS w hw) hw hpath hlast).conseq (fun _ h => h) fun ok l h => ?_
    exact ⟨h.1, h.2.serialNum, _, h.2, hfound⟩
  have hnext : KeepsTo (Held c₀ s) (owNext com doReset false)
      fun ok l => ok = true ∧ l.port.serialNum = w ∧ Pending c₀ S ws l := by
    refine keeps_reading fun p => .ite (fun hlast l h => ?_) fun _ => .ite (fun _ => ?_) fun _ => ?_
    · obtain ⟨h, rfl⟩ := h
      rw [h.lastDevice, hcoming.1] at hlast
      exact absurd hlast Bool.false_ne_true
    · refine .bind (hnet.resets.conseq (fun _ h => h.1) fun _ _ h => h) fun ok =>
        .ite (fun _ => ?_) fun hok l h => ?_
      · exact hsearch.conseq (fun _ h => h.2) fun _ _ h => h
      · exact absurd (h.1.mpr (List.ne_nil_of_mem hcoming.2.2.1)) hok
    · exact hsearch.conseq (fun _ h => h.1) fun _ _ h => h
  exact hnext l hheld

/-- With none to come it ends the search. -/
theorem Net.owNext_nil (hnet : Net com c₀ S) :
    KeepsTo (Pending c₀ S []) (owNext com true false) fun ok l => ok = false ∧ ∃ s, Held c₀ s l :=
      by
  intro l h
  obtain ⟨s, hheld, hcoming⟩ := h
  have hnext : KeepsTo (Held c₀ s) (owNext com true false) fun ok l => ok = false ∧ ∃ s,
    Held c₀ s l := by
    refine keeps_reading fun p => .ite (fun _ => ?_) fun hlast => ?_
    · have hreset : KeepsTo (Held c₀ s) resetSearch fun _ => Held c₀ ⟨s.serialNum, 0, false, 0⟩ :=
        held_search (fun p h => by rw [← h]; rfl) fun _ => ⟨rfl, rfl, rfl⟩
      exact .bind (hreset.conseq (fun _ h => h.1) fun _ _ h => h) fun _ => .pure fun _ h =>
        ⟨rfl, _, h⟩
    · refine .bind (Q := fun ok l => ok = false ∧ Held c₀ s l) (fun l h => ?_) fun ok => ?_
      · obtain ⟨h, rfl⟩ := h
        rw [h.lastDevice] at hlast
        have hS : S = [] := hcoming.resolve_left hlast
        obtain ⟨hok, hheld⟩ := hnet.resets l h
        refine ⟨?_, hheld⟩
        rw [hS] at hok
        simpa using hok
      · refine .ite (fun hok l h => absurd (hok.symm.trans h.1) Bool.false_ne_true.symm) fun _ => ?_
        have hreset : KeepsTo (Held c₀ s)
          (modifyPort fun p => { p with lastDiscrepancy := 0, lastFamilyDiscrepancy := 0 })
            fun _ => Held c₀ ⟨s.serialNum, 0, s.lastDevice, 0⟩ :=
          held_search (fun p h => by rw [← h]; rfl) fun _ => ⟨rfl, rfl, rfl⟩
        exact .bind (hreset.conseq (fun _ h => h.2) fun _ _ h => h) fun _ => .pure fun _ h =>
          ⟨rfl, _, h⟩
  exact hnext l hheld

/-! ## What the loops find -/

/-- What was found is read. -/
theorem keeps_serialNum {ok : Bool} :
    KeepsTo (fun l => ok = true ∧ l.port.serialNum = w ∧ Pending c₀ S ws l) readSerialNum
      fun d l => d = w ∧ l.port.serialNum = w ∧ Pending c₀ S ws l :=
  fun _ h => ⟨h.2.1, h.2⟩

/-- The devices up to the one that is wanted. -/
def upTo (serno : Serno) : List Serno → List Serno
  | [] => []
  | w :: ws => if w = serno then [w] else w :: upTo serno ws

theorem mem_upTo {serno : Serno} : serno ∈ upTo serno ws ↔ serno ∈ ws := by
  induction ws with
  | nil => exact Iff.rfl
  | cons w ws ih =>
    by_cases h : w = serno
    · simp [upTo, h]
    · simp [upTo, h, Ne.symm h, ih]

theorem upTo_subset {serno : Serno} : upTo serno ws ⊆ ws := by
  induction ws with
  | nil => exact fun _ h => h
  | cons w ws ih =>
    unfold upTo
    split
    · simp
    · exact List.cons_subset_cons w ih

theorem Net.selectLoop (hnet : Net com c₀ S) (hS : ∀ v ∈ S, Valid v) {serno : Serno} {calls : ℕ}
    (hcalls : ws.length < calls) :
    KeepsTo (Pending c₀ S ws) (selectLoop com serno calls) fun found l => found =
      some (upTo serno ws) ∧
      ∃ s, Held c₀ s l ∧ (serno ∈ ws → s.serialNum = serno) := by
  induction ws generalizing calls with
  | nil =>
    obtain ⟨calls, rfl⟩ := Nat.exists_eq_succ_of_ne_zero (Nat.ne_of_gt hcalls)
    refine .bind hnet.owNext_nil fun ok => .ite (fun hok l h => ?_) fun _ => .pure fun l h => ?_
    · exact absurd (hok.symm.trans h.1) Bool.false_ne_true.symm
    · exact ⟨rfl, _, h.2.choose_spec, fun hmem => absurd hmem List.not_mem_nil⟩
  | cons w ws ih =>
    obtain ⟨calls, rfl⟩ := Nat.exists_eq_succ_of_ne_zero (Nat.ne_of_gt (Nat.zero_lt_of_lt hcalls))
    refine .bind (hnet.owNext_cons hS) fun ok => .ite (fun _ => ?_) fun hok l h => absurd h.1 hok
    refine .bind keeps_serialNum fun thisdev =>
      .ite (fun hfound => .pure fun l h => ?_) fun hother => ?_
    · obtain ⟨rfl, hserial, s, hheld, -⟩ := h
      refine ⟨?_, s, hheld, fun _ => ?_⟩
      · rw [upTo, if_pos hfound]
      · rw [← hheld.serialNum, hserial, hfound]
    · have hrest : KeepsTo (Pending c₀ S ws) (Ds2480.selectLoop com serno calls) _ :=
        ih (by rw [List.length_cons] at hcalls; omega)
      refine .bind (Q := fun found l => thisdev = w ∧ found = some (upTo serno ws) ∧
        ∃ s, Held c₀ s l ∧ (serno ∈ ws → s.serialNum = serno)) ?_ fun found => .pure fun l h => ?_
      · exact fun l h => ⟨h.1, hrest l h.2.2⟩
      · obtain ⟨rfl, rfl, s, hheld, hserial⟩ := h
        refine ⟨?_, s, hheld, fun hmem => ?_⟩
        · rw [upTo, if_neg hother]
          rfl
        · exact hserial ((List.mem_cons.mp hmem).resolve_left fun h => hother h.symm)

theorem held_familySetup (searchFamily : UInt8) :
    KeepsTo (Held c₀ s) (owFamilySearchSetup searchFamily)
    fun _ => Held c₀ ⟨#v[searchFamily, 0, 0, 0, 0, 0, 0, 0], 64, false, 0⟩ :=
  held_search (fun _ _ => rfl) fun _ => ⟨rfl, rfl, rfl⟩

theorem readbuffer_family (serno : Serno) : readbuffer serno 0 = serno.family := by
  have hsize : 0 < serno.toList.length := by simp
  rw [readbuffer, List.getD_eq_getElem _ _ hsize]
  exact Vector.getElem_toList (by simp)

/-- A device is found if and only if it is there, and is the one that is addressed then. -/
theorem select_finds (hnet : Net com c₀ S) (hS : ∀ v ∈ S, Valid v) {l : Line} (hl : Held c₀ s l)
    (serno : Serno) {calls : ℕ} (hcalls : S.length < calls) :
    ∃ found, (select com serno.family serno calls l).1 = some found ∧ (serno ∈ found ↔ serno ∈ S) ∧
      (∀ v ∈ found, v ∈ S) ∧
      ∃ s', Held c₀ s' (select com serno.family serno calls l).2 ∧
        (serno ∈ S → s'.serialNum = serno) := by
  obtain ⟨ws, hcoming, hsorted, hsub, hfamily⟩ := coming_family
    (s := ⟨#v[serno.family, 0, 0, 0, 0, 0, 0, 0], 64, false, 0⟩) hS rfl rfl rfl
  have hmem : serno ∈ ws ↔ serno ∈ S :=
    ⟨hsub serno, fun h => hfamily serno h (readbuffer_family serno)⟩
  have hlength : ws.length < calls := (length_le_of_sorted hsorted hsub).trans_lt hcalls
  have hselect : KeepsTo (Held c₀ s) (select com serno.family serno calls) fun found l => found =
    some (upTo serno ws) ∧
      ∃ s, Held c₀ s l ∧ (serno ∈ ws → s.serialNum = serno) :=
    .bind (held_familySetup _) fun _ =>
      (hnet.selectLoop hS hlength).conseq (fun l h => ⟨_, h, hcoming⟩) fun _ _ h => h
  obtain ⟨hfound, s', hheld, hserial⟩ := hselect l hl
  refine ⟨upTo serno ws, hfound, ?_, fun v hv => hsub v (upTo_subset hv), s', hheld, fun h =>
    hserial (hmem.mpr h)⟩
  rw [mem_upTo, hmem]

/-- A bus on which the searches go over the line. -/
def lineDriver (com : Com) (calls : ℕ) (rest : Driver Line) : Driver Line :=
  { rest with
    owSearch := fun searchFamily serno l =>
      ((select com searchFamily serno calls l).1.getD [], (select com searchFamily serno calls l).2)
        }

/-- A thermometer and another one beside it. -/
def thermometers : List Serno := [#v[0x28, 1, 0, 0, 0, 0, 0, 41], #v[0x10, 2, 0, 0, 0, 0, 0, 149]]

/-- A line between two calls. -/
def idle : Line := { port := { mode := .command, speed := speedselFlex } }

theorem held_idle : Held { receiver := some (.on .command) } idle.port.searching idle :=
  ⟨rfl, Or.inl rfl, rfl, rfl⟩

theorem valid_thermometers : ∀ v ∈ thermometers, Valid v := by
  intro v hv
  rcases List.mem_cons.mp hv with rfl | hv
  · exact ⟨by decide +kernel, by decide +kernel⟩
  · obtain rfl := List.mem_singleton.mp hv
    exact ⟨by decide +kernel, by decide +kernel⟩

/-- The loop of `FindDevices` on the devices that come. -/
theorem Net.findLoop (hnet : Net com c₀ S) (hS : ∀ v ∈ S, Valid v) {familyCode : UInt8}
    {maxDevices calls : ℕ}
    {familySN : List Serno} (hroom : familySN.length < maxDevices - 1) (hcalls : ws.length < calls)
      :
    KeepsTo (Pending c₀ S ws) (findLoop com familyCode maxDevices calls familySN) fun found l =>
      found = some
        (familySN ++ (ws.filter fun v => readbuffer v 0 &&& 0x7F = familyCode &&& 0x7F).take
        (maxDevices - 1 - familySN.length)) ∧ ∃ s, Held c₀ s l := by
  induction ws generalizing calls familySN with
  | nil =>
    obtain ⟨calls, rfl⟩ := Nat.exists_eq_succ_of_ne_zero (Nat.ne_of_gt hcalls)
    refine .bind hnet.owNext_nil fun ok => .ite (fun hok l h => ?_) fun _ => .pure fun l h => ?_
    · exact absurd (hok.symm.trans h.1) Bool.false_ne_true.symm
    · exact ⟨by simp, h.2⟩
  | cons w ws ih =>
    obtain ⟨calls, rfl⟩ := Nat.exists_eq_succ_of_ne_zero (Nat.ne_of_gt (Nat.zero_lt_of_lt hcalls))
    rw [List.length_cons] at hcalls
    refine .bind (hnet.owNext_cons hS) fun ok => .ite (fun _ => ?_) fun hok l h => absurd h.1 hok
    have hloop : ∀ sns : List Serno, sns.length ≤ maxDevices - 1 → KeepsTo (Pending c₀ S ws)
        (if sns.length < maxDevices - 1 then Ds2480.findLoop com familyCode maxDevices calls sns
          else return some sns) fun found l =>
        found = some (sns ++ (ws.filter fun v => readbuffer v 0 &&& 0x7F = familyCode &&& 0x7F).take
          (maxDevices - 1 - sns.length)) ∧ ∃ s, Held c₀ s l := by
      intro sns hle
      refine .ite (fun hroom => ih hroom (by omega)) fun hfull => .pure fun l h => ⟨?_, ?_⟩
      · rw [Nat.sub_eq_zero_of_le (Nat.not_lt.mp hfull), List.take_zero, List.append_nil]
      · obtain ⟨s, hheld, -⟩ := h
        exact ⟨s, hheld⟩
    refine .bind keeps_serialNum fun snum l h => ?_
    obtain ⟨rfl, -, hpending⟩ := h
    by_cases hmatch : readbuffer snum 0 &&& 0x7F = familyCode &&& 0x7F
    · have htake : maxDevices - 1 - familySN.length =
        (maxDevices - 1 - (familySN ++ [snum]).length) + 1 := by
        rw [List.length_append, List.length_singleton]
        omega
      have hnext := hloop (familySN ++ [snum])
        (by rw [List.length_append, List.length_singleton]; omega) l hpending
      rw [List.append_assoc, List.singleton_append] at hnext
      rw [List.filter_cons, if_pos (decide_eq_true hmatch), htake, List.take_succ_cons]
      simp only [if_pos hmatch]
      exact hnext
    · have hnext := hloop familySN (Nat.le_of_lt hroom) l hpending
      have hdecide : ¬ decide (readbuffer snum 0 &&& 0x7F = familyCode &&& 0x7F) = true :=
        fun h => hmatch (of_decide_eq_true h)
      rw [List.filter_cons, if_neg hdecide]
      simp only [if_neg hmatch]
      exact hnext

/-- After a call of which this is the result, the first device has been found and the others are to
come. -/
def Shown (c₀ : Chip) (S ws : List Serno) (rslt : Bool) (l : Line) : Prop :=
  (rslt = true ∧ ∃ w ws', ws = w :: ws' ∧ l.port.serialNum = w ∧ Pending c₀ S ws' l) ∨
    rslt = false ∧ ws = [] ∧ ∃ s, Held c₀ s l

theorem Net.owNext_shown (hnet : Net com c₀ S) (hS : ∀ v ∈ S, Valid v) :
    KeepsTo (Pending c₀ S ws) (owNext com true false) (Shown c₀ S ws) := by
  cases ws with
  | nil => exact hnet.owNext_nil.conseq (fun _ h => h) fun ok l h => Or.inr ⟨h.1, rfl, h.2⟩
  | cons w ws =>
    exact (hnet.owNext_cons hS).conseq (fun _ h => h) fun ok l h => Or.inl ⟨h.1, w, ws, rfl, h.2⟩

/-- The loop of `w1find` on the devices that come. -/
theorem Net.showLoop (hnet : Net com c₀ S) (hS : ∀ v ∈ S, Valid v) {calls : ℕ} {rslt : Bool}
    (hcalls : ws.length < calls) :
    KeepsTo (Shown c₀ S ws rslt) (showLoop com calls rslt) fun shown l =>
      shown = some (ws.filter fun v => readbuffer v 0 ≠ 0x1F) ∧ ∃ s, Held c₀ s l := by
  induction calls generalizing ws rslt with
  | zero => exact absurd hcalls (Nat.not_lt_zero _)
  | succ calls ih =>
    refine .ite (fun hok => ?_) fun hok => .pure fun l h => ?_
    · refine .bind (Q := fun snum l => ∃ ws', ws = snum :: ws' ∧ Pending c₀ S ws' l) (fun l h => ?_)
        fun snum => ?_
      · obtain ⟨-, w, ws', hws, rfl, hpending⟩ := h.resolve_right fun h =>
          absurd (hok.symm.trans h.1) (by decide)
        exact ⟨ws', hws, hpending⟩
      · intro l h
        obtain ⟨ws', rfl, hpending⟩ := h
        rw [List.length_cons] at hcalls
        have hrest : KeepsTo (Pending c₀ S ws')
          (owNext com true false >>= fun rslt => Ds2480.showLoop com calls rslt)
            fun shown l => shown = some (ws'.filter fun v => readbuffer v 0 ≠ 0x1F) ∧ ∃ s,
              Held c₀ s l :=
          .bind (hnet.owNext_shown hS) fun rslt => ih (by omega)
        obtain ⟨hshown, hheld⟩ := hrest l hpending
        refine ⟨?_, hheld⟩
        change Option.map _
          ((owNext com true false >>= fun rslt => Ds2480.showLoop com calls rslt) l).1 = _
        rw [hshown, Option.map_some, List.filter_cons]
        by_cases hcoupler : readbuffer snum 0 ≠ 0x1F
        · rw [if_pos hcoupler, if_pos (decide_eq_true hcoupler)]
        · rw [if_neg hcoupler, if_neg (by simpa using hcoupler)]
    · obtain ⟨-, rfl, hheld⟩ := h.resolve_left fun h => hok h.1
      exact ⟨rfl, hheld⟩

/-- All devices but the couplers are shown, each of them once, in the order of their serial
numbers. -/
theorem showDevices_lists (hnet : Net com c₀ S) (hS : ∀ v ∈ S, Valid v) {l : Line}
    (hl : Held c₀ s l)
    {calls : ℕ} (hcalls : S.length < calls) :
    ∃ shown, (showDevices com calls l).1 = some shown ∧ shown.Pairwise (Before bitRead 64) ∧
      (∀ v, v ∈ shown ↔ v ∈ S ∧ readbuffer v 0 ≠ 0x1F) ∧ ∃ s',
        Held c₀ s' (showDevices com calls l).2 := by
  obtain ⟨ws, hcoming, hsorted, hmem⟩ :=
    coming_first (s := ⟨s.serialNum, 0, false, 0⟩) (S := S) rfl rfl
  have hlength : ws.length < calls :=
    (length_le_of_sorted hsorted fun v => (hmem v).mp).trans_lt hcalls
  have hreset : KeepsTo (Held c₀ s) resetSearch fun _ => Held c₀ ⟨s.serialNum, 0, false, 0⟩ :=
    held_search (fun p h => by rw [← h]; rfl) fun _ => ⟨rfl, rfl, rfl⟩
  have hshow : KeepsTo (Held c₀ s) (showDevices com calls) fun shown l =>
      shown = some (ws.filter fun v => readbuffer v 0 ≠ 0x1F) ∧ ∃ s, Held c₀ s l :=
    .bind (.bind hreset fun _ =>
      (hnet.owNext_shown hS).conseq (fun l h => ⟨_, h, hcoming⟩) fun _ _ h => h)
      fun rslt => hnet.showLoop hS hlength
  obtain ⟨hshown, hheld⟩ := hshow l hl
  refine ⟨_, hshown, hsorted.filter _, fun v => ?_, hheld⟩
  rw [List.mem_filter, hmem, decide_eq_true_iff]

theorem lists_thermometers : ∃ shown,
    (showDevices (adapter { receiver := some (.on .command) } thermometers) 3 idle).1 = some shown ∧
      #v[0x28, 1, 0, 0, 0, 0, 0, 41] ∈ shown := by
  have hcalls : thermometers.length < 3 := by decide
  obtain ⟨shown, hshown, -, hmem, -⟩ :=
    showDevices_lists (net_adapter _ thermometers) valid_thermometers held_idle hcalls
  exact ⟨shown, hshown, (hmem _).mpr ⟨List.mem_cons_self, by decide⟩⟩

/-- The devices of a family are found in order, but never more than one less than there is room
for. -/
theorem findDevices_takes (hnet : Net com c₀ S) (hS : ∀ v ∈ S, Valid v) {l : Line}
    (hl : Held c₀ s l)
    (familyCode : UInt8) {maxDevices calls : ℕ} (hmax : 2 ≤ maxDevices) (hcalls : S.length < calls)
      :
    ∃ devices : List Serno, (findDevices com familyCode maxDevices calls l).1 =
      some (devices.take (maxDevices - 1)) ∧
      devices.Pairwise (Before bitRead 64) ∧
      (∀ v ∈ devices, v ∈ S ∧ readbuffer v 0 &&& 0x7F = familyCode &&& 0x7F) ∧
      (∀ v ∈ S, readbuffer v 0 = familyCode → v ∈ devices) := by
  obtain ⟨ws, hcoming, hsorted, hsub, hfamily⟩ := coming_family
    (s := ⟨#v[familyCode, 0, 0, 0, 0, 0, 0, 0], 64, false, 0⟩) hS rfl rfl rfl
  have hlength : ws.length < calls := (length_le_of_sorted hsorted hsub).trans_lt hcalls
  have hroom : ([] : List Serno).length < maxDevices - 1 := by
    rw [List.length_nil]
    omega
  have hfind : KeepsTo (Held c₀ s) (findDevices com familyCode maxDevices calls) fun found l =>
      found = some ([] ++ (ws.filter fun v => readbuffer v 0 &&& 0x7F = familyCode &&& 0x7F).take
        (maxDevices - 1 - ([] : List Serno).length)) ∧ ∃ s, Held c₀ s l :=
    .bind (held_familySetup _) fun _ =>
      (hnet.findLoop hS hroom hlength).conseq (fun l h => ⟨_, h, hcoming⟩)
      fun _ _ h => h
  refine ⟨_, (hfind l hl).1, hsorted.filter _, fun v hv => ?_, fun v hv h => ?_⟩
  · obtain ⟨hv, hmatch⟩ := List.mem_filter.mp hv
    exact ⟨hsub v hv, of_decide_eq_true hmatch⟩
  · exact List.mem_filter.mpr ⟨hfamily v hv h, decide_eq_true (by rw [h])⟩

theorem takes_thermometer : ∃ devices : List Serno,
    (findDevices (adapter { receiver := some (.on .command) } thermometers) 0x28 2 3 idle).1 =
      some (devices.take 1) ∧ #v[0x28, 1, 0, 0, 0, 0, 0, 41] ∈ devices := by
  have hcalls : thermometers.length < 3 := by decide
  obtain ⟨devices, hfound, -, -, hfamily⟩ :=
    findDevices_takes (net_adapter _ thermometers) valid_thermometers held_idle 0x28 (Nat.le_refl 2)
      hcalls
  exact ⟨devices, hfound, hfamily _ List.mem_cons_self rfl⟩

end
end W1Retap.Bus.Ds2480

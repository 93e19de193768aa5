import W1Retap.Tables.Backends
import W1Retap.Tables.Files

/-!
# Piles of cells

Six loaders go through their rows in one way: a row is looked up among the entries that are
there, and its cells go to the entry that is found or to a new one. Where a row goes depends
on the devices and types alone, so the cells can be sorted into piles first, one for each
entry, and the entries be made of the piles afterwards.
-/
namespace W1Retap

open CStrings Programs

/-- A row on its way to an entry: what it is looked up under, the cells for a new entry, and
those for one that is there. -/
structure Delivery where
  serno : Option CString
  devtype : Option CString
  fresh : List (CString × CString)
  joined : List (CString × CString)

/-- A row comes to its entry. -/
def deliver (r : Delivery) (devs : List Entry) : Except Stop (List Entry) := do
  match ← w1GetDeviceIndex r.serno r.devtype devs with
  | none => return devs ++ [← stepRow r.fresh .zero]
  | some i => return devs.set i (← stepRow r.joined (devs.getD i .zero))

/-- The rows of a table one after the other; `none` is one that cannot be looked up at all. -/
def deliverAll (rs : List (Option Delivery)) : Except Stop (List Entry) :=
  rs.foldlM (fun devs r =>
    match r with
    | none => .error .nullDeref
    | some r => deliver r devs) []

abbrev Pile := List (CString × CString)

/-- What the entry of a pile is found by. -/
def nameplate (p : Pile) : Entry :=
  { Entry.zero with serial := lastCell deviceCol p, devtype := firstCell typeCol p }

/-- The cells of a row go to a pile; each row before it has to have left a type. -/
def sortRow (r : Delivery) (piles : List Pile) : Except Stop (List Pile) :=
  if piles.any fun p => (firstCell typeCol p).isNone then .error .nullDeref
  else do
    match ← w1GetDeviceIndex r.serno r.devtype (piles.map nameplate) with
    | none => return piles ++ [r.fresh]
    | some i => return piles.set i (piles.getD i [] ++ r.joined)

/-- The cells of each entry of a table. -/
def pilesOf (rs : List (Option Delivery)) : Except Stop (List Pile) :=
  rs.foldlM (fun piles r =>
    match r with
    | none => .error .nullDeref
    | some r => sortRow r piles) []

/-- The entries that are made of the piles. -/
def makeEntries (piles : List Pile) : Except Stop (List Entry) :=
  piles.mapM fun p => stepRow p .zero

/-! ## The search -/

section
variable {serno devtype : Option CString} {devs devs' : List Entry}

/-- Only the keys matter for the search. -/
theorem getDeviceIndex_keys (h : devs.map Entry.key = devs'.map Entry.key) :
    w1GetDeviceIndex serno devtype devs = w1GetDeviceIndex serno devtype devs' := by
  induction devs generalizing devs' with
  | nil =>
    obtain rfl : devs' = [] := by simpa using h.symm
    rfl
  | cons e devs ih =>
    cases devs' with
    | nil => simp at h
    | cons e' devs' =>
      obtain ⟨hkey, hrest⟩ := List.cons.inj h
      obtain ⟨hserial, hdevtype⟩ := Key.mk.inj hkey
      rw [w1GetDeviceIndex, w1GetDeviceIndex, hserial, hdevtype, ih hrest]

/-- The search stops at the first entry or goes on behind it. -/
theorem getDeviceIndex_step (serno devtype : Option CString) (e : Entry) (devs : List Entry) :
    w1GetDeviceIndex serno devtype (e :: devs) = .error .nullDeref ∨
    w1GetDeviceIndex serno devtype (e :: devs) = .ok (some 0) ∨
    w1GetDeviceIndex serno devtype (e :: devs) =
      (w1GetDeviceIndex serno devtype devs).map (Option.map (· + 1)) := by
  have hrest : (w1GetDeviceIndex serno devtype devs >>= fun nn => Except.ok (nn.map (· + 1))) =
      (w1GetDeviceIndex serno devtype devs).map (Option.map (· + 1)) := by
    cases w1GetDeviceIndex serno devtype devs <;> rfl
  have hcmp : ∀ a b : Option CString, strcmpEq a b = .error .nullDeref ∨ strcmpEq a b = .ok true ∨
      strcmpEq a b = .ok false := by
    intro a b
    cases a with
    | none => exact Or.inl rfl
    | some a =>
      cases b with
      | none => exact Or.inl rfl
      | some b => cases hab : a == b <;> simp [strcmpEq, hab]
  rw [w1GetDeviceIndex, ← hrest]
  rcases hcmp serno e.serial with h | h | h
  · rw [h]
    exact Or.inl rfl
  · rw [h]
    cases devtype with
    | none => exact Or.inr (Or.inl rfl)
    | some ty =>
      rcases hcmp (some ty) e.devtype with h | h | h
      · rw [h]
        exact Or.inl rfl
      · rw [h]
        exact Or.inr (Or.inl rfl)
      · rw [h]
        exact Or.inr (Or.inr rfl)
  · rw [h]
    exact Or.inr (Or.inr rfl)

theorem getDeviceIndex_error {err : Stop} (h : w1GetDeviceIndex serno devtype devs = .error err) :
    err = .nullDeref := by
  induction devs generalizing err with
  | nil => cases h
  | cons e devs ih =>
    rcases getDeviceIndex_step serno devtype e devs with hstep | hstep | hstep
    · exact (Except.error.inj (hstep.symm.trans h)).symm
    · rw [hstep] at h
      cases h
    · exact ih (map_error.mp (hstep.symm.trans h))

/-- What is found is there. -/
theorem getDeviceIndex_lt {i : ℕ} (h : w1GetDeviceIndex serno devtype devs = .ok (some i)) :
    i < devs.length := by
  induction devs generalizing i with
  | nil => cases h
  | cons e devs ih =>
    rcases getDeviceIndex_step serno devtype e devs with hstep | hstep | hstep
    · rw [hstep] at h
      cases h
    · obtain rfl := Option.some.inj (Except.ok.inj (hstep.symm.trans h))
      simp
    · obtain ⟨nn, hnn, hi⟩ := map_ok.mp (hstep.symm.trans h)
      obtain ⟨j, rfl, rfl⟩ := Option.map_eq_some_iff.mp hi
      simpa using ih hnn

end

/-! ## The entry of a pile -/

section
variable {p q : Pile} {e : Entry}

theorem stepRow_lacks : stepRow p .zero = .error .noSlot ↔ LacksSlot p := by
  have hset : setCells .zero p =
      (p.foldlM attachCell []).map (p.foldl Entry.assign .zero).withSensors :=
    setCells_eq .zero p
  rw [← not_iff_not, ← attach_nil_iff, stepRow, hset]
  cases hp : p.foldlM attachCell [] with
  | error err =>
    obtain rfl := attach_error hp
    refine iff_of_false (fun h => h rfl) ?_
    rintro ⟨xs, hxs⟩
    cases hxs
  | ok xs =>
    refine iff_of_true (fun h => ?_) ⟨xs, rfl⟩
    change w1Enumdevs _ = _ at h
    unfold w1Enumdevs at h
    split at h
    · cases h
    · cases h

theorem stepRow_filled : (∃ e, stepRow p .zero = .ok e) ↔
    ¬ LacksSlot p ∧ (firstCell typeCol p).isSome := by
  constructor
  · rintro ⟨e, he⟩
    refine ⟨fun hp => ?_, (stepRow_zero.2 e he).1⟩
    rw [stepRow_lacks.mpr hp] at he
    cases he
  · rintro ⟨hp, htype⟩
    obtain ⟨xs, hxs⟩ := attach_nil_iff.mpr hp
    rw [stepRow_eq _ p (by simpa [Entry.zero] using htype)]
    exact ⟨Entry.fill .zero p xs, map_ok.mpr ⟨xs, hxs, rfl⟩⟩

/-- More cells do not give the first one a slot. -/
theorem LacksSlot.append (h : LacksSlot p) (q : Pile) : LacksSlot (p ++ q) := by
  obtain ⟨c, hc, hcol⟩ := h
  refine ⟨c, ?_, hcol⟩
  rw [List.filter_append, List.head?_append, hc]
  rfl

theorem nameplate_key (h : stepRow p .zero = .ok e) : (nameplate p).key = e.key := by
  obtain ⟨-, hserial, hdevtype, -⟩ := stepRow_zero.2 e h
  exact (congrArg₂ Key.mk hserial hdevtype).symm

end

/-! ## Sorting before making -/

section
variable {piles piles' : List Pile} {devs devs' : List Entry} {r : Delivery} {p q : Pile}

theorem makeEntries_keys (h : makeEntries piles = .ok devs) :
    (piles.map nameplate).map Entry.key = devs.map Entry.key := by
  rw [List.map_map]
  refine forall₂_eq_iff.mp ((mapM_forall₂ h).imp fun p e he => ?_)
  exact nameplate_key he

theorem makeEntries_filled : (∃ devs, makeEntries piles = .ok devs) ↔
    ∀ p ∈ piles, ¬ LacksSlot p ∧ (firstCell typeCol p).isSome := by
  induction piles with
  | nil => exact iff_of_true ⟨[], rfl⟩ (by simp)
  | cons p piles ih =>
    rw [List.forall_mem_cons, ← ih, ← stepRow_filled, makeEntries, List.mapM_cons]
    constructor
    · rintro ⟨devs, h⟩
      obtain ⟨e, he, h⟩ := bind_ok.mp h
      obtain ⟨devs', hdevs, -⟩ := bind_ok.mp h
      exact ⟨⟨e, he⟩, devs', hdevs⟩
    · rintro ⟨⟨e, he⟩, devs, hdevs⟩
      exact ⟨e :: devs, bind_ok.mpr ⟨e, he, bind_ok.mpr ⟨devs, hdevs, rfl⟩⟩⟩

/-- What cannot be made is a pile that lacks a slot or has no type. -/
theorem makeEntries_stops {err : Stop} (h : makeEntries piles = .error err) :
    ∃ p ∈ piles, stepRow p .zero = .error err := by
  induction piles with
  | nil => cases h
  | cons p piles ih =>
    rw [makeEntries, List.mapM_cons] at h
    cases hstep : stepRow p .zero with
    | error err' =>
      rw [hstep] at h
      obtain rfl := Except.error.inj h
      exact ⟨p, List.mem_cons_self, hstep⟩
    | ok e =>
      rw [hstep] at h
      have hrest : (makeEntries piles >>= fun devs => pure (e :: devs)) = .error err := h
      cases hpiles : makeEntries piles with
      | error err' =>
        rw [hpiles] at hrest
        obtain rfl := Except.error.inj hrest
        obtain ⟨q, hq, hstop⟩ := ih hpiles
        exact ⟨q, List.mem_cons_of_mem _ hq, hstop⟩
      | ok devs =>
        rw [hpiles] at hrest
        cases hrest

theorem makeEntries_error {err : Stop} (h : makeEntries piles = .error err) :
    err = .noSlot ∨ err = .nullDeref := by
  obtain ⟨p, -, hp⟩ := makeEntries_stops h
  by_cases hlacks : LacksSlot p
  · exact Or.inl (Except.error.inj (hp.symm.trans (stepRow_lacks.mpr hlacks)))
  · cases htype : firstCell typeCol p with
    | none => exact Or.inr (Except.error.inj (hp.symm.trans (stepRow_zero.1.mpr ⟨hlacks, htype⟩)))
    | some ty =>
      obtain ⟨e, he⟩ := stepRow_filled.mpr ⟨hlacks, by rw [htype]; rfl⟩
      rw [he] at hp
      cases hp

/-- A missing slot is the first thing that goes wrong where every other pile has a type. -/
theorem makeEntries_lacks (h : ∀ p ∈ piles, LacksSlot p ∨ (firstCell typeCol p).isSome)
    (hp : ∃ p ∈ piles, LacksSlot p) : makeEntries piles = .error .noSlot := by
  induction piles with
  | nil => simp at hp
  | cons p piles ih =>
    obtain ⟨htyped, hpiles⟩ := List.forall_mem_cons.mp h
    rw [List.exists_mem_cons_iff] at hp
    rw [makeEntries, List.mapM_cons]
    by_cases hlacks : LacksSlot p
    · rw [stepRow_lacks.mpr hlacks]
      rfl
    · obtain ⟨e, he⟩ := stepRow_filled.mpr ⟨hlacks, htyped.resolve_left hlacks⟩
      have hrest : makeEntries piles = .error .noSlot :=
        ih hpiles (hp.resolve_left hlacks)
      rw [he]
      change (makeEntries piles >>= fun devs => pure (e :: devs)) = _
      rw [hrest]
      rfl

/-- A row comes to its entry as its cells come to their pile. -/
theorem deliver_eq (h : makeEntries piles = .ok devs) :
    deliver r devs = sortRow r piles >>= makeEntries := by
  have hfilled := makeEntries_filled.mp ⟨devs, h⟩
  have htyped : ¬ piles.any (fun p => (firstCell typeCol p).isNone) = true := by
    simpa [Option.isSome_iff_ne_none] using fun p hp => (hfilled p hp).2
  rw [deliver, sortRow, if_neg htyped, getDeviceIndex_keys (makeEntries_keys h)]
  cases hidx : w1GetDeviceIndex r.serno r.devtype devs with
  | error err => rfl
  | ok nn =>
    cases nn with
    | none =>
      change (stepRow r.fresh .zero >>= fun e => pure (devs ++ [e])) =
        (piles ++ [r.fresh]).mapM fun p => stepRow p .zero
      have hpiles : (piles.mapM fun p => stepRow p .zero) = .ok devs := h
      rw [List.mapM_append, hpiles, List.mapM_cons, List.mapM_nil]
      cases stepRow r.fresh .zero <;> rfl
    | some i =>
      have hlen : piles.length = devs.length := (mapM_forall₂ h).length_eq
      have hi : i < piles.length := hlen ▸ getDeviceIndex_lt hidx
      have hstep : stepRow (piles.getD i []) .zero = .ok (devs.getD i .zero) := by
        obtain ⟨e, he, hpe⟩ := forall₂_left (mapM_forall₂ h) (List.getElem?_eq_getElem hi)
        rw [List.getD_eq_getElem?_getD, List.getD_eq_getElem?_getD, he, List.getElem?_eq_getElem hi]
        exact hpe
      have htype : (Entry.zero.devtype.or (firstCell typeCol (piles.getD i []))).isSome := by
        simpa [Entry.zero] using (stepRow_zero.2 _ hstep).1
      have happend : stepRow (piles.getD i [] ++ r.joined) .zero =
          stepRow r.joined (devs.getD i .zero) := by
        rw [← stepRow_append htype, hstep]
        rfl
      change (stepRow r.joined (devs.getD i .zero) >>= fun e => pure (devs.set i e)) =
        (piles.set i (piles.getD i [] ++ r.joined)).mapM fun p => stepRow p .zero
      rw [mapM_set h hi, happend]
      cases stepRow r.joined (devs.getD i .zero) <;> rfl

/-- What a row does to the piles. -/
theorem sortRow_ok (h : sortRow r piles = .ok piles') :
    (∀ p ∈ piles, (firstCell typeCol p).isSome) ∧ (∀ p ∈ piles, ∃ q, p ++ q ∈ piles') ∧
    (piles' = piles ++ [r.fresh] ∨ ∀ p' ∈ piles', ∃ p ∈ piles, p <+: p') := by
  unfold sortRow at h
  split at h
  · cases h
  rename_i htyped
  obtain ⟨nn, hidx, h⟩ := bind_ok.mp h
  refine ⟨by simpa [Option.isSome_iff_ne_none] using htyped, ?_⟩
  cases nn with
  | none =>
    obtain rfl := Except.ok.inj h
    exact ⟨fun p hp => ⟨[], by simpa using Or.inl hp⟩, Or.inl rfl⟩
  | some i =>
    obtain rfl := Except.ok.inj h
    have hi : i < piles.length := by simpa using getDeviceIndex_lt hidx
    have hget : piles.getD i [] = piles[i] := by simp [hi]
    rw [hget]
    constructor
    · intro p hp
      obtain ⟨j, hj, rfl⟩ := List.getElem_of_mem hp
      by_cases hji : i = j
      · subst hji
        exact ⟨r.joined, List.mem_iff_getElem.mpr ⟨i, by simpa using hi, by simp⟩⟩
      · refine ⟨[], List.mem_iff_getElem.mpr ⟨j, by simpa using hj, ?_⟩⟩
        rw [List.getElem_set_ne hji, List.append_nil]
    · refine Or.inr fun p hp => ?_
      rcases List.mem_or_eq_of_mem_set hp with hp | rfl
      · exact ⟨p, hp, List.prefix_rfl⟩
      · exact ⟨piles[i], List.getElem_mem hi, List.prefix_append _ _⟩

theorem sortRow_error {err : Stop} (h : sortRow r piles = .error err) : err = .nullDeref := by
  unfold sortRow at h
  split at h
  · exact (Except.error.inj h).symm
  · cases hidx : w1GetDeviceIndex r.serno r.devtype (piles.map nameplate) with
    | error err' =>
      rw [hidx] at h
      obtain rfl := Except.error.inj h
      exact getDeviceIndex_error hidx
    | ok nn =>
      rw [hidx] at h
      cases nn <;> cases h

end

/-! ## Tables -/

section
variable {rs pre : List (Option Delivery)} {r : Option Delivery} {piles : List Pile}
  {devs : List Entry}

theorem deliverAll_concat : deliverAll (rs ++ [r]) = deliverAll rs >>= fun devs =>
    match r with
    | none => .error .nullDeref
    | some r => deliver r devs := by
  rw [deliverAll, List.foldlM_append]
  congr 1
  funext devs
  exact bind_pure _

theorem pilesOf_concat : pilesOf (rs ++ [r]) = pilesOf rs >>= fun piles =>
    match r with
    | none => .error .nullDeref
    | some r => sortRow r piles := by
  rw [pilesOf, List.foldlM_append]
  congr 1
  funext piles
  exact bind_pure _

/-- The entries of a table are made of its piles. -/
theorem deliverAll_ok :
    deliverAll rs = .ok devs ↔ ∃ piles, pilesOf rs = .ok piles ∧ makeEntries piles = .ok devs := by
  induction rs using List.reverseRecOn generalizing devs with
  | nil =>
    constructor
    · intro h
      obtain rfl := Except.ok.inj h
      exact ⟨[], rfl, rfl⟩
    · rintro ⟨piles, hpiles, hmake⟩
      obtain rfl := Except.ok.inj hpiles
      exact hmake
  | append_singleton rs r ih =>
    rw [deliverAll_concat, pilesOf_concat]
    constructor
    · intro h
      obtain ⟨devs₀, hdevs₀, hr⟩ := bind_ok.mp h
      obtain ⟨piles₀, hpiles₀, hmake⟩ := ih.mp hdevs₀
      cases r with
      | none => cases hr
      | some r =>
        obtain ⟨piles, hsort, hpiles⟩ := bind_ok.mp ((deliver_eq hmake).symm.trans hr)
        exact ⟨piles, bind_ok.mpr ⟨piles₀, hpiles₀, hsort⟩, hpiles⟩
    · rintro ⟨piles, h, hmake⟩
      obtain ⟨piles₀, hpiles₀, hr⟩ := bind_ok.mp h
      cases r with
      | none => cases hr
      | some r =>
        obtain ⟨htyped, hgrown, -⟩ := sortRow_ok hr
        -- a pile that gets no worse has been good before
        have hfilled := makeEntries_filled.mp ⟨devs, hmake⟩
        obtain ⟨devs₀, hdevs₀⟩ := makeEntries_filled.mpr fun p hp => by
          obtain ⟨q, hq⟩ := hgrown p hp
          exact ⟨fun hlacks => (hfilled _ hq).1 (hlacks.append q), htyped p hp⟩
        refine bind_ok.mpr ⟨devs₀, ih.mpr ⟨piles₀, hpiles₀, hdevs₀⟩, ?_⟩
        exact (deliver_eq hdevs₀).trans (bind_ok.mpr ⟨piles, hr, hmake⟩)

/-- A loader goes outside the slots exactly when a pile comes to lack one. -/
theorem deliverAll_noSlot : deliverAll rs = .error .noSlot ↔
    ∃ pre, pre <+: rs ∧ ∃ piles, pilesOf pre = .ok piles ∧ ∃ p ∈ piles, LacksSlot p := by
  induction rs using List.reverseRecOn with
  | nil =>
    refine iff_of_false (fun h => by cases h) ?_
    rintro ⟨pre, hpre, piles, hpiles, p, hp, -⟩
    obtain rfl := List.prefix_nil.mp hpre
    obtain rfl := Except.ok.inj hpiles
    simp at hp
  | append_singleton rs r ih =>
    rw [deliverAll_concat]
    constructor
    · intro h
      cases hdevs : deliverAll rs with
      | error err =>
        rw [hdevs] at h
        obtain rfl := Except.error.inj h
        obtain ⟨pre, hpre, hpiles⟩ := ih.mp hdevs
        exact ⟨pre, hpre.trans (List.prefix_append rs [r]), hpiles⟩
      | ok devs =>
        rw [hdevs] at h
        obtain ⟨piles, hpiles, hmake⟩ := deliverAll_ok.mp hdevs
        cases r with
        | none => cases h
        | some r =>
          have hr : (sortRow r piles >>= makeEntries) = .error .noSlot :=
            (deliver_eq hmake).symm.trans h
          cases hsort : sortRow r piles with
          | error err =>
            rw [hsort] at hr
            obtain rfl := sortRow_error hsort
            cases hr
          | ok piles' =>
            rw [hsort] at hr
            obtain ⟨p, hp, hlacks⟩ := makeEntries_stops hr
            refine ⟨rs ++ [some r], List.prefix_rfl, piles', ?_, p, hp, stepRow_lacks.mp hlacks⟩
            rw [pilesOf_concat]
            exact bind_ok.mpr ⟨piles, hpiles, hsort⟩
    · rintro ⟨pre, hpre, piles, hpiles, hlacks⟩
      have hbefore : ∀ err, deliverAll rs = .error err → (deliverAll rs >>= fun devs =>
          match r with
          | none => .error .nullDeref
          | some r => deliver r devs) = .error err := by
        intro err h
        rw [h]
        rfl
      rcases List.prefix_concat_iff.mp hpre with rfl | hpre
      · rw [pilesOf_concat] at hpiles
        obtain ⟨piles₀, hpiles₀, hr⟩ := bind_ok.mp hpiles
        by_cases hlacks₀ : ∃ p ∈ piles₀, LacksSlot p
        · exact hbefore _ (ih.mpr ⟨rs, List.prefix_rfl, piles₀, hpiles₀, hlacks₀⟩)
        · cases r with
          | none => cases hr
          | some r =>
            obtain ⟨htyped, -, hfrom⟩ := sortRow_ok hr
            obtain ⟨devs, hdevs⟩ := makeEntries_filled.mpr fun p hp =>
              ⟨fun h => hlacks₀ ⟨p, hp, h⟩, htyped p hp⟩
            rw [deliverAll_ok.mpr ⟨piles₀, hpiles₀, hdevs⟩]
            refine (deliver_eq hdevs).trans ?_
            change sortRow r piles₀ = .ok piles at hr
            rw [hr]
            refine makeEntries_lacks (fun p hp => ?_) hlacks
            rcases hfrom with rfl | hfrom
            · rcases List.mem_append.mp hp with hp | hp
              · exact Or.inr (htyped p hp)
              · obtain ⟨p', hp', hlacks'⟩ := hlacks
                rcases List.mem_append.mp hp' with hp' | hp'
                · exact absurd ⟨p', hp', hlacks'⟩ hlacks₀
                · rw [List.mem_singleton] at hp hp'
                  exact Or.inl (hp.trans hp'.symm ▸ hlacks')
            · obtain ⟨p₀, hp₀, q, rfl⟩ := hfrom p hp
              right
              rw [firstCell_append]
              simp [htyped p₀ hp₀]
      · exact hbefore _ (ih.mpr ⟨pre, hpre, piles, hpiles, hlacks⟩)

/-- What a loader stops at. -/
theorem deliverAll_error {err : Stop} (h : deliverAll rs = .error err) :
    err = .noSlot ∨ err = .nullDeref := by
  induction rs using List.reverseRecOn with
  | nil => cases h
  | append_singleton rs r ih =>
    rw [deliverAll_concat] at h
    cases hdevs : deliverAll rs with
    | error err' =>
      rw [hdevs] at h
      obtain rfl := Except.error.inj h
      exact ih hdevs
    | ok devs =>
      rw [hdevs] at h
      obtain ⟨piles, -, hmake⟩ := deliverAll_ok.mp hdevs
      cases r with
      | none => exact Or.inr (Except.error.inj h).symm
      | some r =>
        have hr : (sortRow r piles >>= makeEntries) = .error err := (deliver_eq hmake).symm.trans h
        cases hsort : sortRow r piles with
        | error err' =>
          rw [hsort] at hr
          obtain rfl := Except.error.inj hr
          exact Or.inr (sortRow_error hsort)
        | ok piles' =>
          rw [hsort] at hr
          exact makeEntries_error hr

end

/-! ## The loaders -/

/-- A sensor table, as its loader finds it. -/
inductive Table where
  | sqlite (names : List CString) (rows : List Record)
  | mysql (names : List CString) (rows : List Record)
  | pgsql (names : List CString) (rows : List Record)
  | odbc (names : List CString) (rows : List Record)
  | mongo (fixed : ℚ → CString) (docs : List Document)
  | file (text : CString)

/-- The `w1_init` of the plugins, up to the rate limits. -/
def Table.load : Table → Except Stop (List Entry)
  | .sqlite names rows => sqliteRows names rows
  | .mysql names rows => mysqlRows names rows
  | .pgsql names rows => pgsqlRows names rows
  | .odbc names rows => odbcRows names rows
  | .mongo fixed docs => mongoDocs fixed docs
  | .file text => fileInit text

/-- A row whose cells go to a new entry as to one that is there. -/
def Delivery.plain (serno devtype : Option CString) (cells : List (CString × CString)) : Delivery :=
  { serno := serno, devtype := devtype, fresh := cells, joined := cells }

def Record.delivery (fetch : Option CString → Option CString) (names : List CString)
    (row : Record) : Delivery :=
  .plain (fetch (row deviceCol)) (fetch (row typeCol)) (filledCells names row)

def Record.odbcDelivery (names : List CString) (row : Record) : Delivery :=
  .plain (some (keyBuffer (row deviceCol))) (some (keyBuffer (row typeCol)))
    (givenCells odbcCell names row)

def Document.delivery (fixed : ℚ → CString) (doc : Document) : Option Delivery :=
  (doc.getString deviceCol).map fun device =>
    .plain (some device) (some ((doc.getString typeCol).getD device))
      (doc.filterMap fun p => (p.2.text fixed).map (p.1, ·))

/-- The fields of a line. A new entry without a type goes no further than to `w1_enumdevs`,
which comes before the other cells. -/
def fieldsDelivery : List CString → Option Delivery
  | serno :: devtype :: rest => some
      { serno := fieldOf serno
        devtype := fieldOf devtype
        fresh := if fieldOf devtype = none then [] else fieldCells (serno :: devtype :: rest)
        joined := fieldCells (serno :: devtype :: rest) }
  | _ => none

def lineDelivery (line : CString) : Option Delivery :=
  if line.head?.any isalnum then fieldsDelivery (strsep ['|', ':'] (line.takeWhile (· ≠ '\n')))
  else none

/-- The rows of a table on their way to their entries. -/
def Table.deliveries : Table → List (Option Delivery)
  | .sqlite names rows => rows.map fun row => some (row.delivery id names)
  | .mysql names rows => rows.map fun row => some (row.delivery id names)
  | .pgsql names rows => rows.map fun row => some (row.delivery pqGetvalue names)
  | .odbc names rows => rows.map fun row => some (row.odbcDelivery names)
  | .mongo fixed docs => docs.map (Document.delivery fixed)
  | .file text => ((fgets 255 text []).filterMap lineDelivery).map some

theorem deliver_plain {serno devtype : Option CString} {cells : List (CString × CString)}
    (devs : List Entry) : deliver (.plain serno devtype cells) devs =
      loadRow serno devtype cells devs := by
  rw [deliver]
  change (w1GetDeviceIndex serno devtype devs >>= _) = _
  cases h : w1GetDeviceIndex serno devtype devs with
  | error err =>
    rw [loadRow, h]
    rfl
  | ok nn =>
    rw [loadRow_eq h]
    cases nn with
    | none =>
      have hzero : (devs ++ [Entry.zero]).getD devs.length .zero = .zero := by simp
      simp only [Option.isNone_none, if_true, Option.getD_none, List.length_append,
        List.length_singleton, Nat.add_sub_cancel, hzero]
      change (stepRow cells .zero >>= fun e => pure (devs ++ [e])) = _
      cases stepRow cells .zero with
      | error err => rfl
      | ok e => simp [Except.map, bind, Except.bind, pure, Except.pure]
    | some i =>
      change (stepRow cells (devs.getD i .zero) >>= fun e => pure (devs.set i e)) =
        (stepRow cells (devs.getD i .zero)).map (devs.set i)
      cases stepRow cells (devs.getD i .zero) <;> rfl

theorem foldlM_plain {ρ : Type} {f : List Entry → ρ → Except Stop (List Entry)}
    {delivery : ρ → Delivery} (h : ∀ devs r, deliver (delivery r) devs = f devs r) (rows : List ρ) :
    rows.foldlM f [] = deliverAll (rows.map fun r => some (delivery r)) := by
  rw [deliverAll, List.foldlM_map]
  congr 1
  funext devs r
  exact (h devs r).symm

/-! ## Lines of a file -/

/-- The type of an entry is the one that `w1_enumdevs` finds. -/
def Entry.Enumerated (e : Entry) : Prop :=
  ∃ ty, e.devtype = some ty ∧ e.stype = (typeOf ty).getD e.stype

section
variable {cells : List (CString × CString)} {e e' : Entry} {devs devs' : List Entry} {r : Delivery}
  {serno devtype : CString} {rest : List CString}

theorem stepRow_enumerates (h : stepRow cells e = .ok e') : e'.Enumerated := by
  obtain ⟨e₁, -, henum⟩ := bind_ok.mp h
  unfold w1Enumdevs at henum
  split at henum
  · cases henum
  · rename_i ty hty
    obtain rfl := Except.ok.inj henum
    refine ⟨ty, hty, ?_⟩
    cases typeOf ty <;> rfl

theorem deliver_enumerates (h : deliver r devs = .ok devs') (hdevs : ∀ e ∈ devs, e.Enumerated) :
    ∀ e ∈ devs', e.Enumerated := by
  obtain ⟨nn, -, h⟩ := bind_ok.mp h
  cases nn with
  | none =>
    obtain ⟨e, he, h⟩ := bind_ok.mp h
    obtain rfl := Except.ok.inj h
    intro e' he'
    rcases List.mem_append.mp he' with he' | he'
    · exact hdevs e' he'
    · rw [List.mem_singleton.mp he']
      exact stepRow_enumerates he
  | some i =>
    obtain ⟨e, he, h⟩ := bind_ok.mp h
    obtain rfl := Except.ok.inj h
    intro e' he'
    rcases List.mem_or_eq_of_mem_set he' with he' | rfl
    · exact hdevs e' he'
    · exact stepRow_enumerates he

/-- The entry that is found has the type that was asked for. -/
theorem getDeviceIndex_type {serno devtype : Option CString} {i : ℕ}
    (htypes : ∀ e ∈ devs, e.devtype.isSome)
    (h : w1GetDeviceIndex serno devtype devs = .ok (some i)) :
    devtype = none ∨ (devs.getD i .zero).devtype = devtype := by
  generalize hasked : (⟨serno, devtype⟩ : Key) = asked
  obtain ⟨rfl, rfl⟩ : asked.serno = serno ∧ asked.devtype = devtype := by
    rw [← hasked]
    exact ⟨rfl, rfl⟩
  by_cases hs : Searchable (devs.map Entry.key) asked
  · by_cases hfound : Found (devs.map Entry.key) asked
    · obtain ⟨j, e, hj, he, hsuits⟩ := getDeviceIndex_found htypes hfound
      obtain rfl := Option.some.inj (Except.ok.inj (hj.symm.trans h))
      rw [List.getD_eq_getElem?_getD, he]
      exact hsuits.2.2.imp_right And.right
    · rw [getDeviceIndex_none htypes hfound hs] at h
      cases h
  · rw [getDeviceIndex_unsearchable htypes hs] at h
    cases h

/-- A line without a type leaves the type of its entry alone. -/
theorem fileEntry_untyped {d : CString} (hserno : fieldOf serno = some d)
    (hdevtype : fieldOf devtype = none)
    (he : e.Enumerated) :
    fileEntry serno devtype rest e = stepRow (fieldCells (serno :: devtype :: rest)) e := by
  obtain ⟨ty, hty, hstype⟩ := he
  have hcells : fieldCells (serno :: devtype :: rest) =
      (deviceCol, d) :: fieldCellsFrom rest 2 := by
    rw [fieldCells_cons_cons, hserno, hdevtype]
    rfl
  rw [stepRow_enumerated hty hstype, hcells, setCells, List.foldlM_cons]
  change _ = setCells { e with serial := some d } (fieldCellsFrom rest 2)
  rw [← fileFields_eq rest le_rfl, fileEntry, hserno, hdevtype]
  have henum : w1Enumdevs { e with serial := some d } = .ok { e with serial := some d } := by
    unfold w1Enumdevs
    simp only [hty]
    rw [← hstype]
  change (w1Enumdevs { e with serial := some d } >>= fileFields rest 2) = _
  rw [henum]
  rfl

/-- A line comes to its entry as a row does. -/
theorem fileLine_deliver {d : CString} (hserno : fieldOf serno = some d)
    (hdevs : ∀ e ∈ devs, e.Enumerated) (hr : fieldsDelivery (serno :: devtype :: rest) = some r) :
    fileLine (serno :: devtype :: rest) devs = deliver r devs := by
  obtain rfl := Option.some.inj hr
  have htypes : ∀ e ∈ devs, e.devtype.isSome := by
    intro e he
    obtain ⟨ty, hty, -⟩ := hdevs e he
    rw [hty]
    rfl
  rw [fileLine, deliver]
  cases hidx : w1GetDeviceIndex (fieldOf serno) (fieldOf devtype) devs with
  | error err => rfl
  | ok nn =>
    cases nn with
    | none =>
      have hzero : (devs ++ [Entry.zero]).getD devs.length .zero = .zero := by simp
      have hfresh : fileEntry serno devtype rest .zero =
          stepRow (if fieldOf devtype = none then [] else fieldCells (serno :: devtype :: rest))
            .zero := by
        cases hdevtype : fieldOf devtype with
        | none =>
          rw [fileEntry, hserno, hdevtype]
          rfl
        | some ty => exact fileEntry_eq hserno hdevtype (Or.inl rfl)
      change (fileEntry serno devtype rest
        ((devs ++ [Entry.zero]).getD ((devs ++ [Entry.zero]).length - 1) .zero)
          >>= fun e => pure ((devs ++ [Entry.zero]).set ((devs ++ [Entry.zero]).length - 1) e)) =
        (stepRow (if fieldOf devtype = none then [] else fieldCells (serno :: devtype :: rest))
          .zero >>=
          fun e => pure (devs ++ [e]))
      rw [List.length_append, List.length_singleton, Nat.add_sub_cancel, hzero, hfresh]
      simp
    | some i =>
      have hi := getDeviceIndex_lt hidx
      have hmem : devs.getD i .zero ∈ devs := by
        rw [List.getD_eq_getElem _ _ hi]
        exact List.getElem_mem hi
      have hjoined : fileEntry serno devtype rest (devs.getD i .zero) =
          stepRow (fieldCells (serno :: devtype :: rest)) (devs.getD i .zero) := by
        cases hdevtype : fieldOf devtype with
        | none => exact fileEntry_untyped hserno hdevtype (hdevs _ hmem)
        | some ty =>
          have htype := getDeviceIndex_type htypes hidx
          rw [hdevtype] at htype
          exact fileEntry_eq hserno hdevtype (Or.inr (htype.resolve_left (Option.some_ne_none ty)))
      change (fileEntry serno devtype rest (devs.getD i .zero) >>= fun e => pure (devs.set i e)) =
        (stepRow (fieldCells (serno :: devtype :: rest)) (devs.getD i .zero) >>= fun e =>
          pure (devs.set i e))
      rw [hjoined]

/-- A line that begins with a letter or a digit has a device. -/
theorem strsep_head {line : CString} (h : line.head?.any isalnum) :
    ∃ serno fields d, strsep ['|', ':'] (line.takeWhile (· ≠ '\n')) = serno :: fields ∧
      fieldOf serno = some d := by
  cases line with
  | nil => simp at h
  | cons c line =>
    have hc : isalnum c = true := by simpa using h
    have hline : c ≠ '\n' := by
      rintro rfl
      revert hc
      decide
    have hsep : (['|', ':'].contains c) = false := by
      by_contra hmem
      simp only [List.contains_cons, List.contains_nil, Bool.or_false, Bool.not_eq_false,
        Bool.or_eq_true,
        beq_iff_eq] at hmem
      rcases hmem with rfl | rfl
      · revert hc
        decide
      · revert hc
        decide
    obtain ⟨field, fields, hrest⟩ := List.exists_cons_of_ne_nil
      (List.splitOnP_ne_nil (['|', ':'].contains ·) (line.takeWhile (· ≠ '\n')))
    refine ⟨c :: field, fields, c :: field, ?_, rfl⟩
    rw [List.takeWhile_cons_of_pos (by simpa using hline), strsep,
      List.splitOnP_cons_eq_if_modifyHead, hsep, hrest]
    rfl

theorem filePiece_deliver {line : CString} (hdevs : ∀ e ∈ devs, e.Enumerated) :
    filePiece devs line =
      match lineDelivery line with
      | some r => deliver r devs
      | none => pure devs := by
  rw [filePiece, lineDelivery]
  split
  · rename_i hhead
    obtain ⟨serno, fields, d, hfields, hserno⟩ := strsep_head hhead
    rw [hfields]
    cases fields with
    | nil => rfl
    | cons devtype rest => exact fileLine_deliver hserno hdevs rfl
  · rfl

/-- Every loader delivers the rows of its table. -/
theorem Table.load_eq (t : Table) : t.load = deliverAll t.deliveries := by
  cases t with
  | sqlite names rows => exact foldlM_plain (fun devs row => deliver_plain devs) rows
  | mysql names rows => exact foldlM_plain (fun devs row => deliver_plain devs) rows
  | pgsql names rows => exact foldlM_plain (fun devs row => deliver_plain devs) rows
  | odbc names rows => exact foldlM_plain (fun devs row => deliver_plain devs) rows
  | mongo fixed docs =>
    change docs.foldlM _ [] = (docs.map _).foldlM _ []
    rw [List.foldlM_map]
    congr 1
    funext devs doc
    rw [mongoDocument, Document.delivery]
    cases doc.getString deviceCol with
    | none => rfl
    | some device => exact (deliver_plain devs).symm
  | file text =>
    change (fgets 255 text []).foldlM filePiece [] = (List.map _ _).foldlM _ []
    rw [List.foldlM_map, List.foldlM_filterMap]
    apply foldlM_congr (P := fun devs => ∀ e ∈ devs, e.Enumerated)
    · simp
    · intro line _ devs hdevs
      rw [filePiece_deliver hdevs]
      cases lineDelivery line <;> rfl
    · intro line _ devs devs' hdevs h
      cases hline : lineDelivery line with
      | none =>
        rw [hline] at h
        obtain rfl := Except.ok.inj h
        exact hdevs
      | some r =>
        rw [hline] at h
        exact deliver_enumerates h hdevs

end

end W1Retap

import W1Retap.Support.Programs

/-!
# Rows gathered by a key

`gather` goes through rows one by one. Each changes the first entry with its key, or a
new entry behind the others. The result has one entry for each key, in order of first
appearance, made from the rows with this key alone and in their order.
-/
namespace W1Retap.Grouping

open Programs

variable {ε κ ρ β : Type} [DecidableEq κ]

/-! ## Keys in order of first appearance -/

theorem eraseDups_concat (ks : List κ) (k : κ) :
    (ks ++ [k]).eraseDups = if k ∈ ks then ks.eraseDups else ks.eraseDups ++ [k] := by
  rw [List.eraseDups_append]
  by_cases hk : k ∈ ks
  · simp [List.removeAll, hk]
  · simp [List.removeAll, hk, List.eraseDups_cons]

theorem nodup_eraseDups (ks : List κ) : ks.eraseDups.Nodup := by
  induction ks using List.reverseRecOn with
  | nil => exact List.nodup_nil
  | append_singleton ks k ih =>
    rw [eraseDups_concat]
    by_cases hk : k ∈ ks
    · rw [if_pos hk]
      exact ih
    · rw [if_neg hk, List.nodup_append]
      refine ⟨ih, List.nodup_singleton k, fun a ha b hb => ?_⟩
      rintro rfl
      exact hk (List.mem_eraseDups.mp (List.mem_singleton.mp hb ▸ ha))

/-! ## Find or append -/

section
variable (keyOf : β → κ) (key : ρ → κ) (step : β → ρ → Except ε β) (zero : β)

def place (r : ρ) : List β → Except ε (List β)
  | [] => do return [← step zero r]
  | b :: bs => do
    if keyOf b = key r then
      return (← step b r) :: bs
    else
      return b :: (← place r bs)

def gather (rows : List ρ) : Except ε (List β) :=
  rows.foldlM (fun bs r => place keyOf key step zero r bs) []

/-- What the rows with key `k` make. -/
def group (rows : List ρ) (k : κ) : Except ε β :=
  (rows.filter fun r => key r = k).foldlM step zero

/-- A step on a row, from a new entry or one with its key, leaves its key. -/
def Keyed (r : ρ) : Prop :=
  ∀ b b', b = zero ∨ keyOf b = key r → step b r = .ok b' → keyOf b' = key r

end

variable {keyOf : β → κ} {key : ρ → κ} {step : β → ρ → Except ε β} {zero : β} {r : ρ}

/-- The group of the new row takes it in, the others stay. -/
theorem group_concat (rows : List ρ) (r : ρ) (k : κ) :
    group key step zero (rows ++ [r]) k =
      if key r = k then group key step zero rows k >>= (step · r) else group key step zero rows k := by
  unfold group
  by_cases hk : key r = k
  · rw [if_pos hk, List.filter_append, List.filter_cons_of_pos (by simpa using hk),
      List.foldlM_append]
    simp
  · rw [if_neg hk, List.filter_append, List.filter_cons_of_neg (by simpa using hk)]
    simp

theorem group_keyOf {rows : List ρ} {k : κ} {b : β} (hkey : ∀ r ∈ rows, Keyed keyOf key step zero r)
    (hk : k ∈ rows.map key) (h : group key step zero rows k = .ok b) : keyOf b = k := by
  induction rows using List.reverseRecOn generalizing b with
  | nil => simp at hk
  | append_singleton rows r ih =>
    have hrows : ∀ r ∈ rows, Keyed keyOf key step zero r := fun r hr => hkey r (by simp [hr])
    rw [group_concat] at h
    by_cases hr : key r = k
    · rw [if_pos hr] at h
      obtain ⟨b₁, h₁, h⟩ := bind_ok.mp h
      rw [← hr]
      refine hkey r (by simp) b₁ b ?_ h
      by_cases hmem : k ∈ rows.map key
      · exact Or.inr ((ih hrows hmem h₁).trans hr.symm)
      · have hnone : rows.filter (fun r => key r = k) = [] :=
          List.filter_eq_nil_iff.mpr fun r' hr' hk' =>
            hmem (List.mem_map.mpr ⟨r', hr', by simpa using hk'⟩)
        rw [group, hnone] at h₁
        exact Or.inl (Except.ok.inj h₁).symm
    · rw [if_neg hr] at h
      refine ih hrows ?_ h
      rw [List.map_append, List.mem_append] at hk
      exact hk.resolve_right fun hlast => hr (List.mem_singleton.mp hlast).symm

/-- A row whose key is not there makes a new entry. -/
theorem place_notMem {bs : List β} (h : ∀ b ∈ bs, keyOf b ≠ key r) :
    place keyOf key step zero r bs = (step zero r).map fun b => bs ++ [b] := by
  induction bs with
  | nil => cases hz : step zero r <;> simp [place, hz, bind, Except.bind, Except.map, pure, Except.pure]
  | cons b bs ih =>
    rw [place, if_neg (h b List.mem_cons_self), ih fun b hb => h b (List.mem_cons_of_mem _ hb)]
    cases step zero r <;> rfl

/-- A row whose key is there changes the first entry with it and no other. -/
theorem place_append {bs bs' : List β} {b : β} (h : ∀ b ∈ bs, keyOf b ≠ key r)
    (hb : keyOf b = key r) :
    place keyOf key step zero r (bs ++ b :: bs') = (step b r).map fun b => bs ++ b :: bs' := by
  induction bs with
  | nil =>
    rw [List.nil_append, place, if_pos hb]
    cases step b r <;> rfl
  | cons c bs ih =>
    rw [List.cons_append, place, if_neg (h c List.mem_cons_self),
      ih fun b hb => h b (List.mem_cons_of_mem _ hb)]
    cases step b r <;> rfl

/-- What holds of the entries and of every changed one holds after a row. -/
theorem place_forall {Q : β → Prop} {bs bs' : List β}
    (h : place keyOf key step zero r bs = .ok bs') (hQ : ∀ b ∈ bs, Q b)
    (hstep : ∀ b b', b = zero ∨ keyOf b = key r → step b r = .ok b' → Q b') : ∀ b ∈ bs', Q b := by
  induction bs generalizing bs' with
  | nil =>
    obtain ⟨b, hb, h⟩ := bind_ok.mp h
    obtain rfl := Except.ok.inj h
    simpa using hstep zero b (Or.inl rfl) hb
  | cons c bs ih =>
    obtain ⟨hc, hbs⟩ := List.forall_mem_cons.mp hQ
    rw [place] at h
    by_cases hk : keyOf c = key r
    · rw [if_pos hk] at h
      obtain ⟨b, hb, h⟩ := bind_ok.mp h
      obtain rfl := Except.ok.inj h
      exact List.forall_mem_cons.mpr ⟨hstep c b (Or.inr hk) hb, hbs⟩
    · rw [if_neg hk] at h
      obtain ⟨bs₁, hbs₁, h⟩ := bind_ok.mp h
      obtain rfl := Except.ok.inj h
      exact List.forall_mem_cons.mpr ⟨hc, ih hbs₁ hbs⟩

/-- The entries of other groups than the new row's are what they were. -/
theorem mapM_group_concat (rows : List ρ) {ks : List κ} (h : key r ∉ ks) :
    ks.mapM (group key step zero (rows ++ [r])) = ks.mapM (group key step zero rows) := by
  apply mapM_congr
  intro k hk
  rw [group_concat, if_neg]
  rintro rfl
  exact h hk

theorem mapM_group_keyOf {rows : List ρ} (hkey : ∀ r ∈ rows, Keyed keyOf key step zero r)
    {ks : List κ} (hks : ∀ k ∈ ks, k ∈ rows.map key) {bs : List β}
    (h : ks.mapM (group key step zero rows) = .ok bs) : bs.map keyOf = ks := by
  have hgroups := mapM_forall₂ h
  clear h
  induction hgroups with
  | nil => rfl
  | cons hb _ ih =>
    rw [List.map_cons, group_keyOf hkey (hks _ List.mem_cons_self) hb,
      ih fun k hk => hks k (List.mem_cons_of_mem _ hk)]

/-- Gathering makes the groups, in order of first appearance. -/
theorem gather_ok {rows : List ρ} (hkey : ∀ r ∈ rows, Keyed keyOf key step zero r)
    {bs : List β} : gather keyOf key step zero rows = .ok bs ↔
      (rows.map key).eraseDups.mapM (group key step zero rows) = .ok bs := by
  induction rows using List.reverseRecOn generalizing bs with
  | nil => exact Iff.rfl
  | append_singleton rows r ih =>
    have hrows : ∀ r ∈ rows, Keyed keyOf key step zero r := fun r hr => hkey r (by simp [hr])
    have hkeys : ∀ k ∈ (rows.map key).eraseDups, k ∈ rows.map key :=
      fun k hk => List.mem_eraseDups.mp hk
    rw [gather, List.foldlM_append, bind_ok, List.map_append, List.map_singleton, eraseDups_concat]
    simp only [← gather.eq_1, ih hrows, List.foldlM_cons, List.foldlM_nil, bind_pure]
    by_cases hk : key r ∈ rows.map key
    · -- the new row belongs to one of the groups
      rw [if_pos hk]
      obtain ⟨ks, ks', hsplit⟩ := List.append_of_mem (List.mem_eraseDups.mpr hk)
      have hnodup := nodup_eraseDups (rows.map key)
      rw [hsplit] at hnodup hkeys ⊢
      have hleft : key r ∉ ks := fun h => (List.nodup_append.mp hnodup).2.2 _ h _ List.mem_cons_self rfl
      have hright : key r ∉ ks' := (List.nodup_cons.mp (List.nodup_append.mp hnodup).2.1).1
      have hplace : ∀ l b l', ks.mapM (group key step zero rows) = .ok l →
          group key step zero rows (key r) = .ok b →
          place keyOf key step zero r (l ++ b :: l') = (step b r).map fun b => l ++ b :: l' := by
        intro l b l' hl hb
        have hkeysl : l.map keyOf = ks :=
          mapM_group_keyOf hrows (fun k hk => hkeys k (List.mem_append_left _ hk)) hl
        refine place_append (fun c hc hck => hleft ?_) (group_keyOf hrows hk hb)
        rw [← hkeysl, ← hck]
        exact List.mem_map_of_mem hc
      simp only [mapM_split_ok, mapM_group_concat rows hleft, mapM_group_concat rows hright]
      rw [group_concat, if_pos rfl]
      constructor
      · rintro ⟨_, ⟨l, b, l', hl, hb, hl', rfl⟩, h⟩
        rw [hplace l b l' hl hb] at h
        obtain ⟨b', hb', rfl⟩ := map_ok.mp h
        exact ⟨l, b', l', hl, bind_ok.mpr ⟨b, hb, hb'⟩, hl', rfl⟩
      · rintro ⟨l, b', l', hl, hb', hl', rfl⟩
        obtain ⟨b, hb, hb'⟩ := bind_ok.mp hb'
        refine ⟨_, ⟨l, b, l', hl, hb, hl', rfl⟩, ?_⟩
        rw [hplace l b l' hl hb, hb']
        rfl
    · -- the new row begins a group of its own
      rw [if_neg hk]
      have hnew : key r ∉ (rows.map key).eraseDups := fun h => hk (List.mem_eraseDups.mp h)
      have hnone : group key step zero rows (key r) = .ok zero := by
        have hempty : rows.filter (fun r' => key r' = key r) = [] :=
          List.filter_eq_nil_iff.mpr fun r' hr' hk' =>
            hk (List.mem_map.mpr ⟨r', hr', by simpa using hk'⟩)
        rw [group, hempty]
        rfl
      have hplace : ∀ l, (rows.map key).eraseDups.mapM (group key step zero rows) = .ok l →
          place keyOf key step zero r l = (step zero r).map fun b => l ++ [b] := by
        intro l hl
        refine place_notMem fun c hc hck => hnew ?_
        rw [← mapM_group_keyOf hrows hkeys hl, ← hck]
        exact List.mem_map_of_mem hc
      simp only [mapM_split_ok, mapM_group_concat rows hnew, List.mapM_nil]
      rw [group_concat, if_pos rfl, hnone]
      constructor
      · rintro ⟨l, hl, h⟩
        rw [hplace l hl] at h
        obtain ⟨b, hb, rfl⟩ := map_ok.mp h
        exact ⟨l, b, [], hl, hb, rfl, rfl⟩
      · rintro ⟨l, b, l', hl, hb, hl', rfl⟩
        obtain rfl := Except.ok.inj hl'
        refine ⟨l, hl, ?_⟩
        have hb' : step zero r = .ok b := hb
        rw [hplace l hl, hb']
        rfl

/-- Rows in another order, in which the rows with one key stay in theirs, make the same entries. -/
theorem gather_reorder {rows rows' : List ρ} (hkey : ∀ r ∈ rows, Keyed keyOf key step zero r)
    (hperm : rows.Perm rows')
    (hfilter : ∀ k, rows.filter (fun r => key r = k) = rows'.filter (fun r => key r = k))
    {bs : List β} (h : gather keyOf key step zero rows = .ok bs) :
    ∃ bs', gather keyOf key step zero rows' = .ok bs' ∧ bs.Perm bs' := by
  have hkey' : ∀ r ∈ rows', Keyed keyOf key step zero r := fun r hr => hkey r (hperm.mem_iff.mpr hr)
  have hkeys : (rows.map key).eraseDups.Perm (rows'.map key).eraseDups := by
    rw [List.perm_ext_iff_of_nodup (nodup_eraseDups _) (nodup_eraseDups _)]
    intro k
    rw [List.mem_eraseDups, List.mem_eraseDups, (hperm.map key).mem_iff]
  have hgroup : group key step zero rows = group key step zero rows' := by
    funext k
    rw [group, group, hfilter]
  obtain ⟨bs', hbs', hp⟩ := mapM_perm hkeys ((gather_ok hkey).mp h)
  rw [hgroup] at hbs'
  exact ⟨bs', (gather_ok hkey').mpr hbs', hp⟩

end W1Retap.Grouping

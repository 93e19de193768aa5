import Mathlib

/-!
# Programs that change a state and may stop

A program is a state transformer over `Except`: it ends with a value and a new
state, or it stops the process. `Does R m` says that every run of `m` that ends
is a chain of `R`-steps, so an invariant that one step preserves is preserved by
the program. `Ends P m Q` is the usual partial-correctness triple.
Both are closed under the program constructors, so a judgment about a program
is derived by following its text.
-/
namespace W1Retap.Programs

variable {ε σ α β : Type}

abbrev Program (ε σ α : Type) := StateT σ (Except ε) α

/-! ## Runs that end -/

theorem run_pure_ok {a b : α} {s s' : σ} :
    (pure a : Program ε σ α).run s = .ok (b, s') ↔ b = a ∧ s' = s := by
  change Except.ok (a, s) = Except.ok (b, s') ↔ _
  simp [eq_comm]

theorem run_bind_ok {m : Program ε σ α} {f : α → Program ε σ β} {s s' : σ} {b : β} :
    (m >>= f).run s = .ok (b, s') ↔
      ∃ a s₁, m.run s = .ok (a, s₁) ∧ (f a).run s₁ = .ok (b, s') := by
  rw [StateT.run_bind]
  cases h : m.run s with
  | error e => simp [bind, Except.bind]
  | ok r =>
    obtain ⟨a, s₁⟩ := r
    simp [bind, Except.bind]

theorem run_bind_of_ok {m : Program ε σ α} {f : α → Program ε σ β} {s s₁ : σ} {a : α}
    (h : m.run s = .ok (a, s₁)) : (m >>= f).run s = (f a).run s₁ := by
  rw [StateT.run_bind, h]
  rfl

theorem run_get_ok {s t s' : σ} :
    (get : Program ε σ σ).run s = .ok (t, s') ↔ t = s ∧ s' = s := by
  change Except.ok (s, s) = Except.ok (t, s') ↔ _
  simp [eq_comm]

theorem run_modify_ok {f : σ → σ} {s s' : σ} {u : PUnit} :
    (modify f : Program ε σ PUnit).run s = .ok (u, s') ↔ s' = f s := by
  change Except.ok (PUnit.unit, f s) = Except.ok (u, s') ↔ _
  simp [eq_comm]

theorem run_throw_ok {e : ε} {s s' : σ} {a : α} :
    ¬ (throw e : Program ε σ α).run s = .ok (a, s') := by
  change ¬ Except.error e = Except.ok (a, s')
  simp

theorem run_lift_ok {x : Except ε α} {s s' : σ} {a : α} :
    (StateT.lift x : Program ε σ α).run s = .ok (a, s') ↔ x = .ok a ∧ s' = s := by
  cases x with
  | error e => simp [StateT.run, StateT.lift, bind, Except.bind]
  | ok b => simp [StateT.run, StateT.lift, bind, Except.bind, pure, Except.pure, eq_comm]

theorem run_forM_cons_ok {f : α → Program ε σ PUnit} {x : α} {xs : List α} {u : PUnit} {s s' : σ} :
    ((x :: xs).forM f).run s = .ok (u, s') ↔
      ∃ v s₁, (f x).run s = .ok (v, s₁) ∧ (xs.forM f).run s₁ = .ok (u, s') :=
  run_bind_ok (m := f x)

theorem run_forM_append_ok {f : α → Program ε σ PUnit} {xs ys : List α} {u : PUnit} {s s' : σ} :
    ((xs ++ ys).forM f).run s = .ok (u, s') ↔
      ∃ v s₁, (xs.forM f).run s = .ok (v, s₁) ∧ (ys.forM f).run s₁ = .ok (u, s') := by
  induction xs generalizing s with
  | nil =>
    constructor
    · exact fun h => ⟨_, s, rfl, h⟩
    · rintro ⟨_, s₁, h₁, h⟩
      obtain ⟨-, rfl⟩ := run_pure_ok.mp h₁
      exact h
  | cons x xs ih =>
    rw [List.cons_append, run_forM_cons_ok]
    constructor
    · rintro ⟨v, s₁, hx, h⟩
      obtain ⟨w, s₂, hxs, hys⟩ := ih.mp h
      exact ⟨w, s₂, run_forM_cons_ok.mpr ⟨v, s₁, hx, hxs⟩, hys⟩
    · rintro ⟨w, s₂, h, hys⟩
      obtain ⟨v, s₁, hx, hxs⟩ := run_forM_cons_ok.mp h
      exact ⟨v, s₁, hx, ih.mpr ⟨w, s₂, hxs, hys⟩⟩

/-- A loop ends when each round ends and keeps what the rounds need. -/
theorem forM_total {f : α → Program ε σ PUnit} {P : σ → Prop} {xs : List α}
    (h : ∀ x ∈ xs, ∀ s, P s → ∃ s', (f x).run s = .ok (⟨⟩, s') ∧ P s') {s : σ} (hs : P s) :
    ∃ s', (xs.forM f).run s = .ok (⟨⟩, s') ∧ P s' := by
  induction xs generalizing s with
  | nil => exact ⟨s, rfl, hs⟩
  | cons x xs ih =>
    obtain ⟨s₁, h₁, hs₁⟩ := h x (by simp) s hs
    obtain ⟨s', h', hs'⟩ := ih (fun y hy => h y (by simp [hy])) hs₁
    exact ⟨s', run_forM_cons_ok.mpr ⟨_, s₁, h₁, h'⟩, hs'⟩

theorem pure_ok {a b : α} : (pure a : Except ε α) = .ok b ↔ b = a := by
  rw [eq_comm]
  exact Except.ok.injEq b a ▸ Iff.rfl

theorem bind_ok {x : Except ε α} {f : α → Except ε β} {b : β} :
    (x >>= f) = .ok b ↔ ∃ a, x = .ok a ∧ f a = .ok b := by
  cases x with
  | error e => simp [bind, Except.bind]
  | ok a => simp [bind, Except.bind]

theorem map_ok {x : Except ε α} {f : α → β} {b : β} : x.map f = .ok b ↔ ∃ a, x = .ok a ∧ f a = b := by
  cases x with
  | error e => simp [Except.map]
  | ok a => simp [Except.map]

theorem map_error {x : Except ε α} {f : α → β} {e : ε} : x.map f = .error e ↔ x = .error e := by
  cases x with
  | error e => simp [Except.map]
  | ok a => simp [Except.map]

theorem mapM_ok {f : α → Except ε β} {g : α → β} {l : List α} (h : ∀ x ∈ l, f x = .ok (g x)) :
    l.mapM f = .ok (l.map g) := by
  induction l with
  | nil => rfl
  | cons x l ih =>
    rw [List.mapM_cons, h x (by simp), ih fun y hy => h y (by simp [hy])]
    rfl

/-- A pass over a list whose steps each have one way to work. -/
theorem mapM_ok_iff {f : α → Except ε β} {P : α → Prop} {g : α → β} {l : List α} {bs : List β}
    (h : ∀ x b, f x = .ok b ↔ P x ∧ b = g x) :
    l.mapM f = .ok bs ↔ (∀ x ∈ l, P x) ∧ bs = l.map g := by
  induction l generalizing bs with
  | nil => simp [pure_ok]
  | cons x l ih =>
    rw [List.mapM_cons, bind_ok]
    simp only [bind_ok, pure_ok, h, ih, List.forall_mem_cons, List.map_cons]
    constructor
    · rintro ⟨_, ⟨hx, rfl⟩, _, ⟨hl, rfl⟩, rfl⟩
      exact ⟨⟨hx, hl⟩, rfl⟩
    · rintro ⟨⟨hx, hl⟩, rfl⟩
      exact ⟨_, ⟨hx, rfl⟩, _, ⟨hl, rfl⟩, rfl⟩

theorem mapM_congr {f g : α → Except ε β} {l : List α} (h : ∀ x ∈ l, f x = g x) :
    l.mapM f = l.mapM g := by
  induction l with
  | nil => rfl
  | cons x l ih => rw [List.mapM_cons, List.mapM_cons, h x (by simp), ih fun y hy => h y (by simp [hy])]

theorem mapM_split_ok {f : α → Except ε β} {xs xs' : List α} {x : α} {bs : List β} :
    (xs ++ x :: xs').mapM f = .ok bs ↔ ∃ l b l', xs.mapM f = .ok l ∧ f x = .ok b ∧
      xs'.mapM f = .ok l' ∧ bs = l ++ b :: l' := by
  rw [List.mapM_append, List.mapM_cons]
  constructor
  · intro h
    obtain ⟨l, hl, h⟩ := bind_ok.mp h
    obtain ⟨m, hm, h⟩ := bind_ok.mp h
    obtain ⟨b, hb, hm⟩ := bind_ok.mp hm
    obtain ⟨l', hl', hm⟩ := bind_ok.mp hm
    obtain rfl := Except.ok.inj hm
    exact ⟨l, b, l', hl, hb, hl', (Except.ok.inj h).symm⟩
  · rintro ⟨l, b, l', hl, hb, hl', rfl⟩
    rw [hl, hb, hl']
    rfl

/-- A pass over a list with another element at one place. -/
theorem mapM_set {f : α → Except ε β} {l : List α} {bs : List β} (h : l.mapM f = .ok bs) {i : ℕ}
    (hi : i < l.length) (x : α) : (l.set i x).mapM f = (f x).map (bs.set i) := by
  induction l generalizing bs i with
  | nil => simp at hi
  | cons y l ih =>
    rw [List.mapM_cons] at h
    obtain ⟨b, hy, h⟩ := bind_ok.mp h
    obtain ⟨cs, hl, h⟩ := bind_ok.mp h
    obtain rfl := Except.ok.inj h
    cases i with
    | zero =>
      rw [List.set_cons_zero, List.mapM_cons, hl]
      cases f x <;> rfl
    | succ i =>
      rw [List.set_cons_succ, List.mapM_cons, hy, ih hl (by simpa using hi)]
      cases f x <;> rfl

/-- The elements of a list in another order. -/
theorem mapM_perm {f : α → Except ε β} {l l' : List α} (hperm : l.Perm l') {bs : List β}
    (h : l.mapM f = .ok bs) : ∃ bs', l'.mapM f = .ok bs' ∧ bs.Perm bs' := by
  induction hperm generalizing bs with
  | nil => exact ⟨bs, h, .refl bs⟩
  | cons x _ ih =>
    rw [List.mapM_cons] at h ⊢
    obtain ⟨b, hb, h⟩ := bind_ok.mp h
    obtain ⟨cs, hcs, h⟩ := bind_ok.mp h
    obtain rfl := Except.ok.inj h
    obtain ⟨cs', hcs', hperm⟩ := ih hcs
    exact ⟨b :: cs', bind_ok.mpr ⟨b, hb, bind_ok.mpr ⟨cs', hcs', rfl⟩⟩, hperm.cons b⟩
  | swap x y l =>
    rw [List.mapM_cons, List.mapM_cons] at h ⊢
    obtain ⟨b, hb, h⟩ := bind_ok.mp h
    obtain ⟨_, hl, h⟩ := bind_ok.mp h
    obtain rfl := Except.ok.inj h
    obtain ⟨c, hc, h⟩ := bind_ok.mp hl
    obtain ⟨cs, hcs, h⟩ := bind_ok.mp h
    obtain rfl := Except.ok.inj h
    exact ⟨c :: b :: cs, bind_ok.mpr ⟨c, hc, bind_ok.mpr ⟨b :: cs,
      bind_ok.mpr ⟨b, hb, bind_ok.mpr ⟨cs, hcs, rfl⟩⟩, rfl⟩⟩, .swap c b cs⟩
  | trans _ _ ih₁ ih₂ =>
    obtain ⟨bs₁, h₁, hperm₁⟩ := ih₁ h
    obtain ⟨bs₂, h₂, hperm₂⟩ := ih₂ h₁
    exact ⟨bs₂, h₂, hperm₁.trans hperm₂⟩

theorem mapM_forall₂ {f : α → Except ε β} {l : List α} {l' : List β} (h : l.mapM f = .ok l') :
    List.Forall₂ (fun x y => f x = .ok y) l l' := by
  induction l generalizing l' with
  | nil =>
    obtain rfl := Except.ok.inj h
    exact .nil
  | cons x l ih =>
    rw [List.mapM_cons] at h
    obtain ⟨y, hx, h⟩ := bind_ok.mp h
    obtain ⟨ys, hl, h⟩ := bind_ok.mp h
    obtain rfl := Except.ok.inj h
    exact .cons hx (ih hl)

/-- Two passes over a list, element by element. -/
theorem forall₂_trans {γ : Type} {R : α → β → Prop} {S : β → γ → Prop} {T : α → γ → Prop}
    {l : List α} {l' : List β} {l'' : List γ} (h : List.Forall₂ R l l') (h' : List.Forall₂ S l' l'')
    (hT : ∀ a b c, a ∈ l → R a b → S b c → T a c) : List.Forall₂ T l l'' := by
  induction h generalizing l'' with
  | nil =>
    cases h'
    exact .nil
  | cons hab _ ih =>
    cases h' with
    | cons hbc h' =>
      exact .cons (hT _ _ _ (by simp) hab hbc) (ih h' fun a b c ha => hT a b c (by simp [ha]))

theorem forall₂_right {R : α → β → Prop} {l : List α} {l' : List β} (h : List.Forall₂ R l l')
    {n : ℕ} {b : β} (hb : l'[n]? = some b) : ∃ a, l[n]? = some a ∧ R a b := by
  induction h generalizing n with
  | nil => simp at hb
  | cons hab _ ih =>
    cases n with
    | zero =>
      obtain rfl := Option.some.inj hb
      exact ⟨_, rfl, hab⟩
    | succ n => exact ih hb

theorem forall₂_left {R : α → β → Prop} {l : List α} {l' : List β} (h : List.Forall₂ R l l')
    {n : ℕ} {a : α} (ha : l[n]? = some a) : ∃ b, l'[n]? = some b ∧ R a b :=
  forall₂_right h.flip ha

theorem forall₂_eq_iff {γ : Type} {f : α → γ} {g : β → γ} {l : List α} {l' : List β} :
    List.Forall₂ (fun a b => f a = g b) l l' ↔ l.map f = l'.map g := by
  rw [← List.forall₂_eq_eq_eq, List.forall₂_map_left_iff, List.forall₂_map_right_iff]

/-- What every step of a fold preserves, the fold preserves. -/
theorem foldlM_keeps {f : β → α → Except ε β} {l : List α} {b b' : β} {P : β → Prop}
    (h : l.foldlM f b = .ok b') (hb : P b)
    (hf : ∀ x ∈ l, ∀ b b', f b x = .ok b' → P b → P b') : P b' := by
  induction l generalizing b with
  | nil =>
    obtain rfl := Except.ok.inj h
    exact hb
  | cons x l ih =>
    rw [List.foldlM_cons] at h
    obtain ⟨b₁, hx, h⟩ := bind_ok.mp h
    exact ih h (hf x (by simp) b b₁ hx hb) fun y hy => hf y (by simp [hy])

/-- Folds agree whose steps agree where an invariant holds. -/
theorem foldlM_congr {f g : β → α → Except ε β} {l : List α} {b : β} {P : β → Prop} (hb : P b)
    (hfg : ∀ x ∈ l, ∀ b, P b → f b x = g b x)
    (hP : ∀ x ∈ l, ∀ b b', P b → g b x = .ok b' → P b') : l.foldlM f b = l.foldlM g b := by
  induction l generalizing b with
  | nil => rfl
  | cons x l ih =>
    rw [List.foldlM_cons, List.foldlM_cons, hfg x (by simp) b hb]
    cases hx : g b x with
    | error e => rfl
    | ok b' =>
      exact ih (hP x (by simp) b b' hb hx) (fun y hy => hfg y (by simp [hy]))
        fun y hy => hP y (by simp [hy])

/-- A loop stops at the first element at which its body stops. -/
theorem foldlM_error {f : β → α → Except ε β} {l : List α} {b : β} {e : ε} :
    l.foldlM f b = .error e ↔
      ∃ pre a post b', l = pre ++ a :: post ∧ pre.foldlM f b = .ok b' ∧ f b' a = .error e := by
  induction l generalizing b with
  | nil => simp [Pure.pure, Except.pure]
  | cons x l ih =>
    rw [List.foldlM_cons]
    cases hx : f b x with
    | error err =>
      constructor
      · exact fun h => ⟨[], x, l, b, rfl, rfl, hx.trans h⟩
      · rintro ⟨pre, a, post, b', hl, hpre, ha⟩
        cases pre with
        | nil =>
          obtain ⟨rfl, rfl⟩ := List.cons.inj hl
          obtain rfl := Except.ok.inj hpre
          exact hx.symm.trans ha
        | cons y pre =>
          obtain ⟨rfl, rfl⟩ := List.cons.inj hl
          rw [List.foldlM_cons, hx] at hpre
          exact nomatch hpre
    | ok b₁ =>
      refine Iff.trans ih ?_
      constructor
      · rintro ⟨pre, a, post, b', rfl, hpre, ha⟩
        refine ⟨x :: pre, a, post, b', rfl, ?_, ha⟩
        rw [List.foldlM_cons, hx]
        exact hpre
      · rintro ⟨pre, a, post, b', hl, hpre, ha⟩
        cases pre with
        | nil =>
          obtain ⟨rfl, rfl⟩ := List.cons.inj hl
          obtain rfl := Except.ok.inj hpre
          exact nomatch hx.symm.trans ha
        | cons y pre =>
          obtain ⟨rfl, rfl⟩ := List.cons.inj hl
          rw [List.foldlM_cons, hx] at hpre
          exact ⟨pre, a, post, b', rfl, hpre, ha⟩

/-- Related lists and related steps have related results. -/
theorem mapM_related {R : α → α → Prop} {S : β → β → Prop} {f : α → Except ε β} {l l' : List α}
    (hl : List.Forall₂ R l l')
    (hf : ∀ a a' b, R a a' → f a = .ok b → ∃ b', f a' = .ok b' ∧ S b b') {bs : List β}
    (h : l.mapM f = .ok bs) : ∃ bs', l'.mapM f = .ok bs' ∧ List.Forall₂ S bs bs' := by
  induction hl generalizing bs with
  | nil =>
    obtain rfl := Except.ok.inj h
    exact ⟨[], rfl, .nil⟩
  | cons hR _ ih =>
    rw [List.mapM_cons] at h ⊢
    obtain ⟨b, hb, h⟩ := bind_ok.mp h
    obtain ⟨cs, hcs, h⟩ := bind_ok.mp h
    obtain rfl := Except.ok.inj h
    obtain ⟨b', hb', hS⟩ := hf _ _ _ hR hb
    obtain ⟨cs', hcs', hSs⟩ := ih hcs
    exact ⟨b' :: cs', bind_ok.mpr ⟨b', hb', bind_ok.mpr ⟨cs', hcs', rfl⟩⟩, .cons hS hSs⟩

theorem foldlM_related {R : β → β → Prop} {f : β → α → Except ε β} {l : List α}
    (hf : ∀ x b b' c, R b b' → f b x = .ok c → ∃ c', f b' x = .ok c' ∧ R c c') {b b' c : β}
    (hb : R b b') (h : l.foldlM f b = .ok c) : ∃ c', l.foldlM f b' = .ok c' ∧ R c c' := by
  induction l generalizing b b' with
  | nil =>
    obtain rfl := Except.ok.inj h
    exact ⟨b', rfl, hb⟩
  | cons x l ih =>
    rw [List.foldlM_cons] at h ⊢
    obtain ⟨b₁, hx, h⟩ := bind_ok.mp h
    obtain ⟨b₁', hx', hR⟩ := hf x b b' b₁ hb hx
    obtain ⟨c', hc', hcc⟩ := ih hR h
    exact ⟨c', bind_ok.mpr ⟨b₁', hx', hc'⟩, hcc⟩

/-- A run whose end can be computed, with what can be computed about its end. -/
theorem exists_result_ok {m : Program ε σ α} {s : σ} {p : α × σ → Prop} [DecidablePred p]
    (h : ((m.run s).toOption.any fun r => p r) = true) :
    ∃ a s', m.run s = .ok (a, s') ∧ p (a, s') := by
  cases hm : m.run s with
  | error e => simp [hm, Except.toOption] at h
  | ok r => exact ⟨r.1, r.2, rfl, by simpa [hm, Except.toOption] using h⟩

theorem exists_run_ok {m : Program ε σ α} {s : σ} {p : σ → Prop} [DecidablePred p]
    (h : ((m.run s).toOption.any fun r => p r.2) = true) :
    ∃ a s', m.run s = .ok (a, s') ∧ p s' :=
  exists_result_ok (p := fun r => p r.2) h

theorem exists_two_runs_ok {m : Program ε σ α} {k : Program ε σ β} {s : σ} {p : σ → σ → Prop}
    [∀ s₁, DecidablePred (p s₁)]
    (h : ((m.run s).toOption.any fun r => (k.run r.2).toOption.any fun r' => p r.2 r'.2) = true) :
    ∃ a s₁, m.run s = .ok (a, s₁) ∧ ∃ b s', k.run s₁ = .ok (b, s') ∧ p s₁ s' := by
  obtain ⟨a, s₁, h₁, hk⟩ := exists_run_ok
    (p := fun s₁ => ((k.run s₁).toOption.any fun r => p s₁ r.2) = true) (by simpa using h)
  exact ⟨a, s₁, h₁, exists_run_ok hk⟩

/-! ## Chains of steps -/

/-- Every run of `m` that ends is a chain of `R`-steps. -/
def Does (R : σ → σ → Prop) (m : Program ε σ α) : Prop :=
  ∀ s a s', m.run s = .ok (a, s') → Relation.ReflTransGen R s s'

namespace Does

variable {R : σ → σ → Prop}

theorem pure (a : α) : Does R (Pure.pure a : Program ε σ α) := by
  intro s b s' h
  obtain ⟨-, rfl⟩ := run_pure_ok.mp h
  exact .refl

theorem bind {m : Program ε σ α} {f : α → Program ε σ β} (hm : Does R m)
    (hf : ∀ a, Does R (f a)) : Does R (m >>= f) := by
  intro s b s' h
  obtain ⟨a, s₁, h₁, h₂⟩ := run_bind_ok.mp h
  exact (hm s a s₁ h₁).trans (hf a s₁ b s' h₂)

theorem get : Does R (get : Program ε σ σ) := by
  intro s t s' h
  obtain ⟨-, rfl⟩ := run_get_ok.mp h
  exact .refl

theorem throw (e : ε) : Does R (throw e : Program ε σ α) :=
  fun _ _ _ h => absurd h run_throw_ok

theorem lift (x : Except ε α) : Does R (StateT.lift x : Program ε σ α) := by
  intro s a s' h
  obtain ⟨-, rfl⟩ := run_lift_ok.mp h
  exact .refl

theorem modify {f : σ → σ} (h : ∀ s, R s (f s)) : Does R (modify f : Program ε σ PUnit) := by
  intro s u s' hs
  obtain rfl := run_modify_ok.mp hs
  exact .single (h s)

theorem ite {c : Prop} [Decidable c] {m m' : Program ε σ α} (hm : c → Does R m)
    (hm' : ¬ c → Does R m') : Does R (if c then m else m') := by
  split
  · exact hm ‹_›
  · exact hm' ‹_›

theorem forM {f : α → Program ε σ PUnit} {xs : List α} (h : ∀ a ∈ xs, Does R (f a)) :
    Does R (xs.forM f) := by
  induction xs with
  | nil => exact Does.pure _
  | cons x xs ih =>
    exact Does.bind (h x (by simp)) fun _ => ih fun a ha => h a (by simp [ha])

theorem foldlM {f : β → α → Program ε σ β} {xs : List α} (h : ∀ b a, Does R (f b a)) (b : β) :
    Does R (xs.foldlM f b) := by
  induction xs generalizing b with
  | nil => exact Does.pure b
  | cons x xs ih =>
    rw [List.foldlM_cons]
    exact Does.bind (h b x) ih

theorem mono {R' : σ → σ → Prop} {m : Program ε σ α} (hm : Does R m)
    (h : ∀ s s', R s s' → R' s s') : Does R' m :=
  fun s a s' hs => Relation.ReflTransGen.mono h s s' (hm s a s' hs)

/-- What one step preserves, a program made of such steps preserves. -/
theorem keeps {P : σ → Prop} {m : Program ε σ α} (hm : Does R m)
    (hP : ∀ s s', R s s' → P s → P s') {s s' : σ} {a : α}
    (h : m.run s = .ok (a, s')) (hs : P s) : P s' := by
  have hc := hm s a s' h
  clear h
  induction hc with
  | refl => exact hs
  | tail _ hstep ih => exact hP _ _ hstep ih

end Does

/-! ## Partial correctness -/

/-- If `m` starts in a state satisfying `P` and ends, its value and final
state satisfy `Q`. -/
def Ends (P : σ → Prop) (m : Program ε σ α) (Q : α → σ → Prop) : Prop :=
  ∀ s a s', P s → m.run s = .ok (a, s') → Q a s'

namespace Ends

variable {P : σ → Prop}

theorem pure {Q : α → σ → Prop} {a : α} (h : ∀ s, P s → Q a s) :
    Ends P (Pure.pure a : Program ε σ α) Q := by
  intro s b s' hs hr
  obtain ⟨rfl, rfl⟩ := run_pure_ok.mp hr
  exact h _ hs

theorem bind {m : Program ε σ α} {f : α → Program ε σ β} {Q : α → σ → Prop}
    {S : β → σ → Prop} (hm : Ends P m Q) (hf : ∀ a, Ends (Q a) (f a) S) :
    Ends P (m >>= f) S := by
  intro s b s' hs hr
  obtain ⟨a, s₁, h₁, h₂⟩ := run_bind_ok.mp hr
  exact hf a s₁ b s' (hm s a s₁ hs h₁) h₂

theorem ite {c : Prop} [Decidable c] {m m' : Program ε σ α} {Q : α → σ → Prop}
    (hm : c → Ends P m Q) (hm' : ¬ c → Ends P m' Q) : Ends P (if c then m else m') Q := by
  split
  · exact hm ‹_›
  · exact hm' ‹_›

theorem lift {x : Except ε α} : Ends P (StateT.lift x) fun _ => P := by
  intro s a s' hs h
  obtain ⟨-, rfl⟩ := run_lift_ok.mp h
  exact hs

theorem of_does {R : σ → σ → Prop} {m : Program ε σ α} (hm : Does R m)
    (h : ∀ s s', R s s' → P s → P s') : Ends P m fun _ => P :=
  fun _ _ _ hs hr => hm.keeps h hr hs

/-- A fact that holds of no state in particular. -/
theorem given {φ : Prop} {m : Program ε σ α} {Q : α → σ → Prop} (h : φ → Ends P m Q) :
    Ends (fun s => P s ∧ φ) m Q :=
  fun s a s' hs hr => h hs.2 s a s' hs.1 hr

theorem conseq {P' : σ → Prop} {m : Program ε σ α} {Q Q' : α → σ → Prop}
    (hm : Ends P m Q) (hP : ∀ s, P' s → P s) (hQ : ∀ a s, Q a s → Q' a s) : Ends P' m Q' :=
  fun s a s' hs hr => hQ a s' (hm s a s' (hP s hs) hr)

/-- A loop over a list keeps an invariant that may depend on what is still to be done. -/
theorem forM {I : List α → σ → Prop} {f : α → Program ε σ PUnit}
    (h : ∀ x xs, Ends (I (x :: xs)) (f x) fun _ => I xs) :
    ∀ xs, Ends (I xs) (xs.forM f) fun _ => I []
  | [] => Ends.pure fun _ hs => hs
  | x :: xs => Ends.bind (h x xs) fun _ => Ends.forM h xs

end Ends
end W1Retap.Programs

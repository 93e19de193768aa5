import W1Retap.Support.Programs

/-!
# Programs that refine a partial function

`Refines m s r Q` compares the run of `m` from `s` with an abstract result `r`: the run
ends exactly when `r` has a value `b`, and then its value and final state are related
to `b` by `Q`. The rules follow the constructors, so that a program is compared with
a computation in `Option` piece by piece.
-/
namespace W1Retap.Programs

variable {ε σ α β γ δ : Type}

def Refines (m : Program ε σ α) (s : σ) (r : Option β) (Q : β → α → σ → Prop) : Prop :=
  match r with
  | some b => ∃ a s', m.run s = .ok (a, s') ∧ Q b a s'
  | none => ∀ a s', ¬ m.run s = .ok (a, s')

namespace Refines

variable {m : Program ε σ α} {s s' : σ} {r : Option β} {Q : β → α → σ → Prop}

theorem pure {a : α} {b : β} (h : Q b a s) :
    Refines (Pure.pure a : Program ε σ α) s (some b) Q := ⟨a, s, rfl, h⟩

theorem throw {e : ε} : Refines (throw e : Program ε σ α) s none Q :=
  fun _ _ h => run_throw_ok h

/-- A run that ends has an abstract value. -/
theorem of_ok {a : α} (h : Refines m s r Q) (hm : m.run s = .ok (a, s')) :
    ∃ b, r = some b ∧ Q b a s' := by
  cases r with
  | none => exact absurd hm (h a s')
  | some b =>
    obtain ⟨a', s₁, h₁, hQ⟩ := h
    obtain ⟨rfl, rfl⟩ := Prod.mk.inj (Except.ok.inj (hm.symm.trans h₁))
    exact ⟨b, rfl, hQ⟩

theorem of_run {a : α} (hm : m.run s = .ok (a, s')) {b : β} (hQ : Q b a s') :
    Refines m s (some b) Q := ⟨a, s', hm, hQ⟩

theorem mono {Q' : β → α → σ → Prop} (h : Refines m s r Q)
    (hQ : ∀ b a s', Q b a s' → Q' b a s') : Refines m s r Q' := by
  cases r with
  | none => exact h
  | some b =>
    obtain ⟨a, s₁, h₁, hb⟩ := h
    exact ⟨a, s₁, h₁, hQ b a s₁ hb⟩

theorem bind {f : α → Program ε σ γ} {g : β → Option δ} {S : δ → γ → σ → Prop}
    (hm : Refines m s r Q) (hf : ∀ b a s', Q b a s' → Refines (f a) s' (g b) S) :
    Refines (m >>= f) s (r >>= g) S := by
  cases r with
  | none =>
    intro c s' h
    obtain ⟨a, s₁, h₁, -⟩ := run_bind_ok.mp h
    exact hm a s₁ h₁
  | some b =>
    obtain ⟨a, s₁, h₁, hQ⟩ := hm
    change Refines (m >>= f) s (g b) S
    have hb := hf b a s₁ hQ
    unfold Refines at hb ⊢
    rwa [run_bind_of_ok h₁]

/-- A program that always ends after `m` adds nothing to the abstract result. -/
theorem andThen {f : α → Program ε σ γ} {S : β → γ → σ → Prop} (hm : Refines m s r Q)
    (hf : ∀ b a s', Q b a s' → ∃ c s'', (f a).run s' = .ok (c, s'') ∧ S b c s'') :
    Refines (m >>= f) s r S := by
  have h : Refines (m >>= f) s (r >>= some) S :=
    hm.bind fun b a s' hQ => hf b a s' hQ
  rwa [show (r >>= some) = r from bind_pure r] at h

/-- A run is followed past a step that has no abstract counterpart. -/
theorem congr_run {m' : Program ε σ α} (h : m.run s = m'.run s') (hm : Refines m' s' r Q) :
    Refines m s r Q := by
  unfold Refines at hm ⊢
  rwa [h]

theorem lift {x : Except ε α} {y : Except ε β} {g : β → α} (hx : x = y.map g) :
    Refines (StateT.lift x) s y.toOption fun b a s' => y = .ok b ∧ a = g b ∧ s' = s := by
  subst hx
  cases y with
  | error e => exact fun a s' h => by simpa [Except.map] using (run_lift_ok.mp h).1
  | ok b => exact ⟨g b, s, run_lift_ok.mpr ⟨rfl, rfl⟩, rfl, rfl, rfl⟩

/-- A fold over one list is compared with a fold over a related list. -/
theorem foldlM {f : α → γ → Program ε σ α} {g : β → δ → Option β} {P : γ → δ → Prop}
    {R : β → α → σ → Prop} {xs : List γ} {ys : List δ} (hxy : List.Forall₂ P xs ys)
    (h : ∀ x y, P x y → ∀ b a s, R b a s → Refines (f a x) s (g b y) R)
    {a : α} {b : β} (hs : R b a s) : Refines (xs.foldlM f a) s (ys.foldlM g b) R := by
  induction hxy generalizing a b s with
  | nil => exact Refines.pure hs
  | cons hP _ ih =>
    rw [List.foldlM_cons, List.foldlM_cons]
    exact (h _ _ hP b a s hs).bind fun b a s' hs' => ih hs'

theorem forM {f : γ → Program ε σ PUnit} {g : β → γ → Option β} {R : β → σ → Prop} {xs : List γ}
    (h : ∀ x b s, R b s → Refines (f x) s (g b x) fun b' _ s' => R b' s') {b : β} (hs : R b s) :
    Refines (xs.forM f) s (xs.foldlM g b) fun b' _ s' => R b' s' := by
  induction xs generalizing b s with
  | nil => exact Refines.pure hs
  | cons x xs ih =>
    rw [List.foldlM_cons]
    exact Refines.bind (m := f x) (h x b s hs) fun b' _ s' hs' => ih hs'

end Refines
end W1Retap.Programs

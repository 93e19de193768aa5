import Mathlib

/-!
# Tables of a fixed size

A table has room for `cap` entries, and each entry must fit. A step that appends to it
without looking fails for want of room and for no other reason; so does a sequence of
such steps.
-/
namespace W1Retap.Buffers

variable {ε α β : Type} {cap : ℕ} {fits : β → Prop} {xs ys zs : List β}

/-- There is room behind `xs` for `new`. -/
def Room (cap : ℕ) (fits : β → Prop) (xs new : List β) : Prop :=
  (new ≠ [] → xs.length + new.length ≤ cap) ∧ ∀ y ∈ new, fits y

theorem Room.nil : Room cap fits xs [] := by simp [Room]

theorem room_singleton {y : β} : Room cap fits xs [y] ↔ xs.length < cap ∧ fits y := by
  simp [Room]

theorem room_append :
    Room cap fits xs (ys ++ zs) ↔ Room cap fits xs ys ∧ Room cap fits (xs ++ ys) zs := by
  unfold Room
  simp only [List.length_append, List.mem_append, ne_eq, List.append_eq_nil_iff]
  constructor
  · rintro ⟨hcap, hfits⟩
    refine ⟨⟨fun hys => ?_, fun y hy => hfits y (Or.inl hy)⟩,
      fun hzs => ?_, fun z hz => hfits z (Or.inr hz)⟩
    · have := hcap fun h => hys h.1
      omega
    · have := hcap fun h => hzs h.2
      omega
  · rintro ⟨⟨hys, hfits⟩, hzs, hfits'⟩
    refine ⟨fun h => ?_, fun y hy => hy.elim (hfits y) (hfits' y)⟩
    by_cases hz : zs = []
    · have hlen := hys fun hy => h ⟨hy, hz⟩
      simpa [hz] using hlen
    · have := hzs hz
      omega

/-- `m` appends `new` to `xs`, if there is room. -/
def Appends (cap : ℕ) (fits : β → Prop) (m : Except ε (List β)) (xs new : List β) : Prop :=
  ∀ zs, m = .ok zs ↔ zs = xs ++ new ∧ Room cap fits xs new

theorem appends_pure : Appends cap fits (.ok xs : Except ε (List β)) xs [] := by
  intro zs
  simp [Room.nil, eq_comm]

theorem Appends.bind {m : Except ε (List β)} {f : List β → Except ε (List β)}
    (hm : Appends cap fits m xs ys) (hf : Appends cap fits (f (xs ++ ys)) (xs ++ ys) zs) :
    Appends cap fits (m >>= f) xs (ys ++ zs) := by
  intro l
  rw [room_append, ← List.append_assoc]
  constructor
  · intro h
    cases m with
    | error e => simp [Bind.bind, Except.bind] at h
    | ok l₁ =>
      obtain ⟨rfl, hys⟩ := (hm l₁).mp rfl
      obtain ⟨rfl, hzs⟩ := (hf l).mp h
      exact ⟨rfl, hys, hzs⟩
  · rintro ⟨rfl, hys, hzs⟩
    rw [(hm _).mpr ⟨rfl, hys⟩]
    exact (hf _).mpr ⟨rfl, hzs⟩

/-- A loop of steps that append appends what they do, one after the other. -/
theorem foldlM_appends {f : List β → α → Except ε (List β)} {g : α → List β} (l : List α)
    (h : ∀ x ∈ l, ∀ xs, Appends cap fits (f xs x) xs (g x)) (xs : List β) :
    Appends cap fits (l.foldlM f xs) xs (l.flatMap g) := by
  induction l generalizing xs with
  | nil => exact appends_pure
  | cons x l ih =>
    rw [List.foldlM_cons, List.flatMap_cons]
    exact (h x List.mem_cons_self xs).bind (ih (fun y hy => h y (List.mem_cons_of_mem _ hy)) _)

end W1Retap.Buffers

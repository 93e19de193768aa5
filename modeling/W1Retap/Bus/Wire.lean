import W1Retap.Model.Machine

/-!
# Conversations on the bus

The device drivers of the 1-wire library talk to a device through a few calls. A `Wire`
answers each of them from everything that has happened on the bus before, so a result for
all wires holds for every sequence of answers. A driver runs on the list of what has
happened, latest exchange first.
-/
namespace W1Retap.Bus

open Programs

/-- A call on the bus and its answer. `none` is a block that was not exchanged. -/
inductive Exchange where
  | reset (present : Bool)
  | select (serno : Serno)
  | access (ok : Bool)
  | touch (sent answer : UInt8)
  | block (sent : List UInt8) (answer : Option (List UInt8))
  | delay (ms : ℕ)
  deriving DecidableEq, Repr

/-- The access or the transfer has worked. -/
def Exchange.ok : Exchange → Bool
  | .access ok => ok
  | .block _ answer => answer.isSome
  | _ => true

structure Wire where
  owTouchReset : List Exchange → Bool
  owAccess : List Exchange → Bool
  owTouchByte : List Exchange → UInt8 → UInt8
  owBlock {k : ℕ} : List Exchange → Vector UInt8 k → Option (Vector UInt8 k)

/-- A driver; it stops only where it is still in a loop after the rounds it was given. -/
abbrev Talk := Program Stop (List Exchange)

section
variable (wire : Wire)

/-- A call with an answer. -/
def ask {α : Type} (answer : List Exchange → α) (e : α → Exchange) : Talk α := do
  let h ← get
  set (e (answer h) :: h)
  return answer h

def owTouchReset : Talk Bool := ask wire.owTouchReset .reset

def owSerialNum (serno : Serno) : Talk Unit := ask (fun _ => ()) fun _ => .select serno

def owAccess : Talk Bool := ask wire.owAccess .access

def owTouchByte (sent : UInt8) : Talk UInt8 := ask (wire.owTouchByte · sent) (.touch sent)

def owBlock {k : ℕ} (sent : Vector UInt8 k) : Talk (Option (Vector UInt8 k)) :=
  ask (wire.owBlock · sent) fun answer => .block sent.toList (answer.map (·.toList))

def msDelay (ms : ℕ) : Talk Unit := ask (fun _ => ()) fun _ => .delay ms

end

/-! ## Their runs -/

section
variable {α β : Type} {h : List Exchange}

theorem run_ask (answer : List Exchange → α) (e : α → Exchange) :
    (ask answer e).run h = .ok (answer h, e (answer h) :: h) := rfl

theorem run_ask_bind (answer : List Exchange → α) (e : α → Exchange) (k : α → Talk β) :
    (ask answer e >>= k).run h = (k (answer h)).run (e (answer h) :: h) := rfl

end

/-! ## What a driver adds -/

/-- Every run adds exchanges of this kind to what has happened. -/
def Adds {α : Type} (m : Talk α) (Q : α → List Exchange → Prop) : Prop :=
  ∀ h a h', m.run h = .ok (a, h') → ∃ new, h' = new ++ h ∧ Q a new

namespace Adds

variable {α β : Type} {m : Talk α} {Q : α → List Exchange → Prop}

theorem pure {a : α} (h : Q a []) : Adds (Pure.pure a) Q := by
  intro h₀ b h' hr
  obtain ⟨rfl, rfl⟩ := run_pure_ok.mp hr
  exact ⟨[], rfl, h⟩

theorem ask {answer : List Exchange → α} {e : α → Exchange} (h : ∀ a, Q a [e a]) :
    Adds (Bus.ask answer e) Q := by
  intro h₀ a h' hr
  rw [run_ask] at hr
  obtain ⟨rfl, rfl⟩ := Prod.mk.inj (Except.ok.inj hr)
  exact ⟨[e (answer h₀)], rfl, h _⟩

theorem throw {e : Stop} : Adds (MonadExcept.throw e : Talk α) Q :=
  fun _ _ _ hr => absurd hr run_throw_ok

theorem conseq {Q' : α → List Exchange → Prop} (hm : Adds m Q) (h : ∀ a new, Q a new → Q' a new) :
    Adds m Q' := by
  intro h₀ a h' hr
  obtain ⟨new, heq, hQ⟩ := hm h₀ a h' hr
  exact ⟨new, heq, h a new hQ⟩

/-- What the second part adds stands before what the first part has added. -/
theorem bind {f : α → Talk β} {S : β → List Exchange → Prop} (hm : Adds m Q)
    (hf : ∀ a new, Q a new → Adds (f a) fun b rest => S b (rest ++ new)) : Adds (m >>= f) S := by
  intro h₀ b h' hr
  obtain ⟨a, h₁, h₁', h₂⟩ := run_bind_ok.mp hr
  obtain ⟨new, rfl, hQ⟩ := hm h₀ a h₁ h₁'
  obtain ⟨rest, rfl, hS⟩ := hf a new hQ _ b h' h₂
  exact ⟨rest ++ new, (List.append_assoc ..).symm, hS⟩

theorem ite {c : Prop} [Decidable c] {m' : Talk α} (hm : c → Adds m Q) (hm' : ¬ c → Adds m' Q) :
    Adds (if c then m else m') Q := by
  by_cases hc : c
  · rw [if_pos hc]
    exact hm hc
  · rw [if_neg hc]
    exact hm' hc

end Adds
end W1Retap.Bus

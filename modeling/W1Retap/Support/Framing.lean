import Mathlib.Data.List.Basic
import Mathlib.Tactic.Common

/-!
# Data and commands on one line

A receiver takes symbols as data or as commands. One symbol, `esc`, changes from data to commands,
and stands for itself where it comes twice; another, `ent`, changes back. What is framed for the
receiver is what it takes in, whatever the data are.
-/
namespace W1Retap.Framing

inductive Op (α : Type) where
  | data (a : α)
  | command (a : α)
  deriving DecidableEq, Repr

inductive Mode where
  | data
  | command
  deriving DecidableEq, Repr

/-- The mode, or that an `esc` among the data waits for the next symbol. -/
inductive Receiver where
  | on (mode : Mode)
  | held
  deriving DecidableEq, Repr

variable {α : Type} [DecidableEq α] (esc ent : α)

def receiveCommand (a : α) : Receiver × List (Op α) :=
  if a = ent then (.on .data, []) else if a =
    esc then (.on .command, []) else (.on .command, [.command a])

def receive : Receiver → α → Receiver × List (Op α)
  | .on .data, a => if a = esc then (.held, []) else (.on .data, [.data a])
  | .on .command, a => receiveCommand esc ent a
  | .held, a => if a = esc then (.on .data, [.data a]) else receiveCommand esc ent a

def receiveAll : Receiver → List α → Receiver × List (Op α)
  | r, [] => (r, [])
  | r, a :: as =>
    let now := receive esc ent r a
    let rest := receiveAll now.1 as
    (rest.1, now.2 ++ rest.2)

/-- The symbol that changes the mode, unless it is the wanted one. -/
def change (mode wanted : Mode) : List α :=
  if mode = wanted then []
  else
    match wanted with
    | .data => [ent]
    | .command => [esc]

/-- A datum, twice if it is `esc`. -/
def stuff (a : α) : List α := if a = esc then [a, a] else [a]

def Op.mode : Op α → Mode
  | .data _ => .data
  | .command _ => .command

/-- The symbols of an operation in its mode. -/
def Op.symbols : Op α → List α
  | .data a => stuff esc a
  | .command a => [a]

/-- What is sent for some operations. -/
def frame : Mode → List (Op α) → List α
  | _, [] => []
  | mode, op :: ops => change esc ent mode op.mode ++ op.symbols esc ++ frame op.mode ops

/-- The mode that is left. -/
def lastMode : Mode → List (Op α) → Mode
  | mode, [] => mode
  | _, op :: ops => lastMode op.mode ops

/-- A command that changes no mode. -/
def Op.Plain : Op α → Prop
  | .data _ => True
  | .command a => a ≠ esc ∧ a ≠ ent

section
variable {esc ent} {r : Receiver} {mode wanted : Mode} {op : Op α} {ops : List (Op α)}

theorem receiveAll_append (as bs : List α) :
    receiveAll esc ent r (as ++ bs) =
      ((receiveAll esc ent (receiveAll esc ent r as).1 bs).1,
        (receiveAll esc ent r as).2 ++ (receiveAll esc ent (receiveAll esc ent r as).1 bs).2) := by
  induction as generalizing r with
  | nil => rfl
  | cons a as ih =>
    rw [List.cons_append, receiveAll, receiveAll, ih, List.append_assoc]

theorem length_receiveAll (as : List α) : (receiveAll esc ent r as).2.length ≤ as.length := by
  induction as generalizing r with
  | nil => exact Nat.le_refl 0
  | cons a as ih =>
    have hone : (receive esc ent r a).2.length ≤ 1 := by
      unfold receive receiveCommand
      split <;> repeat' split
      all_goals simp
    have hrest := ih (r := (receive esc ent r a).1)
    rw [receiveAll, List.length_append, List.length_cons]
    omega

theorem receiveAll_change (esc ent : α) (mode wanted : Mode) :
    receiveAll esc ent (.on mode) (change esc ent mode wanted) = (.on wanted, []) ∨
      mode = .data ∧ wanted = .command ∧
        receiveAll esc ent (.on mode) (change esc ent mode wanted) = (.held, []) := by
  cases mode with
  | data =>
    cases wanted with
    | data => exact Or.inl rfl
    | command => exact Or.inr ⟨rfl, rfl, by simp [change, receiveAll, receive]⟩
  | command =>
    cases wanted with
    | data => exact Or.inl (by simp [change, receiveAll, receive, receiveCommand])
    | command => exact Or.inl rfl

/-- A mode change with the operation behind it. -/
theorem receiveAll_op (hop : op.Plain esc ent) :
    receiveAll esc ent (.on mode) (change esc ent mode op.mode ++ op.symbols esc) =
      (.on op.mode, [op]) := by
  cases op with
  | data a =>
    have hstuff : receiveAll esc ent (.on .data) (stuff esc a) = (.on .data, [.data a]) := by
      by_cases ha : a = esc
      · simp [stuff, ha, receiveAll, receive]
      · simp [stuff, ha, receiveAll, receive]
    rcases receiveAll_change esc ent mode .data with h | ⟨-, hwanted, -⟩
    · rw [receiveAll_append, Op.mode, h, Op.symbols, hstuff]
      rfl
    · cases hwanted
  | command a =>
    obtain ⟨hesc, hent⟩ := hop
    cases mode with
    | data => simp [Op.mode, Op.symbols, change, receiveAll, receive, receiveCommand, hesc, hent]
    | command => simp [Op.mode, Op.symbols, change, receiveAll, receive, receiveCommand, hesc, hent]

/-- What is framed is what is taken in. -/
theorem receiveAll_frame (hops : ∀ op ∈ ops, op.Plain esc ent) :
    receiveAll esc ent (.on mode) (frame esc ent mode ops) = (.on (lastMode mode ops), ops) := by
  induction ops generalizing mode with
  | nil => rfl
  | cons op ops ih =>
    rw [frame, receiveAll_append, receiveAll_op (hops op List.mem_cons_self), ih fun o ho =>
      hops o (List.mem_cons_of_mem op ho)]
    rfl

/-- Operations of one mode behind the change to it. -/
theorem frame_mode (h : ∀ op ∈ ops, op.mode = wanted) (hne : ops ≠ []) :
    frame esc ent mode ops = change esc ent mode wanted ++ ops.flatMap (Op.symbols esc) ∧
      lastMode mode ops = wanted := by
  induction ops generalizing mode with
  | nil => exact absurd rfl hne
  | cons op ops ih =>
    have hop := h op List.mem_cons_self
    cases ops with
    | nil => simp [frame, lastMode, hop]
    | cons op' ops =>
      obtain ⟨hframe, hlast⟩ := ih
        (fun o ho => h o (List.mem_cons_of_mem op ho)) (List.cons_ne_nil op' ops)
      have hsame : change esc ent op.mode wanted = [] := by simp [change, hop]
      refine ⟨?_, hlast⟩
      rw [frame, hframe, hsame, List.nil_append, hop, List.append_assoc]
      rfl

theorem receiveAll_mode (hmode : ∀ op ∈ ops, op.mode = wanted)
    (hplain : ∀ op ∈ ops, op.Plain esc ent) (hnil : ops ≠ []) :
    receiveAll esc ent (.on mode) (change esc ent mode wanted ++ ops.flatMap (Op.symbols esc)) =
      (.on wanted, ops) := by
  have hframe : receiveAll esc ent (.on mode) (frame esc ent mode ops) =
    (.on (lastMode mode ops), ops) :=
    receiveAll_frame hplain
  have hsame : frame esc ent mode ops =
      change esc ent mode wanted ++ ops.flatMap (Op.symbols esc) ∧ lastMode mode ops = wanted :=
    frame_mode hmode hnil
  rw [hsame.1, hsame.2] at hframe
  exact hframe

/-- Commands behind the change to them. -/
theorem receiveAll_commands {as : List α} (has : ∀ a ∈ as, a ≠ esc ∧ a ≠ ent)
    (hnil : as ≠ []) :
    receiveAll esc ent (.on mode) (change esc ent mode .command ++ as) =
      (.on .command, as.map .command) := by
  have hsymbols : (as.map Op.command).flatMap (Op.symbols esc) = as := by
    rw [List.flatMap_map]
    exact List.flatMap_singleton' as
  have h : receiveAll esc ent (.on mode)
      (change esc ent mode .command ++ (as.map Op.command).flatMap (Op.symbols esc)) =
        (.on .command, as.map .command) := by
    refine receiveAll_mode ?_ ?_ (by simpa using hnil)
    · simp [Op.mode]
    · simpa [Op.Plain] using has
  rwa [hsymbols] at h

/-- Data behind the change to them. -/
theorem receiveAll_data (as : List α) :
    receiveAll esc ent (.on mode) (change esc ent mode .data ++ as.flatMap (stuff esc)) =
      (.on .data, as.map .data) := by
  by_cases hnil : as = []
  · subst hnil
    cases mode with
    | data => rfl
    | command =>
      change receiveAll esc ent (.on .command) [ent] = _
      rw [receiveAll, receive, receiveCommand, if_pos rfl]
      rfl
  · have h : receiveAll esc ent (.on mode)
        (change esc ent mode .data ++ (as.map Op.data).flatMap (Op.symbols esc)) =
          (.on .data, as.map .data) := by
      refine receiveAll_mode ?_ ?_ (by simpa using hnil)
      · simp [Op.mode]
      · simp [Op.Plain]
    rwa [List.flatMap_map] at h

end
end W1Retap.Framing

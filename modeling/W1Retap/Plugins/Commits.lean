import W1Retap.Plugins.Pgsql
import W1Retap.Support.Transactions

/-!
# The transaction of a pass

`w1_logger` of the PostgreSQL plugin sends all rows of a pass in one transaction block, and
does no more about an error than to log it. One row that the server rejects takes the
others with it.
-/
namespace W1Retap.Pgsql

open Transactions

/-- What the server is told, when it would reject the `n`-th insert if `rejects n`. -/
def commands (rejects : ℕ → Bool) : ℕ → List Op → List (Cmd Op)
  | _, [] => []
  | n, .exec _ sql :: ops =>
    (if sql = "begin" then [.begin] else if sql = "commit" then [.commit] else []) ++
      commands rejects n ops
  | n, .insertInto db table date value :: ops =>
    .insert (.insertInto db table date value) (rejects n) :: commands rejects (n + 1) ops
  | n, .execPrepared db name values :: ops =>
    .insert (.execPrepared db name values) (rejects n) :: commands rejects (n + 1) ops
  | n, _ :: ops => commands rejects n ops

def Op.isInsert : Op → Bool
  | .insertInto .. => true
  | .execPrepared .. => true
  | _ => false

/-- Library calls that are no commands. -/
def Op.quiet : Op → Bool
  | .exec .. => false
  | op => !op.isInsert

/-- The inserts among the library calls, each with the answer of the server. -/
def offered (rejects : ℕ → Bool) (ops : List Op) : List (Op × Bool) :=
  (ops.filter Op.isInsert).mapIdx fun n op => (op, rejects n)

variable (rejects : ℕ → Bool) (s : Statics) (w1 : DevList) (dbnam : CString) (a : Answers)

theorem commands_quiet {ops : List Op} (h : ∀ op ∈ ops, op.quiet = true) (n : ℕ) (rest : List Op) :
    commands rejects n (ops ++ rest) = commands rejects n rest := by
  induction ops with
  | nil => rfl
  | cons op ops ih =>
    have hop := h op List.mem_cons_self
    have hrest := ih fun o ho => h o (List.mem_cons_of_mem op ho)
    cases op with
    | exec db sql => cases hop
    | insertInto db table date value => cases hop
    | execPrepared db name values => cases hop
    | connectdb params a => exact hrest
    | reset db => exact hrest
    | finish db => exact hrest
    | syslog db => exact hrest
    | prepare db name sql ok => exact hrest

theorem commands_inserts {ops : List Op} (h : ∀ op ∈ ops, op.isInsert = true) (n : ℕ)
    (rest : List Op) :
    commands rejects n (ops ++ rest) =
      Transactions.inserts (ops.mapIdx fun i op => (op, rejects (n + i))) ++
        commands rejects (n + ops.length) rest := by
  induction ops generalizing n with
  | nil => simp [Transactions.inserts]
  | cons op ops ih =>
    have hop := h op List.mem_cons_self
    have hrest := ih (fun o ho => h o (List.mem_cons_of_mem op ho)) (n + 1)
    have hcons : commands rejects n (op :: ops ++ rest) =
        .insert op (rejects n) :: commands rejects (n + 1) (ops ++ rest) := by
      cases op <;> first | rfl | cases hop
    rw [hcons, hrest, List.mapIdx_cons]
    simp only [Transactions.inserts, List.map_cons, List.cons_append, List.length_cons,
      Nat.add_zero, Nat.add_assoc, Nat.add_comm 1]

theorem dbStatus_quiet : ∀ op ∈ (dbStatus s dbnam a).2, op.quiet = true := by
  intro op hop
  rcases dbStatus_ops hop with ⟨params, a, rfl⟩ | ⟨db, rfl⟩ | ⟨db, rfl⟩ <;> rfl

theorem prepareStmt_quiet (db : Conn) (ok : Bool) :
    ∀ op ∈ (prepareStmt s db ok).2, op.quiet = true := by
  unfold prepareStmt
  split_ifs <;> simp [Op.quiet, Op.isInsert]

theorem isInsert_inserts (db : Conn) : ∀ op ∈ inserts s db w1, op.isInsert = true := by
  unfold inserts
  split_ifs
  · simp [Op.isInsert]
  · simp
  · intro op hop
    obtain ⟨e, -, rfl⟩ := List.mem_map.mp hop
    unfold insertOp
    split <;> rfl

theorem filter_quiet {ops : List Op} (h : ∀ op ∈ ops, op.quiet = true) :
    ops.filter Op.isInsert = [] := by
  rw [List.filter_eq_nil_iff]
  intro op hop hins
  have hq := h op hop
  cases op <;> simp_all [Op.quiet, Op.isInsert]

/-- What `w1_logger` tells the server: nothing, or one block with its inserts. -/
theorem commands_logger (locked : Bool) :
    (commands rejects 0 (w1Logger s w1 dbnam locked a).2 = [] ∧
      offered rejects (w1Logger s w1 dbnam locked a).2 = []) ∨
    commands rejects 0 (w1Logger s w1 dbnam locked a).2 =
      [.begin] ++ Transactions.inserts (offered rejects (w1Logger s w1 dbnam locked a).2) ++
        [.commit] := by
  unfold w1Logger
  by_cases hl : locked = true
  · rw [if_pos hl]
    exact Or.inl ⟨rfl, rfl⟩
  · rw [if_neg hl]
    have hstatus := dbStatus_quiet s dbnam a
    simp only
    cases hd : (dbStatus s dbnam a).1.db with
    | none =>
      have hcmds := commands_quiet rejects hstatus 0 []
      rw [List.append_nil] at hcmds
      refine Or.inl ⟨hcmds, ?_⟩
      simp [offered, filter_quiet hstatus]
    | some db =>
      have hprep := prepareStmt_quiet (dbStatus s dbnam a).1 db a.prepares
      set r := prepareStmt (dbStatus s dbnam a).1 db a.prepares
      have hins := isInsert_inserts r.1 w1 db
      have hoff : offered rejects ((dbStatus s dbnam a).2 ++ r.2 ++ [.exec db "begin"] ++
          inserts r.1 db w1 ++ [.exec db "commit"]) =
          (inserts r.1 db w1).mapIdx fun n op => (op, rejects n) := by
        have hkeep : (inserts r.1 db w1).filter Op.isInsert = inserts r.1 db w1 :=
          List.filter_eq_self.mpr hins
        simp [offered, filter_quiet hstatus, filter_quiet hprep, hkeep, Op.isInsert]
      have hcmds := commands_inserts rejects hins 0 [.exec db "commit"]
      simp only [Nat.zero_add] at hcmds
      right
      rw [hoff]
      change commands rejects 0 ((dbStatus s dbnam a).2 ++ r.2 ++ [.exec db "begin"] ++
        inserts r.1 db w1 ++ [.exec db "commit"]) = _
      rw [List.append_assoc, List.append_assoc, List.append_assoc, commands_quiet rejects hstatus,
        commands_quiet rejects hprep, List.singleton_append, commands, hcmds]
      rfl

/-- The rows of a pass that the server accepts are committed exactly when it rejects none of the
rows, or all. -/
theorem readings_committed_iff (locked : Bool) (table : List Op) :
    let ops := (w1Logger s w1 dbnam locked a).2
    ((Server.mk table .idle).run (commands rejects 0 ops)).table =
        table ++ Transactions.accepted (offered rejects ops) ↔
      (∀ r ∈ offered rejects ops, r.2 = false) ∨ ∀ r ∈ offered rejects ops, r.2 = true := by
  intro ops
  rcases commands_logger rejects s w1 dbnam a locked with ⟨hcmds, hoff⟩ | hcmds
  · simp [ops, hcmds, hoff, Transactions.accepted]
  · rw [hcmds]
    exact block_commits_iff _

/-- Without the table of one reading, the pass does not log the other. -/
theorem readings_committed_missing :
    let ops := (w1Logger {} (readingsOf [">GONE".toList, "GHT".toList]) weather false
      ⟨narrowTable, true, true⟩).2
    ((Server.mk [] .idle).run (commands (· == 0) 0 ops)).table ≠
      Transactions.accepted (offered (· == 0) ops) := by
  decide +kernel

end W1Retap.Pgsql

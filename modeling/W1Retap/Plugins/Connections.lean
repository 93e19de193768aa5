import W1Retap.Plugins.Mongo
import W1Retap.Plugins.Mysql

/-!
# Connections that are open

The MySQL and MongoDB plugins keep one connection. `w1_logger` of MySQL sends its queries
even when the connection could not be opened; `w1_report` and `w1_cleanup` of MongoDB use
the connection without having opened it.
-/
namespace W1Retap

open Calls

/-- The connections of `l` are open, and the one that a plugin keeps is among them. -/
structure KeepsOpen (conn : Option Conn) (issued : ℕ) (l : List Conn) : Prop where
  fresh : ∀ r ∈ l, r.id < issued
  kept : ∀ c, conn = some c → c ∈ l

namespace KeepsOpen

variable {conn : Option Conn} {issued : ℕ} {l : List Conn}

theorem start : KeepsOpen none 0 [] := ⟨by simp, by simp⟩

theorem next (h : KeepsOpen conn issued l) : KeepsOpen conn (issued + 1) l :=
  ⟨fun r hr => (h.fresh r hr).trans (Nat.lt_succ_self _), h.kept⟩

theorem unset (h : KeepsOpen conn issued l) : KeepsOpen none issued l :=
  ⟨h.fresh, fun _ hc => nomatch hc⟩

/-- A connection that is opened besides the one that is kept. -/
theorem other (h : KeepsOpen conn issued l) (params : CString) :
    KeepsOpen conn (issued + 1) (⟨issued, params⟩ :: l) := by
  refine ⟨?_, fun c hc => List.mem_cons_of_mem _ (h.kept c hc)⟩
  intro r hr
  rcases List.mem_cons.mp hr with rfl | hr
  · exact Nat.lt_succ_self _
  · exact h.next.fresh r hr

theorem opened (h : KeepsOpen conn issued l) (params : CString) :
    KeepsOpen (some ⟨issued, params⟩) (issued + 1) (⟨issued, params⟩ :: l) := by
  refine ⟨(h.other params).fresh, fun c hc => ?_⟩
  obtain rfl := Option.some.inj hc
  exact List.mem_cons_self

/-- A connection of no concern to the plugin is closed. -/
theorem filter (h : KeepsOpen conn issued l) {p : Conn → Bool}
    (hp : ∀ c, conn = some c → p c = true) : KeepsOpen conn issued (l.filter p) :=
  ⟨fun r hr => h.fresh r (List.mem_of_mem_filter hr),
    fun c hc => List.mem_filter.mpr ⟨h.kept c hc, hp c hc⟩⟩

end KeepsOpen

namespace Mysql

/-- What a library call does to the connections. -/
def Op.acts : Op → List (Act Conn)
  | .realConnect conn _ true => [.acquire conn]
  | .realConnect _ _ false => []
  | .query conn _ => [.use (conn == some ·)]
  | .close conn => [.use (some conn == some ·), .release (· == conn)]

/-- An unlocked `w1_logger` finds a connection, or opens one. -/
def Call.Connected (s : Statics) : Call → Prop
  | .logger _ _ false connects => s.conn ≠ none ∨ connects = true
  | _ => True

variable {s : Statics} {l : List Conn}

theorem uses_queries (conn : Option Conn) (w1 : DevList) :
    ∀ a ∈ (queries conn w1).flatMap Op.acts, a = .use (conn == some ·) := by
  intro a ha
  obtain ⟨op, hop, ha⟩ := List.mem_flatMap.mp ha
  have hquery : ∃ q, op = .query conn q := by
    simp only [queries, inserts, List.mem_append, List.mem_singleton, List.mem_map] at hop
    rcases hop with (rfl | ⟨e, -, rfl⟩) | rfl
    · exact ⟨_, rfl⟩
    · exact ⟨_, rfl⟩
    · exact ⟨_, rfl⟩
  obtain ⟨q, rfl⟩ := hquery
  exact List.mem_singleton.mp ha

/-- A pass needs a connection, for `BEGIN` at the least. -/
theorem safe_queries (conn : Option Conn) (w1 : DevList) :
    Safe l ((queries conn w1).flatMap Op.acts) ↔ ∃ c ∈ l, conn = some c := by
  rw [safe_uses (uses_queries conn w1)]
  have hne : (queries conn w1).flatMap Op.acts ≠ [] := by simp [queries, Op.acts]
  simp [hne]

theorem liveAfter_queries (conn : Option Conn) (w1 : DevList) :
    liveAfter l ((queries conn w1).flatMap Op.acts) = l := liveAfter_uses (uses_queries conn w1)

def Holds (s : Statics) (l : List Conn) : Prop := KeepsOpen s.conn s.issued l

theorem holds_initial : Holds {} [] := KeepsOpen.start

/-- One call is safe exactly when it is connected, and keeps what is known. -/
def Steps (s : Statics) (l : List Conn) (c : Call) : Prop :=
  (Safe l ((call s c).2.flatMap Op.acts) ↔ c.Connected s) ∧
    Holds (call s c).1 (liveAfter l ((call s c).2.flatMap Op.acts))

theorem steps_init (h : Holds s l) (dbnam : CString) (connects selects : Bool) :
    Steps s l (.init dbnam connects selects) := by
  cases connects with
  | false => exact ⟨⟨fun _ => True.intro, fun _ => safe_nil⟩, h.next⟩
  | true =>
    have hother := h.other dbnam
    cases selects with
    | false =>
      refine ⟨⟨fun _ => True.intro, fun _ => ?_⟩, hother⟩
      simp [call, w1Init, w1Opendb, Op.acts, Act.live]
    | true =>
      refine ⟨⟨fun _ => True.intro, fun _ => ?_⟩, ?_⟩
      · simp [call, w1Init, w1Opendb, Op.acts, Act.live]
      · refine hother.filter (p := fun r => !(r == ⟨s.issued, dbnam⟩)) fun c hc => ?_
        have hlt := h.fresh c (h.kept c hc)
        have hne : c ≠ ⟨s.issued, dbnam⟩ := by
          rintro rfl
          exact lt_irrefl _ hlt
        simpa using hne

theorem steps_logger (h : Holds s l) (w1 : DevList) (params : CString)
    (locked connects : Bool) : Steps s l (.logger w1 params locked connects) := by
  cases locked with
  | true => exact ⟨⟨fun _ => True.intro, fun _ => safe_nil⟩, h⟩
  | false =>
    unfold Steps
    simp only [call, w1Logger, openStatic, Bool.false_eq_true, if_false]
    cases hc : s.conn with
    | some conn =>
      rw [if_neg (by simp)]
      simp only [List.nil_append, safe_queries, liveAfter_queries, hc]
      have hmem := h.kept conn hc
      exact ⟨⟨fun _ => Or.inl (by simp [hc]), fun _ => ⟨conn, hmem, rfl⟩⟩, by simpa [Holds, hc] using h⟩
    | none =>
      cases connects with
      | true =>
        simp only [w1Opendb, if_true, List.flatMap_append, List.flatMap_cons, List.flatMap_nil,
          Op.acts, List.append_nil, safe_append, liveAfter_append, safe_queries, liveAfter_queries]
        have hopened := h.opened params
        refine ⟨⟨fun _ => Or.inr rfl, fun _ => ⟨?_, _, List.mem_cons_self, rfl⟩⟩, hopened⟩
        simp [Act.live]
      | false =>
        simp only [w1Opendb, if_true, List.flatMap_append, List.flatMap_cons, List.flatMap_nil,
          Op.acts, List.append_nil, safe_append, liveAfter_append, safe_queries, liveAfter_queries]
        refine ⟨⟨fun hs => ?_, fun hs => ?_⟩, h.unset.next⟩
        · obtain ⟨-, c, -, hnone⟩ := hs
          cases hnone
        · rcases hs with hs | hs
          · exact absurd hc hs
          · cases hs

theorem steps_cleanup (h : Holds s l) : Steps s l .cleanup := by
  unfold Steps
  simp only [call, w1Cleanup]
  cases hc : s.conn with
  | none =>
    exact ⟨⟨fun _ => True.intro, fun _ => safe_nil⟩, h⟩
  | some conn =>
    have hmem := h.kept conn hc
    refine ⟨⟨fun _ => True.intro, fun _ => ?_⟩, ?_⟩
    · simpa [Op.acts, Act.live] using hmem
    · exact h.unset.filter fun _ hc => by cases hc

/-- In a run every query and every close uses an open connection exactly when the unlocked
calls of `w1_logger` are connected. -/
theorem safe_iff_connected (cs : List Call) :
    Safe [] ((outputs call {} cs).flatMap Op.acts) ↔
      ∀ t ∈ turns call {} cs, t.call.Connected t.before := by
  apply safe_run_iff holds_initial
  intro s l c hs
  cases c with
  | init dbnam connects selects => exact steps_init hs dbnam connects selects
  | logger w1 params locked connects => exact steps_logger hs w1 params locked connects
  | cleanup => exact steps_cleanup hs

end Mysql

namespace Mongo

def Op.acts : Op → List (Act Conn)
  | .connect _ (some conn) => [.acquire conn]
  | .query conn _ => [.use (some conn == some ·)]
  | .insert conn _ _ => [.use (conn == some ·)]
  | .disconnect conn => [.use (conn == some ·), .release (conn == some ·)]
  | _ => []

/-- Messages are reported, and the plugin is cleaned up, over a connection. -/
def Call.Connected (s : Statics) (c : Call) : Prop :=
  s.ended = false →
    match c with
    | .report _ (some _) _ => s.conn ≠ none
    | .cleanup => s.conn ≠ none
    | _ => True

def Holds (s : Statics) (l : List Conn) : Prop := KeepsOpen s.conn s.issued l

theorem holds_initial : Holds {} [] := KeepsOpen.start

def Steps (s : Statics) (l : List Conn) (c : Call) : Prop :=
  (Safe l ((call s c).2.flatMap Op.acts) ↔ c.Connected s) ∧
    Holds (call s c).1 (liveAfter l ((call s c).2.flatMap Op.acts))

variable {s : Statics} {l : List Conn}

theorem acts_seeds (conn : Option Conn) (seeds : List Hport) :
    (seeds.map (Op.seedAdd conn)).flatMap Op.acts = [] := by
  induction seeds with
  | nil => rfl
  | cons hport seeds ih => exact ih

/-- `conn` stays as it is, or there was none and it is opened. -/
theorem openStatic_cases (s : Statics) (params : CString) (connects : Bool) :
    ((openStatic s params connects).1.conn = s.conn ∧
      (openStatic s params connects).1.issued = s.issued ∧
      (openStatic s params connects).2.flatMap Op.acts = []) ∨
    ((openStatic s params connects).1.conn = some ⟨s.issued, params⟩ ∧
      (openStatic s params connects).1.issued = s.issued + 1 ∧
      (openStatic s params connects).2.flatMap Op.acts = [.acquire ⟨s.issued, params⟩]) := by
  unfold openStatic
  by_cases hc : s.conn = none
  · rw [if_pos hc]
    simp only [w1Opendb, mongoParams]
    rcases ((assignments params).foldl Params.assign {}).rset with _ | ⟨setname, _ | ⟨hport, seeds⟩⟩
    · exact Or.inl ⟨rfl, rfl, rfl⟩
    · refine Or.inl ⟨rfl, rfl, ?_⟩
      cases s.mkid <;> simp [oidInit, Op.acts]
    · cases connects with
      | true =>
        refine Or.inr ⟨rfl, rfl, ?_⟩
        cases setname <;> cases s.mkid <;> simp [oidInit, Op.acts, acts_seeds]
      | false =>
        refine Or.inl ⟨rfl, rfl, ?_⟩
        cases setname <;> simp [Op.acts, acts_seeds]
  · rw [if_neg hc]
    exact Or.inl ⟨rfl, rfl, rfl⟩

/-- Opening is safe and leaves a connection that is open, if any. -/
theorem Holds.openStatic (h : Holds s l) (params : CString) (connects : Bool) :
    Safe l ((openStatic s params connects).2.flatMap Op.acts) ∧
      Holds (openStatic s params connects).1
        (liveAfter l ((openStatic s params connects).2.flatMap Op.acts)) := by
  rcases openStatic_cases s params connects with ⟨hc, hi, hacts⟩ | ⟨hc, hi, hacts⟩
  · rw [hacts]
    refine ⟨safe_nil, ?_⟩
    unfold Holds
    rw [hc, hi]
    exact h
  · rw [hacts]
    refine ⟨⟨True.intro, safe_nil⟩, ?_⟩
    unfold Holds
    rw [hc, hi]
    exact KeepsOpen.opened h params

theorem steps_init (h : Holds s l) (hrun : s.ended = false) (params : CString) (connects : Bool) :
    Steps s l (.init params connects) := by
  have hconn : Call.Connected s (.init params connects) := fun _ => True.intro
  obtain ⟨hsafe, hholds⟩ := h.openStatic params connects
  simp only [Steps, call, dispatch, hrun, Bool.false_eq_true, if_false, w1Init]
  set r := Mongo.openStatic s params connects with hr
  by_cases he : r.1.ended = true
  · rw [if_pos he]
    exact ⟨⟨fun _ => hconn, fun _ => hsafe⟩, hholds⟩
  · rw [if_neg he]
    cases hc : r.1.conn with
    | none =>
      simp only [List.flatMap_append, List.flatMap_cons, List.flatMap_nil, Op.acts, List.append_nil]
      exact ⟨⟨fun _ => hconn, fun _ => hsafe⟩, by simpa [Holds, hc] using hholds⟩
    | some conn =>
      have hmem := hholds.kept conn hc
      simp only [List.flatMap_append, List.flatMap_cons, List.flatMap_nil, Op.acts, List.append_nil,
        safe_append, liveAfter_append]
      exact ⟨⟨fun _ => hconn, fun _ => ⟨hsafe, by simpa [Act.live] using hmem⟩⟩, hholds⟩

theorem uses_logReadings (s : Statics) (w1 : DevList) (clock : Clock) :
    ∀ a ∈ (logReadings s w1 clock).2.flatMap Op.acts, a = .use (s.conn == some ·) := by
  intro a ha
  unfold logReadings at ha
  by_cases hl : w1.logged ≠ []
  · simp only [w1IdNew, if_pos hl] at ha
    simpa [Op.acts] using ha
  · simp only [w1IdNew, if_neg hl] at ha
    simp [Op.acts] at ha

theorem steps_logger (h : Holds s l) (hrun : s.ended = false) (w1 : DevList) (params : CString)
    (locked connects : Bool) (clock : Clock) :
    Steps s l (.logger w1 params locked connects clock) := by
  have hconn : Call.Connected s (.logger w1 params locked connects clock) := fun _ => True.intro
  obtain ⟨hsafe, hholds⟩ := h.openStatic params connects
  simp only [Steps, call, dispatch, hrun, Bool.false_eq_true, if_false, w1Logger]
  cases locked with
  | true => exact ⟨⟨fun _ => hconn, fun _ => safe_nil⟩, h⟩
  | false =>
    rw [if_neg Bool.false_ne_true]
    set r := Mongo.openStatic s params connects
    by_cases he : r.1.ended = true
    · rw [if_pos he]
      exact ⟨⟨fun _ => hconn, fun _ => hsafe⟩, hholds⟩
    · rw [if_neg he]
      by_cases hc : r.1.conn = none
      · rw [if_pos hc]
        simp only [List.flatMap_append, List.flatMap_cons, List.flatMap_nil, Op.acts, List.append_nil]
        exact ⟨⟨fun _ => hconn, fun _ => hsafe⟩, hholds⟩
      · rw [if_neg hc]
        have huses := uses_logReadings r.1 w1 clock
        obtain ⟨conn, hconn'⟩ := Option.ne_none_iff_exists'.mp hc
        have hmem := hholds.kept conn hconn'
        simp only [List.flatMap_append, safe_append, liveAfter_append, liveAfter_uses huses]
        refine ⟨⟨fun _ => hconn, fun _ => ⟨hsafe, ?_⟩⟩, hholds⟩
        exact (safe_uses huses).mpr (Or.inr ⟨conn, hmem, by simp [hconn']⟩)

theorem steps_report (h : Holds s l) (hrun : s.ended = false) (params : CString)
    (lastmsg : Option CString) (clock : Clock) : Steps s l (.report params lastmsg clock) := by
  simp only [Steps, call, dispatch, hrun, Bool.false_eq_true, if_false]
  cases lastmsg with
  | none => exact ⟨⟨fun _ _ => True.intro, fun _ => safe_nil⟩, h⟩
  | some msg =>
    refine ⟨⟨fun hs _ => ?_, fun hc => ?_⟩, h⟩
    · obtain ⟨⟨c, -, hc⟩, -⟩ := hs
      intro hnone
      simp [hnone] at hc
    · obtain ⟨conn, hconn⟩ := Option.ne_none_iff_exists'.mp (hc hrun)
      exact ⟨⟨conn, h.kept conn hconn, by simp [hconn]⟩, safe_nil⟩

theorem steps_cleanup (h : Holds s l) (hrun : s.ended = false) : Steps s l .cleanup := by
  simp only [Steps, call, dispatch, hrun, Bool.false_eq_true, if_false]
  refine ⟨⟨fun hs _ => ?_, fun hc => ?_⟩, ?_⟩
  · obtain ⟨⟨c, -, hc⟩, -⟩ := hs
    intro hnone
    simp [hnone] at hc
  · obtain ⟨conn, hconn⟩ := Option.ne_none_iff_exists'.mp (hc hrun)
    exact ⟨⟨conn, h.kept conn hconn, by simp [hconn]⟩, True.intro, safe_nil⟩
  · exact KeepsOpen.filter (KeepsOpen.unset h) fun _ hc => by cases hc

theorem safe_iff_connected (cs : List Call) :
    Safe [] ((outputs call {} cs).flatMap Op.acts) ↔
      ∀ t ∈ turns call {} cs, t.call.Connected t.before := by
  apply safe_run_iff holds_initial
  intro s l c hs
  cases hrun : s.ended with
  | true =>
    have hcall : call s c = (s, []) := by simp [call, hrun]
    rw [hcall]
    refine ⟨⟨fun _ he => ?_, fun _ => safe_nil⟩, hs⟩
    rw [hrun] at he
    cases he
  | false =>
    cases c with
    | init params connects => exact steps_init hs hrun params connects
    | logger w1 params locked connects clock =>
      exact steps_logger hs hrun w1 params locked connects clock
    | report params lastmsg clock => exact steps_report hs hrun params lastmsg clock
    | cleanup => exact steps_cleanup hs hrun

end Mongo

/-- Queries, inserts and disconnects use open connections exactly when the unlocked calls of
`w1_logger` are connected in MySQL, and the messages and clean-ups are in MongoDB. -/
theorem queries_connected_iff (mysql : List Mysql.Call) (mongo : List Mongo.Call) :
    (Safe [] ((outputs Mysql.call {} mysql).flatMap Mysql.Op.acts) ↔
      ∀ t ∈ turns Mysql.call {} mysql, t.call.Connected t.before) ∧
    (Safe [] ((outputs Mongo.call {} mongo).flatMap Mongo.Op.acts) ↔
      ∀ t ∈ turns Mongo.call {} mongo, t.call.Connected t.before) :=
  ⟨Mysql.safe_iff_connected mysql, Mongo.safe_iff_connected mongo⟩

/-- A server that is down, and a message before any reading. -/
theorem queries_connected_never :
    ¬ Safe [] ((outputs Mysql.call {} [.logger (readingsOf ["GHT".toList])
        "host=db dbname=wx".toList false false]).flatMap Mysql.Op.acts) ∧
    ¬ Safe [] ((outputs Mongo.call {} [.report "host=localhost".toList
        (some "Startup".toList) ⟨1340000000, 1340000000⟩, .cleanup]).flatMap Mongo.Op.acts) := by
  decide +kernel

end W1Retap

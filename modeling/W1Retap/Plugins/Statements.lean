import W1Retap.Plugins.Pgsql
import W1Retap.Plugins.Sqlite

/-!
# Prepared statements

A statement of sqlite lives from its preparation to `sqlite3_finalize`, or until its handle is
closed. `w1_cleanup` leaves `stml` pointing at a finalized statement, which the
next `w1_report` uses. A statement of PostgreSQL lives until its session is reset or closed;
the plugin keeps its name even when it could not be prepared.
-/
namespace W1Retap

open Calls

namespace Sqlite

/-- What a library call does to the statements. -/
def Op.acts : Op → List (Act Stmt)
  | .prepare _ _ (some stmt) => [.acquire stmt]
  | .finalize stmt => [.release (· == stmt)]
  | .close (some db) => [.release (·.db == db)]
  | .bind stmt _ _ => [.use (stmt == some ·)]
  | .step stmt => [.use (stmt == some ·)]
  | .reset stmt => [.use (stmt == some ·)]
  | _ => []

/-! ## The state of `stml` -/

/-- `stml` is unset, prepared on the static handle, or finalized. -/
inductive Phase where
  | unset | live | dangling

/-- The plugin knows what is live, but for `stml`. -/
structure Holds (phase : Phase) (s : Statics) (l : List Stmt) : Prop where
  fresh : ∀ r ∈ l, r.id < s.issued ∧ r.db.id < s.issued
  db : ∀ d, s.db = some d → d.id < s.issued
  stmt : ∀ st, s.stmt = some st → st ∈ l ∧ s.db = some st.db
  stml : match phase with
    | .unset => s.stml = none
    | .live => ∃ st ∈ l, s.stml = some st ∧ s.db = some st.db
    | .dangling => ∃ st, st ∉ l ∧ s.stml = some st ∧ st.id < s.issued

variable {phase : Phase} {s s' : Statics} {l : List Stmt} {dbnam : CString} {a : Opening}
  {w1 : DevList} {ok : Bool}

theorem holds_initial : Holds .unset {} [] := ⟨by simp, by simp, by simp, rfl⟩

/-- Handles and statements that are given out do not touch those that are live. -/
theorem Holds.congr (h : Holds phase s l) (s' : Statics) (hd : s'.db = s.db) (hs : s'.stmt = s.stmt)
    (hm : s'.stml = s.stml) (hi : s.issued ≤ s'.issued) : Holds phase s' l := by
  refine ⟨?_, ?_, ?_, ?_⟩
  · exact fun r hr => ⟨(h.fresh r hr).1.trans_le hi, (h.fresh r hr).2.trans_le hi⟩
  · rw [hd]
    exact fun d hdb => (h.db d hdb).trans_le hi
  · rw [hd, hs]
    exact h.stmt
  · have hstml := h.stml
    cases phase with
    | unset => exact hm.trans hstml
    | live =>
      simp only [hd, hm]
      exact hstml
    | dangling =>
      obtain ⟨st, hst, he, hlt⟩ := hstml
      exact ⟨st, hst, hm.trans he, hlt.trans_le hi⟩

theorem Holds.openStatic (h : Holds phase s l) (dbnam : CString) (ha : a.isOpened = true) :
    Holds phase (openStatic s dbnam a).1 l ∧ (openStatic s dbnam a).1.db.isSome = true ∧
      (openStatic s dbnam a).2.flatMap Op.acts = [] := by
  unfold Sqlite.openStatic
  by_cases hdb : s.db = none
  · have hne : a ≠ .failed false := by
      rintro rfl
      cases ha
    have hstmt : s.stmt = none := by
      cases hst : s.stmt with
      | none => rfl
      | some st =>
        rw [(h.stmt st hst).2] at hdb
        cases hdb
    rw [if_pos hdb]
    simp only [w1Opendb, if_neg hne]
    refine ⟨⟨?_, ?_, ?_, ?_⟩, rfl, rfl⟩
    · exact fun r hr => ⟨(h.fresh r hr).1.trans (Nat.lt_succ_self _),
        (h.fresh r hr).2.trans (Nat.lt_succ_self _)⟩
    · rintro d hd
      obtain rfl := Option.some.inj hd
      exact Nat.lt_succ_self _
    · intro st hst
      rw [show s.stmt = some st from hst] at hstmt
      cases hstmt
    · have hstml := h.stml
      cases phase with
      | unset => exact hstml
      | live =>
        obtain ⟨st, -, -, hst⟩ := hstml
        rw [hst] at hdb
        cases hdb
      | dangling =>
        obtain ⟨st, hst, he, hlt⟩ := hstml
        exact ⟨st, hst, he, hlt.trans (Nat.lt_succ_self _)⟩
  · rw [if_neg hdb]
    exact ⟨h, Option.isSome_iff_ne_none.mpr hdb, rfl⟩

/-- A statement that is given out joins the live ones. -/
theorem Holds.acquire (h : Holds phase s l) {d : Conn} (hd : s.db = some d) :
    Holds phase { s with issued := s.issued + 1 } (⟨s.issued, d⟩ :: l) := by
  have hup := h.congr { s with issued := s.issued + 1 } rfl rfl rfl (Nat.le_succ _)
  refine ⟨?_, hup.db, ?_, ?_⟩
  · intro r hr
    rcases List.mem_cons.mp hr with rfl | hr
    · exact ⟨Nat.lt_succ_self _, (h.db d hd).trans (Nat.lt_succ_self _)⟩
    · exact hup.fresh r hr
  · exact fun st hst => ⟨List.mem_cons_of_mem _ (h.stmt st hst).1, (h.stmt st hst).2⟩
  · have hstml := h.stml
    cases phase with
    | unset => exact hstml
    | live =>
      obtain ⟨st, hst, he⟩ := hstml
      exact ⟨st, List.mem_cons_of_mem _ hst, he⟩
    | dangling =>
      obtain ⟨st, hst, he, hlt⟩ := hstml
      refine ⟨st, ?_, he, hlt.trans (Nat.lt_succ_self _)⟩
      simp only [List.mem_cons, not_or]
      refine ⟨fun heq => ?_, hst⟩
      rw [heq] at hlt
      exact lt_irrefl _ hlt

theorem Holds.prepareStmt (h : Holds phase s l) (hdb : s.db.isSome = true) :
    ∃ l', liveAfter l ((prepareStmt s true).2.flatMap Op.acts) = l' ∧
      Safe l ((prepareStmt s true).2.flatMap Op.acts) ∧ Holds phase (prepareStmt s true).1 l' ∧
      ∃ st ∈ l', (prepareStmt s true).1.stmt = some st := by
  unfold Sqlite.prepareStmt
  obtain ⟨d, hd⟩ := Option.isSome_iff_exists.mp hdb
  cases hst : s.stmt with
  | none =>
    have hacq := h.acquire hd
    simp only [if_true, prepared_true hd]
    refine ⟨⟨s.issued, d⟩ :: l, rfl, ⟨True.intro, True.intro⟩, ?_, _, List.mem_cons_self, rfl⟩
    refine ⟨hacq.fresh, hacq.db, ?_, hacq.stml⟩
    rintro st hst'
    obtain rfl := Option.some.inj hst'
    exact ⟨List.mem_cons_self, hd⟩
  | some st =>
    rw [if_neg (by simp)]
    exact ⟨l, rfl, True.intro, h, st, (h.stmt st hst).1, hst⟩

/-- The library calls that use the statement `stmt` and do nothing else to statements. -/
theorem uses_inserts (s : Statics) (w1 : DevList) :
    ∀ a ∈ (inserts s w1).flatMap Op.acts, a = .use (s.stmt == some ·) := by
  intro a ha
  obtain ⟨op, hop, ha⟩ := List.mem_flatMap.mp ha
  unfold inserts at hop
  by_cases hj : s.json = true
  · rw [if_pos hj] at hop
    by_cases hl : w1.logged ≠ []
    · rw [if_pos hl] at hop
      simp only [List.cons_append, List.nil_append, List.mem_cons, List.not_mem_nil, or_false] at hop
      rcases hop with rfl | rfl | rfl | rfl <;> simpa [Op.acts] using ha
    · rw [if_neg hl, List.nil_append, List.mem_singleton] at hop
      subst hop
      simpa [Op.acts] using ha
  · rw [if_neg hj, List.mem_flatMap] at hop
    obtain ⟨e, -, hop⟩ := hop
    simp only [List.mem_cons, List.not_mem_nil, or_false] at hop
    rcases hop with rfl | rfl | rfl | rfl | rfl <;> simpa [Op.acts] using ha

/-! ## One call -/

def Call.reports : Call → Bool
  | .report _ lastmsg _ _ _ => lastmsg.isSome
  | _ => false

/-- The state of `stml` after a call. -/
def Phase.next : Phase → Call → Phase
  | .unset, c => if c.reports then .live else .unset
  | .live, c => if c.isCleanup then .dangling else .live
  | .dangling, _ => .dangling

/-- The call uses a finalized statement. -/
def Phase.Violates (phase : Phase) (c : Call) : Prop := phase = .dangling ∧ c.reports = true

/-- What one call does to the statements, and what it leaves. -/
def Steps (phase : Phase) (s : Statics) (l : List Stmt) (c : Call) : Prop :=
  (Safe l ((call s c).2.flatMap Op.acts) ↔ ¬ phase.Violates c) ∧
    (¬ phase.Violates c →
      Holds (phase.next c) (call s c).1 (liveAfter l ((call s c).2.flatMap Op.acts)))

theorem Phase.next_idle {c : Call} (hr : c.reports = false) (hc : c.isCleanup = false) :
    phase.next c = phase := by
  cases phase <;> simp [Phase.next, hr, hc]

theorem steps_init (h : Holds phase s l) : Steps phase s l (.init dbnam a) := by
  have hv : ¬ phase.Violates (.init dbnam a) := fun hv => nomatch hv.2
  have hup : Holds phase (call s (.init dbnam a)).1 l := h.congr _ rfl rfl rfl (Nat.le_succ _)
  have hacts : (call s (.init dbnam a)).2.flatMap Op.acts = [] ∨
      (call s (.init dbnam a)).2.flatMap Op.acts = [.release (·.db == ⟨s.issued, dbnam⟩)] := by
    by_cases ha : a = .failed false
    · exact Or.inl (by simp [call, w1Init, w1Opendb, ha, Op.acts])
    · exact Or.inr (by simp [call, w1Init, w1Opendb, ha, Op.acts])
  -- no statement is on the handle that `w1_init` closes
  have hlive : liveAfter l ((call s (.init dbnam a)).2.flatMap Op.acts) = l := by
    rcases hacts with he | he
    · rw [he]
      rfl
    · rw [he]
      refine List.filter_eq_self.mpr fun r hr => ?_
      have hne : r.db ≠ ⟨s.issued, dbnam⟩ := by
        intro heq
        have hlt := (h.fresh r hr).2
        rw [heq] at hlt
        exact lt_irrefl _ hlt
      simp [hne]
  refine ⟨⟨fun _ => hv, fun _ => ?_⟩, fun _ => ?_⟩
  · rcases hacts with he | he
    · rw [he]
      exact safe_nil
    · rw [he]
      exact ⟨True.intro, safe_nil⟩
  · rw [hlive, Phase.next_idle rfl rfl]
    exact hup

theorem steps_logger {locked : Bool} (h : Holds phase s l) (ha : a.isOpened = true) :
    Steps phase s l (.logger w1 dbnam locked a true) := by
  have hv : ¬ phase.Violates (.logger w1 dbnam locked a true) := fun hv => nomatch hv.2
  have hnext : phase.next (.logger w1 dbnam locked a true) = phase := Phase.next_idle rfl rfl
  rw [Steps, hnext]
  simp only [call, w1Logger]
  by_cases hl : locked = true
  · rw [if_pos hl]
    exact ⟨⟨fun _ => hv, fun _ => safe_nil⟩, fun _ => h⟩
  · rw [if_neg hl]
    obtain ⟨hopen, hdb, hacts⟩ := h.openStatic dbnam ha
    obtain ⟨l', hl', hsafe, hprep, st, hst, hstmt⟩ := hopen.prepareStmt hdb
    have huses := uses_inserts (prepareStmt (openStatic s dbnam a).1 true).1 w1
    simp only [List.flatMap_append, List.flatMap_cons, List.flatMap_nil, Op.acts, hacts,
      List.nil_append, List.append_nil]
    refine ⟨⟨fun _ => hv, fun _ => ?_⟩, fun _ => ?_⟩
    · rw [safe_append, hl']
      exact ⟨hsafe, (safe_uses huses).mpr (Or.inr ⟨st, hst, by simp [hstmt]⟩)⟩
    · rw [liveAfter_append, hl', liveAfter_uses huses]
      exact hprep

/-- The report needs its statement; it is prepared unless there was one before. -/
theorem Holds.prepareStml (h : Holds phase s l) (hdb : s.db.isSome = true) :
    Safe l ((prepareStml s true).2.flatMap Op.acts) ∧
      Holds (if phase matches .unset then .live else phase) (prepareStml s true).1
        (liveAfter l ((prepareStml s true).2.flatMap Op.acts)) := by
  obtain ⟨d, hd⟩ := Option.isSome_iff_exists.mp hdb
  unfold Sqlite.prepareStml
  have hstml := h.stml
  cases phase with
  | unset =>
    have hacq := h.acquire hd
    rw [if_pos hstml]
    simp only [prepared_true hd]
    refine ⟨⟨True.intro, True.intro⟩, hacq.fresh, hacq.db, hacq.stmt, ?_⟩
    exact ⟨⟨s.issued, d⟩, List.mem_cons_self, rfl, hd⟩
  | live =>
    obtain ⟨st, -, hst, -⟩ := id hstml
    rw [if_neg (by simp [hst])]
    exact ⟨safe_nil, h⟩
  | dangling =>
    obtain ⟨st, -, hst, -⟩ := id hstml
    rw [if_neg (by simp [hst])]
    exact ⟨safe_nil, h⟩

theorem steps_report {lastmsg : Option CString} (h : Holds phase s l) (ha : a.isOpened = true) :
    Steps phase s l (.report w1 lastmsg dbnam a true) := by
  cases lastmsg with
  | none =>
    have hv : ¬ phase.Violates (.report w1 none dbnam a true) := fun hv => nomatch hv.2
    refine ⟨⟨fun _ => hv, fun _ => safe_nil⟩, fun _ => ?_⟩
    rw [Phase.next_idle rfl rfl]
    exact h
  | some msg =>
    obtain ⟨hopen, hdb, hacts⟩ := h.openStatic dbnam ha
    obtain ⟨hsafe, hprep⟩ := hopen.prepareStml hdb
    simp only [Steps, call, w1Report]
    set r := Sqlite.prepareStml (Sqlite.openStatic s dbnam a).1 true
    set ops : List Op := [.exec r.1.db "begin",
      .bind r.1.stml 1 (.stamp (.text "%F %T%z" false w1.logtime)), .bind r.1.stml 2 (.text (some msg)),
      .step r.1.stml, .reset r.1.stml, .exec r.1.db "commit"]
    have huses : ∀ a ∈ ops.flatMap Op.acts, a = .use (r.1.stml == some ·) := by
      simp [ops, Op.acts]
    have hne : ops.flatMap Op.acts ≠ [] := by simp [ops, Op.acts]
    simp only [List.flatMap_append, hacts, List.nil_append, safe_append, safe_uses huses, hne,
      false_or, liveAfter_append, liveAfter_uses huses]
    have hstml := hprep.stml
    cases phase with
    | unset =>
      obtain ⟨st, hst, he, -⟩ := hstml
      have hv : ¬ Phase.Violates .unset (.report w1 (some msg) dbnam a true) := fun hv => nomatch hv.1
      exact ⟨⟨fun _ => hv, fun _ => ⟨hsafe, st, hst, by simp [he]⟩⟩, fun _ => hprep⟩
    | live =>
      obtain ⟨st, hst, he, -⟩ := hstml
      have hv : ¬ Phase.Violates .live (.report w1 (some msg) dbnam a true) := fun hv => nomatch hv.1
      exact ⟨⟨fun _ => hv, fun _ => ⟨hsafe, st, hst, by simp [he]⟩⟩, fun _ => hprep⟩
    | dangling =>
      obtain ⟨st, hst, he, -⟩ := hstml
      have hv : Phase.Violates .dangling (.report w1 (some msg) dbnam a true) := ⟨rfl, rfl⟩
      refine ⟨⟨fun hs => ?_, fun hn => absurd hv hn⟩, fun hn => absurd hv hn⟩
      obtain ⟨-, st', hst', he'⟩ := hs
      rw [he, beq_iff_eq, Option.some.injEq] at he'
      exact absurd (he' ▸ hst') hst

theorem steps_cleanup (h : Holds phase s l) : Steps phase s l .cleanup := by
  have hv : ¬ phase.Violates .cleanup := fun hv => by cases hv.2
  simp only [Steps, call, w1Cleanup]
  cases hd : s.db with
  | none =>
    refine ⟨⟨fun _ => hv, fun _ => safe_nil⟩, fun _ => ?_⟩
    have hstml := h.stml
    cases phase with
    | live =>
      obtain ⟨st, -, -, hdb⟩ := hstml
      rw [hd] at hdb
      cases hdb
    | unset => exact h
    | dangling => exact h
  | some db =>
    simp only
    set as := (s.stmt.toList.map Op.finalize ++ s.stml.toList.map Op.finalize ++
      [Op.close (some db)]).flatMap Op.acts with has
    have hrel : ∀ a ∈ as, ∃ p, a = .release p := by
      intro a ha
      simp only [has, List.mem_flatMap, List.mem_append, List.mem_map, List.mem_singleton] at ha
      obtain ⟨op, (⟨st, -, rfl⟩ | ⟨st, -, rfl⟩) | rfl, ha⟩ := ha
      · exact ⟨_, List.mem_singleton.mp ha⟩
      · exact ⟨_, List.mem_singleton.mp ha⟩
      · exact ⟨_, List.mem_singleton.mp ha⟩
    have hsafe : Safe l as := safe_releases hrel
    -- the statements that stay are among those that were live
    have hsub : ∀ r ∈ liveAfter l as, r ∈ l ∧ s.stml ≠ some r := by
      intro r hr
      obtain ⟨hr, hall⟩ := (mem_liveAfter_releases hrel).mp hr
      refine ⟨hr, fun hsl => ?_⟩
      have hmem : Act.release (· == r) ∈ as := by simp [has, hsl, Op.acts]
      simpa using hall _ hmem
    refine ⟨⟨fun _ => hv, fun _ => hsafe⟩, fun _ => ⟨?_, ?_, ?_, ?_⟩⟩
    · exact fun r hr => h.fresh r (hsub r hr).1
    · exact fun d hd => by cases hd
    · exact fun st hst => by cases hst
    · have hstml := h.stml
      cases phase with
      | unset => exact hstml
      | live =>
        obtain ⟨st, hst, he, -⟩ := hstml
        exact ⟨st, fun hin => (hsub st hin).2 he, he, (h.fresh st hst).1⟩
      | dangling =>
        obtain ⟨st, hst, he, hlt⟩ := hstml
        exact ⟨st, fun hin => hst (hsub st hin).1, he, hlt⟩

theorem steps_call {c : Call} (h : Holds phase s l) (hc : c.Succeeds) : Steps phase s l c := by
  cases c with
  | init dbnam a => exact steps_init h
  | logger w1 dbnam locked a ok =>
    obtain ⟨ha, rfl⟩ := hc
    exact steps_logger h ha
  | report w1 lastmsg dbnam a ok =>
    obtain ⟨ha, rfl⟩ := hc
    exact steps_report h ha
  | cleanup => exact steps_cleanup h

/-! ## Runs -/

/-- What is still to come does not use a finalized statement. -/
def Phase.Fits : Phase → List Call → Prop
  | .unset, cs => ¬ ∃ a b c, [a, b, c].Sublist cs ∧ a.reports ∧ b.isCleanup ∧ c.reports
  | .live, cs => ¬ ∃ b c, [b, c].Sublist cs ∧ b.isCleanup ∧ c.reports
  | .dangling, cs => ¬ ∃ c ∈ cs, c.reports

theorem fits_cons (c : Call) (cs : List Call) :
    phase.Fits (c :: cs) ↔ ¬ phase.Violates c ∧ (phase.next c).Fits cs := by
  have hhead : ∀ {l : List Call}, l.Sublist cs → l.Sublist (c :: cs) := fun h => h.cons c
  cases phase with
  | unset =>
    have hv : ¬ Phase.Violates .unset c := fun hv => nomatch hv.1
    simp only [hv, not_false_eq_true, true_and, Phase.next]
    by_cases hr : c.reports = true
    · rw [if_pos hr]
      constructor
      · rintro hfits ⟨b, d, hsub, hb, hd⟩
        exact hfits ⟨c, b, d, hsub.cons_cons c, hr, hb, hd⟩
      · rintro hfits ⟨a, b, d, hsub, -, hb, hd⟩
        rcases List.sublist_cons_iff.mp hsub with hsub | ⟨t, ht, hsub⟩
        · exact hfits ⟨b, d, (List.sublist_cons_self a [b, d]).trans hsub, hb, hd⟩
        · obtain ⟨rfl, rfl⟩ := List.cons.inj ht
          exact hfits ⟨b, d, hsub, hb, hd⟩
    · rw [if_neg hr]
      constructor
      · rintro hfits ⟨a, b, d, hsub, h⟩
        exact hfits ⟨a, b, d, hhead hsub, h⟩
      · rintro hfits ⟨a, b, d, hsub, ha, h⟩
        rcases List.sublist_cons_iff.mp hsub with hsub | ⟨t, ht, hsub⟩
        · exact hfits ⟨a, b, d, hsub, ha, h⟩
        · obtain ⟨rfl, rfl⟩ := List.cons.inj ht
          exact hr ha
  | live =>
    have hv : ¬ Phase.Violates .live c := fun hv => nomatch hv.1
    simp only [hv, not_false_eq_true, true_and, Phase.next]
    by_cases hc : c.isCleanup = true
    · rw [if_pos hc]
      constructor
      · rintro hfits ⟨d, hd, hr⟩
        exact hfits ⟨c, d, (List.singleton_sublist.mpr hd).cons_cons c, hc, hr⟩
      · rintro hfits ⟨b, d, hsub, -, hd⟩
        rcases List.sublist_cons_iff.mp hsub with hsub | ⟨t, ht, hsub⟩
        · exact hfits ⟨d, hsub.subset (by simp), hd⟩
        · obtain ⟨rfl, rfl⟩ := List.cons.inj ht
          exact hfits ⟨d, hsub.subset (by simp), hd⟩
    · rw [if_neg hc]
      constructor
      · rintro hfits ⟨b, d, hsub, h⟩
        exact hfits ⟨b, d, hhead hsub, h⟩
      · rintro hfits ⟨b, d, hsub, hb, h⟩
        rcases List.sublist_cons_iff.mp hsub with hsub | ⟨t, ht, hsub⟩
        · exact hfits ⟨b, d, hsub, hb, h⟩
        · obtain ⟨rfl, rfl⟩ := List.cons.inj ht
          exact hc hb
  | dangling =>
    simp only [Phase.Fits, Phase.Violates, Phase.next, List.mem_cons, true_and]
    constructor
    · intro hfits
      exact ⟨fun hr => hfits ⟨c, Or.inl rfl, hr⟩, fun ⟨d, hd, hr⟩ => hfits ⟨d, Or.inr hd, hr⟩⟩
    · rintro ⟨hc, hcs⟩ ⟨d, rfl | hd, hr⟩
      · exact hc hr
      · exact hcs ⟨d, hd, hr⟩

theorem safe_iff_fits {cs : List Call} (h : Holds phase s l) (hcs : ∀ c ∈ cs, c.Succeeds) :
    Safe l ((outputs call s cs).flatMap Op.acts) ↔ phase.Fits cs := by
  induction cs generalizing phase s l with
  | nil => cases phase <;> simp [Phase.Fits]
  | cons c cs ih =>
    obtain ⟨hsafe, hnext⟩ := steps_call h (hcs c List.mem_cons_self)
    rw [outputs_cons, List.flatMap_append, safe_append, fits_cons, hsafe]
    constructor
    · rintro ⟨hv, hrest⟩
      exact ⟨hv, (ih (hnext hv) fun d hd => hcs d (List.mem_cons_of_mem c hd)).mp hrest⟩
    · rintro ⟨hv, hrest⟩
      exact ⟨hv, (ih (hnext hv) fun d hd => hcs d (List.mem_cons_of_mem c hd)).mpr hrest⟩

/-- A message is reported, the plugin is cleaned up, and a message is reported again. -/
def ReportsAgain (cs : List Call) : Prop :=
  ∃ a b c, [a, b, c].Sublist cs ∧ a.reports ∧ b.isCleanup ∧ c.reports

/-- Every statement that is bound, stepped or reset lives on the open handle, unless messages
are reported before and after a clean-up. -/
theorem statements_live_iff {cs : List Call} (h : ∀ c ∈ cs, c.Succeeds) :
    Safe [] ((outputs call {} cs).flatMap Op.acts) ↔ ¬ ReportsAgain cs :=
  safe_iff_fits holds_initial h

/-- Start, a pass, SIGHUP, and another pass. -/
theorem statements_live_iff_restart :
    let cs : List Call := [.report {} (some "Startup".toList) sensorsDb plainTable true,
      .logger {} sensorsDb false plainTable true, .cleanup, .init sensorsDb plainTable,
      .logger {} sensorsDb false plainTable true]
    Safe [] ((outputs call {} cs).flatMap Op.acts) ↔ ¬ ReportsAgain cs :=
  statements_live_iff (by simp [Call.Succeeds, plainTable, Opening.isOpened])

/-- The first message after SIGHUP goes to the statement that `w1_cleanup` finalized. -/
theorem statements_live_reload :
    ¬ Safe [] ((outputs call {} [.report {} (some "Startup".toList) sensorsDb plainTable true,
      .cleanup, .report {} (some "GHT rejected".toList) sensorsDb plainTable true]).flatMap Op.acts) := by
  decide +kernel

end Sqlite

namespace Pgsql

/-- What a library call does to the statements of the sessions. -/
def Op.acts : Op → List (Act (Conn × String))
  | .reset db => [.release (·.1 == db)]
  | .finish db => [.release (·.1 == db)]
  | .prepare db name _ true => [.acquire (db, name)]
  | .execPrepared db name _ => [.use fun r => r.1 == db && name == some r.2]
  | _ => []

/-- A `PQprepare` that fails. -/
def Op.failedPrepare : Op → Bool
  | .prepare _ _ _ ok => !ok
  | _ => false

/-- The names that the plugin keeps are prepared in the session of its connection. -/
structure Knows (s : Statics) (l : List (Conn × String)) : Prop where
  db : ∀ d, s.db = some d → d.id < s.issued
  stmt : ∀ name, s.stmt = some name → ∃ d, s.db = some d ∧ (d, name) ∈ l
  stml : ∀ name, s.stml = some name → ∃ d, s.db = some d ∧ (d, name) ∈ l

variable {s : Statics} {l : List (Conn × String)} {dbnam : CString} {a : Answers}

theorem knows_initial : Knows {} [] := ⟨by simp, by simp, by simp⟩

theorem Knows.names (h : Knows s l) (hd : s.db = none) : s.stmt = none ∧ s.stml = none := by
  have hno : ∀ name : Option String, (∀ n, name = some n → ∃ d, s.db = some d ∧ (d, n) ∈ l) →
      name = none := by
    intro name hname
    cases name with
    | none => rfl
    | some n =>
      obtain ⟨d, hdb, -⟩ := hname n rfl
      rw [hd] at hdb
      cases hdb
  exact ⟨hno _ h.stmt, hno _ h.stml⟩

/-- What `db_status` can do: connect, leave all as it is, or reset the connection. -/
theorem dbStatus_cases (s : Statics) (dbnam : CString) (a : Answers) :
    (s.db = none ∧ ((dbStatus s dbnam a).1.db = none ∨
        (dbStatus s dbnam a).1.db = some ⟨s.issued, dbnam⟩) ∧
      (dbStatus s dbnam a).1.stmt = s.stmt ∧ (dbStatus s dbnam a).1.stml = s.stml ∧
      (dbStatus s dbnam a).1.issued = s.issued + 1 ∧
      (dbStatus s dbnam a).2.flatMap Op.acts = []) ∨
    ∃ d, s.db = some d ∧ (dbStatus s dbnam a).1.db = some d ∧
      (dbStatus s dbnam a).1.issued = s.issued ∧
      (((dbStatus s dbnam a).1.stmt = s.stmt ∧ (dbStatus s dbnam a).1.stml = s.stml ∧
          (dbStatus s dbnam a).2.flatMap Op.acts = []) ∨
        ((dbStatus s dbnam a).1.stmt = none ∧ (dbStatus s dbnam a).1.stml = none ∧
          (dbStatus s dbnam a).2.flatMap Op.acts = [.release (·.1 == d)])) := by
  unfold Pgsql.dbStatus
  cases hd : s.db with
  | none =>
    refine Or.inl ⟨rfl, ?_⟩
    by_cases ha : a.connecting = .failed
    · simp [w1Opendb, ha, Op.acts]
    · simp only [w1Opendb, if_neg ha]
      split_ifs <;> simp [Op.acts]
  | some db =>
    refine Or.inr ⟨db, rfl, ?_⟩
    by_cases hg : a.good = true
    · simp only [if_pos hg]
      split_ifs <;> simp [Op.acts]
    · simp only [if_neg hg]
      split_ifs <;> simp [Op.acts]

theorem Knows.dbStatus (h : Knows s l) (dbnam : CString) (a : Answers) :
    Safe l ((dbStatus s dbnam a).2.flatMap Op.acts) ∧
      Knows (dbStatus s dbnam a).1 (liveAfter l ((dbStatus s dbnam a).2.flatMap Op.acts)) := by
  rcases dbStatus_cases s dbnam a with ⟨hd, hdb, hs, hm, hi, hacts⟩ | ⟨d, hd, hdb, hi, hrest⟩
  · obtain ⟨hsn, hmn⟩ := h.names hd
    rw [hacts]
    refine ⟨safe_nil, ?_, ?_, ?_⟩
    · intro d hd'
      rcases hdb with hdb | hdb
      · rw [hdb] at hd'
        cases hd'
      · rw [hdb] at hd'
        obtain rfl := Option.some.inj hd'
        rw [hi]
        exact Nat.lt_succ_self _
    · rw [hs, hsn]
      exact fun n hn => nomatch hn
    · rw [hm, hmn]
      exact fun n hn => nomatch hn
  · have hfresh : ∀ d', (Pgsql.dbStatus s dbnam a).1.db = some d' →
        d'.id < (Pgsql.dbStatus s dbnam a).1.issued := by
      intro d' hd'
      rw [hi]
      exact h.db d' (hd.trans (hdb.symm.trans hd'))
    rcases hrest with ⟨hs, hm, hacts⟩ | ⟨hs, hm, hacts⟩
    · rw [hacts]
      refine ⟨safe_nil, hfresh, ?_, ?_⟩
      · rw [hs, hdb, ← hd]
        exact h.stmt
      · rw [hm, hdb, ← hd]
        exact h.stml
    · rw [hacts]
      refine ⟨⟨True.intro, safe_nil⟩, hfresh, ?_, ?_⟩
      · rw [hs]
        exact fun n hn => nomatch hn
      · rw [hm]
        exact fun n hn => nomatch hn

/-! ## One call -/

theorem Knows.acquire (h : Knows s l) (r : Conn × String) : Knows s (r :: l) where
  db := h.db
  stmt name hname := by
    obtain ⟨d, hd, hmem⟩ := h.stmt name hname
    exact ⟨d, hd, List.mem_cons_of_mem r hmem⟩
  stml name hname := by
    obtain ⟨d, hd, hmem⟩ := h.stml name hname
    exact ⟨d, hd, List.mem_cons_of_mem r hmem⟩

/-- A statement that is executed was prepared before, in the session of the connection `d`. -/
def Ready (d : Conn) (name : Option String) (l : List (Conn × String)) : Prop :=
  ∃ r ∈ l, (r.1 == d && name == some r.2) = true

theorem Knows.prepareStmt (h : Knows s l) {d : Conn} (hd : s.db = some d) {ok : Bool}
    (hok : ∀ op ∈ (prepareStmt s d ok).2, op.failedPrepare = false) :
    Safe l ((prepareStmt s d ok).2.flatMap Op.acts) ∧
      Knows (prepareStmt s d ok).1 (liveAfter l ((prepareStmt s d ok).2.flatMap Op.acts)) ∧
      Ready d (prepareStmt s d ok).1.stmt (liveAfter l ((prepareStmt s d ok).2.flatMap Op.acts)) := by
  unfold Pgsql.prepareStmt at hok ⊢
  cases hst : s.stmt with
  | none =>
    rw [if_pos hst] at hok
    have hok' : ok = true := by simpa [Op.failedPrepare] using hok
    subst hok'
    have hacq := h.acquire (d, "insrt")
    simp only [if_true]
    refine ⟨⟨True.intro, safe_nil⟩, ⟨hacq.db, ?_, hacq.stml⟩, ?_⟩
    · intro name hname
      obtain rfl := Option.some.inj hname
      exact ⟨d, hd, List.mem_cons_self⟩
    · exact ⟨(d, "insrt"), List.mem_cons_self, by simp⟩
  | some name =>
    rw [if_neg (by simp)]
    obtain ⟨d', hd', hmem⟩ := h.stmt name hst
    obtain rfl := Option.some.inj (hd.symm.trans hd')
    exact ⟨safe_nil, h, (d, name), hmem, by simp [hst]⟩

theorem Knows.prepareStml (h : Knows s l) {d : Conn} (hd : s.db = some d) {ok : Bool}
    (hok : ∀ op ∈ (prepareStml s d ok).2, op.failedPrepare = false) :
    Safe l ((prepareStml s d ok).2.flatMap Op.acts) ∧
      Knows (prepareStml s d ok).1 (liveAfter l ((prepareStml s d ok).2.flatMap Op.acts)) ∧
      Ready d (prepareStml s d ok).1.stml (liveAfter l ((prepareStml s d ok).2.flatMap Op.acts)) := by
  unfold Pgsql.prepareStml at hok ⊢
  cases hst : s.stml with
  | none =>
    rw [if_pos hst] at hok
    have hok' : ok = true := by simpa [Op.failedPrepare] using hok
    subst hok'
    have hacq := h.acquire (d, "insrl")
    simp only [if_true]
    refine ⟨⟨True.intro, safe_nil⟩, ⟨hacq.db, hacq.stmt, ?_⟩, ?_⟩
    · intro name hname
      obtain rfl := Option.some.inj hname
      exact ⟨d, hd, List.mem_cons_self⟩
    · exact ⟨(d, "insrl"), List.mem_cons_self, by simp⟩
  | some name =>
    rw [if_neg (by simp)]
    obtain ⟨d', hd', hmem⟩ := h.stml name hst
    obtain rfl := Option.some.inj (hd.symm.trans hd')
    exact ⟨safe_nil, h, (d, name), hmem, by simp [hst]⟩

/-- The rows of a pass do nothing to statements but execute `stmt`. -/
theorem uses_inserts (s : Statics) (d : Conn) (w1 : DevList) :
    ∀ a ∈ (inserts s d w1).flatMap Op.acts, a = .use fun r => r.1 == d && s.stmt == some r.2 := by
  intro a ha
  obtain ⟨op, hop, ha⟩ := List.mem_flatMap.mp ha
  unfold inserts at hop
  by_cases hj : s.json = true
  · rw [if_pos hj] at hop
    by_cases hl : w1.logged ≠ []
    · rw [if_pos hl, List.mem_singleton] at hop
      subst hop
      simpa [Op.acts] using ha
    · rw [if_neg hl] at hop
      cases hop
  · rw [if_neg hj] at hop
    obtain ⟨e, -, rfl⟩ := List.mem_map.mp hop
    unfold insertOp at ha
    split at ha
    · cases ha
    · simpa [Op.acts] using ha

/-- A call is safe and keeps what the plugin knows, unless one of its preparations fails. -/
def Keeps (s : Statics) (l : List (Conn × String)) (c : Call) : Prop :=
  (∀ op ∈ (call s c).2, op.failedPrepare = false) →
    Safe l ((call s c).2.flatMap Op.acts) ∧
      Knows (call s c).1 (liveAfter l ((call s c).2.flatMap Op.acts))

/-- Names survive the end of the other sessions. -/
theorem Knows.other (h : Knows s l) {d : Conn} (hd : s.db ≠ some d) :
    Knows s (l.filter fun r => !(r.1 == d)) := by
  have hkeep : ∀ name, (∃ d', s.db = some d' ∧ (d', name) ∈ l) →
      ∃ d', s.db = some d' ∧ (d', name) ∈ l.filter fun r => !(r.1 == d) := by
    rintro name ⟨d', hd', hmem⟩
    have hne : d' ≠ d := fun he => hd (he ▸ hd')
    exact ⟨d', hd', List.mem_filter.mpr ⟨hmem, by simp [hne]⟩⟩
  exact ⟨h.db, fun name hn => hkeep name (h.stmt name hn), fun name hn => hkeep name (h.stml name hn)⟩

theorem keeps_init (h : Knows s l) : Keeps s l (.init dbnam a) := by
  intro _
  have hup : ∀ {l'}, Knows s l' → Knows (call s (.init dbnam a)).1 l' := by
    intro l' h'
    have hs : (call s (.init dbnam a)).1 = { s with
        issued := s.issued + 1, tstamp := s.tstamp || a.connecting.tstamp,
        json := s.json || a.connecting.json } := by
      by_cases ha : a.connecting = .failed <;> simp [call, w1Init, w1Opendb, ha]
    rw [hs]
    exact ⟨fun d hd => (h'.db d hd).trans (Nat.lt_succ_self _), h'.stmt, h'.stml⟩
  have hne : s.db ≠ some ⟨s.issued, dbnam⟩ := fun he => lt_irrefl _ (h.db _ he)
  by_cases ha : a.connecting = .failed
  · have hacts : (call s (.init dbnam a)).2.flatMap Op.acts = [] := by
      simp [call, w1Init, w1Opendb, ha, Op.acts]
    rw [hacts]
    exact ⟨safe_nil, hup h⟩
  · have hacts : (call s (.init dbnam a)).2.flatMap Op.acts =
        [.release (·.1 == ⟨s.issued, dbnam⟩)] := by
      simp [call, w1Init, w1Opendb, ha, Op.acts]
    rw [hacts]
    exact ⟨⟨True.intro, safe_nil⟩, hup (h.other hne)⟩

theorem keeps_logger {w1 : DevList} {locked : Bool} (h : Knows s l) :
    Keeps s l (.logger w1 dbnam locked a) := by
  unfold Keeps
  simp only [call, w1Logger]
  by_cases hl : locked = true
  · rw [if_pos hl]
    exact fun _ => ⟨safe_nil, h⟩
  · rw [if_neg hl]
    obtain ⟨hsafe, hknows⟩ := h.dbStatus dbnam a
    cases hd : (Pgsql.dbStatus s dbnam a).1.db with
    | none => exact fun _ => ⟨hsafe, hknows⟩
    | some d =>
      intro hok
      have hprep : ∀ op ∈ (Pgsql.prepareStmt (Pgsql.dbStatus s dbnam a).1 d a.prepares).2,
          op.failedPrepare = false := fun op hop => hok op (by simp [hop])
      obtain ⟨hsafe', hknows', hready⟩ := hknows.prepareStmt hd hprep
      have huses := uses_inserts (Pgsql.prepareStmt (Pgsql.dbStatus s dbnam a).1 d a.prepares).1 d w1
      simp only [List.flatMap_append, List.flatMap_cons, List.flatMap_nil, Op.acts, List.append_nil]
      refine ⟨?_, ?_⟩
      · rw [List.append_assoc, safe_append, safe_append]
        exact ⟨hsafe, hsafe', (safe_uses huses).mpr (Or.inr hready)⟩
      · rw [liveAfter_append, liveAfter_append, liveAfter_uses huses]
        exact hknows'

theorem keeps_report {w1 : DevList} {lastmsg : Option CString} (h : Knows s l) :
    Keeps s l (.report w1 lastmsg dbnam a) := by
  unfold Keeps
  cases lastmsg with
  | none => exact fun _ => ⟨safe_nil, h⟩
  | some msg =>
    simp only [call, w1Report]
    obtain ⟨hsafe, hknows⟩ := h.dbStatus dbnam a
    cases hd : (Pgsql.dbStatus s dbnam a).1.db with
    | none => exact fun _ => ⟨hsafe, hknows⟩
    | some d =>
      intro hok
      have hprep : ∀ op ∈ (Pgsql.prepareStml (Pgsql.dbStatus s dbnam a).1 d a.prepares).2,
          op.failedPrepare = false := fun op hop => hok op (by simp [hop])
      obtain ⟨hsafe', hknows', hready⟩ := hknows.prepareStml hd hprep
      simp only [List.flatMap_append, List.flatMap_cons, List.flatMap_nil, Op.acts, List.append_nil,
        List.nil_append]
      refine ⟨?_, ?_⟩
      · rw [safe_append, safe_append]
        rw [liveAfter_append]
        exact ⟨⟨hsafe, hsafe'⟩, hready, safe_nil⟩
      · rw [liveAfter_append, liveAfter_append]
        exact hknows'

theorem keeps_cleanup (h : Knows s l) : Keeps s l .cleanup := by
  intro _
  simp only [call, w1Cleanup]
  cases hd : s.db with
  | none => exact ⟨safe_nil, h⟩
  | some db =>
    refine ⟨⟨True.intro, safe_nil⟩, ?_, ?_, ?_⟩
    · exact fun d hd => nomatch hd
    · exact fun name hname => nomatch hname
    · exact fun name hname => nomatch hname

theorem keeps_call (h : Knows s l) (c : Call) : Keeps s l c := by
  cases c with
  | init dbnam a => exact keeps_init h
  | logger w1 dbnam locked a => exact keeps_logger h
  | report w1 lastmsg dbnam a => exact keeps_report h
  | cleanup => exact keeps_cleanup h

/-- Whatever happens to the connection, only statements of the current session are executed,
when no preparation fails. -/
theorem names_prepared {cs : List Call} (h : ∀ op ∈ outputs call {} cs, op.failedPrepare = false) :
    Safe [] ((outputs call {} cs).flatMap Op.acts) := by
  have hturns : ∀ t ∈ turns call {} cs, ∀ op ∈ (call t.before t.call).2,
      op.failedPrepare = false := by
    intro t ht op hop
    exact h op (List.mem_flatMap.mpr ⟨t, ht, (turns_outputs ht).symm ▸ hop⟩)
  exact safe_run knows_initial (fun s l c hs => keeps_call hs c) hturns

/-- A pass, a pass that finds the connection lost, and SIGHUP. -/
theorem names_prepared_reset :
    let cs : List Call := [.init weather ⟨narrowTable, true, true⟩,
      .logger (readingsOf ["GHT".toList]) weather false ⟨narrowTable, true, true⟩,
      .logger (readingsOf ["GHT".toList]) weather false ⟨narrowTable, false, true⟩, .cleanup]
    Safe [] ((outputs call {} cs).flatMap Op.acts) :=
  names_prepared (by decide +kernel)

/-- The preparation fails once; the pass after it executes the statement all the same. -/
theorem names_prepared_failure :
    ¬ ∀ cs : List Call, Safe [] ((outputs call {} cs).flatMap Op.acts) := by
  intro h
  have hlost := h [.logger {} weather false ⟨narrowTable, true, false⟩,
    .logger (readingsOf ["GHT".toList]) weather false ⟨narrowTable, true, true⟩]
  revert hlost
  decide +kernel

end Pgsql
end W1Retap

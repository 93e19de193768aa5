import W1Retap.Plugins.Mongo

/-!
# The host table of the MongoDB plugin

`mongo_params` counts the commas of a replica set to know how large the table is, and then
fills it with the tokens, the first of which is the name of the set. `w1_opendb` goes through
the table and `rset_free` frees it. Here the table has a size, and what is written or read
outside of it stops the program, as do the `NULL` that stands for no table and a value that
does not fit into the array of `sscanf`.
-/
namespace W1Retap.Mongo

open CStrings Programs

/-! ## The functions -/

/-- `w1repset_t`, with the entries that are allocated behind it. -/
structure HostTable where
  setname : Option CString := none
  nhosts : Int := 0
  hp : List (Option Hport)
  deriving DecidableEq, Repr

/-- `rs->hp[nh]` is filled in. -/
def HostTable.setHp (rs : HostTable) (nh : ℕ) (hport : Hport) : Except Stop HostTable :=
  if nh < rs.hp.length then .ok { rs with hp := rs.hp.set nh (some hport) }
  else .error .outOfBounds

/-- The loop over the tokens, which begins with -1 for the name of the set. -/
def fillHosts : List CString → Int → HostTable → Except Stop (Int × HostTable)
  | [], nh, rs => .ok (nh, rs)
  | s1 :: toks, nh, rs =>
    if nh = -1 then fillHosts toks (nh + 1) { rs with setname := some s1 }
    else do
      let rs ← rs.setHp nh.toNat (seedHost s1)
      fillHosts toks (nh + 1) rs

/-- The table, if there is one. -/
def Params.table (p : Params) : Except Stop (Option HostTable) :=
  match p.repset, p.host with
  | some repset, _ => do
    let (nh, rs) ← fillHosts (strsep [','] repset) (-1)
      { hp := List.replicate (repset.count ',') none }
    return some { rs with nhosts := nh }
  | none, some host => do
    let rs ← ({ nhosts := 1, hp := [none] } : HostTable).setHp 0 ⟨host, portOr p.port⟩
    return some rs
  | none, none => return none

/-- `sscanf` stores up to 256 characters and a NUL in `t` and in `v`, which hold 256. -/
def overruns (s1 : CString) : Bool :=
  let t := s1.takeWhile (· ≠ '=')
  let v := ((s1.drop (t.length + 1)).dropWhile isspace).takeWhile fun c => !isspace c
  256 ≤ t.length || (t ≠ [] && t.length < s1.length && 256 ≤ v.length)

def paramsOf (params : CString) : Except Stop Params :=
  if (strsep [' '] params).any overruns then .error .outOfBounds
  else .ok ((assignments params).foldl Params.assign {})

/-- The entries that `w1_opendb` hands to the library: the first to `mongo_sync_connect`, the
others to `mongo_sync_conn_seed_add`. -/
def HostTable.contacts (rs : HostTable) : Except Stop (List Hport) :=
  (List.range rs.nhosts.toNat).mapM fun i =>
    match rs.hp[i]? with
    | some (some hport) => .ok hport
    | some none => .error .nullDeref
    | none => .error .outOfBounds

def rsetFree (r : Option HostTable) : Except Stop Unit :=
  match r with
  | none => .error .nullDeref
  | some r => if r.nhosts.toNat ≤ r.hp.length then .ok () else .error .outOfBounds

/-- `w1_opendb`, as far as it goes through the table. Without hosts nothing is connected, and
the connection that is returned stays `NULL`. -/
def opendbHosts (params : CString) : Except Stop (List Hport) := do
  let p ← paramsOf params
  let rset ← p.table
  let hosts ← match rset with
    | some rs => if 0 < rs.nhosts then rs.contacts else pure []
    | none => pure []
  rsetFree rset
  return hosts

/-! ## Parameter strings -/

/-- A member of a replica set: a host, and a port where it is not the default. -/
structure Member where
  host : CString
  port : Option ℕ
  host_clean : ∀ c ∈ host, c ≠ ',' ∧ c ≠ '/' ∧ ¬ isspace c
  port_range : ∀ n ∈ port, 0 < n ∧ n < 2 ^ 31

def Member.text (m : Member) : CString :=
  m.host ++ m.port.elim [] fun n => '/' :: Nat.toDigits 10 n

def Member.hport (m : Member) : Hport := ⟨m.host, m.port.elim mdefPort fun n => n⟩

/-- An entry of a parameter string. -/
inductive KeyValue where
  | host (name : CString)
  | port (n : ℕ)
  | dbname (name : CString)
  | replica (setname : CString) (members : List Member)

namespace KeyValue

def key : KeyValue → CString
  | host _ => "host".toList
  | port _ => "port".toList
  | dbname _ => "dbname".toList
  | replica _ _ => "replica".toList

def value : KeyValue → CString
  | host name => name
  | port n => Nat.toDigits 10 n
  | dbname name => name
  | replica setname members => List.intercalate [','] (setname :: members.map Member.text)

def text (e : KeyValue) : CString := e.key ++ '=' :: e.value

/-- Values are not empty and have no blanks, and ports are positive numbers. -/
def Valid : KeyValue → Prop
  | host name => name ≠ [] ∧ ∀ c ∈ name, ¬ isspace c
  | port n => 0 < n ∧ n < 2 ^ 31
  | dbname name => name ≠ [] ∧ ∀ c ∈ name, ¬ isspace c
  | replica setname members =>
    (setname ≠ [] ∨ members ≠ []) ∧ ∀ c ∈ setname, c ≠ ',' ∧ ¬ isspace c

instance : ∀ e : KeyValue, Decidable e.Valid
  | host name => inferInstanceAs (Decidable (name ≠ [] ∧ ∀ c ∈ name, ¬ isspace c))
  | port n => inferInstanceAs (Decidable (0 < n ∧ n < 2 ^ 31))
  | dbname name => inferInstanceAs (Decidable (name ≠ [] ∧ ∀ c ∈ name, ¬ isspace c))
  | replica setname members => decidable_of_iff
      (¬ (setname.isEmpty && members.isEmpty) ∧ ∀ c ∈ setname, c ≠ ',' ∧ ¬ isspace c) (by
        cases setname <;> cases members <;> simp [Valid])

def hostName : KeyValue → Option CString
  | host name => some name
  | _ => none

def portNumber : KeyValue → Option ℕ
  | port n => some n
  | _ => none

def replicaSet : KeyValue → Option (CString × List Member)
  | replica setname members => some (setname, members)
  | _ => none

end KeyValue

/-- The string is made of these entries, with blanks between them. -/
structure Written (params : CString) (es : List KeyValue) : Prop where
  tokens : strtok [' '] params = es.map KeyValue.text
  valid : ∀ e ∈ es, e.Valid

/-- The hosts that the entries list: those of the replica set, or the single host with its
port. Of several entries of one kind the last counts. -/
def listedHosts (es : List KeyValue) : List Hport :=
  match (es.filterMap KeyValue.replicaSet).getLast?, (es.filterMap KeyValue.hostName).getLast? with
  | some (_, members), _ => members.map Member.hport
  | none, some name => [⟨name, (es.filterMap KeyValue.portNumber).getLast?.elim mdefPort fun n => n⟩]
  | none, none => []

/-! ## The table is filled exactly -/

/-- The table that is allocated for these hosts, filled. -/
def Repset.table (r : Repset) : HostTable :=
  { setname := r.setname, nhosts := r.hp.length, hp := r.hp.map some }

theorem fillHosts_from (toks : List CString) (setname : Option CString) (nhosts : Int)
    (set : List Hport) :
    fillHosts toks set.length ⟨setname, nhosts, set.map some ++ List.replicate toks.length none⟩ =
      .ok (set.length + toks.length, ⟨setname, nhosts, (set ++ toks.map seedHost).map some⟩) := by
  induction toks generalizing set with
  | nil => simp [fillHosts]
  | cons s1 toks ih =>
    have hnh : ¬ (set.length : Int) = -1 := by omega
    have hset : (⟨setname, nhosts, set.map some ++ List.replicate (s1 :: toks).length none⟩ :
        HostTable).setHp (set.length : Int).toNat (seedHost s1) =
        .ok ⟨setname, nhosts, (set ++ [seedHost s1]).map some ++
          List.replicate toks.length none⟩ := by
      rw [HostTable.setHp, if_pos (by simp)]
      simp [List.replicate_succ]
    have hrest := ih (set ++ [seedHost s1])
    rw [List.length_append, List.length_singleton] at hrest
    rw [fillHosts, if_neg hnh, hset]
    refine Eq.trans hrest ?_
    simp only [List.length_cons, Nat.cast_add, Nat.cast_one, List.map_cons, List.append_assoc,
      List.singleton_append]
    congr 2
    omega

/-- Whatever the string, the tokens fit into the table that the commas asked for. -/
theorem table_eq (p : Params) : p.table = .ok (p.rset.map Repset.table) := by
  unfold Params.table Params.rset
  cases p.repset with
  | none => cases p.host <;> rfl
  | some repset =>
    have hlen := length_strsep ',' repset
    cases hs : strsep [','] repset with
    | nil =>
      rw [hs] at hlen
      simp at hlen
    | cons setname toks =>
      rw [hs, List.length_cons, Nat.add_right_cancel_iff] at hlen
      have hfill := fillHosts_from toks (some setname) 0 []
      simp only [List.map_nil, List.nil_append, List.length_nil, Nat.cast_zero, zero_add] at hfill
      have hfirst : fillHosts (setname :: toks) (-1)
          { hp := List.replicate (repset.count ',') none } =
          .ok (toks.length, ⟨some setname, 0, (toks.map seedHost).map some⟩) := by
        rw [fillHosts, if_pos rfl, ← hlen]
        exact hfill
      simp [hs, hfirst, bind, Except.bind, pure, Except.pure, Repset.table]

theorem contacts_table (r : Repset) : r.table.contacts = .ok r.hp := by
  have hget : ∀ i ∈ List.range r.hp.length, (match (r.hp.map some)[i]? with
      | some (some hport) => Except.ok hport
      | some none => .error .nullDeref
      | none => .error .outOfBounds) = (.ok (r.hp.getD i ⟨[], 0⟩) : Except Stop Hport) := by
    intro i hi
    have hlt := List.mem_range.mp hi
    simp [hlt]
  have hall : (List.range r.hp.length).map (fun i => r.hp.getD i ⟨[], 0⟩) = r.hp := by
    apply List.ext_getElem
    · simp
    · intro i h₁ h₂
      simp [h₂]
  rw [HostTable.contacts]
  exact (mapM_ok hget).trans (congrArg _ hall)

/-- With a table all hosts are contacted; without one it is missed when it is freed. -/
theorem opendbHosts_eq (params : CString) :
    opendbHosts params = (paramsOf params).bind fun p =>
      match p.rset with
      | none => .error .nullDeref
      | some r => .ok r.hp := by
  unfold opendbHosts
  cases paramsOf params with
  | error e => rfl
  | ok p =>
    change (p.table >>= _) = _
    rw [table_eq]
    cases hr : p.rset with
    | none => simp [bind, Except.bind, pure, Except.pure, rsetFree, hr]
    | some r =>
      have hfree : rsetFree (some r.table) = .ok () := by simp [rsetFree, Repset.table]
      cases hhp : r.hp with
      | nil =>
        have hnone : ¬ 0 < r.table.nhosts := by simp [Repset.table, hhp]
        simp [bind, Except.bind, pure, Except.pure, hfree, hnone, hhp, hr]
      | cons h hs =>
        have hpos : 0 < r.table.nhosts := by simp [Repset.table, hhp]
        simp [bind, Except.bind, pure, Except.pure, hfree, hpos, contacts_table, hhp, hr]

/-- What goes through the table without a stop is what `w1_opendb` contacts. -/
theorem mongoParams_hosts {params : CString} {hosts : List Hport} (s : Statics)
    (h : opendbHosts params = .ok hosts) :
    ∃ setname, (mongoParams s params).2 = some ⟨setname, hosts⟩ := by
  rw [opendbHosts_eq, paramsOf] at h
  split at h
  · exact nomatch h
  · change (match ((assignments params).foldl Params.assign {}).rset with
      | none => Except.error Stop.nullDeref
      | some r => .ok r.hp) = .ok hosts at h
    change ∃ setname, ((assignments params).foldl Params.assign {}).rset = some ⟨setname, hosts⟩
    cases hr : ((assignments params).foldl Params.assign {}).rset with
    | none =>
      rw [hr] at h
      exact nomatch h
    | some r =>
      rw [hr] at h
      obtain rfl := Except.ok.inj h
      exact ⟨r.setname, rfl⟩

/-! ## What is read from the entries -/

section
variable {params : CString} {es : List KeyValue} {e : KeyValue} {m : Member}

theorem not_isspace_of_isDigit {n : ℕ} {c : Char} (h : c ∈ Nat.toDigits 10 n) : ¬ isspace c := by
  have hd := Nat.isDigit_of_mem_toDigits (by omega) (by omega) h
  intro hs
  simp only [isspace, Bool.or_eq_true, beq_iff_eq] at hs
  obtain ((((rfl | rfl) | rfl) | rfl) | rfl) | rfl := hs <;> exact absurd hd (by decide)

/-- Its text gives the host and the port of a member back. -/
theorem seedHost_text (m : Member) : seedHost m.text = m.hport := by
  have hhost : ∀ c ∈ m.host, decide (c ≠ '/') = true := fun c hc => by
    simpa using (m.host_clean c hc).2.1
  unfold seedHost Member.text Member.hport
  cases hport : m.port with
  | none =>
    have htake : m.host.takeWhile (· ≠ '/') = m.host := List.takeWhile_eq_self_iff.mpr hhost
    have hdrop : m.host.dropWhile (· ≠ '/') = [] := List.dropWhile_eq_nil_iff.mpr hhost
    rw [Option.elim_none, List.append_nil, htake, hdrop]
    rfl
  | some n =>
    obtain ⟨hpos, hlt⟩ := m.port_range n hport
    have htake : (m.host ++ '/' :: Nat.toDigits 10 n).takeWhile (· ≠ '/') = m.host := by
      rw [List.takeWhile_append_of_pos hhost, List.takeWhile_cons_of_neg (by simp),
        List.append_nil]
    have hdrop : (m.host ++ '/' :: Nat.toDigits 10 n).dropWhile (· ≠ '/') =
        '/' :: Nat.toDigits 10 n := by
      rw [List.dropWhile_append_of_pos hhost, List.dropWhile_cons_of_neg (by simp)]
    rw [Option.elim_some, htake, hdrop, List.drop_one, List.tail_cons,
      strtolAny_toDigits hpos (by omega), wrapInt_of_range (by omega) (by unfold intMax; omega),
      portOr, if_neg (by omega)]
    rfl

theorem comma_notMem_text (m : Member) : ∀ c ∈ m.text, [','].contains c = false := by
  intro c hc
  rcases List.mem_append.mp hc with hhost | hport
  · simpa using (m.host_clean c hhost).1
  · cases hp : m.port with
    | none => simp [hp] at hport
    | some n =>
      rw [hp, Option.elim_some] at hport
      rcases List.mem_cons.mp hport with rfl | hd
      · decide
      · have hdigit := Nat.isDigit_of_mem_toDigits (by omega) (by omega) hd
        have hne : c ≠ ',' := by
          rintro rfl
          exact absurd hdigit (by decide)
        simpa using hne

theorem not_isspace_text (m : Member) : ∀ c ∈ m.text, ¬ isspace c := by
  intro c hc
  rcases List.mem_append.mp hc with hhost | hport
  · exact (m.host_clean c hhost).2.2
  · cases hp : m.port with
    | none => simp [hp] at hport
    | some n =>
      rw [hp, Option.elim_some] at hport
      rcases List.mem_cons.mp hport with rfl | hd
      · decide
      · exact not_isspace_of_isDigit hd

/-- The value of a replica set falls apart into its name and the texts of its members. -/
theorem strsep_replica {setname : CString} (members : List Member)
    (hname : ∀ c ∈ setname, c ≠ ',' ∧ ¬ isspace c) :
    strsep [','] (KeyValue.replica setname members).value =
      setname :: members.map Member.text := by
  apply strsep_intercalate (by decide) (by simp)
  intro v hv c hc
  rcases List.mem_cons.mp hv with rfl | hv
  · simpa using (hname c hc).1
  · obtain ⟨m, -, rfl⟩ := List.mem_map.mp hv
    exact comma_notMem_text m c hc

theorem KeyValue.Valid.value (h : e.Valid) : e.value ≠ [] ∧ ∀ c ∈ e.value, ¬ isspace c := by
  cases e with
  | host name => exact h
  | port n => exact ⟨Nat.toDigits_ne_nil, fun c hc => not_isspace_of_isDigit hc⟩
  | dbname name => exact h
  | replica setname members =>
    obtain ⟨hne, hname⟩ := h
    constructor
    · intro hnil
      have hsplit := strsep_replica members hname
      rw [hnil] at hsplit
      obtain ⟨hs, hm⟩ := List.cons.inj (show [[]] = setname :: members.map Member.text from hsplit)
      rcases hne with hne | hne
      · exact hne hs.symm
      · exact hne (List.map_eq_nil_iff.mp hm.symm)
    · intro c hc
      rcases mem_intercalate hc with hsep | ⟨v, hv, hcv⟩
      · obtain rfl := List.mem_singleton.mp hsep
        decide
      · rcases List.mem_cons.mp hv with rfl | hv
        · exact (hname c hcv).2
        · obtain ⟨m, -, rfl⟩ := List.mem_map.mp hv
          exact not_isspace_text m c hcv

theorem key_mem (e : KeyValue) :
    e.key ∈ ["host".toList, "port".toList, "dbname".toList, "replica".toList] := by
  cases e <;> simp [KeyValue.key]

theorem takeWhile_key (e : KeyValue) : e.text.takeWhile (· ≠ '=') = e.key := by
  have hkeys : ∀ k ∈ ["host".toList, "port".toList, "dbname".toList, "replica".toList],
      ∀ c ∈ k, decide (c ≠ '=') = true := by decide
  have hkey := hkeys e.key (key_mem e)
  rw [KeyValue.text, List.takeWhile_append_of_pos hkey, List.takeWhile_cons_of_neg (by simp),
    List.append_nil]

theorem key_length (e : KeyValue) : e.key ≠ [] ∧ e.key.length < 256 := by
  have hkeys : ∀ k ∈ ["host".toList, "port".toList, "dbname".toList, "replica".toList],
      k ≠ [] ∧ k.length < 256 := by decide
  exact hkeys e.key (key_mem e)

theorem KeyValue.Valid.trim (h : e.Valid) :
    ((e.value.dropWhile isspace).takeWhile fun c => !isspace c) = e.value := by
  obtain ⟨hne, hblank⟩ := h.value
  have hdrop : e.value.dropWhile isspace = e.value := by
    cases hv : e.value with
    | nil => rfl
    | cons c cs =>
      rw [hv] at hblank
      exact List.dropWhile_cons_of_neg (hblank c List.mem_cons_self)
  rw [hdrop, List.takeWhile_eq_self_iff]
  simpa using hblank

/-- A value that does not fit runs over. -/
theorem overruns_text (h : e.Valid) : overruns e.text = decide (256 ≤ e.value.length) := by
  obtain ⟨hne, hlen⟩ := key_length e
  have hdrop : e.text.drop (e.key.length + 1) = e.value := by
    rw [KeyValue.text, ← List.drop_drop, List.drop_left]
    rfl
  have hlt : e.key.length < e.text.length := by simp [KeyValue.text]
  simp only [overruns, takeWhile_key, hdrop, h.trim]
  simp [hne, hlt, hlen]

theorem scanPair_text (h : e.Valid) (hlen : e.value.length < 256) :
    scanPair e.text = some (e.key, e.value) := by
  obtain ⟨hne, hkey⟩ := key_length e
  have htake : e.key.take 256 = e.key := List.take_of_length_le hkey.le
  have hdrop : e.text.drop e.key.length = '=' :: e.value := by
    rw [KeyValue.text, List.drop_left]
  have hvalue : e.value.take 256 = e.value := List.take_of_length_le hlen.le
  simp only [scanPair, takeWhile_key, htake, hdrop, h.trim, hvalue]
  rw [if_neg (not_or.mpr ⟨hne, h.value.1⟩)]

/-- Every value is read as it is written, or one of them does not fit. -/
theorem paramsOf_written (h : Written params es) :
    paramsOf params = if ∀ e ∈ es, e.value.length < 256 then
      .ok ((es.map fun e => (e.key, e.value)).foldl Params.assign {}) else .error .outOfBounds := by
  -- the empty tokens between two blanks are read as nothing
  have hany : (strsep [' '] params).any overruns = (es.map KeyValue.text).any overruns := by
    rw [← h.tokens, strtok, List.any_filter, strsep]
    apply List.any_congr rfl
    intro s1
    by_cases hs : s1 = []
    · rw [hs]
      rfl
    · simp [hs]
  have hpairs : assignments params = (es.map KeyValue.text).filterMap scanPair := by
    rw [← h.tokens, assignments, strtok, List.filterMap_filter, strsep]
    apply List.filterMap_congr
    intro s1 _
    by_cases hs : s1 = []
    · rw [hs]
      rfl
    · simp [hs]
  rw [paramsOf, hany, hpairs]
  by_cases hfit : ∀ e ∈ es, e.value.length < 256
  · have hnone : ¬ (es.map KeyValue.text).any overruns := by
      rw [List.any_map, List.any_eq_true]
      rintro ⟨e, he, hover⟩
      have hover' : overruns e.text = true := hover
      rw [overruns_text (h.valid e he), decide_eq_true_eq] at hover'
      exact absurd (hfit e he) (Nat.not_lt.mpr hover')
    have hread : (es.map KeyValue.text).filterMap scanPair = es.map fun e => (e.key, e.value) := by
      rw [List.filterMap_map, ← List.filterMap_eq_map]
      apply List.filterMap_congr
      intro e he
      exact scanPair_text (h.valid e he) (hfit e he)
    rw [if_neg hnone, if_pos hfit, hread]
  · have hsome : (es.map KeyValue.text).any overruns := by
      push Not at hfit
      obtain ⟨e, he, hlong⟩ := hfit
      rw [List.any_map, List.any_eq_true]
      refine ⟨e, he, ?_⟩
      change overruns e.text = true
      rw [overruns_text (h.valid e he), decide_eq_true_eq]
      exact hlong
    rw [if_pos hsome, if_neg hfit]

/-- What the assignments leave is the last entry of each kind. -/
theorem foldl_assign_written (h : ∀ e ∈ es, e.Valid) :
    let p := (es.map fun e => (e.key, e.value)).foldl Params.assign {}
    p.host = (es.filterMap KeyValue.hostName).getLast? ∧
    p.port = (es.filterMap KeyValue.portNumber).getLast?.elim 0 (fun n => (n : Int)) ∧
    p.repset = (es.filterMap KeyValue.replicaSet).getLast?.map
      fun r => (KeyValue.replica r.1 r.2).value := by
  induction es using List.reverseRecOn with
  | nil => exact ⟨rfl, rfl, rfl⟩
  | append_singleton es e ih =>
    obtain ⟨hhost, hport, hrep⟩ := ih fun e he => h e (by simp [he])
    have he := h e (by simp)
    simp only [List.map_append, List.map_singleton, List.foldl_append, List.foldl_cons,
      List.foldl_nil, List.filterMap_append]
    generalize (es.map fun e => (e.key, e.value)).foldl Params.assign {} = p at hhost hport hrep ⊢
    cases e with
    | host name =>
      refine ⟨?_, ?_, ?_⟩
      · simp [Params.assign, KeyValue.key, KeyValue.value, KeyValue.hostName]
      · simpa [Params.assign, KeyValue.key, KeyValue.portNumber] using hport
      · simpa [Params.assign, KeyValue.key, KeyValue.replicaSet] using hrep
    | port n =>
      have hvalue : wrapInt (strtolAny (Nat.toDigits 10 n)) = n := by
        rw [strtolAny_toDigits he.1 (by have := he.2; omega),
          wrapInt_of_range (by omega) (by have := he.2; unfold intMax; omega)]
      refine ⟨?_, ?_, ?_⟩
      · simpa [Params.assign, KeyValue.key, KeyValue.hostName] using hhost
      · simp [Params.assign, KeyValue.key, KeyValue.value, KeyValue.portNumber, hvalue]
      · simpa [Params.assign, KeyValue.key, KeyValue.replicaSet] using hrep
    | dbname name =>
      refine ⟨?_, ?_, ?_⟩
      · simpa [Params.assign, KeyValue.key, KeyValue.hostName] using hhost
      · simpa [Params.assign, KeyValue.key, KeyValue.portNumber] using hport
      · simpa [Params.assign, KeyValue.key, KeyValue.replicaSet] using hrep
    | replica setname members =>
      refine ⟨?_, ?_, ?_⟩
      · simpa [Params.assign, KeyValue.key, KeyValue.hostName] using hhost
      · simpa [Params.assign, KeyValue.key, KeyValue.portNumber] using hport
      · simp [Params.assign, KeyValue.key, KeyValue.replicaSet]

end

/-! ## When the hosts are those that are listed -/

/-- One of the entries is about hosts. -/
def NamesHost (es : List KeyValue) : Prop :=
  ∃ e ∈ es, e.hostName.isSome ∨ e.replicaSet.isSome

/-- The hosts of a parameter string are contacted, or it is found to have none, exactly when
there is an entry about hosts and every value leaves room for its NUL. -/
theorem opendb_hosts_iff {params : CString} {es : List KeyValue} (h : Written params es) :
    opendbHosts params = .ok (listedHosts es) ↔
      NamesHost es ∧ ∀ e ∈ es, e.value.length < 256 := by
  rw [opendbHosts_eq, paramsOf_written h]
  by_cases hfit : ∀ e ∈ es, e.value.length < 256
  · rw [if_pos hfit, and_iff_left hfit]
    obtain ⟨hhost, hport, hrep⟩ := foldl_assign_written h.valid
    generalize (es.map fun e => (e.key, e.value)).foldl Params.assign {} = p at hhost hport hrep
    change (match p.rset with
      | none => Except.error Stop.nullDeref
      | some r => .ok r.hp) = .ok (listedHosts es) ↔ NamesHost es
    unfold Params.rset listedHosts
    rw [hrep, hhost, hport]
    cases hr : (es.filterMap KeyValue.replicaSet).getLast? with
    | some r =>
      obtain ⟨e, he, hset⟩ := List.mem_filterMap.mp (List.mem_of_getLast? hr)
      refine iff_of_true ?_ ⟨e, he, Or.inr (by rw [hset]; rfl)⟩
      cases e with
      | replica setname members =>
        obtain rfl := Option.some.inj hset
        have hname : ∀ c ∈ setname, c ≠ ',' ∧ ¬ isspace c := (h.valid _ he).2
        have hseeds : (members.map Member.text).map seedHost = members.map Member.hport := by
          rw [List.map_map]
          exact List.map_congr_left fun m _ => seedHost_text m
        simp only [Option.map_some, strsep_replica members hname, List.tail_cons, hseeds]
      | host name => exact nomatch hset
      | port n => exact nomatch hset
      | dbname name => exact nomatch hset
    | none =>
      have hnoset : ∀ e ∈ es, e.replicaSet = none := by
        rw [List.getLast?_eq_none_iff] at hr
        exact List.filterMap_eq_nil_iff.mp hr
      cases hh : (es.filterMap KeyValue.hostName).getLast? with
      | some name =>
        obtain ⟨e, he, hname⟩ := List.mem_filterMap.mp (List.mem_of_getLast? hh)
        refine iff_of_true ?_ ⟨e, he, Or.inl (by rw [hname]; rfl)⟩
        cases hp : (es.filterMap KeyValue.portNumber).getLast? with
        | none => rfl
        | some n =>
          obtain ⟨e', he', hn⟩ := List.mem_filterMap.mp (List.mem_of_getLast? hp)
          have hpos : 0 < n := by
            cases e' with
            | port k =>
              obtain rfl := Option.some.inj hn
              exact (h.valid _ he').1
            | host name => exact nomatch hn
            | dbname name => exact nomatch hn
            | replica setname members => exact nomatch hn
          have hport : portOr (n : Int) = n := if_neg (by omega)
          simp only [Option.map_none, Option.map_some, Option.elim_some, hport]
      | none =>
        have hnohost : ∀ e ∈ es, e.hostName = none := by
          rw [List.getLast?_eq_none_iff] at hh
          exact List.filterMap_eq_nil_iff.mp hh
        refine iff_of_false (fun hok => nomatch hok) ?_
        rintro ⟨e, he, hsome | hsome⟩
        · rw [hnohost e he] at hsome
          exact nomatch hsome
        · rw [hnoset e he] at hsome
          exact nomatch hsome
  · rw [if_neg hfit]
    exact iff_of_false (fun hok => nomatch hok) fun hc => hfit hc.2

/-- `replica=wxset,piglet,tigger/30000,woozle/30001 dbname=wxs` -/
def wxset : List KeyValue :=
  [.replica "wxset".toList
    [⟨"piglet".toList, none, by decide, by simp⟩,
      ⟨"tigger".toList, some 30000, by decide, by simp⟩,
      ⟨"woozle".toList, some 30001, by decide, by simp⟩],
    .dbname "wxs".toList]

theorem opendb_hosts_iff_wxset :
    opendbHosts "replica=wxset,piglet,tigger/30000,woozle/30001 dbname=wxs".toList =
      .ok (listedHosts wxset) :=
  (opendb_hosts_iff ⟨by decide, by decide⟩).mpr ⟨⟨_, List.mem_cons_self, by decide⟩, by decide⟩

/-- A string of one entry, whose host name fills `v`. -/
def longHost : KeyValue := .host (List.replicate 256 'a')

/-- One entry is a parameter string. -/
theorem written_host {name : CString} (hne : name ≠ []) (hname : ∀ c ∈ name, ¬ isspace c) :
    Written (KeyValue.host name).text [.host name] := by
  have hblank : ∀ c ∈ (KeyValue.host name).text, [' '].contains c = false := by
    intro c hc
    rcases List.mem_append.mp hc with hkey | hvalue
    · have hkeys : ∀ c ∈ "host".toList, [' '].contains c = false := by decide
      exact hkeys c hkey
    · rcases List.mem_cons.mp hvalue with rfl | hc
      · decide
      · have hsp : c ≠ ' ' := by
          rintro rfl
          exact hname _ hc rfl
        simpa using hsp
  constructor
  · rw [strtok, List.splitOnP_eq_singleton hblank]
    simp [KeyValue.text]
  · intro e he
    rw [List.mem_singleton.mp he]
    exact ⟨hne, hname⟩

theorem written_longHost : Written longHost.text [longHost] := by
  apply written_host
  · exact List.ne_nil_of_length_pos (by rw [List.length_replicate]; decide)
  · intro c hc
    rw [List.eq_of_mem_replicate hc]
    decide

/-- Without an entry about hosts the table that is freed is missing; a long value runs over. -/
theorem opendb_hosts_fail :
    (Written "dbname=wx".toList [.dbname "wx".toList] ∧
      opendbHosts "dbname=wx".toList ≠ .ok (listedHosts [.dbname "wx".toList])) ∧
    (Written longHost.text [longHost] ∧
      opendbHosts longHost.text ≠ .ok (listedHosts [longHost])) := by
  refine ⟨⟨⟨by decide, by decide⟩, by decide⟩, written_longHost, ?_⟩
  have hlong : ¬ ∀ e ∈ [longHost], e.value.length < 256 := by
    intro h
    have hlen : (List.replicate 256 'a').length < 256 := h longHost List.mem_cons_self
    rw [List.length_replicate] at hlen
    exact absurd hlen (by decide)
  rw [opendbHosts_eq, paramsOf_written written_longHost, if_neg hlong]
  exact fun hok => nomatch hok

end W1Retap.Mongo

import W1Retap.Config.RcFile
import W1Retap.Support.Lines
import Mathlib

/-!
# Lines that do not fit

`read_config` has room for 255 characters, so a longer line reaches the patterns in pieces, each of
which is taken for a line. `wholeLine` reads a line in one piece, with all of its value. The two
agree exactly on the files whose long lines do not suffer: what a line assigns is told by its first
255 characters, and none of its other pieces assigns anything.
-/
namespace W1Retap

open CStrings

/-! ## Lines in one piece -/

/-- The conversion `%512[^\n]` without its limit, and what is made of the text. -/
def textual (make : CString → RcLine) (v : CString) : Option RcLine :=
  let text := v.takeWhile (· ≠ '\n')
  if text = [] then none else some (make text)

/-- The conversion `%d`. -/
def number (make : Int → RcLine) (v : CString) : Option RcLine := (scanLong v).map fun i => make (wrapInt i)

/-- The keys, and what becomes of their values. -/
def conversions : List (String × (CString → Option RcLine)) :=
  [("device", textual .device),
    ("log", textual (.plugin .l)),
    ("init", textual (.plugin .c)),
    ("rep", textual (.plugin .r)),
    ("pidfile", textual .pidfile),
    ("log_time_t", textual fun s => .logTimet (isTrue s)),
    ("allow_rate_escape", textual fun s => .allowEscape (isTrue s)),
    ("force_utc", textual fun s => .forceUtc (isTrue s)),
    ("release_if", textual fun s => .releaseIf (isTrue s)),
    ("log_delimiter", textual fun s => .logDelim (delimiter s)),
    ("pressure_reduction_temp", textual fun s => .presReductionTemp (strtod s)),
    ("delay", number .delay),
    ("demonise", number .demonise),
    ("altitude", number .altitude),
    ("vane_offset", number .vaneOffset),
    ("timestamp", number .timestamp),
    ("logtemp", number .logtemp),
    ("temp_scan", number .tempScan)]

/-- What a line assigns, if it is read in one piece. -/
def assignment (line : CString) : Option RcLine :=
  conversions.findSome? fun kc => (scanKey kc.1 line).bind kc.2

def wholeLine (line : CString) : RcLine := (assignment line).getD .ignored

section
variable {line : CString}

/-- A line with this key: white space may stand on both sides of the equals sign. -/
def HasKey (key : String) (line v : CString) : Prop :=
  ∃ w w' : CString, line = key.toList ++ (w ++ '=' :: (w' ++ v)) ∧ (∀ c ∈ w, isspace c = true) ∧
    (∀ c ∈ w', isspace c = true) ∧ v.dropWhile isspace = v

theorem scanKey_eq_some {key : String} {v : CString} : scanKey key line = some v ↔ HasKey key line v := by
  have hskip : ∀ w v : CString, (∀ c ∈ w, isspace c = true) → (w ++ v).dropWhile isspace = v.dropWhile isspace :=
    fun w v hw => List.dropWhile_append_of_pos hw
  constructor
  · intro h
    unfold scanKey at h
    split_ifs at h with hkey
    split at h
    · next rest hrest =>
      obtain rfl := Option.some.inj h
      obtain ⟨tail, rfl⟩ := List.isPrefixOf_iff_prefix.mp hkey
      rw [← String.length_toList, List.drop_left] at hrest
      refine ⟨tail.takeWhile isspace, rest.takeWhile isspace, ?_, fun c => List.mem_takeWhile_imp,
        fun c => List.mem_takeWhile_imp, List.dropWhile_idempotent ..⟩
      rw [List.takeWhile_append_dropWhile, ← hrest, List.takeWhile_append_dropWhile]
    · exact nomatch h
  · rintro ⟨w, w', rfl, hw, hw', hv⟩
    have hprefix : key.toList.isPrefixOf (key.toList ++ (w ++ '=' :: (w' ++ v))) = true :=
      List.isPrefixOf_iff_prefix.mpr ⟨_, rfl⟩
    rw [scanKey, if_pos hprefix, ← String.length_toList, List.drop_left, hskip w _ hw,
      List.dropWhile_cons_of_neg (by decide)]
    exact congrArg some ((hskip w' v hw').trans hv)

theorem HasKey.length_le {key : String} {v : CString} (h : HasKey key line v) : v.length ≤ line.length := by
  obtain ⟨w, w', rfl, -⟩ := h
  simp only [List.length_append, List.length_cons]
  omega

/-- The limit of 512 characters does not matter to a line that is not longer. -/
theorem scanText_map (hline : line.length ≤ 512) (key : String) (make : CString → RcLine) :
    (scanText key line).map make = (scanKey key line).bind (textual make) := by
  unfold scanText textual
  cases h : scanKey key line with
  | none => rfl
  | some v =>
    have htext : (v.takeWhile (· ≠ '\n')).length ≤ 512 :=
      ((List.takeWhile_sublist _).length_le.trans (scanKey_eq_some.mp h).length_le).trans hline
    simp only [Option.bind_eq_bind, Option.bind_some, List.take_of_length_le htext]
    split_ifs <;> rfl

theorem scanInt_map (key : String) (make : Int → RcLine) :
    (scanInt key line).map make = (scanKey key line).bind (number make) := by
  unfold scanInt number
  cases h : scanKey key line with
  | none => rfl
  | some v =>
    cases hv : scanLong v <;> simp [hv]

theorem parseLine_eq (hline : line.length ≤ 512) : parseLine line = wholeLine line := by
  have hpatterns : patterns line = conversions.map fun kc => (scanKey kc.1 line).bind kc.2 := by
    simp only [patterns, conversions, List.map_cons, List.map_nil, scanText_map hline, scanInt_map]
  rw [parseLine, wholeLine, assignment, hpatterns, List.findSome?_map]
  rfl

/-! ## Cut lines -/

/-- White space before the equals sign, as far as it goes. -/
theorem takeWhile_eq_sign {w r : CString} (hw : ∀ c ∈ w, isspace c = true) :
    (w ++ '=' :: r).takeWhile isspace = w := by
  rw [List.takeWhile_append_of_pos hw, List.takeWhile_cons_of_neg (by decide), List.append_nil]

theorem dropWhile_take {v : CString} (hv : v.dropWhile isspace = v) (k : ℕ) :
    (v.take k).dropWhile isspace = v.take k := by
  cases v with
  | nil => rw [List.take_nil, List.dropWhile_nil]
  | cons c cs =>
    have hc : ¬ isspace c = true := by
      intro hc
      have hlen := congrArg List.length hv
      rw [List.dropWhile_cons_of_pos hc, List.length_cons] at hlen
      have hle := (List.dropWhile_sublist isspace (l := cs)).length_le
      omega
    cases k with
    | zero => rfl
    | succ k => rw [List.take_succ_cons, List.dropWhile_cons_of_neg hc]

/-- The value of a line that is cut, where there is something left of it. -/
theorem scanKey_take {n : ℕ} {key : String} {conv : CString → Option RcLine} (hconv : conv [] = none) :
    (scanKey key (line.take n)).bind conv =
      (scanKey key line).bind fun v => conv (v.take (n - (line.length - v.length))) := by
  have hextend : ∀ v', HasKey key (line.take n) v' → ∃ w rest,
      line = key.toList ++ (w ++ '=' :: rest) ∧ (∀ c ∈ w, isspace c = true) ∧
        key.toList.length + w.length + 1 ≤ n := by
    rintro v' ⟨w, w', heq, hw, -⟩
    have hlen := congrArg List.length heq
    simp only [List.length_append, List.length_cons, List.length_take] at hlen
    refine ⟨w, w' ++ v' ++ line.drop n, ?_, hw, by omega⟩
    conv_lhs => rw [← List.take_append_drop n line, heq]
    simp
  cases h : scanKey key line with
  | none =>
    cases h' : scanKey key (line.take n) with
    | none => rfl
    | some v' =>
      obtain ⟨w, rest, heq, hw, -⟩ := hextend v' (scanKey_eq_some.mp h')
      have hkey : HasKey key line (rest.dropWhile isspace) := by
        refine ⟨w, rest.takeWhile isspace, ?_, hw, fun c => List.mem_takeWhile_imp, List.dropWhile_idempotent ..⟩
        rw [List.takeWhile_append_dropWhile]
        exact heq
      exact nomatch h.symm.trans (scanKey_eq_some.mpr hkey)
  | some v =>
    obtain ⟨w, w', heq, hw, hw', hv⟩ := scanKey_eq_some.mp h
    have hlen := congrArg List.length heq
    simp only [List.length_append, List.length_cons] at hlen
    by_cases hn : key.toList.length + w.length + 1 ≤ n
    · have hcut : HasKey key (line.take n) (v.take (n - (line.length - v.length))) := by
        refine ⟨w, w'.take (n - (key.toList.length + w.length + 1)), ?_, hw,
          fun c hc => hw' c (List.mem_of_mem_take hc), dropWhile_take hv _⟩
        obtain ⟨m, rfl⟩ := Nat.exists_eq_add_of_le hn
        rw [heq, List.take_append, List.take_of_length_le (by omega), List.take_append,
          List.take_of_length_le (by omega),
          show key.toList.length + w.length + 1 + m - key.toList.length - w.length = m + 1 by omega,
          List.take_succ_cons, List.take_append, ← heq, hlen]
        congr 5
        all_goals omega
      rw [scanKey_eq_some.mpr hcut]
      rfl
    · have hnone : scanKey key (line.take n) = none := by
        cases h' : scanKey key (line.take n) with
        | none => rfl
        | some v' =>
          obtain ⟨w₁, rest, heq₁, hw₁, hroom⟩ := hextend v' (scanKey_eq_some.mp h')
          have hsame : w₁ = w := by
            rw [← takeWhile_eq_sign hw₁ (r := rest), ← takeWhile_eq_sign hw (r := w' ++ v),
              List.append_cancel_left (heq₁.symm.trans heq)]
          exact absurd (hsame ▸ hroom) hn
      rw [hnone, Option.bind_none, Option.bind_some, Nat.sub_eq_zero_of_le (by omega), List.take_zero, hconv]

/-! ## The key of a line -/

/-- Not what ends a key. -/
def plain (c : Char) : Bool := !(isspace c || c == '=')

theorem HasKey.key_eq {key : String} {v : CString} (h : HasKey key line v)
    (hkey : ∀ c ∈ key.toList, plain c = true) : key.toList = line.takeWhile plain := by
  obtain ⟨w, w', rfl, hw, -⟩ := h
  have hend : (w ++ '=' :: (w' ++ v)).takeWhile plain = [] := by
    cases w with
    | nil => rfl
    | cons c cs => exact List.takeWhile_cons_of_neg (by simp [plain, hw c List.mem_cons_self])
  rw [List.takeWhile_append_of_pos hkey, hend, List.append_nil]

theorem plain_keys : ∀ kc ∈ conversions, ∀ c ∈ kc.1.toList, plain c = true := by decide

theorem nodup_keys : (conversions.map Prod.fst).Nodup := by decide

theorem conversion_nil : ∀ kc ∈ conversions, kc.2 [] = none := by decide

theorem textual_ne {make : CString → RcLine} (h : ∀ s, make s ≠ .ignored) (v : CString) :
    textual make v ≠ some .ignored := by
  rw [textual]
  split_ifs
  · exact fun h => nomatch h
  · exact fun heq => h _ (Option.some.inj heq)

theorem number_ne {make : Int → RcLine} (h : ∀ i, make i ≠ .ignored) (v : CString) :
    number make v ≠ some .ignored := by
  intro heq
  obtain ⟨i, -, hi⟩ := Option.map_eq_some_iff.mp heq
  exact h _ hi

theorem conversion_ne : ∀ kc ∈ conversions, ∀ v, kc.2 v ≠ some .ignored := by
  simp [conversions, textual_ne, number_ne]

theorem findSome_unique {α β : Type} {f : α → Option β} {l : List α} {a : α} (ha : a ∈ l)
    (h : ∀ b ∈ l, b ≠ a → f b = none) : l.findSome? f = f a := by
  cases hl : l.findSome? f with
  | none => exact (List.findSome?_eq_none_iff.mp hl a ha).symm
  | some r =>
    obtain ⟨b, hb, hr⟩ := List.exists_of_findSome?_eq_some hl
    by_cases hba : b = a
    · rw [← hba, hr]
    · exact nomatch hr.symm.trans (h b hb hba)

theorem findSome_congr {α β : Type} {f g : α → Option β} {l : List α} (h : ∀ a ∈ l, f a = g a) :
    l.findSome? f = l.findSome? g := by
  induction l with
  | nil => rfl
  | cons a l ih =>
    rw [List.findSome?_cons, List.findSome?_cons, h a List.mem_cons_self, ih fun b hb => h b (List.mem_cons_of_mem _ hb)]

/-- Of all keys only the one that the line has counts. -/
theorem findSome_of_key {kc : String × (CString → Option RcLine)} (hkc : kc ∈ conversions) {v : CString}
    (h : scanKey kc.1 line = some v) (g : String × (CString → Option RcLine) → CString → Option RcLine) :
    (conversions.findSome? fun kc => (scanKey kc.1 line).bind (g kc)) = g kc v := by
  rw [findSome_unique hkc, h, Option.bind_some]
  intro kc' hkc' hne
  cases h' : scanKey kc'.1 line with
  | none => rfl
  | some v' =>
    have hkey := (scanKey_eq_some.mp h).key_eq (plain_keys kc hkc)
    have hkey' := (scanKey_eq_some.mp h').key_eq (plain_keys kc' hkc')
    have hsame := String.toList_inj.mp (hkey'.trans hkey.symm)
    exact absurd (List.inj_on_of_nodup_map nodup_keys hkc' hkc hsame) hne

theorem assignment_ne : assignment line ≠ some .ignored := by
  intro h
  obtain ⟨kc, hkc, hv⟩ := List.exists_of_findSome?_eq_some h
  obtain ⟨v, -, hv⟩ := Option.bind_eq_some_iff.mp hv
  exact conversion_ne kc hkc v hv

theorem wholeLine_eq_ignored : wholeLine line = .ignored ↔ assignment line = none := by
  rw [wholeLine]
  cases h : assignment line with
  | none => exact iff_of_true rfl rfl
  | some a => exact iff_of_false (fun heq => assignment_ne (h.trans (congrArg some heq))) fun hnone => nomatch hnone

theorem wholeLine_inj {line' : CString} : wholeLine line = wholeLine line' ↔ assignment line = assignment line' := by
  refine ⟨fun heq => ?_, fun heq => by rw [wholeLine, wholeLine, heq]⟩
  cases h : assignment line with
  | none =>
    have hignored := wholeLine_eq_ignored.mpr h
    exact (wholeLine_eq_ignored.mp (heq.symm.trans hignored)).symm
  | some a =>
    cases h' : assignment line' with
    | none =>
      have hignored := wholeLine_eq_ignored.mpr h'
      exact nomatch h.symm.trans (wholeLine_eq_ignored.mp (heq.trans hignored))
    | some a' =>
      rw [wholeLine, wholeLine, h, h'] at heq
      exact congrArg some heq

/-! ## Lines in pieces -/

/-- The value of the line is converted to the same from its characters among the first 255. -/
def Complete (line : CString) : Prop :=
  ∀ kc ∈ conversions, ∀ v, scanKey kc.1 line = some v →
    kc.2 (v.take (255 - (line.length - v.length))) = kc.2 v

/-- The value is complete, and no other piece of the line is an assignment. -/
structure Intact (line : CString) : Prop where
  complete : Complete line
  pieces : ∀ k ≥ 1, assignment ((line.drop (255 * k)).take 255) = none

theorem assignment_take_iff : assignment (line.take 255) = assignment line ↔ Complete line := by
  have htake : assignment (line.take 255) = conversions.findSome? fun kc =>
      (scanKey kc.1 line).bind fun v => kc.2 (v.take (255 - (line.length - v.length))) :=
    findSome_congr fun kc hkc => scanKey_take (conversion_nil kc hkc)
  constructor
  · intro heq kc hkc v hv
    rw [htake, assignment, findSome_of_key hkc hv fun kc v => kc.2 (v.take (255 - (line.length - v.length))),
      findSome_of_key hkc hv fun kc => kc.2] at heq
    exact heq
  · intro hcomplete
    rw [htake, assignment]
    refine findSome_congr fun kc hkc => ?_
    cases hv : scanKey kc.1 line with
    | none => rfl
    | some v => exact hcomplete kc hkc v hv

theorem intact_of_length (hline : line.length ≤ 255) : Intact line := by
  refine ⟨fun kc _ v hv => ?_, fun k hk => ?_⟩
  · have hle := (scanKey_eq_some.mp hv).length_le
    rw [List.take_of_length_le (by omega)]
  · rw [List.drop_eq_nil_of_le (by omega)]
    decide

end

/-! ## What a file asks for -/

/-- The assignments among some lines. -/
def assigned (lines : List RcLine) : List RcLine := lines.filter (· ≠ .ignored)

/-- `read_config`, if it read each line in one piece. -/
def readLines {σ : Type} (host : Host) (text : CString) : M σ Unit := do
  let w1 ← getW1
  modifyW1 fun w => { w with rcfile := some (host.rcPath w1.rcfile) }
  ((physicalLines text []).map wholeLine).forM (applyLine host)

/-- The file is read line by line: `read_config` does what its lines ask for, each line asks for
what it would in one piece, and no other piece of a line is an assignment of its own. -/
structure LineOriented (text : CString) : Prop where
  runs : ∀ (σ : Type) (host : Host) (s : Machine σ), host.contents (host.rcPath s.w1.rcfile) = some text →
    (readConfig host).run s = (readLines host text).run s
  lines : ∀ line ∈ physicalLines text [],
    assigned ((fgets 255 line []).map parseLine) = assigned [wholeLine line]
  tails : ∀ line ∈ physicalLines text [], ∀ p ∈ (fgets 255 line []).tail, parseLine p = .ignored

/-- Ignored lines do nothing. -/
theorem forM_assigned {σ : Type} (host : Host) (lines : List RcLine) :
    (assigned lines).forM (applyLine (σ := σ) host) = lines.forM (applyLine host) := by
  induction lines with
  | nil => rfl
  | cons a lines ih =>
    by_cases ha : a = .ignored
    · subst ha
      exact ih
    · rw [assigned, List.filter_cons_of_pos (by simpa using ha)]
      exact bind_congr fun _ => ih

theorem assigned_flatMap {α : Type} (f : α → List RcLine) (g : α → RcLine) (l : List α)
    (h : ∀ a ∈ l, assigned (f a) = assigned [g a]) : assigned (l.flatMap f) = assigned (l.map g) := by
  induction l with
  | nil => rfl
  | cons a l ih =>
    have hrest := ih fun b hb => h b (List.mem_cons_of_mem _ hb)
    rw [List.flatMap_cons, List.map_cons, assigned, List.filter_append]
    exact (congrArg₂ (· ++ ·) (h a List.mem_cons_self) hrest).trans (List.filter_append ..).symm

theorem assigned_singleton_inj {a b : RcLine} : assigned [a] = assigned [b] ↔ a = b := by
  refine ⟨fun h => ?_, fun h => by rw [h]⟩
  by_cases ha : a = .ignored <;> by_cases hb : b = .ignored <;> simp_all [assigned]

section
variable {line : CString}

/-- A line in pieces of which the first alone may assign. -/
theorem assigned_pieces (hne : line ≠ []) (hend : '\n' ∉ line.dropLast)
    (htails : ∀ p ∈ (fgets 255 line []).tail, parseLine p = .ignored) :
    assigned ((fgets 255 line []).map parseLine) = assigned [wholeLine (line.take 255)] := by
  have hfirst : parseLine (line.take 255) = wholeLine (line.take 255) :=
    parseLine_eq (by rw [List.length_take]; omega)
  rw [fgets_line_cons (by decide) hne hend] at htails ⊢
  have hrest : assigned ((fgets 255 (line.drop 255) []).map parseLine) = [] := by
    refine List.filter_eq_nil_iff.mpr fun a ha => ?_
    obtain ⟨p, hp, rfl⟩ := List.mem_map.mp ha
    simp [htails p hp]
  rw [List.map_cons, hfirst, ← List.singleton_append, assigned, List.filter_append]
  exact (congrArg _ hrest).trans (List.append_nil _)

/-- The pieces after the first start at the multiples of 255. -/
theorem tails_iff (hne : line ≠ []) (hend : '\n' ∉ line.dropLast) :
    (∀ p ∈ (fgets 255 line []).tail, parseLine p = .ignored) ↔
      ∀ k ≥ 1, assignment ((line.drop (255 * k)).take 255) = none := by
  have hpiece : ∀ k, parseLine ((line.drop (255 * k)).take 255) = .ignored ↔
      assignment ((line.drop (255 * k)).take 255) = none := by
    intro k
    rw [parseLine_eq (by rw [List.length_take]; omega)]
    exact wholeLine_eq_ignored
  rw [fgets_line_cons (by decide) hne hend, List.tail_cons]
  constructor
  · intro h k hk
    by_cases hlen : 255 * k < line.length
    · refine (hpiece k).mp (h _ ((mem_fgets_line (by decide) (notMem_dropLast_drop hend) _).mpr ⟨k - 1, ?_, ?_⟩))
      · rw [List.length_drop]
        omega
      · rw [List.drop_drop, show 255 + 255 * (k - 1) = 255 * k by omega]
    · rw [List.drop_eq_nil_of_le (by omega)]
      decide
  · intro h p hp
    obtain ⟨k, -, rfl⟩ := (mem_fgets_line (by decide) (notMem_dropLast_drop hend) p).mp hp
    rw [List.drop_drop, show 255 + 255 * k = 255 * (k + 1) by omega]
    exact (hpiece (k + 1)).mpr (h (k + 1) (by omega))

end

theorem LineOriented.of_intact {text : CString} (h : ∀ line ∈ physicalLines text [], Intact line) :
    LineOriented text := by
  have hshape : ∀ line ∈ physicalLines text [], line ≠ [] ∧ '\n' ∉ line.dropLast :=
    physicalLines_shape List.not_mem_nil
  have htails : ∀ line ∈ physicalLines text [], ∀ p ∈ (fgets 255 line []).tail, parseLine p = .ignored :=
    fun line hline => (tails_iff (hshape line hline).1 (hshape line hline).2).mpr (h line hline).pieces
  have hlines : ∀ line ∈ physicalLines text [],
      assigned ((fgets 255 line []).map parseLine) = assigned [wholeLine line] := by
    intro line hline
    rw [assigned_pieces (hshape line hline).1 (hshape line hline).2 (htails line hline)]
    exact assigned_singleton_inj.mpr (wholeLine_inj.mpr (assignment_take_iff.mpr (h line hline).complete))
  refine ⟨fun σ host s htext => ?_, hlines, htails⟩
  have hpieces : fgets 255 text [] = (physicalLines text []).flatMap (fgets 255 · []) :=
    fgets_eq_flatMap (List.not_mem_nil : '\n' ∉ [])
  have hsame : ((host.rcLines s.w1.rcfile).forM (applyLine host) : M σ Unit) =
      ((physicalLines text []).map wholeLine).forM (applyLine host) := by
    rw [Host.rcLines, htext, ← forM_assigned, ← forM_assigned host ((physicalLines text []).map wholeLine)]
    dsimp only
    rw [hpieces, List.map_flatMap, assigned_flatMap _ _ _ hlines]
  exact congrArg (fun m : M σ Unit => StateT.run (do
    let w1 ← getW1
    modifyW1 fun w => { w with rcfile := some (host.rcPath w1.rcfile) }
    m) s) hsame

/-- A comment of 255 characters, and one more setting for the reader. -/
def commentText : CString := '#' :: List.replicate 254 '-' ++ "delay = 5\n".toList

end W1Retap

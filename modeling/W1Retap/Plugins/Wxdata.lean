import W1Retap.Plugins.Numbers
import W1Retap.Support.Json

/-!
# The JSON documents

With a JSON column the sqlite and PostgreSQL plugins insert one row for a pass. Its document is
put together with `sprintf` in a buffer of 4096 bytes; names are not escaped.
-/
namespace W1Retap

open CStrings Printf Json

/-! ## The text -/

/-- `sprintf(jptr, "\"%s\":%s,", abbrv, rval)`, where `text` is what the buffer holds. -/
def appendMember (text : CString) (m : Option CString × Printed) : Except Stop CString :=
  let text := text ++ '"' :: showStr m.1 ++ '"' :: ':' :: m.2.text ++ [',']
  if (bytes text).length < 4096 then .ok text else .error .outOfBounds

/-- The document; the brace takes the place of the last comma. -/
def wxdataText (ms : List (Option CString × Printed)) : Except Stop CString := do
  let text ← ms.foldlM appendMember ['{']
  return text.dropLast ++ ['}']

/-- The row of a pass is there if something was read, and its document is read back. -/
structure JsonRoundTrip (w1 : DevList) : Prop where
  empty : w1.logged = [] → (∀ s stmt, s.json = true → .step stmt ∉ Sqlite.inserts s w1) ∧
    ∀ s db, s.json = true → Pgsql.inserts s db w1 = []
  sqlite : w1.logged ≠ [] → ∀ s, s.json = true → Sqlite.inserts s w1 =
    [.bind s.stmt 1 (s.date w1), .bind s.stmt 2 (.wxdata w1.wxdata), .step s.stmt, .reset s.stmt]
  pgsql : w1.logged ≠ [] → ∀ s db, s.json = true → Pgsql.inserts s db w1 =
    [.execPrepared db s.stmt [.stamp (s.date w1), .wxdata w1.wxdata]]
  text : w1.logged ≠ [] → ∃ text xs, wxdataText w1.wxdata = .ok text ∧
    readObject text = some xs ∧
    List.Forall₂ (fun e x => x.1 = showStr e.abbrv ∧ Denotes e.printed.text x.2) w1.logged xs

/-! ## The numeral of a value -/

def Printed.numeral (p : Printed) : Numeral :=
  match p.format with
  | "%g" => general p.value
  | "%.0f" => fixed 0 p.value
  | _ => fixed 6 p.value

theorem Printed.text_eq (p : Printed) : p.text = p.numeral.text := by
  obtain ⟨format, value⟩ := p
  by_cases hgeneral : format = "%g"
  · subst hgeneral
    rfl
  · by_cases hwhole : format = "%.0f"
    · subst hwhole
      rfl
    · simp only [Printed.text, Printed.numeral]

theorem Printed.proper (p : Printed) : p.numeral.Proper := by
  unfold Printed.numeral
  split
  · exact proper_general _
  · exact proper_fixed _ _
  · exact proper_fixed _ _

/-! ## The buffer -/

/-- The members as they are written. -/
def memberTexts (ms : List (Option CString × Printed)) : List (CString × Numeral) :=
  ms.map fun m => (showStr m.1, m.2.numeral)

/-- How many bytes a member takes, with its quotes, colon and comma. -/
def memberSize (m : CString × Numeral) : ℕ := (bytes m.1).length + (bytes m.2.text).length + 4

/-- How many bytes the document takes. -/
def wxdataSize (ms : List (Option CString × Printed)) : ℕ :=
  1 + ((memberTexts ms).map memberSize).sum

theorem length_bytes_append (s t : CString) :
    (bytes (s ++ t)).length = (bytes s).length + (bytes t).length := by
  rw [bytes, List.flatMap_append, List.length_append]
  rfl

theorem length_bytes_member (m : CString × Numeral) :
    (bytes (member m ++ [','])).length = memberSize m := by
  have hassoc : member m ++ [','] = ['"'] ++ m.1 ++ ['"', ':'] ++ m.2.text ++ [','] := by
    simp [member]
  have hone : (bytes ['"']).length = 1 := by decide
  have htwo : (bytes ['"', ':']).length = 2 := by decide
  have hcomma : (bytes [',']).length = 1 := by decide
  rw [hassoc, memberSize]
  simp only [length_bytes_append, hone, htwo, hcomma]
  omega

theorem appendMember_eq (text : CString) (m : Option CString × Printed) :
    appendMember text m =
      if (bytes text).length + memberSize (showStr m.1, m.2.numeral) < 4096 then
        .ok (text ++ (member (showStr m.1, m.2.numeral) ++ [',']))
      else .error .outOfBounds := by
  have hassoc : text ++ '"' :: showStr m.1 ++ '"' :: ':' :: m.2.text ++ [','] =
      text ++ (member (showStr m.1, m.2.numeral) ++ [',']) := by
    simp [member, Printed.text_eq]
  rw [appendMember, hassoc]
  simp only [length_bytes_append text, length_bytes_member]

/-- The loop over the sensors. -/
theorem foldlM_appendMember (ms : List (Option CString × Printed)) (text : CString)
    (htext : (bytes text).length < 4096) : ms.foldlM appendMember text =
      if (bytes text).length + ((memberTexts ms).map memberSize).sum < 4096 then
        .ok (text ++ (memberTexts ms).flatMap fun m => member m ++ [','])
      else .error .outOfBounds := by
  induction ms generalizing text with
  | nil => simp [memberTexts, htext, pure, Except.pure]
  | cons m ms ih =>
    have hcons : memberTexts (m :: ms) = (showStr m.1, m.2.numeral) :: memberTexts ms := rfl
    rw [List.foldlM_cons, appendMember_eq, hcons, List.map_cons, List.sum_cons, List.flatMap_cons]
    by_cases hfits : (bytes text).length + memberSize (showStr m.1, m.2.numeral) < 4096
    · have hlen : (bytes (text ++ (member (showStr m.1, m.2.numeral) ++ [',']))).length =
          (bytes text).length + memberSize (showStr m.1, m.2.numeral) := by
        rw [length_bytes_append, length_bytes_member]
      rw [if_pos hfits]
      refine (ih _ (hlen ▸ hfits)).trans ?_
      rw [hlen, Nat.add_assoc, List.append_assoc]
    · rw [if_neg hfits, if_neg (by omega)]
      rfl

/-- The document that is written, if the buffer has room for it. -/
theorem wxdataText_eq {ms : List (Option CString × Printed)} (hne : ms ≠ []) : wxdataText ms =
    if wxdataSize ms < 4096 then .ok ('{' :: members (memberTexts ms)) else .error .outOfBounds := by
  have hbrace : (bytes ['{']).length = 1 := by decide
  have hpieces : ((memberTexts ms).flatMap fun m => member m ++ [',']) ≠ [] := by
    cases ms with
    | nil => exact absurd rfl hne
    | cons m ms => simp [memberTexts]
  rw [wxdataText, foldlM_appendMember ms ['{'] (by decide), hbrace, wxdataSize]
  split_ifs
  · have hdrop : (['{'] ++ (memberTexts ms).flatMap fun m => member m ++ [',']).dropLast =
        ['{'] ++ ((memberTexts ms).flatMap fun m => member m ++ [',']).dropLast :=
      List.dropLast_append_of_ne_nil hpieces
    change Except.ok ((['{'] ++ (memberTexts ms).flatMap fun m => member m ++ [',']).dropLast ++
      ['}']) = _
    rw [hdrop, members_eq]
    rfl
  · rfl

/-! ## The round trip -/

theorem memberTexts_wxdata (w1 : DevList) :
    memberTexts w1.wxdata = w1.logged.map fun e => (showStr e.abbrv, e.printed.numeral) := by
  rw [memberTexts, DevList.wxdata, List.map_map]
  rfl

/-- The names and numbers that a document should give back. -/
theorem forall₂_pairs_iff (w1 : DevList) (xs : List (CString × ℚ)) :
    List.Forall₂ (fun e x => x.1 = showStr e.abbrv ∧ Denotes e.printed.text x.2) w1.logged xs ↔
      xs = pairs (memberTexts w1.wxdata) := by
  have hone : ∀ (e : Logged) (x : CString × ℚ), x.1 = showStr e.abbrv ∧ Denotes e.printed.text x.2 ↔
      x = (showStr e.abbrv, e.printed.numeral.value) := by
    intro e x
    have hdenotes := denotes_text e.printed.proper
    rw [← Printed.text_eq] at hdenotes
    constructor
    · rintro ⟨hkey, hnum⟩
      exact Prod.ext hkey (denotes_unique hnum hdenotes)
    · rintro rfl
      exact ⟨rfl, hdenotes⟩
  have hpairs : pairs (memberTexts w1.wxdata) =
      w1.logged.map fun e => (showStr e.abbrv, e.printed.numeral.value) := by
    rw [memberTexts_wxdata, pairs, List.map_map]
    rfl
  have hmap : xs = pairs (memberTexts w1.wxdata) ↔ List.Forall₂ (fun e x => x =
      (showStr e.abbrv, e.printed.numeral.value)) w1.logged xs := by
    rw [hpairs, eq_comm, ← List.forall₂_eq_eq_eq, List.forall₂_map_left_iff]
    simp only [eq_comm]
  rw [hmap]
  simp only [hone]

/-- Which names are written as they are. -/
theorem plain_of_roundTrip {w1 : DevList} (h : JsonRoundTrip w1) :
    (∀ e ∈ w1.logged, Plain (showStr e.abbrv)) ∧ wxdataSize w1.wxdata < 4096 := by
  by_cases hlogged : w1.logged = []
  · rw [DevList.wxdata, hlogged]
    exact ⟨List.forall_mem_nil _, by decide⟩
  · have hne : w1.wxdata ≠ [] := by simpa [DevList.wxdata] using hlogged
    obtain ⟨text, xs, htext, hread, hxs⟩ := h.text hlogged
    rw [wxdataText_eq hne] at htext
    by_cases hsize : wxdataSize w1.wxdata < 4096
    · rw [if_pos hsize] at htext
      refine ⟨?_, hsize⟩
      rw [← Except.ok.inj htext, (forall₂_pairs_iff w1 xs).mp hxs, memberTexts_wxdata] at hread
      have hplain := (readObject_members_iff ?_ ?_).mp hread
      · exact fun e he => hplain _ (List.mem_map_of_mem he)
      · simpa using hlogged
      · intro m hm
        obtain ⟨e, -, rfl⟩ := List.mem_map.mp hm
        exact e.printed.proper
    · rw [if_neg hsize] at htext
      cases htext

end W1Retap

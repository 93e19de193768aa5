import W1Retap.Plugins.Wxdata

/-!
# The buffers of the texts

`w1_tmpfilelog` writes into a buffer that grows with the number of devices, and the JSON
document has 4096 bytes. How much is written depends on the sensors and their names.
-/
namespace W1Retap

open CStrings Printf

/-! ## The snapshot file -/

/-- `n += sprintf(line + n, ..)` in a buffer of `cap` bytes, of which the last is for the `\0`. -/
def sprintfAt (cap : ℕ) (line new : CString) : Except Stop CString :=
  if (bytes (line ++ new)).length < cap then .ok (line ++ new) else .error .outOfBounds

/-- `w1->numdev * 256 + 512` -/
def DevList.tmpfileRoom (w1 : DevList) : ℕ := w1.devs.length * 256 + 512

/-- `udate=%ld` and `date=%s`, where `timb` is the time of the pass. -/
def tmpfileTail (timb : CString) (w1 : DevList) : CString :=
  "udate=".toList ++ showInt w1.logtime ++ "\ndate=".toList ++ timb ++ ['\n']

/-- The text of `w1_tmpfilelog`, put together in its buffer. -/
def tmpfileBuffer (fmt : Formats) (timb : CString) (w1 : DevList) : Except Stop CString := do
  let line ← ((w1.entries (tmpfileLine fmt)).map LogEntry.text).foldlM (sprintfAt w1.tmpfileRoom) []
  if line ≠ [] then sprintfAt w1.tmpfileRoom line (tmpfileTail timb w1) else return line

/-- Both texts fit, and what is written to the snapshot file is `tmpfileText`. -/
structure TextsFit (fmt : Formats) (timb : CString) (w1 : DevList) : Prop where
  tmpfile : tmpfileBuffer fmt timb w1 = .ok ((tmpfileText fmt timb w1).getD [])
  json : ∃ text, wxdataText w1.wxdata = .ok text

/-! ## Sizes -/

/-- How many bytes a line takes, with the equals sign, the blank and the newline. -/
def tmpfileLineSize (x : Sensor) : ℕ :=
  (bytes (showStr x.abbrv)).length + (bytes (fixed 2 x.value).text).length + (bytes (x.units.getD [])).length + 3

/-- How many bytes the tail takes. -/
def tmpfileTailSize (timb : CString) (w1 : DevList) : ℕ :=
  (bytes (showInt w1.logtime)).length + (bytes timb).length + 13

/-- How many bytes the snapshot takes, which is nothing where no sensor is valid. -/
def tmpfileSize (timb : CString) (w1 : DevList) : ℕ :=
  if w1.validSensors = [] then 0
  else (w1.validSensors.map tmpfileLineSize).sum + tmpfileTailSize timb w1

section
variable {cap : ℕ} {fmt : Formats} {timb : CString} {w1 : DevList}

theorem length_bytes_line (x : Sensor) :
    (bytes (tmpfileLine fmt.withPrintf x)).length = tmpfileLineSize x := by
  have heq : (bytes ['=']).length = 1 := by decide
  have hblank : (bytes [' ']).length = 1 := by decide
  have hnewline : (bytes ['\n']).length = 1 := by decide
  have hvalue : fmt.withPrintf.fixed 2 x.value = (fixed 2 x.value).text := rfl
  have hsum : (bytes (tmpfileLine fmt.withPrintf x)).length = (bytes (showStr x.abbrv)).length + 1 +
      (bytes (fixed 2 x.value).text).length + 1 + (bytes (x.units.getD [])).length + 1 := by
    unfold tmpfileLine
    simp only [length_bytes_append, heq, hblank, hnewline, hvalue]
  unfold tmpfileLineSize
  omega

theorem length_bytes_tail : (bytes (tmpfileTail timb w1)).length = tmpfileTailSize timb w1 := by
  have hudate : (bytes "udate=".toList).length = 6 := by decide
  have hdate : (bytes "\ndate=".toList).length = 6 := by decide
  have hnewline : (bytes ['\n']).length = 1 := by decide
  unfold tmpfileTail tmpfileTailSize
  simp only [length_bytes_append, hudate, hdate, hnewline]
  omega

/-- The loop over the lines. -/
theorem foldlM_sprintfAt (lines : List CString) (line : CString) (hline : (bytes line).length < cap) :
    lines.foldlM (sprintfAt cap) line =
      if (bytes line).length + (lines.map fun l => (bytes l).length).sum < cap then .ok (line ++ lines.flatten)
      else .error .outOfBounds := by
  induction lines generalizing line with
  | nil => simp [hline, pure, Except.pure]
  | cons l lines ih =>
    have hlen := length_bytes_append line l
    rw [List.foldlM_cons, sprintfAt, hlen, List.map_cons, List.sum_cons, List.flatten_cons]
    by_cases hfits : (bytes line).length + (bytes l).length < cap
    · rw [if_pos hfits]
      refine (ih (line ++ l) (hlen ▸ hfits)).trans ?_
      rw [hlen, Nat.add_assoc, List.append_assoc]
    · rw [if_neg hfits, if_neg (by omega)]
      rfl

theorem tmpfileRoom_pos : 0 < w1.tmpfileRoom := by
  unfold DevList.tmpfileRoom
  omega

theorem printed_entries (line : Sensor → CString) :
    printed (w1.entries line) = (w1.validSensors.map line).flatten := by
  rw [printed, List.flatMap_def, entries_text]

/-- A line always has its newline. -/
theorem printed_eq_nil : printed (w1.entries (tmpfileLine fmt)) = [] ↔ w1.validSensors = [] := by
  rw [printed_entries]
  constructor
  · intro h
    by_contra hne
    obtain ⟨x, hx⟩ := List.exists_mem_of_ne_nil _ hne
    have hline := List.flatten_eq_nil_iff.mp h _ (List.mem_map_of_mem hx)
    simp [tmpfileLine] at hline
  · intro h
    rw [h]
    rfl

theorem length_bytes_flatten (lines : List CString) :
    (bytes lines.flatten).length = (lines.map fun l => (bytes l).length).sum := by
  induction lines with
  | nil => rfl
  | cons l lines ih => rw [List.flatten_cons, length_bytes_append, ih, List.map_cons, List.sum_cons]

/-- The snapshot is put together exactly when it is not too long. -/
theorem tmpfileBuffer_eq : tmpfileBuffer fmt.withPrintf timb w1 =
    if tmpfileSize timb w1 < w1.tmpfileRoom then .ok ((tmpfileText fmt.withPrintf timb w1).getD [])
    else .error .outOfBounds := by
  have hsizes : (w1.validSensors.map (tmpfileLine fmt.withPrintf)).map (fun l => (bytes l).length) =
      w1.validSensors.map tmpfileLineSize := by
    rw [List.map_map]
    exact List.map_congr_left fun x _ => length_bytes_line x
  have hloop := foldlM_sprintfAt (w1.validSensors.map (tmpfileLine fmt.withPrintf)) []
    (tmpfileRoom_pos : 0 < w1.tmpfileRoom)
  have hlen : (bytes (w1.validSensors.map (tmpfileLine fmt.withPrintf)).flatten).length =
      (w1.validSensors.map tmpfileLineSize).sum := by
    rw [← hsizes, length_bytes_flatten]
  have hnil : printed (w1.entries (tmpfileLine fmt.withPrintf)) = [] ↔ w1.validSensors = [] := printed_eq_nil
  have hnone : (bytes []).length = 0 := rfl
  rw [hsizes, hnone, Nat.zero_add, List.nil_append] at hloop
  rw [printed_entries] at hnil
  rw [tmpfileBuffer, entries_text, hloop, tmpfileSize, tmpfileText, printed_entries]
  by_cases hempty : w1.validSensors = []
  · rw [if_pos hempty, if_pos tmpfileRoom_pos, if_neg (not_not.mpr (hnil.mpr hempty)), hempty]
    rw [if_pos (show (([] : List Sensor).map tmpfileLineSize).sum < w1.tmpfileRoom from tmpfileRoom_pos)]
    rfl
  · rw [if_neg hempty, if_pos (mt hnil.mp hempty)]
    by_cases hbody : (w1.validSensors.map tmpfileLineSize).sum < w1.tmpfileRoom
    · rw [if_pos hbody]
      change (if _ then _ else _) = _
      rw [if_pos (mt hnil.mp hempty), sprintfAt, length_bytes_append, hlen, length_bytes_tail]
      rfl
    · rw [if_neg hbody, if_neg (by omega)]
      rfl

end

/-- The texts fit exactly when the snapshot with its tail is shorter than the buffer that goes
with the number of devices, and the document is shorter than 4096 bytes. -/
theorem texts_fit_iff (fmt : Formats) (timb : CString) (w1 : DevList) :
    TextsFit fmt.withPrintf timb w1 ↔
      tmpfileSize timb w1 < w1.devs.length * 256 + 512 ∧ wxdataSize w1.wxdata < 4096 := by
  change _ ↔ tmpfileSize timb w1 < w1.tmpfileRoom ∧ _
  have htmpfile : tmpfileBuffer fmt.withPrintf timb w1 = _ := tmpfileBuffer_eq
  have hjson : (∃ text, wxdataText w1.wxdata = .ok text) ↔ wxdataSize w1.wxdata < 4096 := by
    by_cases hne : w1.wxdata = []
    · rw [hne]
      exact iff_of_true ⟨_, rfl⟩ (by decide)
    · rw [wxdataText_eq hne]
      by_cases hsize : wxdataSize w1.wxdata < 4096
      · rw [if_pos hsize]
        exact iff_of_true ⟨_, rfl⟩ hsize
      · rw [if_neg hsize]
        exact iff_of_false (fun ⟨_, h⟩ => nomatch h) hsize
  constructor
  · intro h
    refine ⟨?_, hjson.mp h.json⟩
    by_contra hsize
    have hstop := h.tmpfile
    rw [htmpfile, if_neg hsize] at hstop
    exact nomatch hstop
  · rintro ⟨hsize, hdocument⟩
    exact ⟨htmpfile.trans (if_pos hsize), hjson.mpr hdocument⟩

/-- One device with forty sensors, each with a name of a hundred letters. -/
def manySensors : DevList where
  devs := [{ init := 1, ns := 40
             s := List.replicate 40 { abbrv := some (List.replicate 100 'x'), valid := true, value := 21 } }]

theorem texts_overflow :
    tmpfileBuffer (Formats.withPrintf .plain) "2010-01-01T00:00:00+0000".toList manySensors = .error .outOfBounds ∧
      wxdataText manySensors.wxdata = .error .outOfBounds ∧
      ¬ TextsFit (Formats.withPrintf .plain) "2010-01-01T00:00:00+0000".toList manySensors := by
  have hjson : wxdataText manySensors.wxdata = .error .outOfBounds := by decide +kernel
  refine ⟨by decide +kernel, hjson, fun h => ?_⟩
  obtain ⟨text, htext⟩ := h.json
  exact nomatch hjson.symm.trans htext

end W1Retap

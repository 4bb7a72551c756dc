import ModalEditor.Proofs.PutText

/-! # Where a text meets its neighbours

Two texts that are put together have at most as many clusters as they have apart, as clusters may
merge where they meet. A put brings the caret forward by the clusters that the text has alone, so
the caret comes to rest behind the text if it merges with what is before it and clusters follow.
-/

namespace ModalEditor

open Text

namespace Ending

variable {ending : Ending} {kind : CharKind}

/-- A cluster is open that marks continue. -/
def Open (ending : Ending) : Prop :=
  ending ≠ closed ∧ ending ≠ .carriageReturn

theorem open_halfFlag : Open halfFlag := by simp [Open]

theorem Open.continues (h : ending.Open) (hk : plain.continues kind = true) :
    ending.continues kind = true ∧ (ending.after kind).Open := by
  obtain ⟨shut, alone⟩ := h
  cases ending with
  | closed => exact absurd rfl shut
  | carriageReturn => exact absurd rfl alone
  | _ => revert hk; cases kind <;> simp [Open, Ending.continues, after]

theorem after_eq_plain (hk : plain.continues kind = true) :
    plain.after kind = plain ∧ halfFlag.after kind = plain ∧ start kind = plain := by
  revert hk
  cases kind <;> simp [Ending.continues, after, start]

/-- Other characters leave the same behind as at a boundary, but for the second letter of a flag. -/
theorem Open.after_eq_start (h : ending.Open) (hk : plain.continues kind = false)
    (goes : ending.continues kind = true) :
    ending.after kind = start kind ∨ ending = halfFlag ∧ kind = .flagLetter := by
  obtain ⟨shut, alone⟩ := h
  revert hk goes
  cases ending with
  | closed => exact absurd rfl shut
  | carriageReturn => exact absurd rfl alone
  | _ => cases kind <;> simp [Ending.continues, after, start]

end Ending

variable {ending : Ending} {c : Char}

theorem length_segment_of_continues (rest : Text) (h : ending.continues (.of c) = true) :
    (segment ending (c :: rest)).2.length = (segment (ending.after (.of c)) rest).2.length := by
  rw [segment_cons_of_continues rest h, Ending.next, if_pos h]

theorem length_segment_of_boundary (rest : Text) (h : ending.continues (.of c) = false) :
    (segment ending (c :: rest)).2.length = (segment (.start (.of c)) rest).2.length + 1 := by
  rw [segment_cons_of_boundary rest h, Ending.next, if_neg (by simp [h]), List.length_cons]

/-- Behind no open cluster are there more boundaries than behind a plain character, and behind half
a flag there is at most one fewer. -/
theorem length_segment_le_plain (text : Text) :
    (∀ ending : Ending, ending.Open →
      (segment ending text).2.length ≤ (segment .plain text).2.length) ∧
    (segment .plain text).2.length ≤ (segment .halfFlag text).2.length + 1 := by
  induction text with
  | nil => simp [segment]
  | cons c rest ih =>
    obtain ⟨more, less⟩ := ih
    cases hc : Ending.plain.continues (.of c) with
    | true =>
      obtain ⟨plain, halfFlag, -⟩ := Ending.after_eq_plain hc
      rw [length_segment_of_continues rest hc, plain]
      constructor
      · intro ending h
        obtain ⟨goes, stays⟩ := h.continues hc
        rw [length_segment_of_continues rest goes]
        exact more _ stays
      · obtain ⟨goes, -⟩ := Ending.open_halfFlag.continues hc
        rw [length_segment_of_continues rest goes, halfFlag]
        exact Nat.le_succ _
    | false =>
      have flag : Ending.start .flagLetter = .halfFlag := rfl
      have pair : Ending.halfFlag.after .flagLetter = .plain := rfl
      rw [length_segment_of_boundary rest hc]
      constructor
      · intro ending h
        cases goes : ending.continues (.of c) with
        | false => exact Nat.le_of_eq (length_segment_of_boundary rest goes)
        | true =>
          rw [length_segment_of_continues rest goes]
          rcases h.after_eq_start hc goes with same | ⟨rfl, letter⟩
          · rw [same]
            exact Nat.le_succ _
          · rw [letter, flag, pair]
            exact less
      · cases goes : Ending.halfFlag.continues (.of c) with
        | false =>
          rw [length_segment_of_boundary rest goes]
          exact Nat.le_succ _
        | true =>
          rw [length_segment_of_continues rest goes]
          apply Nat.succ_le_succ
          rcases Ending.open_halfFlag.after_eq_start hc goes with same | ⟨-, letter⟩
          · exact Nat.le_of_eq (congrArg (fun e => (segment e rest).2.length) same.symm)
          · rw [letter, flag, pair]
            exact more _ Ending.open_halfFlag

theorem length_segment_le_columns (ending : Ending) (text : Text) :
    (segment ending text).2.length ≤ columns text := by
  cases text with
  | nil => simp [segment]
  | cons c rest =>
    have whole : columns (c :: rest) = (segment (.start (.of c)) rest).2.length + 1 :=
      length_segment_of_boundary rest (continues_closed _)
    cases goes : ending.continues (.of c) with
    | false => exact Nat.le_of_eq ((length_segment_of_boundary rest goes).trans whole.symm)
    | true =>
      by_cases alone : ending = .carriageReturn
      · have feed : CharKind.of c = .lineFeed := by simpa [alone, Ending.continues] using goes
        rw [length_segment_of_continues rest goes, whole, alone, feed]
        exact Nat.le_succ _
      · have shut : ending ≠ .closed := by
          rintro rfl
          rw [continues_closed] at goes
          cases goes
        apply Nat.le_trans ((length_segment_le_plain (c :: rest)).1 ending ⟨shut, alone⟩)
        cases hc : Ending.plain.continues (.of c) with
        | false => exact Nat.le_of_eq ((length_segment_of_boundary rest hc).trans whole.symm)
        | true =>
          obtain ⟨plain, -, start⟩ := Ending.after_eq_plain hc
          rw [length_segment_of_continues rest hc, whole, plain, start]
          exact Nat.le_succ _

/-- Two texts have at most as many clusters together as they have apart. -/
theorem columns_append_le (a b : Text) : columns (a ++ b) ≤ columns a + columns b := by
  have whole : columns (a ++ b) = columns a + (segment (Ending.closed.scan a) b).2.length :=
    length_segment_append .closed a b
  rw [whole]
  exact Nat.add_le_add_left (length_segment_le_columns _ b) _

/-! ## The cluster that a character is in -/

/-- The cluster in a column of a row holds the character at an index. -/
def HoldsChar (row : Text) (col i : Nat) : Prop :=
  ((clusters row).take col).flatten.length ≤ i ∧ i < ((clusters row).take (col + 1)).flatten.length

instance (row : Text) (col i : Nat) : Decidable (HoldsChar row col i) :=
  inferInstanceAs (Decidable (_ ∧ _))

theorem lt_length_segment_iff (ending : Ending) (a b : Text) (n : Nat) :
    n < (segment ending a).2.length ↔
      (segment ending (a ++ b)).1.length + ((segment ending (a ++ b)).2.take n).flatten.length <
        a.length := by
  induction a generalizing ending n with
  | nil => simp [segment]
  | cons c a ih =>
    rw [List.cons_append]
    cases goes : ending.continues (.of c) with
    | true =>
      rw [segment_cons_of_continues a goes, segment_cons_of_continues (a ++ b) goes, ih]
      simp only [List.length_cons]
      omega
    | false =>
      rw [segment_cons_of_boundary a goes, segment_cons_of_boundary (a ++ b) goes]
      cases n with
      | zero => simp
      | succ n =>
        have later := ih (ending.next c) n
        simp only [List.length_cons, List.length_nil, List.take_succ_cons, List.flatten_cons,
          List.length_append] at later ⊢
        omega

theorem lt_columns_iff (a b : Text) (n : Nat) :
    n < columns a ↔ ((clusters (a ++ b)).take n).flatten.length < a.length := by
  have h := lt_length_segment_iff .closed a b n
  rwa [segment_closed_fst, List.length_nil, Nat.zero_add] at h

/-- The last character of a text is in the last cluster that the text has alone, whatever
follows. -/
theorem holdsChar_append_iff {a : Text} (ne : a ≠ []) (b : Text) (col : Nat) :
    HoldsChar (a ++ b) col (a.length - 1) ↔ col + 1 = columns a := by
  have some : 0 < a.length := List.length_pos_iff.mpr ne
  have here := lt_columns_iff a b col
  have next := lt_columns_iff a b (col + 1)
  unfold HoldsChar
  omega

/-! ## The caret after a put -/

namespace Session

/-- A put leaves the caret on the cluster of the last character put in, unless that text merges with
what is before it and another cluster begins after it. -/
theorem caret_of_put (s : Session OpenBuffer) (ready : s.Ready)
    (feeds : s.host.document.text.OnlyFeeds) (writable : s.host.readOnly = false) (text : Text)
    (held : s.engine.register = some (.chars text)) (filled : text ≠ []) (unbroken : text.Unbroken)
    (digits : Text) (count : Option Nat) (spelled : Spells digits count)
    (fits : text.byteSize * count.getD 1 ≤ maxPutBytes) (calls : List Text)
    (flat : calls.flatten = digits ++ ['p']) :
    let lines := s.host.document.text.splitOn '\n'
    let caret := s.host.document.caret
    let new := (List.replicate (count.getD 1) text).flatten
    ∃ left right, lines[caret.line]? = some (left ++ right) ∧
      clusters left = (clusters (left ++ right)).take (caret.col + 1) ∧
      ∃ t, s.Typed calls t ∧ t.engine.pending = [] ∧ t.engine.mode = .normal ∧
        t.engine.register = s.engine.register ∧
        t.host.document.text = joined (lines.set caret.line (left ++ new ++ right)) ∧
        t.host.document.caret.line = caret.line ∧
        let col := t.host.document.caret.col
        columns (left ++ new) ≤ col + 1 ∧
        (HoldsChar (left ++ new ++ right) col ((left ++ new).length - 1) ↔
          columns (left ++ new) = columns left + columns new ∨
            columns (left ++ new ++ right) = columns (left ++ new)) := by
  intro lines caret new
  have h : s.Editable := ⟨ready, feeds, writable⟩
  have carries : s.Carries text := ⟨held, filled, unbroken⟩
  have bounded : min (count.getD 1) maxCount = count.getD 1 :=
    Nat.min_eq_left (le_maxCount_of_fits (Text.byteSize_pos filled) fits)
  have some : new ≠ [] :=
    @Copies.text_ne_nil ⟨text, count.getD 1⟩ filled (Nat.ne_of_gt spelled.getD_pos)
  let left := ((clusters s.row).take (caret.col + 1)).flatten
  let right := ((clusters s.row).drop (caret.col + 1)).flatten
  have whole : left ++ right = s.row := by
    rw [← List.flatten_append, List.take_append_drop, flatten_clusters]
  have before : clusters left = (clusters s.row).take (caret.col + 1) := clusters_take ..
  have put := interprets_put h carries spelled (by rwa [bounded])
  rw [bounded] at put
  have typed := typed_keys ready (spelled.plain.append (List.forall_mem_singleton.mpr rfl))
    (by simp) flat put
  refine ⟨left, right, whole ▸ h.getElem?_rows, whole.symm ▸ before, _, typed, rfl, h.normal, rfl,
    rfl, rfl, ?_⟩
  intro col
  have room : columns left = min (caret.col + 1) (columns s.row) := columns_take ..
  have stands : col = min (columns left + (columns new - 1))
      (columns (left ++ new ++ right) - 1) := by
    rw [room]
    rfl
  have apart := columns_append_le left new
  have more := columns_le_append (left ++ new) right
  have pos : 0 < columns new := columns_pos some
  have filled' : left ++ new ≠ [] := List.append_ne_nil_of_right_ne_nil left some
  have pos' : 0 < columns (left ++ new) := columns_pos filled'
  have ends := holdsChar_append_iff filled' right col
  constructor
  · omega
  · rw [ends]
    omega

theorem caret_of_put_before_half_flag :
    let s : Session OpenBuffer :=
      ⟨{ Engine.ofConfig {} with register := some (.chars "🇦".toList) },
        .ofText "y🇧z".toList .zero⟩
    ∃ t, s.Typed ["3p".toList] t ∧ t.host.document.text = "y🇦🇦🇦🇧z".toList ∧
      t.host.document.caret.line = 0 ∧
      HoldsChar "y🇦🇦🇦🇧z".toList t.host.document.caret.col 3 := by
  intro s
  obtain ⟨left, right, found, before, t, typed, -, -, -, text, line, -, holds⟩ :=
    caret_of_put s ⟨rfl, rfl, by decide +kernel⟩ (by decide) rfl "🇦".toList rfl (by decide)
      (by decide) _ _ (spells_toDigits (show 0 < 3 by decide)) (by decide) ["3p".toList] (by decide)
  have row : left ++ right = ['y'] ++ "🇧z".toList :=
    Option.some.inj (found.symm.trans (by decide))
  obtain rfl : left = ['y'] := by
    rw [← flatten_clusters left, before, row]
    decide +kernel
  obtain rfl := List.append_cancel_left row
  exact ⟨t, typed, text.trans (by decide), line, holds.mpr (by decide +kernel)⟩

/-- A mark is deleted before a letter and put behind it. The caret goes past them. -/
theorem caret_after_put_of_mark :
    let s : Session OpenBuffer := ⟨.ofConfig {}, .ofText "\u0301ab".toList .zero⟩
    let t := (s.typeText ['x']).2
    let u := (t.typeText ['p']).2
    s.host.document.text.OnlyFeeds ∧ (s.typeText ['x']).1 = .ok [] ∧
      t.engine.register = some (.chars ['\u0301']) ∧ t.host.document = ⟨"ab".toList, .zero⟩ ∧
      t.engine.mode = .normal ∧ t.engine.pending = [] ∧
      t.host.page.Rests .normal t.host.document.caret ∧ (t.typeText ['p']).1 = .ok [] ∧
      u.host.document = ⟨"a\u0301b".toList, ⟨0, 1⟩⟩ ∧ HoldsChar "a\u0301b".toList 0 1 ∧
      ¬ HoldsChar "a\u0301b".toList u.host.document.caret.col 1 := by
  decide +kernel

end Session

end ModalEditor

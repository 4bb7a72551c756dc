import ModalEditor.Proofs.CaretRow

/-! # Putting characters

Characters are put in after the cluster under the caret, and the caret goes on by as many columns as
they have, as far as the row goes then. Where every character is a cluster that is the last one that
was put in, so a put with a count comes to as many puts.
-/

namespace ModalEditor

open Text

theorem Copies.text_succ (text : Text) (n : Nat) :
    (Copies.mk text (n + 1)).text = (Copies.mk text n).text ++ text := by
  simp [Copies.text, List.replicate_succ']

theorem Copies.length_text (text : Text) (n : Nat) :
    (Copies.mk text n).text.length = n * text.length := by
  simp [Copies.text]

namespace Text

/-- Every character of the text is a cluster of its own wherever it stands. -/
def Plain (t : Text) : Prop :=
  ∀ c ∈ t, CharKind.of c = .plain

variable {row new : Text}

theorem Plain.of_subset (h : Plain row) (part : new ⊆ row) : Plain new :=
  fun c hc => h c (part hc)

theorem Plain.append (h : Plain row) (h' : Plain new) : Plain (row ++ new) :=
  List.forall_mem_append.mpr ⟨h, h'⟩

theorem Plain.insert {left right : Text} (h : Plain (left ++ right)) (h' : Plain new) :
    Plain (left ++ new ++ right) := by
  obtain ⟨before, after⟩ := List.forall_mem_append.mp h
  exact (Plain.append before h').append after

theorem Plain.copies (h : Plain new) (n : Nat) : Plain (Copies.mk new n).text :=
  fun c hc => h c (Copies.mem_text.mp hc).1

theorem Plain.columns (h : Plain row) : columns row = row.length := by
  rw [ModalEditor.columns, clusters_of_plain h, List.length_map]

theorem Plain.exchange (h : Plain row) (col col' : Nat) (new : Text) :
    exchange col col' new row = row.take col ++ new ++ row.drop col' := by
  have alone (t : Text) : (t.map fun c => [c]).flatten = t := by
    rw [← List.flatMap_def, List.flatMap_singleton']
  rw [Text.exchange, clusters_of_plain h, ← List.map_take, ← List.map_drop, alone, alone]

end Text

theorem Spells.plain {digits : Text} {count : Option Nat} (h : Spells digits count) :
    digits.Plain :=
  KeyReader.plain_of_reads (.count h)

theorem Session.typed_keys {s u : Session OpenBuffer} {calls : List Text} {keys : Text}
    (ready : s.Ready) (plain : keys.Plain) (ne : keys ≠ []) (flat : calls.flatten = keys)
    (h : s.Interprets (keys.map fun c => [c]) u) : s.Typed calls u.announce.2 := by
  subst flat
  rw [← flatMap_clusters_of_plain plain] at h
  apply h.typed ?_ ready.settled
  rintro rfl
  exact ne rfl

theorem Command.effect?_put_chars (view : View) {text : Text}
    (held : view.register = some (.chars text)) (filled : text ≠ []) (n : Nat) :
    (Command.put n).effect? view =
      if maxPutBytes < text.byteSize * n then none else some (view.put (.chars text) n) := by
  simp [effect?, held, Register.isEmpty, Register.content, filled]

namespace Session

structure Carries (s : Session OpenBuffer) (text : Text) : Prop where
  held : s.engine.register = some (.chars text)
  filled : text ≠ []
  unbroken : text.Unbroken

theorem Carries.withRow {s : Session OpenBuffer} {text : Text} (h : s.Carries text) (new : Text)
    (col : Nat) : (s.withRow new col).Carries text :=
  ⟨h.held, h.filled, h.unbroken⟩

/-- The row of the caret once a text was put in a number of times. -/
def putRow (text : Text) (n : Nat) (s : Session OpenBuffer) : Text :=
  exchange (s.host.document.caret.col + 1) (s.host.document.caret.col + 1) (Copies.mk text n).text
    s.row

variable {s : Session OpenBuffer} {text left right : Text} {digits : Text} {count : Option Nat}
  {n : Nat}

theorem columns_putRow_pos (filled : text ≠ []) (pos : 0 < n) : 0 < columns (s.putRow text n) := by
  apply columns_pos
  have new : (Copies.mk text n).text ≠ [] := Copies.text_ne_nil filled (Nat.ne_of_gt pos)
  simp [putRow, exchange, new]

theorem Editable.made_put (h : s.Editable) (text : Text) (n : Nat) :
    (s.view.put (.chars text) n).Made s.host { s.host with document := { s.host.document with
      text := joined (s.rows.set s.host.document.caret.line (s.putRow text n)) } } := by
  let l := s.host.document.caret.line
  let c := min (s.host.document.caret.col + 1) (s.host.page.width l)
  have inside : c = min (s.host.document.caret.col + 1) (columns s.row) := by rw [← h.width_eq]
  have line : l < s.host.page.length := h.caret.1
  have put := OpenBuffer.perform_insert (p := ⟨l, c⟩) h.feeds.feedEnded h.writable line ⟨text, n⟩
  have row : exchange c c (Copies.mk text n).text s.row = s.putRow text n := by
    rw [inside, exchange_min, putRow]
  rw [h.text_of_exchange, row] at put
  exact put

theorem interprets_put (h : s.Editable) (carries : s.Carries text) (spelled : Spells digits count)
    (fits : text.byteSize * min (count.getD 1) maxCount ≤ maxPutBytes) :
    let n := min (count.getD 1) maxCount
    let col := min (s.host.document.caret.col + 1) (columns s.row)
    s.Interprets ((digits ++ ['p']).map fun c => [c])
      (s.withRow (s.putRow text n)
        (min (col + (columns (Copies.mk text n).text - 1)) (columns (s.putRow text n) - 1))) := by
  intro n col
  obtain ⟨held, filled, unbroken⟩ := carries
  have pos : 0 < n := Nat.lt_min.mpr ⟨spelled.getD_pos, by decide⟩
  have read : (Command.put n).effect? s.view = some (s.view.put (.chars text) n) :=
    (Command.effect?_put_chars s.view held filled n).trans (if_neg (Nat.not_lt.mpr fits))
  have lands : (Landing.lastOf ⟨s.host.document.caret.line, col⟩ ⟨text, n⟩).position =
      ⟨s.host.document.caret.line, col + (columns (Copies.mk text n).text - 1)⟩ :=
    if_neg unbroken.not_mem
  have goes : (s.view.put (.chars text) n).caret =
      some (Landing.lastOf ⟨s.host.document.caret.line, col⟩ ⟨text, n⟩) := by
    have width : s.view.page.width s.view.caret.line = columns s.row := h.width_eq
    simp only [View.put, width]
    rfl
  have wide := columns_putRow_pos (s := s) filled pos
  have done := interprets_exchange h (.count spelled) (KeyReader.parse_put spelled) read
    (h.unbroken.exchange (unbroken.copies n) _ _) (h.made_put text n) rfl goes (by rw [lands])
    fun blank => absurd blank (Nat.ne_of_gt wide)
  rw [lands] at done
  rw [List.map_append]
  exact done

/-! ## Where every character is a cluster -/

theorem Editable.plain (h : s.Editable) (printable : s.host.document.text.Printable) :
    s.row.Plain :=
  fun c hc => (printable.of_row (List.mem_of_getElem? h.getElem?_rows) c hc).1

theorem interprets_put_plain (h : s.Editable) (carries : s.Carries text) (plain : s.row.Plain)
    (plain' : text.Plain) (split : s.row = left ++ right)
    (ends : left.length = min (s.host.document.caret.col + 1) s.row.length)
    (spelled : Spells digits count)
    (fits : text.byteSize * min (count.getD 1) maxCount ≤ maxPutBytes) :
    let new := (Copies.mk text (min (count.getD 1) maxCount)).text
    s.Interprets ((digits ++ ['p']).map fun c => [c])
      (s.withRow (left ++ new ++ right) ((left ++ new).length - 1)) := by
  intro new
  have pos : 0 < min (count.getD 1) maxCount := Nat.lt_min.mpr ⟨spelled.getD_pos, by decide⟩
  have some : 0 < new.length :=
    List.length_pos_iff.mpr (Copies.text_ne_nil carries.filled (Nat.ne_of_gt pos))
  have row : s.putRow text (min (count.getD 1) maxCount) = left ++ new ++ right := by
    rw [putRow, ← exchange_min, plain.columns, ← ends, plain.exchange, split, List.take_left,
      List.drop_left]
  have whole : Plain (left ++ new ++ right) := Plain.insert (split ▸ plain) (plain'.copies _)
  have col : min (left.length + (columns new - 1)) (columns (left ++ new ++ right) - 1) =
      (left ++ new).length - 1 := by
    rw [show columns new = new.length from (plain'.copies _).columns, whole.columns]
    simp only [List.length_append]
    omega
  have put := interprets_put h carries spelled fits
  simp only [row, plain.columns, ← ends] at put
  rwa [col] at put

/-- Each put after the first one goes on where the last one ended. -/
theorem interprets_puts (h : s.Editable) (carries : s.Carries text) (plain : s.row.Plain)
    (plain' : text.Plain) (split : s.row = left ++ right)
    (ends : left.length = min (s.host.document.caret.col + 1) s.row.length)
    (fits : text.byteSize ≤ maxPutBytes) (n : Nat) :
    let new := (Copies.mk text (n + 1)).text
    s.Interprets (List.replicate (n + 1) ['p'])
      (s.withRow (left ++ new ++ right) ((left ++ new).length - 1)) := by
  have once : text.byteSize * min ((none : Option Nat).getD 1) maxCount ≤ maxPutBytes :=
    Nat.le_trans (Nat.le_of_eq (Nat.mul_one _)) fits
  induction n with
  | zero => exact interprets_put_plain h carries plain plain' split ends .nothing once
  | succ n ih =>
    let new := (Copies.mk text (n + 1)).text
    let t := s.withRow (left ++ new ++ right) ((left ++ new).length - 1)
    have whole : Plain (left ++ new ++ right) := Plain.insert (split ▸ plain) (plain'.copies _)
    have unbroken : Unbroken (left ++ new ++ right) :=
      Unbroken.insert (split ▸ h.unbroken) (carries.unbroken.copies _)
    have le : (left ++ new).length ≤ (left ++ new ++ right).length :=
      (List.prefix_append ..).length_le
    have some : 0 < (left ++ new).length :=
      List.length_pos_iff.mpr (List.append_ne_nil_of_right_ne_nil _
        (Copies.text_ne_nil carries.filled (Nat.succ_ne_zero n)))
    have row : t.row = left ++ new ++ right := h.row_withRow unbroken _
    have next : t.Editable := by
      apply h.withRow unbroken
      rw [whole.columns]
      omega
    have goes : (left ++ new).length = min (t.host.document.caret.col + 1) t.row.length := by
      have col : t.host.document.caret.col + 1 = (left ++ new).length := Nat.sub_add_cancel some
      rw [row, col, Nat.min_eq_left le]
    have put := interprets_put_plain next (carries.withRow ..) (row ▸ whole) plain' row goes .nothing
      once
    have longer : left ++ (Copies.mk text (n + 1 + 1)).text = left ++ new ++ text := by
      rw [Copies.text_succ, List.append_assoc]
    have one : (Copies.mk text (min ((none : Option Nat).getD 1) maxCount)).text = text :=
      List.append_nil text
    have again (new' : Text) (col' : Nat) : t.withRow new' col' = s.withRow new' col' :=
      h.withRow_withRow unbroken _ new' col'
    simp only [one, again] at put
    simp only [List.replicate_succ' (n := n + 1), longer]
    exact interprets_append.mpr ⟨t, ih, put⟩

/-- A put with a count leads to the same state as so many puts. -/
theorem counted_put_eq_puts (s : Session OpenBuffer) (ready : s.Ready)
    (printable : s.host.document.text.Printable) (writable : s.host.readOnly = false)
    (text : Text) (held : s.engine.register = some (.chars text)) (filled : text ≠ [])
    (printable' : text.Printable) (single : '\n' ∉ text) (n : Nat) (pos : 0 < n)
    (fits : text.byteSize * n ≤ maxPutBytes) (calls : List Text)
    (counted : calls.flatten = Nat.toDigits 10 n ++ ['p']) (presses : List Text)
    (repeated : presses.flatten = List.replicate n 'p') :
    let lines := s.host.document.text.splitOn '\n'
    let caret := s.host.document.caret
    ∃ row, lines[caret.line]? = some row ∧
      ∃ t, s.Typed calls t ∧ s.Typed presses t ∧
        t.engine.pending = [] ∧ t.engine.mode = .normal ∧
        t.engine.register = s.engine.register ∧
        t.host.document.text = joined (lines.set caret.line (row.take (caret.col + 1) ++
          (List.replicate n text).flatten ++ row.drop (caret.col + 1))) ∧
        t.host.document.caret =
          ⟨caret.line, min (caret.col + 1) row.length + n * text.length - 1⟩ := by
  intro lines caret
  have h : s.Editable := ⟨ready, printable.onlyFeeds, writable⟩
  have plain' : text.Plain := fun c hc => printable'.plain hc (ne_of_mem_of_not_mem hc single)
  have carries : s.Carries text := ⟨held, filled, printable'.unbroken single⟩
  have split : s.row = s.row.take (caret.col + 1) ++ s.row.drop (caret.col + 1) :=
    (List.take_append_drop _ _).symm
  have ends : (s.row.take (caret.col + 1)).length = min (caret.col + 1) s.row.length :=
    List.length_take
  have bounded : min n maxCount = n :=
    Nat.min_eq_left (le_maxCount_of_fits (Text.byteSize_pos filled) fits)
  let u := s.withRow (s.row.take (caret.col + 1) ++ (Copies.mk text n).text ++
    s.row.drop (caret.col + 1)) ((s.row.take (caret.col + 1) ++ (Copies.mk text n).text).length - 1)
  have spelled := spells_toDigits pos
  have first : s.Typed calls u.announce.2 := by
    have put := interprets_put_plain h carries (h.plain printable) plain' split ends spelled
      (by rwa [Option.getD_some, bounded])
    rw [Option.getD_some, bounded] at put
    exact typed_keys ready (spelled.plain.append (List.forall_mem_singleton.mpr rfl)) (by simp)
      counted put
  have second : s.Typed presses u.announce.2 := by
    have puts := interprets_puts h carries (h.plain printable) plain' split ends
      (Nat.le_trans (Nat.le_mul_of_pos_right _ pos) fits) (n - 1)
    rw [Nat.sub_add_cancel pos] at puts
    have plain : Plain (List.replicate n 'p') := fun c hc => List.eq_of_mem_replicate hc ▸ rfl
    apply typed_keys ready plain (by simp [Nat.ne_of_gt pos]) repeated
    rwa [List.map_replicate]
  refine ⟨s.row, h.getElem?_rows, _, first, second, rfl, h.normal, rfl, rfl, ?_⟩
  show Position.mk _ _ = _
  rw [List.length_append, ends, Copies.length_text]

theorem counted_put_eq_puts_on_blank_line :
    let s : Session OpenBuffer :=
      ⟨{ Engine.ofConfig {} with register := some (.chars "uv".toList) },
        .ofText "ab\n".toList ⟨1, 0⟩⟩
    ∃ t, s.Typed ["1".toList, "2p".toList] t ∧ s.Typed ["ppppp".toList, "ppppppp".toList] t ∧
      t.engine.register = some (.chars "uv".toList) ∧
      t.host.document = ⟨"ab\nuvuvuvuvuvuvuvuvuvuvuvuv".toList, ⟨1, 23⟩⟩ := by
  intro s
  obtain ⟨row, found, t, counted, repeated, -, -, register, text, caret⟩ :=
    counted_put_eq_puts s ⟨rfl, rfl, by decide⟩ (by decide) rfl "uv".toList rfl (by decide)
      (by decide) (by decide) 12 (by decide) (by decide) ["1".toList, "2p".toList] (by decide)
      ["ppppp".toList, "ppppppp".toList] (by decide)
  obtain rfl : row = [] := Option.some.inj (found.symm.trans (by decide))
  refine ⟨t, counted, repeated, register, ?_⟩
  rw [show t.host.document = ⟨t.host.document.text, t.host.document.caret⟩ from rfl, text, caret]
  decide

end Session

end ModalEditor

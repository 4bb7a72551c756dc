import ModalEditor.Proofs.CutText
import ModalEditor.Proofs.PutText
import ModalEditor.Proofs.RememberedColumn

/-! # Cutting characters and putting them back

Characters that are cut from the caret on come into the register, and the caret stays where it is
unless the row ends before it then. A put brings them in after the caret: it restores a row that was
cut to its end, and otherwise takes them past one character.
-/

namespace ModalEditor

open Text

namespace Text

variable {row : Text} {k m : Nat}

theorem Printable.byteSize (h : Printable row) : row.byteSize = row.length := by
  induction row with
  | nil => rfl
  | cons c row ih =>
    have one : c.utf8Size = 1 := by
      rcases h c (List.mem_cons_self ..) with rfl | ⟨-, high⟩
      · rfl
      · exact Char.utf8Size_eq_one_iff.mpr (by simpa [UInt32.le_iff_toNat_le] using by omega)
    rw [Text.byteSize, one, ih fun c hc => h c (List.mem_cons_of_mem _ hc), List.length_cons,
      Nat.add_comm]

theorem subset_around (row : Text) (k m : Nat) : row.take k ++ row.drop (k + m) ⊆ row :=
  List.append_subset.mpr ⟨List.take_subset .., List.drop_subset ..⟩

theorem take_append_drop_around (row : Text) (k m : Nat) :
    row.take k ++ (row.drop (k + m)).take 1 ++ row.drop (k + m + 1) =
      row.take k ++ row.drop (k + m) := by
  have rest : row.drop (k + m + 1) = (row.drop (k + m)).drop 1 := List.drop_drop.symm
  rw [rest, List.append_assoc, List.take_append_drop]

end Text

theorem Page.slice_of_line {page : Page} {l c c' : Nat} (line : l < page.length) (le : c ≤ c')
    (width : c' ≤ page.width l) :
    page.slice ⟨⟨l, c⟩, ⟨l, c'⟩⟩ = (((page.line l).take c').drop c).flatten := by
  have whole : page.before ⟨l, c⟩ ++ page.slice ⟨⟨l, c⟩, ⟨l, c'⟩⟩ = page.before ⟨l, c'⟩ :=
    before_append_slice ⟨line, Nat.le_trans le width⟩ ⟨line, width⟩ (.inr ⟨rfl, le⟩)
  rw [← before_append_of_col_le le] at whole
  exact List.append_cancel_left whole

namespace Session

variable {s : Session OpenBuffer} {digits : Text} {count : Option Nat}

def holding (text : Text) (aim : Nat) (s : Session OpenBuffer) : Session OpenBuffer :=
  { s with engine := { s.engine with aim := some aim, register := some (.chars text) } }

theorem Editable.holding (h : s.Editable) (text : Text) (aim : Nat) :
    (s.holding text aim).Editable :=
  ⟨⟨h.normal, h.idle, h.caret⟩, h.feeds, h.writable⟩

theorem Editable.joined_set_row (h : s.Editable) :
    joined (s.rows.set s.host.document.caret.line s.row) = s.host.document.text := by
  obtain ⟨line, found⟩ := List.getElem?_eq_some_iff.mp h.getElem?_rows
  rw [← found, List.set_getElem_self]
  exact List.intercalate_splitOn _

section Cut

variable {k m n : Nat} (h : s.Editable) (plain : s.row.Plain) (inside : k < s.row.length)

include h plain

theorem Editable.width_of_plain :
    s.host.page.width s.host.document.caret.line = s.row.length :=
  h.width_eq.trans plain.columns

theorem Editable.holds_around (fits : k + m ≤ s.row.length) :
    let l := s.host.document.caret.line
    s.host.page.Holds ⟨l, k⟩ ∧ s.host.page.Holds ⟨l, k + m⟩ ∧
      s.host.page.slice ⟨⟨l, k⟩, ⟨l, k + m⟩⟩ = (s.row.drop k).take m := by
  intro l
  have line : l < s.host.page.length := h.caret.1
  have width : k + m ≤ s.host.page.width l := by
    rw [h.width_of_plain plain]
    exact fits
  refine ⟨⟨line, Nat.le_trans (Nat.le_add_right k m) width⟩, ⟨line, width⟩, ?_⟩
  rw [Page.slice_of_line line (Nat.le_add_right k m) width, h.line_eq, clusters_of_plain plain,
    ← List.map_take, ← List.map_drop, ← List.flatMap_def, List.flatMap_singleton', List.drop_take,
    Nat.add_sub_cancel_left]

include inside

theorem Editable.reach_right (col : s.host.document.caret.col = k) (pos : 0 < n)
    (taken : min n (s.row.length - k) = m) :
    s.view.reach ⟨.right, n⟩ = ⟨⟨s.host.document.caret.line, k + m⟩, some (k + m)⟩ := by
  have caret : s.view.caret = ⟨s.host.document.caret.line, k⟩ := by
    rw [← col]
    rfl
  have width : s.view.page.width s.host.document.caret.line = s.row.length :=
    h.width_of_plain plain
  have stop : max k (min (k + n) s.row.length) = k + m := by omega
  have moved : k + m ≠ k := by omega
  rw [View.reach, Stride.run, Motion.walk_right, caret]
  simp only [width, stop, if_neg moved]

theorem Editable.cut_right (col : s.host.document.caret.col = k) (pos : 0 < n)
    (taken : min n (s.row.length - k) = m) :
    let l := s.host.document.caret.line
    s.view.cut (s.view.reach ⟨.right, n⟩) false =
      { aim := some (k + m), edit := View.deletion? ⟨⟨l, k⟩, ⟨l, k + m⟩⟩,
        register := some (.chars ((s.row.drop k).take m)), caret := some (.at ⟨l, k⟩) } := by
  intro l
  have caret : s.view.caret = ⟨l, k⟩ := by
    rw [← col]
    rfl
  have moves : (⟨l, k + m⟩ : Position) ≠ s.view.caret := by
    rw [caret, Ne, Position.mk.injEq]
    omega
  have le : (⟨l, k⟩ : Position) ≤ ⟨l, k + m⟩ := .inr ⟨rfl, Nat.le_add_right ..⟩
  have slice := (h.holds_around plain (k := k) (m := m) (by omega)).2.2
  rw [h.reach_right plain inside col pos taken, View.cut_of_ne moves, caret, Span.between,
    if_pos le, ← slice]
  rfl

/-- The caret stays in its column if there is still a character there. -/
theorem interprets_cut_chars (col : s.host.document.caret.col = k) (spelled : Spells digits count)
    (taken : min (min (count.getD 1) maxCount) (s.row.length - k) = m) :
    let rest : Text := s.row.take k ++ s.row.drop (k + m)
    s.Interprets ((digits ++ ['x']).map fun c => [c])
      ((s.holding ((s.row.drop k).take m) (k + m)).withRow rest (min k (rest.length - 1))) := by
  intro rest
  have pos : 0 < min (count.getD 1) maxCount := Nat.lt_min.mpr ⟨spelled.getD_pos, by decide⟩
  have cut := h.cut_right plain inside col pos taken
  have row : exchange k (k + m) [] s.row = rest := by rw [plain.exchange, List.append_nil]
  have wide : columns rest = rest.length := (plain.of_subset (subset_around s.row k m)).columns
  have first : columns rest = 0 → k = 0 := by
    rw [wide, List.length_append, List.length_take]
    omega
  have made := by
    obtain ⟨start, stop, -⟩ := h.holds_around plain (k := k) (m := m) (by omega)
    exact OpenBuffer.made_deletion h.feeds.feedEnded h.writable start stop
      (.inr ⟨rfl, Nat.le_add_right k m⟩) (congrArg Effect.edit cut)
  have text := h.text_of_exchange k (k + m) []
  simp only [List.append_nil, row] at text
  rw [text] at made
  have done := interprets_exchange h (.count spelled) (KeyReader.parse_cluster spelled)
    (Command.effect?_take_stride false _ s.view)
    (h.unbroken.of_subset (subset_around s.row k m)) made
    (congrArg Effect.inserts cut) (congrArg Effect.caret cut) rfl first
  rw [cut, wide] at done
  rw [List.map_append]
  exact done

/-- The characters come back after the one that the caret has come to. -/
theorem interprets_put_back (fits : k + m ≤ s.row.length) (some : 0 < m)
    (small : Text.byteSize ((s.row.drop k).take m) ≤ maxPutBytes) :
    let cut := (s.row.drop k).take m
    let rest : Text := s.row.take k ++ s.row.drop (k + m)
    let left := s.row.take k ++ (s.row.drop (k + m)).take 1
    ((s.holding cut (k + m)).withRow rest (min k (rest.length - 1))).Interprets [['p']]
      ((s.holding cut (k + m)).withRow (left ++ cut ++ s.row.drop (k + m + 1))
        ((left ++ cut).length - 1)) := by
  intro cut rest left
  have held : (s.holding cut (k + m)).Editable := h.holding cut (k + m)
  have unbroken : rest.Unbroken := h.unbroken.of_subset (subset_around s.row k m)
  have wide : columns rest = rest.length := (plain.of_subset (subset_around s.row k m)).columns
  let t := (s.holding cut (k + m)).withRow rest (min k (rest.length - 1))
  have row : t.row = rest := held.row_withRow unbroken _
  have next : t.Editable := by
    apply held.withRow unbroken
    omega
  have back (new : Text) (col : Nat) : t.withRow new col = (s.holding cut (k + m)).withRow new col :=
    held.withRow_withRow unbroken _ new col
  have part : cut ⊆ s.row := fun c hc => List.mem_of_mem_drop (List.mem_of_mem_take hc)
  have carries : t.Carries cut := by
    refine ⟨rfl, ?_, fun c hc => h.unbroken c (part hc)⟩
    rw [← List.length_pos_iff, List.length_take, List.length_drop]
    omega
  have split : t.row = left ++ s.row.drop (k + m + 1) := by
    rw [row, take_append_drop_around]
  have ends : left.length = min (t.host.document.caret.col + 1) t.row.length := by
    have caret : t.host.document.caret.col = min k (rest.length - 1) := rfl
    have size : rest.length = s.row.length - m := by
      simp only [rest, List.length_append, List.length_take, List.length_drop]
      omega
    rw [row, caret, size]
    simp only [left, List.length_append, List.length_take, List.length_drop]
    omega
  have put := interprets_put_plain next carries (row ▸ plain.of_subset (subset_around s.row k m))
    (fun c hc => plain c (part hc)) split ends .nothing
    (Nat.le_trans (Nat.le_of_eq (Nat.mul_one _)) small)
  have one : (Copies.mk cut (min ((none : Option Nat).getD 1) maxCount)).text = cut :=
    List.append_nil cut
  simp only [one, back] at put
  exact put

end Cut

/-- What `x` has cut and `p` puts back restores a row that was cut to its end, and goes past the
next character otherwise. -/
theorem text_of_cut_and_put (s : Session OpenBuffer) (ready : s.Ready)
    (printable : s.host.document.text.Printable) (writable : s.host.readOnly = false)
    (row : Text) (found : (s.host.document.text.splitOn '\n')[s.host.document.caret.line]? = some row)
    (some : row ≠ []) (digits : Text) (count : Option Nat) (spelled : Spells digits count) :
    let lines := s.host.document.text.splitOn '\n'
    let caret := s.host.document.caret
    let k := caret.col
    let m := min (count.getD 1) (row.length - k)
    let cut := (row.drop k).take m
    m ≤ maxPutBytes →
    (∀ calls : List Text, calls.flatten = digits ++ ['x'] →
      ∃ t, s.Typed calls t ∧ t.engine.pending = [] ∧ t.engine.mode = .normal ∧
        t.engine.register = .some (.chars cut) ∧
        t.host.document.text = joined (lines.set caret.line (row.take k ++ row.drop (k + m)))) ∧
    (∀ calls : List Text, calls.flatten = digits ++ ['x', 'p'] →
      ∃ t, s.Typed calls t ∧ t.engine.pending = [] ∧ t.engine.mode = .normal ∧
        t.engine.register = .some (.chars cut) ∧
        (k + m = row.length → t.host.document = ⟨s.host.document.text, ⟨caret.line, row.length - 1⟩⟩) ∧
        (k + m < row.length → t.host.document =
          ⟨joined (lines.set caret.line (row.take k ++ (row.drop (k + m)).take 1 ++ cut ++
            row.drop (k + m + 1))), ⟨caret.line, k + m⟩⟩)) := by
  intro lines caret k m cut small
  have h : s.Editable := ⟨ready, printable.onlyFeeds, writable⟩
  have plain := h.plain printable
  obtain rfl : row = s.row := Option.some.inj (found.symm.trans h.getElem?_rows)
  have size : 0 < s.row.length := List.length_pos_iff.mpr some
  have inside : k < s.row.length := by
    rw [← plain.columns] at size ⊢
    rcases h.col_lt with inside | ⟨blank, -⟩
    · exact inside
    · exact absurd blank (Nat.ne_of_gt size)
  have taken : min (min (count.getD 1) maxCount) (s.row.length - k) = m := by
    have large : maxPutBytes ≤ maxCount := by decide
    omega
  have pos : 0 < m := Nat.lt_min.mpr ⟨spelled.getD_pos, Nat.sub_pos_of_lt inside⟩
  have fits : k + m ≤ s.row.length := by omega
  have bytes : Text.byteSize cut ≤ maxPutBytes := by
    have part : cut ⊆ s.host.document.text := fun c hc =>
      (mem_of_mem_row (List.mem_of_getElem? found)
        (List.mem_of_mem_drop (List.mem_of_mem_take hc))).1
    rw [Printable.byteSize fun c hc => printable c (part hc), List.length_take]
    omega
  have first := interprets_cut_chars h plain inside rfl spelled taken
  have second := interprets_put_back h plain inside fits pos bytes
  have plain' : Plain (digits ++ ['x']) :=
    spelled.plain.append (List.forall_mem_singleton.mpr rfl)
  constructor
  · intro calls flat
    have typed := typed_keys ready plain' (by simp) flat first
    exact ⟨_, typed, rfl, h.normal, rfl, rfl⟩
  · intro calls flat
    have both := interprets_append.mpr ⟨_, first, second⟩
    have keys : (digits ++ ['x'] ++ ['p']).map (fun c => [c]) =
        ((digits ++ ['x']).map fun c => [c]) ++ [['p']] := List.map_append
    rw [← keys] at both
    have typed := typed_keys ready (plain'.append (List.forall_mem_singleton.mpr rfl)) (by simp)
      (by simpa using flat) both
    refine ⟨_, typed, rfl, h.normal, rfl, ?_, ?_⟩
    · intro last
      have back : s.row.take k ++ (s.row.drop (k + m)).take 1 ++ cut ++ s.row.drop (k + m + 1) =
          s.row := by
        have all : cut = s.row.drop k := List.take_of_length_le (by rw [List.length_drop]; omega)
        rw [List.drop_of_length_le (Nat.le_of_eq last.symm), List.drop_of_length_le (by omega), all]
        simp
      refine congrArg₂ Document.mk ?_ (congrArg (Position.mk caret.line) ?_)
      · exact (congrArg (fun row => joined (lines.set caret.line row)) back).trans
          h.joined_set_row
      · simp only [List.length_append, List.length_take, List.length_drop]
        omega
    · intro more
      refine congrArg (Document.mk _ ⟨caret.line, ·⟩) ?_
      simp only [List.length_append, List.length_take, List.length_drop]
      omega

theorem text_of_cut_and_put_between_and_at_end :
    let s : Session OpenBuffer := ⟨.ofConfig {}, .ofText "abcde\nxy".toList ⟨0, 1⟩⟩
    let s' : Session OpenBuffer := ⟨.ofConfig {}, .ofText "abcde\nxy".toList ⟨1, 0⟩⟩
    (∃ t, s.Typed ["2".toList, "xp".toList] t ∧ t.engine.register = some (.chars "bc".toList) ∧
      t.host.document = ⟨"adbce\nxy".toList, ⟨0, 3⟩⟩) ∧
    (∃ t, s'.Typed ["9x".toList] t ∧ t.host.document.text = "abcde\n".toList) ∧
    ∃ t, s'.Typed ["9x".toList, ['p']] t ∧ t.host.document = ⟨"abcde\nxy".toList, ⟨1, 1⟩⟩ := by
  intro s s'
  obtain ⟨-, between⟩ := text_of_cut_and_put s ⟨rfl, rfl, by decide⟩ (by decide) rfl
    "abcde".toList (by decide) (by decide) _ _ (spells_toDigits (show 0 < 2 by decide)) (by decide)
  obtain ⟨cut, back⟩ := text_of_cut_and_put s' ⟨rfl, rfl, by decide⟩ (by decide) rfl
    "xy".toList (by decide) (by decide) _ _ (spells_toDigits (show 0 < 9 by decide)) (by decide)
  refine ⟨?_, ?_, ?_⟩
  · obtain ⟨t, typed, -, -, register, -, document⟩ := between ["2".toList, "xp".toList] (by decide)
    exact ⟨t, typed, register.trans (by decide), (document (by decide)).trans (by decide)⟩
  · obtain ⟨t, typed, -, -, -, text⟩ := cut ["9x".toList] (by decide)
    exact ⟨t, typed, text.trans (by decide)⟩
  · obtain ⟨t, typed, -, -, -, document, -⟩ := back ["9x".toList, ['p']] (by decide)
    exact ⟨t, typed, (document (by decide)).trans (by decide)⟩

end Session

end ModalEditor

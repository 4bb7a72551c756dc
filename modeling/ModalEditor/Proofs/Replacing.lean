import ModalEditor.Proofs.Deleting
import ModalEditor.Proofs.EditBounds
import ModalEditor.Proofs.NoTrace
import ModalEditor.Proofs.Repetition

/-! # Replacing clusters

Where every character is a cluster, any part of a line may be exchanged for copies of any cluster,
also of one that merges with its neighbours or breaks the line. The caret goes to the column that
the last copy would have if each had one, and is pulled back if the line has become too short for
that. Only a line that has become blank does not pull it back.
-/

namespace ModalEditor

open Text

namespace Text

/-- Nothing but line feeds and the printable characters of ASCII. -/
def Printable (t : Text) : Prop :=
  ∀ c ∈ t, c = '\n' ∨ 0x20 ≤ c.toNat ∧ c.toNat ≤ 0x7E

instance (t : Text) : Decidable (Printable t) :=
  List.decidableBAll (fun c : Char => c = '\n' ∨ 0x20 ≤ c.toNat ∧ c.toNat ≤ 0x7E) t

variable {t : Text} {c : Char}

theorem Printable.plain (h : t.Printable) (hc : c ∈ t) (other : c ≠ '\n') :
    CharKind.of c = .plain := by
  obtain ⟨low, high⟩ := (h c hc).resolve_left other
  exact CharKind.of_printable low high

theorem Printable.onlyFeeds (h : t.Printable) : t.OnlyFeeds := by
  intro c hc breaks
  rcases h c hc with feed | ⟨low, high⟩
  · exact feed
  · simp only [isBreak, List.mem_cons, List.not_mem_nil, or_false, decide_eq_true_eq] at breaks
    rcases breaks with rfl | rfl | rfl | rfl | rfl | rfl | rfl
    · rfl
    all_goals revert low high; decide

theorem mem_of_mem_row {row : Text} (hrow : row ∈ t.splitOn '\n') (hc : c ∈ row) :
    c ∈ t ∧ c ≠ '\n' := by
  have other : c ≠ '\n' := by
    rintro rfl
    exact not_mem_of_mem_splitOn t row hrow hc
  have later : c ∈ joined (t.splitOn '\n') ++ ['\n'] := by
    rw [← ended_eq_joined (List.splitOn_ne_nil _ _)]
    exact List.mem_flatMap.mpr ⟨row, hrow, List.mem_append_left _ hc⟩
  rw [joined, List.intercalate_splitOn] at later
  rcases List.mem_append.mp later with mem | feed
  · exact ⟨mem, other⟩
  · exact absurd (List.mem_singleton.mp feed) other

theorem Printable.of_row (h : t.Printable) {row : Text} (hrow : row ∈ t.splitOn '\n') :
    ∀ c ∈ row, CharKind.of c = .plain ∧ isBreak c = false := by
  intro c hc
  obtain ⟨mem, other⟩ := mem_of_mem_row hrow hc
  refine ⟨h.plain mem other, ?_⟩
  cases breaks : isBreak c with
  | false => rfl
  | true => exact absurd (h.onlyFeeds c mem breaks) other

/-- Plain characters are found again by their columns, whatever plain ones follow. -/
theorem flatten_take_columns {a b : Text} (h : ∀ c ∈ a ++ b, CharKind.of c = .plain) :
    ((clusters (a ++ b)).take (columns a)).flatten = a := by
  have first : ∀ c ∈ a, CharKind.of c = .plain := fun c hc => h c (List.mem_append_left _ hc)
  have width : columns a = (a.map fun c => [c]).length := by rw [columns, clusters_of_plain first]
  rw [clusters_of_plain h, List.map_append, width, List.take_left, ← clusters_of_plain first,
    flatten_clusters]

end Text

/-! ## The page of a replacement -/

namespace Page

variable {page : Page} {l : Nat}

theorem text_of_exchanged (h : l < page.length) (c c' : Nat) (new : Text) :
    page.before ⟨l, c⟩ ++ new ++ page.after ⟨l, c'⟩ =
      joined (page.rows.set l
        (((page.line l).take c).flatten ++ new ++ ((page.line l).drop c').flatten)) := by
  have inside : l < page.rows.length := by rwa [length_rows]
  rw [List.set_eq_take_append_cons_drop, if_pos inside, joined_append _ (List.cons_ne_nil _ _),
    ← append_joined_cons]
  simp only [before, after, List.append_assoc]

end Page

namespace Document

variable {d : Document} {p q : Position}

theorem before_endOf {a b : Text} (printable : d.text.Printable) (split : d.text = a ++ b) :
    (d.page dropFeed).before (endOf a) = a := by
  obtain ⟨above, last, rows⟩ :=
    (List.eq_nil_or_concat _).resolve_left (List.splitOn_ne_nil '\n' a)
  rw [List.concat_eq_append] at rows
  have lines := splitOn_append a b
  rw [rows, List.dropLast_concat, List.getLastD_concat] at lines
  have ends : endOf a = ⟨above.length, columns last⟩ := by
    rw [endOf, rows, List.getLastD_concat, List.length_append, List.length_singleton,
      Nat.add_sub_cancel]
  have plain : ∀ c ∈ last ++ (b.splitOn '\n').headD [], CharKind.of c = .plain := by
    intro c hc
    refine (printable.of_row ?_ c hc).1
    rw [split, lines]
    exact List.mem_append_right _ (.head _)
  rw [page_eq printable.onlyFeeds, split, Page.before_ofLines, ends, lines, List.take_left,
    List.getElem?_append_right (Nat.le_refl _), Nat.sub_self]
  calc
    _ = ended above ++ last := congrArg (ended above ++ ·) (flatten_take_columns plain)
    _ = a := by rw [← joined_concat, ← rows, joined, List.intercalate_splitOn]

theorem endOf_before (feeds : d.text.OnlyFeeds) (hp : (d.page dropFeed).Holds p) :
    endOf ((d.page dropFeed).before p) = p := by
  rw [← take_offset feeds.feedEnded hp.line, endOf_of_holds feeds hp]

theorem width_page_eq_zero_iff {rows : List Text} {c : Char} {rest : Text}
    (unbroken : ∀ row ∈ rows, ∀ c ∈ row, isBreak c = false)
    (h : d.text = ended rows ++ c :: rest) :
    rows.length < (d.page dropFeed).length ∧
      ((d.page dropFeed).width rows.length = 0 ↔ c = '\n') := by
  obtain ⟨line, later, split, shown⟩ := lines_cons_shown c rest
  have lines : d.text.lines = (rows.map fun row => row ++ ['\n']) ++ line :: later := by
    rw [h, lines_ended_append unbroken, split]
  have below : rows.length < d.text.lines.length := by
    rw [lines, List.length_append, List.length_map, List.length_cons]
    omega
  have next : d.text.lines[rows.length] = line := by
    simp [lines]
  refine ⟨(d.length_page _).symm ▸ below, ?_⟩
  rw [← shown, Page.width, line_page below, next]
  constructor
  · intro blank
    by_contra some
    exact Nat.ne_of_gt (columns_pos some) blank
  · intro blank
    rw [blank]
    rfl

end Document

namespace OpenBuffer

variable {b : OpenBuffer} {p q : Position}

theorem perform_replace (printable : b.document.text.Printable) (writable : b.readOnly = false)
    (hp : b.page.Holds p) (hq : b.page.Holds q) (le : p ≤ q) (copies : Copies) :
    Host.perform (.replace ⟨p, q⟩ copies) b =
      (none, { b with document :=
        { b.document with text := b.page.before p ++ copies.text ++ b.page.after q } }) := by
  have feeds := printable.onlyFeeds
  -- Between the two steps of the edit the position is looked up again, in the text that is left.
  let cut : Document := { b.document with text := b.page.before p ++ b.page.after q }
  have left : cut.text.Printable := fun c hc =>
    printable c (around_subset feeds.feedEnded hp hq hc)
  have ends : endOf (b.page.before p) = p := Document.endOf_before feeds hp
  have start : (cut.page dropFeed).Holds p := by
    have held := Document.holds_endOf left.onlyFeeds (d := cut) rfl
    rwa [ends] at held
  have before : (cut.page dropFeed).before p = b.page.before p := by
    have kept := Document.before_endOf left rfl
    rwa [ends] at kept
  have after : (cut.page dropFeed).after p = b.page.after q := by
    have divided : (cut.page dropFeed).before p ++ (cut.page dropFeed).after p = cut.text := by
      rw [Page.before_append_after start.line, Document.text_page left.onlyFeeds.feedEnded]
    rw [before] at divided
    exact List.append_cancel_left divided
  have taken := Document.delete_eq feeds.feedEnded hp hq le
  have put := Document.insert_eq left.onlyFeeds.feedEnded start.line copies.text
  rw [before, after] at put
  simp only [Host.perform, perform, writable, Bool.false_eq_true, if_false, Document.edit, taken,
    Except.map]
  exact congrArg (fun document => ((none : Option Failure), OpenBuffer.mk document b.selection false))
    put

/-- What follows the rows above a replacement begins with a line feed only if one is put at the
start of the line. -/
theorem exists_head_replaced {row : Line} (filled : [] ∉ row) (unfed : '\n' ∉ row.flatten)
    {g : Cluster} (hg : clusters g = [g]) {n c : Nat} (some : 0 < n) (inside : c ≤ row.length)
    (rest : Text) :
    ∃ d more, (row.take c).flatten ++ ((Copies.mk g n).text ++ rest) = d :: more ∧
      (d = '\n' ↔ c = 0 ∧ g = ['\n']) := by
  cases c with
  | zero =>
    obtain ⟨n, rfl⟩ := Nat.exists_eq_succ_of_ne_zero (Nat.ne_of_gt some)
    obtain ⟨d, more, rfl⟩ := List.exists_cons_of_ne_nil (ne_nil_of_cluster hg)
    refine ⟨d, _, rfl, ?_⟩
    constructor
    · rintro rfl
      exact ⟨rfl, congrArg _ (eq_nil_of_feed hg)⟩
    · rintro ⟨-, same⟩
      exact (List.cons.inj same).1
  | succ c =>
    obtain ⟨first, later, rfl⟩ := List.exists_cons_of_length_pos (Nat.zero_lt_of_lt inside)
    obtain ⟨d, more, rfl⟩ := List.exists_cons_of_ne_nil fun (none : first = []) =>
      filled (none ▸ List.mem_cons_self ..)
    refine ⟨d, _, rfl, iff_of_false ?_ (by simp)⟩
    rintro rfl
    exact unfed (by simp)

theorem width_replaced_eq_zero_iff (printable : b.document.text.Printable) (hp : b.page.Holds p)
    {g : Cluster} (hg : clusters g = [g]) {n : Nat} (some : 0 < n) (rest : Text) {d : Document}
    (h : d.text = b.page.before p ++ (Copies.mk g n).text ++ rest) :
    p.line < (d.page dropFeed).length ∧
      ((d.page dropFeed).width p.line = 0 ↔ p.col = 0 ∧ g = ['\n']) := by
  have rows : b.page.rows = b.document.text.splitOn '\n' :=
    Document.rows_page_of_onlyFeeds printable.onlyFeeds
  have unbroken : ∀ row ∈ b.page.rows.take p.line, ∀ c ∈ row, isBreak c = false := by
    intro row mem c hc
    exact (printable.of_row (rows ▸ List.mem_of_mem_take mem) c hc).2
  have above : (b.page.rows.take p.line).length = p.line := by
    rw [List.length_take, Page.length_rows, Nat.min_eq_left (Nat.le_of_lt hp.line)]
  obtain ⟨c, more, line, feed⟩ : ∃ c more,
      ((b.page.line p.line).take p.col).flatten ++ ((Copies.mk g n).text ++ rest) = c :: more ∧
        (c = '\n' ↔ p.col = 0 ∧ g = ['\n']) := by
    apply exists_head_replaced (b.document.not_mem_line_page p.line) _ hg some hp.col rest
    have row := List.mem_of_getElem? (Page.row_eq hp.line)
    exact not_mem_of_mem_splitOn _ _ (rows ▸ row)
  have text : d.text = ended (b.page.rows.take p.line) ++ c :: more := by
    rw [h, Page.before, List.append_assoc, List.append_assoc, line]
  have shown := Document.width_page_eq_zero_iff unbroken text
  rw [above] at shown
  exact ⟨shown.1, shown.2.trans feed⟩

theorem rests_replaced (printable : b.document.text.Printable) (hp : b.page.Holds p)
    {g : Cluster} (hg : clusters g = [g]) {n : Nat} (some : 0 < n) (rest : Text) {d : Document}
    (h : d.text = b.page.before p ++ (Copies.mk g n).text ++ rest) :
    (d.page dropFeed).Rests .normal ((d.page dropFeed).pullBack ⟨p.line, p.col + n - 1⟩) ↔
      ¬ (g = ['\n'] ∧ p.col = 0 ∧ 2 ≤ n) := by
  obtain ⟨onPage, blank⟩ := width_replaced_eq_zero_iff printable hp hg some rest h
  rw [Page.rests_pullBack_iff (p := ⟨p.line, p.col + n - 1⟩) onPage, blank]
  constructor
  · rintro first ⟨feed, col, more⟩
    have start : p.col + n - 1 = 0 := first ⟨col, feed⟩
    omega
  · rintro other ⟨col, feed⟩
    have single : ¬ 2 ≤ n := fun more => other ⟨feed, col, more⟩
    show p.col + n - 1 = 0
    omega

end OpenBuffer

/-! ## The keys of a replacement -/

namespace KeyReader

variable {digits : Text} {count : Option Nat} {g : Cluster}

theorem parse_replace (h : Spells digits count) (hg : clusters g = [g]) :
    Keys.parse (digits ++ 'r' :: g) = .complete (.replace g (min (count.getD 1) maxCount)) := by
  have total : total ⟨count, some .replace, none⟩ = min (count.getD 1) maxCount := by simp [total]
  have read := parse_append (.replacement h) hg
  rw [List.append_assoc, List.singleton_append] at read
  rw [read, ← total]
  rfl

/-- The keys of a replacement as clusters: the new one begins with the `r` if it goes on with it,
and otherwise comes after it. -/
theorem exists_completion (h : Spells digits count) (hg : clusters g = [g]) {calls : List Text}
    {rest : Text} (flat : calls.flatten ++ rest = digits ++ ['r']) :
    ∃ r keys last, Reads r keys ∧ keys ++ last = digits ++ 'r' :: g ∧
      (calls ++ [rest ++ g]).flatMap clusters = (keys.map fun c => [c]) ++ [last] := by
  have whole := plain_of_reads (.replacement h)
  have plain : ∀ c ∈ calls.flatten, CharKind.of c = .plain := fun c hc =>
    whole c (flat ▸ List.mem_append_left _ hc)
  rw [List.flatMap_append, List.flatMap_singleton, flatMap_clusters_of_plain plain]
  rcases List.eq_nil_or_concat rest with rfl | ⟨rest, c, rfl⟩
  · rw [List.append_nil] at flat
    refine ⟨_, digits ++ ['r'], g, .replacement h, by simp, ?_⟩
    rw [flat, List.nil_append, hg]
  · rw [List.concat_eq_append] at flat ⊢
    rw [← List.append_assoc] at flat
    obtain ⟨begun, last⟩ := List.append_inj' flat rfl
    obtain rfl : c = 'r' := List.singleton_inj.mp last
    have before : ∀ c ∈ rest, CharKind.of c = .plain := fun c hc =>
      whole c (List.mem_append_left _ (begun ▸ List.mem_append_right _ hc))
    rw [List.append_assoc, List.singleton_append, clusters_plain_append before (by decide),
      ← List.append_assoc, ← List.map_append, begun]
    rcases clusters_cons_cluster (c := 'r') (by decide) hg with merged | apart
    · rw [merged]
      exact ⟨_, digits, 'r' :: g, .count h, rfl, rfl⟩
    · rw [apart]
      exact ⟨_, digits ++ ['r'], g, .replacement h, by simp, by simp⟩

end KeyReader

namespace Session

variable {s : Session OpenBuffer} {r : KeyReader} {keys last : Text} {calls : List Text} {n : Nat}

theorem typed_replacement (ready : s.Ready) (printable : s.host.document.text.Printable)
    (writable : s.host.readOnly = false) {g : Cluster} (hg : clusters g = [g]) (pos : 0 < n)
    (reads : KeyReader.Reads r keys) (read : Keys.parse (keys ++ last) = .complete (.replace g n))
    (cut : calls.flatMap clusters = (keys.map fun c => [c]) ++ [last]) :
    let lines := s.host.document.text.splitOn '\n'
    let caret := s.host.document.caret
    let row := s.host.page.line caret.line
    caret.col + n ≤ row.length →
    ∃ t, s.Typed calls t ∧ t.engine.pending = [] ∧ t.engine.mode = .normal ∧
      t.engine.register = s.engine.register ∧
      t.host.document.text = joined (lines.set caret.line ((row.take caret.col).flatten ++
        (List.replicate n g).flatten ++ (row.drop (caret.col + n)).flatten)) ∧
      t.host.document.caret = t.host.page.pullBack ⟨caret.line, caret.col + n - 1⟩ ∧
      (t.host.page.Rests .normal t.host.document.caret ↔
        ¬ (g = ['\n'] ∧ caret.col = 0 ∧ 2 ≤ n)) := by
  intro lines caret row enough
  have start : s.host.page.Holds caret := ready.caret.holds
  have stop : s.host.page.Holds ⟨caret.line, caret.col + n⟩ := ⟨start.line, enough⟩
  have le : caret ≤ ⟨caret.line, caret.col + n⟩ := .inr ⟨rfl, Nat.le_add_right ..⟩
  let lands : Position := ⟨caret.line, caret.col + n - 1⟩
  let effect : Effect :=
    { aim := s.view.aim, edit := some (.replace ⟨caret, ⟨caret.line, caret.col + n⟩⟩ ⟨g, n⟩),
      caret := some (.at lands) }
  let left : OpenBuffer := { s.host with
    document := { s.host.document with
      text := s.host.page.before caret ++ (Copies.mk g n).text ++
        s.host.page.after ⟨caret.line, caret.col + n⟩ } }
  have asked : (Command.replace g n).effect? s.view = some effect :=
    if_neg (Nat.not_lt.mpr enough)
  have made : effect.Made s.host left :=
    OpenBuffer.perform_replace printable writable start stop le ⟨g, n⟩
  have shown : s.host.page.rows = lines :=
    Document.rows_page_of_onlyFeeds printable.onlyFeeds
  have page : (s.outcome effect left).host.page = left.page :=
    (caret_outcome_of_at ready rfl rfl).1
  have stands : (s.outcome effect left).host.document.caret = left.page.pullBack lands :=
    (caret_outcome_of_at ready rfl rfl).2
  refine ⟨_, typed_completion ready reads read asked made cut, pending_outcome .., ?_,
    register_outcome .., ?_, ?_, ?_⟩
  · rw [mode_outcome, ready.normal]
    rfl
  · rw [host_outcome_of_at ready rfl, ← shown]
    exact Page.text_of_exchanged start.line ..
  · rw [page, stands]
  · rw [page, stands]
    exact OpenBuffer.rests_replaced printable start hg pos _ rfl

/-- A replacement leaves the text that is asked for. The caret may rest where it goes, unless two or
more line feeds were put at the start of a line. -/
theorem text_of_replace (s : Session OpenBuffer) (ready : s.Ready) (quiet : s.engine.beeps = 0)
    (printable : s.host.document.text.Printable) (digits : Text) (count : Option Nat)
    (spelled : Spells digits count) (g : Cluster) (hg : clusters g = [g]) (calls : List Text)
    (rest : Text) (flat : calls.flatten ++ rest = digits ++ ['r']) :
    let lines := s.host.document.text.splitOn '\n'
    let caret := s.host.document.caret
    let row := s.host.page.line caret.line
    let n := min (count.getD 1) maxCount
    (row.length < caret.col + n →
      s.LeavesNoTrace ((calls ++ [rest ++ g]).map .typeText) 1) ∧
    (caret.col + n ≤ row.length → s.host.readOnly = false →
      ∃ t, s.Typed (calls ++ [rest ++ g]) t ∧ t.engine.pending = [] ∧ t.engine.mode = .normal ∧
        t.engine.register = s.engine.register ∧
        t.host.document.text = joined (lines.set caret.line ((row.take caret.col).flatten ++
          (List.replicate n g).flatten ++ (row.drop (caret.col + n)).flatten)) ∧
        t.host.document.caret = t.host.page.pullBack ⟨caret.line, caret.col + n - 1⟩ ∧
        (t.host.page.Rests .normal t.host.document.caret ↔
          ¬ (g = ['\n'] ∧ caret.col = 0 ∧ 2 ≤ n))) := by
  intro lines caret row n
  obtain ⟨r, keys, last, reads, whole, cut⟩ := KeyReader.exists_completion spelled hg flat
  have read : Keys.parse (keys ++ last) = .complete (.replace g n) :=
    whole ▸ KeyReader.parse_replace spelled hg
  have pos : 0 < n := Nat.lt_min.mpr ⟨spelled.getD_pos, by decide⟩
  constructor
  · intro short
    exact leavesNoTrace_of_completion ready quiet reads read (if_pos short) cut
  · intro enough writable
    exact typed_replacement ready printable writable hg pos reads read cut enough

theorem text_of_replace_by_marks :
    let s : Session OpenBuffer := ⟨.ofConfig {}, .ofText "x\nabcd".toList ⟨1, 1⟩⟩
    (∃ t, s.Typed ["2".toList, "r\u0301".toList] t ∧
      t.host.document.text = "x\na\u0301\u0301d".toList ∧ t.host.document.caret = ⟨1, 1⟩ ∧
      t.host.page.Rests .normal t.host.document.caret) ∧
    s.LeavesNoTrace [.typeText "4r".toList, .typeText "\u0301".toList] 1 := by
  intro s
  have replace (n : Nat) (pos : 0 < n) (calls : List Text) (rest : Text)
      (flat : calls.flatten ++ rest = Nat.toDigits 10 n ++ ['r']) :=
    text_of_replace s ⟨rfl, rfl, by decide⟩ rfl (by decide) _ _ (spells_toDigits pos)
      ['\u0301'] (by decide +kernel) calls rest flat
  constructor
  · obtain ⟨t, typed, -, -, -, text, stands, rests⟩ :=
      (replace 2 (by decide) ["2".toList] ['r'] rfl).2 (by decide +kernel) rfl
    have left : t.host.document.text = "x\na\u0301\u0301d".toList :=
      text.trans (by decide +kernel)
    have page : t.host.page = (OpenBuffer.ofText "x\na\u0301\u0301d".toList .zero).page := by
      rw [OpenBuffer.page, Document.page, left]
      rfl
    refine ⟨t, typed, left, ?_, rests.mpr (by decide)⟩
    rw [stands, page]
    decide +kernel
  · exact (replace 4 (by decide) ["4r".toList] [] rfl).1 (by decide +kernel)

/-- Both clusters of the only line are replaced by line feeds. The line is blank then, and the caret
lies behind its start. -/
theorem caret_after_replace_by_feeds :
    let s : Session OpenBuffer := ⟨.ofConfig {}, .ofText "ab".toList .zero⟩
    let t := (s.typeText "2r\n".toList).2
    s.engine.mode = .normal ∧ s.engine.pending = [] ∧ s.host.document.text.Printable ∧
      s.host.page.Rests .normal s.host.document.caret ∧ clusters ['\n'] = [['\n']] ∧
      (s.typeText "2r\n".toList).1 = .ok [] ∧ t.engine.mode = .normal ∧
      t.host.document.text = "\n\n".toList ∧ t.host.document.caret = ⟨0, 1⟩ ∧
      t.host.page.width 0 = 0 ∧ ¬ t.host.page.Rests .normal t.host.document.caret := by
  decide +kernel

end Session

end ModalEditor

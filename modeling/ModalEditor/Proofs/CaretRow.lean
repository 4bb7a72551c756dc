import ModalEditor.Proofs.Fitting
import ModalEditor.Proofs.PutLines
import ModalEditor.Proofs.Replacing

/-! # The row of the caret

A deletion within a line and a put of characters exchange a part of the row that the caret is in and
leave everything else as it is. What becomes of the session is told by the new row and the column
that the caret goes to.
-/

namespace ModalEditor

open Text

namespace Text

variable {row new : Text}

def Unbroken (t : Text) : Prop :=
  ∀ c ∈ t, isBreak c = false

instance (t : Text) : Decidable (Unbroken t) :=
  List.decidableBAll (fun c => isBreak c = false) t

theorem Unbroken.not_mem (h : Unbroken row) : '\n' ∉ row :=
  fun feed => absurd (h _ feed) (by decide)

theorem Unbroken.onlyFeeds (h : Unbroken row) : OnlyFeeds row :=
  fun c hc breaks => absurd (h c hc) (by simp [breaks])

theorem Unbroken.append (h : Unbroken row) (h' : Unbroken new) : Unbroken (row ++ new) :=
  List.forall_mem_append.mpr ⟨h, h'⟩

theorem Unbroken.of_subset (h : Unbroken row) (part : new ⊆ row) : Unbroken new :=
  fun c hc => h c (part hc)

theorem Unbroken.insert {left right : Text} (h : Unbroken (left ++ right)) (h' : Unbroken new) :
    Unbroken (left ++ new ++ right) := by
  obtain ⟨before, after⟩ := List.forall_mem_append.mp h
  exact (Unbroken.append before h').append after

theorem Unbroken.copies (h : Unbroken new) (n : Nat) : Unbroken (Copies.mk new n).text :=
  fun c hc => h c (Copies.mem_text.mp hc).1

theorem Printable.unbroken (h : Printable row) (single : '\n' ∉ row) : Unbroken row := by
  intro c hc
  cases breaks : isBreak c with
  | false => rfl
  | true => exact absurd (h.onlyFeeds c hc breaks) (ne_of_mem_of_not_mem hc single)

theorem OnlyFeeds.unbroken {t : Text} (h : t.OnlyFeeds) (hrow : row ∈ t.splitOn '\n') :
    Unbroken row := by
  intro c hc
  obtain ⟨mem, other⟩ := mem_of_mem_row hrow hc
  cases breaks : isBreak c with
  | false => rfl
  | true => exact absurd (h c mem breaks) other

/-- A row with the clusters between two columns exchanged for a text. -/
def exchange (col col' : Nat) (new row : Text) : Text :=
  ((clusters row).take col).flatten ++ new ++ ((clusters row).drop col').flatten

theorem exchange_min (col : Nat) (new row : Text) :
    exchange (min col (columns row)) (min col (columns row)) new row = exchange col col new row := by
  unfold exchange
  rcases Nat.le_total col (columns row) with inside | past
  · rw [Nat.min_eq_left inside]
  · rw [Nat.min_eq_right past, List.take_of_length_le past, List.drop_of_length_le past, columns,
      List.take_length, List.drop_length]

theorem Unbroken.exchange (h : Unbroken row) (h' : Unbroken new) (col col' : Nat) :
    Unbroken (exchange col col' new row) := by
  have part : ∀ gs : List Cluster, gs ⊆ clusters row → Unbroken gs.flatten := by
    intro gs hgs
    apply h.of_subset
    rw [← flatten_clusters row]
    intro c hc
    obtain ⟨g, hg, hc⟩ := List.mem_flatten.mp hc
    exact List.mem_flatten.mpr ⟨g, hgs hg, hc⟩
  exact ((part _ (List.take_subset ..)).append h').append (part _ (List.drop_subset ..))

end Text

theorem Page.pullBack_eq {page : Page} {p : Position} (h : page.width p.line = 0 → p.col = 0) :
    page.pullBack p = ⟨p.line, min p.col (page.width p.line - 1)⟩ := by
  obtain ⟨l, c⟩ := p
  simp only at h
  unfold pullBack
  simp only
  split
  · rw [Position.mk.injEq]
    omega
  · rw [Position.mk.injEq]
    omega

namespace Session

/-- A command that stays in normal mode leaves the caret where it puts it, pulled back. -/
theorem settle_carryOut {β : Type} [Host β] [FreeCaret β] {s : Session β} {effect : Effect}
    {host : β} (normal : s.engine.mode = .normal) (stays : effect.inserts = false)
    {landing : Landing} (goes : effect.caret = some landing) :
    (s.carryOut effect host).settle =
      ⟨{ s.engine with
          aim := effect.aim, register := effect.register.or s.engine.register, pending := [] },
        Host.moveCaret ((Host.page host).pullBack landing.position) host⟩ := by
  let engine : Engine := { s.engine with
    aim := effect.aim, register := effect.register.or s.engine.register, pending := [] }
  have left : s.carryOut effect host = ⟨engine, Host.moveCaret landing.position host⟩ := by
    simp only [carryOut, commit, stays, goes, Bool.false_eq_true, if_false, Engine.clearPending,
      engine]
  rw [left]
  exact settle_moveCaret engine normal landing.position host

def rows (s : Session OpenBuffer) : List Text :=
  s.host.document.text.splitOn '\n'

def row (s : Session OpenBuffer) : Text :=
  s.rows[s.host.document.caret.line]?.getD []

/-- The session once the row of the caret is another one and the caret has gone to a column of it.
Nothing is selected and nothing is pending. -/
def withRow (new : Text) (col : Nat) (s : Session OpenBuffer) : Session OpenBuffer :=
  let l := s.host.document.caret.line
  ⟨{ s.engine with pending := [] },
    { s.host with document := ⟨joined (s.rows.set l new), ⟨l, col⟩⟩, selection := false }⟩

/-- A command may be typed and its edit will be made, in a text that only line feeds break. -/
structure Editable (s : Session OpenBuffer) : Prop extends s.Ready where
  feeds : s.host.document.text.OnlyFeeds
  writable : s.host.readOnly = false

variable {s : Session OpenBuffer} {new : Text} {col : Nat}

namespace Editable

theorem page_eq (h : s.Editable) : s.host.page = Page.ofLines s.rows :=
  Document.page_eq h.feeds

theorem line_lt (h : s.Editable) : s.host.document.caret.line < s.rows.length := by
  have line : s.host.document.caret.line < s.host.page.length := h.caret.1
  rwa [h.page_eq, Page.ofLines, List.length_map] at line

theorem getElem?_rows (h : s.Editable) : s.rows[s.host.document.caret.line]? = some s.row := by
  rw [Session.row, List.getElem?_eq_getElem h.line_lt]
  rfl

theorem unbroken (h : s.Editable) : s.row.Unbroken :=
  h.feeds.unbroken (List.mem_of_getElem? h.getElem?_rows)

theorem line_eq (h : s.Editable) :
    s.host.page.line s.host.document.caret.line = clusters s.row := by
  rw [h.page_eq, Page.line_ofLines]
  rfl

theorem width_eq (h : s.Editable) :
    s.host.page.width s.host.document.caret.line = columns s.row :=
  congrArg List.length h.line_eq

theorem col_lt (h : s.Editable) : s.host.document.caret.col < columns s.row ∨
    columns s.row = 0 ∧ s.host.document.caret.col = 0 := by
  rw [← h.width_eq]
  exact h.caret.2

theorem text_of_exchange (h : s.Editable) (col col' : Nat) (new : Text) :
    let l := s.host.document.caret.line
    s.host.page.before ⟨l, col⟩ ++ new ++ s.host.page.after ⟨l, col'⟩ =
      joined (s.rows.set l (exchange col col' new s.row)) := by
  intro l
  have line : l < s.host.page.length := h.caret.1
  have rows : s.host.page.rows = s.rows := Document.rows_page_of_onlyFeeds h.feeds
  rw [Page.text_of_exchanged line, rows, h.line_eq]
  rfl

/-! ## A new row -/

theorem unbroken_set (h : s.Editable) (hnew : new.Unbroken) (l : Nat) :
    ∀ row ∈ s.rows.set l new, row.Unbroken := by
  intro row mem
  rcases List.mem_or_eq_of_mem_set mem with mem | rfl
  · exact h.feeds.unbroken mem
  · exact hnew

theorem onlyFeeds_set (h : s.Editable) (hnew : new.Unbroken) (l : Nat) :
    (joined (s.rows.set l new)).OnlyFeeds :=
  onlyFeeds_intercalate fun row mem => (h.unbroken_set hnew l row mem).onlyFeeds

theorem rows_withRow (h : s.Editable) (hnew : new.Unbroken) (col : Nat) :
    (s.withRow new col).rows = s.rows.set s.host.document.caret.line new := by
  have some : s.rows.set s.host.document.caret.line new ≠ [] := by
    rw [← List.length_pos_iff, List.length_set]
    exact Nat.zero_lt_of_lt h.line_lt
  rw [rows, Session.withRow, splitOn_joined fun row mem => (h.unbroken_set hnew _ row mem).not_mem,
    orBlank_of_ne_nil some]

theorem row_withRow (h : s.Editable) (hnew : new.Unbroken) (col : Nat) :
    (s.withRow new col).row = new := by
  rw [Session.row, h.rows_withRow hnew]
  simp [Session.withRow, List.getElem?_set_self h.line_lt]

theorem withRow_withRow (h : s.Editable) (hnew : new.Unbroken) (col : Nat) (new' : Text)
    (col' : Nat) : (s.withRow new col).withRow new' col' = s.withRow new' col' := by
  have rows := h.rows_withRow hnew col
  unfold Session.withRow at rows ⊢
  simp only [rows, List.set_set]

theorem line_of_set (h : s.Editable) (hnew : new.Unbroken) {b : OpenBuffer}
    (text : b.document.text = joined (s.rows.set s.host.document.caret.line new)) :
    s.host.document.caret.line < b.page.length ∧
      b.page.line s.host.document.caret.line = clusters new := by
  have feeds : b.document.text.OnlyFeeds := text ▸ h.onlyFeeds_set hnew _
  have page : b.page = Page.ofLines (b.document.text.splitOn '\n') := Document.page_eq feeds
  have rows : b.document.text.splitOn '\n' = s.rows.set s.host.document.caret.line new := by
    rw [text]
    exact h.rows_withRow hnew 0
  rw [page, rows, Page.line_ofLines, List.getElem?_set_self h.line_lt, Page.ofLines,
    List.length_map, List.length_set]
  exact ⟨h.line_lt, rfl⟩

theorem withRow (h : s.Editable) (hnew : new.Unbroken)
    (rests : col < columns new ∨ columns new = 0 ∧ col = 0) : (s.withRow new col).Editable := by
  obtain ⟨line, shown⟩ := h.line_of_set (b := (s.withRow new col).host) hnew rfl
  refine ⟨⟨h.normal, rfl, line, ?_⟩, h.onlyFeeds_set hnew _, h.writable⟩
  have width : (s.withRow new col).host.page.width s.host.document.caret.line = columns new :=
    congrArg List.length shown
  rw [← width] at rests
  exact rests

end Editable

/-- A command that exchanges the row of the caret and nothing else of the text. -/
theorem interprets_exchange (h : s.Editable) {r : KeyReader} {keys : Text} {g : Cluster}
    {command : Command} {effect : Effect} {landing : Landing} (hr : KeyReader.Reads r keys)
    (hc : Keys.parse (keys ++ g) = .complete command) (he : command.effect? s.view = some effect)
    (hnew : new.Unbroken)
    (made : effect.Made s.host { s.host with document := { s.host.document with
      text := joined (s.rows.set s.host.document.caret.line new) } })
    (stays : effect.inserts = false) (goes : effect.caret = some landing)
    (line : landing.position.line = s.host.document.caret.line)
    (start : columns new = 0 → landing.position.col = 0) :
    s.Interprets ((keys.map fun c => [c]) ++ [g])
      (({ s with engine := { s.engine with
          aim := effect.aim, register := effect.register.or s.engine.register } } :
            Session OpenBuffer).withRow new (min landing.position.col (columns new - 1))) := by
  let left : OpenBuffer := { s.host with document := { s.host.document with
    text := joined (s.rows.set s.host.document.caret.line new) } }
  have width : left.page.width landing.position.line = columns new := by
    rw [line]
    exact congrArg List.length (h.line_of_set hnew rfl).2
  have pulled : (Host.page left).pullBack landing.position =
      ⟨s.host.document.caret.line, min landing.position.col (columns new - 1)⟩ := by
    have back := left.page.pullBack_eq (p := landing.position) (by rwa [width])
    rwa [width, line] at back
  have done := interprets_command h.toReady hr hc he made
  rw [settle_carryOut h.normal stays goes, pulled] at done
  exact done

end Session

end ModalEditor

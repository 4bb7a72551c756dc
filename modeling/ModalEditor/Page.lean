import ModalEditor.Cluster.Segmentation
import ModalEditor.Position

/-! # Pages

A page is what can be seen of a text: its lines without their breaks, each cut into clusters.
Motions and commands read a page and never the text behind it.
-/

namespace ModalEditor

/-- A line without its break, cluster by cluster. -/
abbrev Line := List Cluster

/-- The visible lines of a text. -/
abbrev Page := List Line

namespace Page

def ofLines (lines : List Text) : Page :=
  lines.map clusters

/-- A line of the page. Past the last line everything is empty. -/
def line (page : Page) (l : Nat) : Line :=
  page[l]?.getD []

def width (page : Page) (l : Nat) : Nat :=
  (page.line l).length

/-- The number of the last line, zero on a page without lines. -/
def lastLine (page : Page) : Nat :=
  page.length - 1

/-- The nearest position that lies on the page, the end of a line included. -/
def clamp (page : Page) (p : Position) : Position :=
  let l := min p.line page.lastLine
  ⟨l, min p.col (page.width l)⟩

def pieces (page : Page) (s : Span) : List Line :=
  if s.start.line = s.stop.line then
    [((page.line s.start.line).take s.stop.col).drop s.start.col]
  else
    let between := (page.take s.stop.line).drop (s.start.line + 1)
    (page.line s.start.line).drop s.start.col :: between
      ++ [(page.line s.stop.line).take s.stop.col]

/-- The text between two positions, pulled onto the page first. Lines are joined by a line feed. -/
def slice (page : Page) (s : Span) : Text :=
  let start := page.clamp s.start
  let stop := page.clamp s.stop
  if stop ≤ start then []
  else ['\n'].intercalate ((page.pieces ⟨start, stop⟩).map List.flatten)

theorem line_of_le {page : Page} {l : Nat} (h : page.length ≤ l) : page.line l = [] := by
  simp [line, List.getElem?_eq_none h]

theorem clamp_line_lt {page : Page} (h : page ≠ []) (p : Position) :
    (page.clamp p).line < page.length := by
  have := List.length_pos_iff.2 h
  simp only [clamp, lastLine]
  omega

theorem clamp_col_le (page : Page) (p : Position) :
    (page.clamp p).col ≤ page.width (page.clamp p).line := by
  simp only [clamp]
  exact Nat.min_le_right ..

theorem slice_of_stop_le (page : Page) {s : Span} (h : page.clamp s.stop ≤ page.clamp s.start) :
    page.slice s = [] := by
  simp [slice, h]

end Page

end ModalEditor

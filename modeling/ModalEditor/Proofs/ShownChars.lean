import ModalEditor.Command.Effect
import ModalEditor.Proofs.Rows

/-! # Characters on a page

A slice of a page holds characters that the page shows, with line feeds between the lines. So does
the register after a command, and the page of a document shows characters of its text.
-/

namespace ModalEditor

variable {c : Char}

namespace Text

theorem mem_of_mem_intercalate {ts : List Text} (mem : c ∈ ['\n'].intercalate ts)
    (other : c ≠ '\n') : ∃ t ∈ ts, c ∈ t := by
  induction ts with
  | nil => cases mem
  | cons t ts ih =>
    cases ts with
    | nil =>
      rw [List.intercalate_singleton] at mem
      exact ⟨t, .head _, mem⟩
    | cons u ts =>
      rw [List.intercalate_cons_cons, List.append_assoc, List.mem_append, List.mem_append,
        List.mem_singleton] at mem
      rcases mem with first | feed | later
      · exact ⟨t, .head _, first⟩
      · exact absurd feed other
      · obtain ⟨t', ht, mem⟩ := ih later
        exact ⟨t', .tail _ ht, mem⟩

theorem onlyFeeds_flatten {ts : List Text} :
    OnlyFeeds ts.flatten ↔ ∀ t ∈ ts, OnlyFeeds t := by
  constructor
  · intro h t ht c hc
    exact h c (List.mem_flatten.mpr ⟨t, ht, hc⟩)
  · intro h c hc
    obtain ⟨t, ht, hc⟩ := List.mem_flatten.mp hc
    exact h t ht c hc

theorem onlyFeeds_intercalate {ts : List Text} (h : ∀ t ∈ ts, OnlyFeeds t) :
    OnlyFeeds (['\n'].intercalate ts) := by
  intro c mem breaks
  by_cases feed : c = '\n'
  · exact feed
  · obtain ⟨t, ht, mem⟩ := mem_of_mem_intercalate mem feed
    exact h t ht c mem breaks

end Text

namespace Page

variable {page : Page}

def Shows (page : Page) (c : Char) : Prop :=
  ∃ line ∈ page, ∃ g ∈ line, c ∈ g

theorem shows_of_mem_line {l : Nat} {g : Cluster} (hg : g ∈ page.line l) (mem : c ∈ g) :
    page.Shows c := by
  rcases Nat.lt_or_ge l page.length with inside | past
  · rw [line, List.getElem?_eq_getElem inside] at hg
    exact ⟨_, List.getElem_mem inside, g, hg, mem⟩
  · rw [line_of_le past] at hg
    cases hg

theorem shows_of_mem_pieces {span : Span} {piece : Line} {g : Cluster}
    (hp : piece ∈ page.pieces span) (hg : g ∈ piece) (mem : c ∈ g) : page.Shows c := by
  unfold pieces at hp
  split at hp
  · rw [List.mem_singleton] at hp
    subst hp
    exact shows_of_mem_line (List.mem_of_mem_take (List.mem_of_mem_drop hg)) mem
  · simp only [List.cons_append, List.mem_cons, List.mem_append, List.not_mem_nil, or_false] at hp
    rcases hp with rfl | between | rfl
    · exact shows_of_mem_line (List.mem_of_mem_drop hg) mem
    · exact ⟨piece, List.mem_of_mem_take (List.mem_of_mem_drop between), g, hg, mem⟩
    · exact shows_of_mem_line (List.mem_of_mem_take hg) mem

/-- A slice holds what the page shows and line feeds between its lines. -/
theorem shows_of_mem_slice {span : Span} (mem : c ∈ page.slice span) (other : c ≠ '\n') :
    page.Shows c := by
  simp only [slice] at mem
  split at mem
  · cases mem
  · obtain ⟨row, hrow, hc⟩ := Text.mem_of_mem_intercalate mem other
    obtain ⟨piece, hp, rfl⟩ := List.mem_map.mp hrow
    obtain ⟨g, hg, hc⟩ := List.mem_flatten.mp hc
    exact shows_of_mem_pieces hp hg hc

def OnlyFeeds (page : Page) : Prop :=
  ∀ line ∈ page, ∀ g ∈ line, Text.OnlyFeeds g

end Page

theorem Text.dropFeed_subset (line : Text) : dropFeed line ⊆ line := by
  unfold dropFeed
  split
  · exact List.dropLast_subset _
  · exact List.Subset.refl _

namespace Document

variable {d : Document}

theorem mem_of_shows {shown : Text → Text} (part : ∀ line, shown line ⊆ line)
    (shows : (d.page shown).Shows c) : c ∈ d.text := by
  obtain ⟨line, hline, g, hg, mem⟩ := shows
  obtain ⟨whole, hw, rfl⟩ := List.mem_map.mp hline
  have visible : c ∈ shown whole := by
    rw [← flatten_clusters (shown whole)]
    exact List.mem_flatten.mpr ⟨g, hg, mem⟩
  rw [← Text.flatten_lines d.text]
  exact List.mem_flatten.mpr ⟨whole, hw, part whole visible⟩

theorem onlyFeeds_page (h : d.text.OnlyFeeds) : (d.page Text.dropFeed).OnlyFeeds :=
  fun line hline g hg c hc => h c (mem_of_shows Text.dropFeed_subset ⟨line, hline, g, hg, hc⟩)

end Document

/-! ## The register -/

theorem View.shows_of_mem_cut {view : View} {dest : Place} {inserts : Bool} {register : Register}
    (hr : (view.cut dest inserts).register = some register) (mem : c ∈ register.content)
    (other : c ≠ '\n') : view.page.Shows c := by
  simp only [cut] at hr
  split at hr
  · cases hr
  · obtain rfl := Option.some.inj hr
    exact Page.shows_of_mem_slice mem other

namespace Command

variable {command : Command} {view : View} {effect : Effect}

/-- A command takes into the register what the page shows. -/
theorem shows_of_mem_register (he : command.effect? view = some effect) {register : Register}
    (hr : effect.register = some register) (mem : c ∈ register.content) (other : c ≠ '\n') :
    view.page.Shows c := by
  cases command with
  | move _ | insert | append | appendAtEnd =>
    obtain rfl := Option.some.inj he
    cases hr
  | delete target | change target =>
    cases target with
    | stride stride =>
      obtain rfl := Option.some.inj he
      exact View.shows_of_mem_cut hr mem other
    | lines count =>
      obtain ⟨lines, -, rfl⟩ := Option.map_eq_some_iff.mp he
      obtain rfl := Option.some.inj hr
      rcases List.mem_append.mp mem with cut | feed
      · exact Page.shows_of_mem_slice cut other
      · exact absurd (List.mem_singleton.mp feed) other
  | put count =>
    obtain ⟨held, -, -, -, rfl⟩ := of_effect?_put he
    cases held <;> cases hr
  | replace g count =>
    obtain ⟨-, rfl⟩ := of_effect?_replace he
    cases hr

theorem register_onlyFeeds (clean : view.page.OnlyFeeds) (he : command.effect? view = some effect) :
    ∀ register ∈ effect.register, register.content.OnlyFeeds := by
  intro register hr c mem breaks
  by_cases feed : c = '\n'
  · exact feed
  · obtain ⟨line, hline, g, hg, hc⟩ := shows_of_mem_register he hr mem feed
    exact clean line hline g hg c hc breaks

end Command

end ModalEditor

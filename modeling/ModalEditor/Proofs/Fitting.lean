import ModalEditor.Buffer.Open
import ModalEditor.Proofs.EditBounds
import ModalEditor.Proofs.ShownChars

/-! # Effects that fit the page

From a caret on the page a command works out an effect that fits the page: the ends of its edit lie
there in order, and the caret goes where a line will be when the edit is made.
-/

namespace ModalEditor

/-- What a command brings in besides the register is text for one line, and its count is not
zero. -/
def Command.Plain : Command → Prop
  | .put count => count ≠ 0
  | .replace g count => Text.OnlyFeeds g ∧ '\n' ∉ g ∧ g ≠ [] ∧ count ≠ 0
  | _ => True

/-- What an effect asks for can be done on the page, and the caret has a place after it. -/
inductive Effect.Fits (page : Page) (effect : Effect) : Prop
  | stays : effect.edit = none →
      (∀ landing, effect.caret = some landing → page.Holds landing.position) → Fits page effect
  | deletes {span : Span} {pos : Position} : effect.edit = some (.delete span) →
      effect.caret = some (.at pos) → page.Holds span.start → page.Holds span.stop →
      span.start ≤ span.stop → pos.line = span.start.line → pos.col ≤ span.start.col →
      Fits page effect
  | insertsChars {pos : Position} {copies : Copies} : effect.edit = some (.insert pos copies) →
      effect.caret = some (.lastOf pos copies) → effect.inserts = false → page.Holds pos →
      copies.unit.OnlyFeeds → copies.unit ≠ [] → copies.times ≠ 0 → Fits page effect
  | insertsLines {pos : Position} {copies : Copies} {l : Nat} :
      effect.edit = some (.insert pos copies) → effect.caret = some (.at ⟨l, 0⟩) →
      effect.inserts = false → page.Holds pos → copies.unit.OnlyFeeds → '\n' ∈ copies.unit →
      copies.times ≠ 0 → l ≤ pos.line + 1 → Fits page effect
  | replaces {span : Span} {copies : Copies} {pos : Position} :
      effect.edit = some (.replace span copies) → effect.caret = some (.at pos) →
      effect.inserts = false → page.Holds span.start → page.Holds span.stop →
      span.start ≤ span.stop → copies.unit.OnlyFeeds → '\n' ∉ copies.unit → copies.unit ≠ [] →
      copies.times ≠ 0 → pos.line = span.start.line → Fits page effect

namespace View

variable {view : View} {lines : Lines}

theorem lines?_bounds {count : Nat} (h : view.lines? count = some lines) :
    lines.first ≤ lines.last ∧ lines.last < view.page.length := by
  unfold lines? at h
  split at h
  · cases h
  · next some =>
    obtain rfl := Option.some.inj h
    simp only [Page.lastLine]
    omega

theorem fits_of_deletion {page : Page} {span : Span} {pos : Position} {effect : Effect}
    (hedit : effect.edit = deletion? span) (hcaret : effect.caret = some (.at pos))
    (start : page.Holds span.start) (stop : page.Holds span.stop) (le : span.start ≤ span.stop)
    (line : pos.line = span.start.line) (col : pos.col ≤ span.start.col) : effect.Fits page := by
  unfold deletion? at hedit
  split at hedit
  · apply Effect.Fits.stays hedit
    intro landing hl
    obtain rfl := Option.some.inj (hcaret.symm.trans hl)
    exact start.mono line col
  · exact .deletes hedit hcaret start stop le line col

theorem fits_cut {dest : Place} (h : view.page.Holds view.caret) (hd : view.page.Holds dest.pos)
    (inserts : Bool) : (view.cut dest inserts).Fits view.page := by
  obtain ⟨start, stop⟩ := Page.holds_between h hd
  unfold cut
  simp only
  split
  · exact .stays rfl fun landing hl => nomatch hl
  · exact .deletes rfl rfl start stop (Span.between_start_le ..) rfl (Nat.le_refl _)

theorem edit_cut (view : View) (dest : Place) (inserts : Bool) :
    (view.cut dest inserts).edit = deletion? (.between view.caret dest.pos) := by
  unfold cut deletion?
  simp only
  split <;> rfl

theorem removal_bounds {page : Page} (h : lines.first ≤ lines.last ∧ lines.last < page.length) :
    page.Holds (lines.removal page).1.start ∧ page.Holds (lines.removal page).1.stop ∧
      (lines.removal page).1.start ≤ (lines.removal page).1.stop ∧
      (lines.removal page).2.line = (lines.removal page).1.start.line ∧
      (lines.removal page).2.col ≤ (lines.removal page).1.start.col := by
  obtain ⟨order, last⟩ := h
  have stop : page.Holds ⟨lines.last, page.width lines.last⟩ := ⟨last, Nat.le_refl _⟩
  unfold Lines.removal
  split
  · next below =>
    refine ⟨?_, ?_, ?_, rfl, Nat.le_refl _⟩
    · exact ⟨Nat.lt_of_le_of_lt order last, Nat.zero_le _⟩
    · exact ⟨below, Nat.zero_le _⟩
    · exact .inl (Nat.lt_succ_of_le order)
  · split
    · next above =>
      refine ⟨?_, stop, ?_, rfl, Nat.zero_le _⟩
      · exact ⟨by simp only; omega, Nat.le_refl _⟩
      · exact .inl (by simp only; omega)
    · next top =>
      refine ⟨?_, stop, ?_, rfl, Nat.le_refl _⟩
      · exact ⟨Nat.lt_of_le_of_lt (Nat.zero_le _) last, Nat.zero_le _⟩
      · rw [Position.le_def]
        simp only [Position.zero]
        omega

theorem fits_cutLines (h : lines.first ≤ lines.last ∧ lines.last < view.page.length) :
    (view.cutLines lines).Fits view.page := by
  obtain ⟨start, stop, le, line, col⟩ := removal_bounds h
  exact fits_of_deletion rfl rfl start stop le line col

theorem fits_clearLines (h : lines.first ≤ lines.last ∧ lines.last < view.page.length) :
    (view.clearLines lines).Fits view.page := by
  obtain ⟨order, last⟩ := h
  refine fits_of_deletion rfl rfl ?_ ?_ ?_ rfl (Nat.le_refl _)
  · exact ⟨Nat.lt_of_le_of_lt order last, Nat.zero_le _⟩
  · exact ⟨last, Nat.le_refl _⟩
  · rw [Position.le_def]
    simp only [Lines.span]
    omega

theorem fits_put {register : Register} {count : Nat} (h : view.page.Holds view.caret)
    (clean : register.content.OnlyFeeds) (ne : register.isEmpty = false) (pos : count ≠ 0) :
    (view.put register count).Fits view.page := by
  have line := h.line
  cases register with
  | chars text =>
    have some : text ≠ [] := by
      rintro rfl
      cases ne
    exact .insertsChars rfl rfl rfl ⟨line, Nat.min_le_right _ _⟩ clean some pos
  | lines text =>
    have last : view.page.lastLine < view.page.length := by
      simp only [Page.lastLine]
      omega
    simp only [Register.content, Text.onlyFeeds_append] at clean
    simp only [put]
    split
    · next above =>
      refine .insertsLines rfl rfl rfl ⟨?_, Nat.zero_le _⟩ ?_ ?_ pos (Nat.le_succ _)
      · simp only
        omega
      · exact Text.onlyFeeds_append.mpr clean
      · exact List.mem_append_right _ (List.mem_singleton_self _)
    · refine .insertsLines rfl rfl rfl ⟨?_, Nat.le_refl _⟩ ?_ ?_ pos (Nat.le_refl _)
      · simp only
        omega
      · exact Text.onlyFeeds_append.mpr ⟨clean.2, clean.1⟩
      · exact List.mem_cons_self ..

theorem fits_replace {g : Cluster} {count : Nat} {effect : Effect}
    (h : view.page.Holds view.caret) (plain : (Command.replace g count).Plain)
    (he : (Command.replace g count).effect? view = some effect) : effect.Fits view.page := by
  obtain ⟨clean, row, ne, pos⟩ := plain
  obtain ⟨enough, rfl⟩ := Command.of_effect?_replace he
  refine .replaces rfl rfl rfl h ⟨h.line, enough⟩ ?_ clean row ne pos rfl
  exact .inr ⟨rfl, Nat.le_add_right _ _⟩

end View

/-- A command that can be carried out fits the page it was worked out on. -/
theorem Command.fits {command : Command} {view : View} {effect : Effect} (plain : command.Plain)
    (h : view.page.Holds view.caret)
    (clean : ∀ register ∈ view.register, register.content.OnlyFeeds)
    (he : command.effect? view = some effect) : effect.Fits view.page := by
  have moved : ∀ (stride : Stride) (aim : Option Nat) (inserts : Bool),
      Effect.Fits view.page
        { aim, caret := some (.at (view.reach stride).pos), inserts } := by
    intro stride aim inserts
    apply Effect.Fits.stays rfl
    intro landing hl
    obtain rfl := Option.some.inj hl
    exact View.holds_reach stride h
  cases command with
  | move stride =>
    obtain rfl := Option.some.inj he
    exact moved ..
  | append =>
    obtain rfl := Option.some.inj he
    exact moved ..
  | appendAtEnd =>
    obtain rfl := Option.some.inj he
    exact moved ..
  | insert =>
    obtain rfl := Option.some.inj he
    exact .stays rfl fun landing hl => nomatch hl
  | delete target =>
    cases target with
    | stride stride =>
      obtain rfl := Option.some.inj he
      exact View.fits_cut h (View.holds_reach stride h) _
    | lines count =>
      obtain ⟨lines, hl, rfl⟩ := Option.map_eq_some_iff.mp he
      exact View.fits_cutLines (View.lines?_bounds hl)
  | change target =>
    cases target with
    | stride stride =>
      obtain rfl := Option.some.inj he
      exact View.fits_cut h (View.holds_reach stride h) _
    | lines count =>
      obtain ⟨lines, hl, rfl⟩ := Option.map_eq_some_iff.mp he
      exact View.fits_clearLines (View.lines?_bounds hl)
  | put count =>
    obtain ⟨register, held, ne, -, rfl⟩ := of_effect?_put he
    exact View.fits_put h (clean register held) ne plain
  | replace g count => exact View.fits_replace h plain he

/-- The edit of an effect that fits is made, and the caret can settle where the effect puts it. In
insert mode, which does not settle, it is put on the page. -/
theorem Effect.Fits.lands {effect : Effect} {edit : Edit} {d : Document} (h : d.text.OnlyFeeds)
    (fits : effect.Fits (d.page Text.dropFeed)) (he : effect.edit = some edit) :
    ∃ d', d.edit Text.dropFeed OpenBuffer.reach edit = .ok d' ∧ d'.text.OnlyFeeds ∧
      ∃ landing, effect.caret = some landing ∧
        (d'.page Text.dropFeed).Settles landing.position ∧
        (effect.inserts = true → (d'.page Text.dropFeed).Holds landing.position) := by
  cases fits with
  | stays none =>
    rw [none] at he
    cases he
  | @deletes span pos hedit hcaret start stop le line col =>
    obtain rfl := Option.some.inj (hedit.symm.trans he)
    obtain ⟨cut, made, clean, kept⟩ := Document.delete_ok h start stop le
    have landed := kept pos line col
    exact ⟨cut, made, clean, _, hcaret, landed.settles, fun _ => landed⟩
  | @insertsChars pos copies hedit hcaret hinserts hp hu ne times =>
    obtain rfl := Option.some.inj (hedit.symm.trans he)
    have clean := Document.onlyFeeds_splice h (Copies.onlyFeeds_text hu)
      (d.offset Text.dropFeed pos) (d.offset Text.dropFeed pos)
    refine ⟨_, rfl, clean, _, hcaret, ?_, by simp [hinserts]⟩
    simp only [Landing.position]
    split
    · exact (Document.holds_of_kept h hp clean (List.append_assoc ..) rfl (Nat.le_refl _)).settles
    · next row =>
      refine Document.settles_of_entered h hp clean rfl (Copies.text_ne_nil ne times) ?_ rfl
      intro hc
      exact row (Copies.mem_text.mp hc).1
  | @insertsLines pos copies l hedit hcaret hinserts hp hu feed times le =>
    obtain rfl := Option.some.inj (hedit.symm.trans he)
    have clean := Document.onlyFeeds_splice h (Copies.onlyFeeds_text hu)
      (d.offset Text.dropFeed pos) (d.offset Text.dropFeed pos)
    have below := Document.below_of_entered h hp clean rfl (Copies.mem_text.mpr ⟨feed, times⟩)
    have start : ((d.insert Text.dropFeed pos copies.text).page Text.dropFeed).Holds ⟨l, 0⟩ :=
      ⟨Nat.lt_of_le_of_lt le below, Nat.zero_le _⟩
    exact ⟨_, rfl, clean, _, hcaret, start.settles, fun _ => start⟩
  | @replaces span copies pos hedit hcaret hinserts start stop le hu row ne times line =>
    obtain rfl := Option.some.inj (hedit.symm.trans he)
    obtain ⟨cut, made, clean, kept⟩ := Document.delete_ok h start stop le
    -- The new text goes in after the old is gone, so its start is sought on the shorter text.
    have begins := kept span.start rfl (Nat.le_refl _)
    have entered := Document.onlyFeeds_splice clean (Copies.onlyFeeds_text hu)
      (cut.offset Text.dropFeed span.start) (cut.offset Text.dropFeed span.start)
    refine ⟨_, congrArg (Except.map _) made, entered, _, hcaret, ?_, by simp [hinserts]⟩
    have row' : '\n' ∉ copies.text := by
      intro hc
      exact row (Copies.mem_text.mp hc).1
    exact Document.settles_of_entered clean begins entered rfl (Copies.text_ne_nil ne times) row'
      line

end ModalEditor

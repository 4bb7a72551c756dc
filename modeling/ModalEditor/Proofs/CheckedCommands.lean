import ModalEditor.Proofs.CheckedMotions
import ModalEditor.Proofs.Fitting
import ModalEditor.Proofs.ReadCommands
import ModalEditor.Session

/-! # Checked commands

Operators and the settling of the caret are worked out once more with checked sums and differences.
Counts read from keys are positive, whole lines end on the page, and a put brings in few clusters
beside those that a line has room for, so no check fails.
-/

namespace ModalEditor

open Checked

/-! ## Effects -/

namespace View

def checkedReach (view : View) (stride : Stride) : Checked Place :=
  stride.checkedRun view.page view.separators ⟨view.caret, view.aim⟩

def checkedLines? (view : View) (count : Nat) : Checked (Option Lines) :=
  if view.page.length = 0 then .ok none
  else do
    let first := min view.caret.line view.page.lastLine
    let more ← difference count 1
    .ok (some ⟨first, min (heldSum first more) view.page.lastLine⟩)

def Lines.checkedRemoval (lines : Lines) (page : Page) : Checked (Span × Position) := do
  let below ← sum lines.last 1
  if below < page.length then .ok (⟨⟨lines.first, 0⟩, ⟨below, 0⟩⟩, ⟨lines.first, 0⟩)
  else if 0 < lines.first then do
    let above ← difference lines.first 1
    .ok (⟨⟨above, page.width above⟩, ⟨lines.last, page.width lines.last⟩⟩, ⟨above, 0⟩)
  else .ok (⟨.zero, ⟨lines.last, page.width lines.last⟩⟩, .zero)

def checkedCut (view : View) (dest : Place) (inserts : Bool) : Checked Effect :=
  let span := Span.between view.caret dest.pos
  if span.isEmpty then .ok { aim := dest.aim, inserts }
  else do
    let text ← view.page.checkedSlice span
    .ok { aim := dest.aim, edit := some (.delete span), register := some (.chars text),
          caret := some (.at span.start), inserts }

def checkedCutLines (view : View) (lines : Lines) : Checked Effect := do
  let text ← view.page.checkedSlice (lines.span view.page)
  let (span, caret) ← lines.checkedRemoval view.page
  .ok { aim := view.aim, edit := deletion? span, register := some (.lines text),
        caret := some (.at caret) }

def checkedClearLines (view : View) (lines : Lines) : Checked Effect := do
  let span := lines.span view.page
  let text ← view.page.checkedSlice span
  .ok { aim := view.aim, edit := deletion? span, register := some (.lines text),
        caret := some (.at span.start), inserts := true }

def checkedPut (view : View) (register : Register) (count : Nat) : Checked Effect :=
  match register with
  | .chars text =>
    let copies : Copies := ⟨text, count⟩
    let pos : Position :=
      ⟨view.caret.line, min (heldSum view.caret.col 1) (view.page.width view.caret.line)⟩
    .ok { aim := view.aim, edit := some (.insert pos copies), caret := some (.lastOf pos copies) }
  | .lines text => do
    let l := min view.caret.line view.page.lastLine
    let below ← sum l 1
    let edit :=
      if l < view.page.lastLine then Edit.insert ⟨below, 0⟩ ⟨text ++ ['\n'], count⟩
      else Edit.insert ⟨l, view.page.width l⟩ ⟨'\n' :: text, count⟩
    .ok { aim := view.aim, edit := some edit, caret := some (.at ⟨below, 0⟩) }

def checkedReplace? (view : View) (g : Cluster) (count : Nat) : Checked (Option Effect) :=
  let stop := heldSum view.caret.col count
  if view.page.width view.caret.line < stop then .ok none
  else do
    let last ← difference stop 1
    .ok (some
      { aim := view.aim, edit := some (.replace ⟨view.caret, ⟨view.caret.line, stop⟩⟩ ⟨g, count⟩),
        caret := some (.at ⟨view.caret.line, last⟩) })

variable {view : View} {lines : Lines} {count : Nat}

theorem checkedReach_eq (h : view.page.InWord) (stride : Stride) :
    view.checkedReach stride = .ok (view.reach stride) :=
  stride.checkedRun_eq h _

theorem checkedLines?_eq (h : view.page.InWord) (pos : 0 < count) :
    view.checkedLines? count = .ok (view.lines? count) := by
  simp only [checkedLines?, lines?]
  split
  · rfl
  · have last : view.page.lastLine ≤ maxCount := Nat.le_trans (Nat.sub_le ..) h.length
    rw [difference_eq pos, ok_bind, heldSum, Nat.min_assoc, Nat.min_eq_right last]

theorem Lines.checkedRemoval_eq {page : Page} (h : page.InWord)
    (onPage : lines.last < page.length) :
    lines.checkedRemoval page = .ok (lines.removal page) := by
  rw [checkedRemoval, sum_eq (Nat.le_trans onPage h.length), ok_bind, removal]
  split
  · rfl
  · split
    · next some => rw [difference_eq some, ok_bind]
    · rfl

theorem checkedCut_eq (h : view.page.InWord) (dest : Place) (inserts : Bool) :
    view.checkedCut dest inserts = .ok (view.cut dest inserts) := by
  simp only [checkedCut, cut, Page.checkedSlice_eq h, ok_bind]
  split <;> rfl

theorem checkedCutLines_eq (h : view.page.InWord) (onPage : lines.last < view.page.length) :
    view.checkedCutLines lines = .ok (view.cutLines lines) := by
  simp only [checkedCutLines, cutLines, Page.checkedSlice_eq h, lines.checkedRemoval_eq h onPage,
    ok_bind]

theorem checkedClearLines_eq (h : view.page.InWord) :
    view.checkedClearLines lines = .ok (view.clearLines lines) := by
  simp only [checkedClearLines, clearLines, Page.checkedSlice_eq h, ok_bind]

theorem checkedPut_eq (h : view.page.InWord) (register : Register) (count : Nat) :
    view.checkedPut register count = .ok (view.put register count) := by
  cases register with
  | chars text =>
    rw [checkedPut, put, heldSum, Nat.min_assoc, Nat.min_eq_right (h.width_le _)]
  | lines text =>
    have below : min view.caret.line view.page.lastLine + 1 ≤ maxCount := by
      have last : view.page.lastLine ≤ maxCount - 1 := Nat.sub_le_sub_right h.length 1
      have some : 0 < maxCount := by decide
      omega
    simp only [checkedPut, put, sum_eq below, ok_bind]

/-- The last column of a line in a word is below the largest number, so the sum is held only where
it is past the end of the line anyway. -/
theorem checkedReplace?_eq (h : view.page.InWord) (g : Cluster) (pos : 0 < count) :
    view.checkedReplace? g count = .ok (view.replace? g count) := by
  have width := h.width view.caret.line
  have some : maxCount - maxPutBytes < maxCount := by decide
  simp only [checkedReplace?, replace?]
  split
  · next past =>
    have past' : view.page.width view.caret.line < view.caret.col + count :=
      Nat.lt_of_lt_of_le past (Nat.min_le_left ..)
    rw [if_pos past']
  · next inside =>
    -- What lies on the line is below the largest number, so the sum was not held.
    have exact : heldSum view.caret.col count = view.caret.col + count := by
      rw [heldSum] at inside ⊢
      omega
    rw [exact] at inside ⊢
    rw [if_neg inside, difference_eq (by omega), ok_bind]

end View

def Command.checkedEffect? (command : Command) (view : View) : Checked (Option Effect) :=
  match command with
  | move stride => do
    let dest ← view.checkedReach stride
    .ok (some { aim := dest.aim, caret := some (.at dest.pos) })
  | insert => .ok (some { aim := view.aim, inserts := true })
  | append => do
    let dest ← view.checkedReach ⟨.right, 1⟩
    .ok (some { aim := dest.aim, caret := some (.at dest.pos), inserts := true })
  | appendAtEnd => do
    let dest ← view.checkedReach ⟨.lineEnd, 1⟩
    .ok (some { aim := dest.aim, caret := some (.at dest.pos), inserts := true })
  | delete (.stride stride) => do
    let dest ← view.checkedReach stride
    .ok (some (← view.checkedCut dest false))
  | delete (.lines count) => do
    match ← view.checkedLines? count with
    | none => .ok none
    | some lines => .ok (some (← view.checkedCutLines lines))
  | change (.stride stride) => do
    let dest ← view.checkedReach stride
    .ok (some (← view.checkedCut dest true))
  | change (.lines count) => do
    match ← view.checkedLines? count with
    | none => .ok none
    | some lines => .ok (some (← view.checkedClearLines lines))
  | put count =>
    match view.register with
    | none => .ok none
    | some register =>
      if register.isEmpty ∨ maxPutBytes < register.content.byteSize * count then .ok none
      else do .ok (some (← view.checkedPut register count))
  | replace g count => view.checkedReplace? g count

theorem Command.checkedEffect?_eq {command : Command} {view : View} (h : view.page.InWord)
    (counted : command.Counted) : command.checkedEffect? view = .ok (command.effect? view) := by
  cases command with
  | move stride => simp only [checkedEffect?, effect?, View.checkedReach_eq h, ok_bind]
  | insert => rfl
  | append | appendAtEnd => simp only [checkedEffect?, effect?, View.checkedReach_eq h, ok_bind]
  | delete target | change target =>
    cases target with
    | stride stride =>
      simp only [checkedEffect?, effect?, View.checkedReach_eq h, View.checkedCut_eq h, ok_bind]
    | lines count =>
      rw [checkedEffect?, effect?, View.checkedLines?_eq h counted, ok_bind]
      cases found : view.lines? count with
      | none => rfl
      | some lines =>
        have onPage := (View.lines?_bounds found).2
        simp only [View.checkedCutLines_eq h onPage, View.checkedClearLines_eq h, ok_bind,
          Option.map_some]
  | put count =>
    simp only [checkedEffect?, effect?]
    cases view.register with
    | none => rfl
    | some register =>
      simp only [View.checkedPut_eq h, ok_bind]
      split <;> rfl
  | replace g count => exact View.checkedReplace?_eq h g counted

/-- A count of zero would be one too few. -/
example : (Command.delete (.lines 0)).checkedEffect? ⟨[[]], .zero, none, [], none⟩ =
    .error .below := rfl

def Landing.checkedPosition : Landing → Checked Position
  | .at pos => .ok pos
  | .lastOf start copies =>
    if '\n' ∈ copies.unit then .ok start
    else do
      let col ← sum start.col (columns copies.text - 1)
      .ok ⟨start.line, col⟩

theorem columns_le_byteSize (text : Text) : columns text ≤ text.byteSize := by
  suffices h : ∀ ending, (segment ending text).2.length ≤ text.byteSize from h .closed
  induction text with
  | nil => exact fun _ => Nat.le_refl 0
  | cons c text ih =>
    intro ending
    have some := c.utf8Size_pos
    simp only [segment, Text.byteSize]
    split
    · exact Nat.le_trans (ih _) (Nat.le_add_left ..)
    · have later := ih (.start (CharKind.of c))
      simp only [List.length_cons]
      omega

/-- The column that a text was put in at leaves room for as many columns as the text has bytes. -/
def Landing.HasRoom : Landing → Prop
  | .at _ => True
  | .lastOf start copies => start.col + copies.byteSize ≤ maxCount

theorem Landing.checkedPosition_eq {landing : Landing} (h : landing.HasRoom) :
    landing.checkedPosition = .ok landing.position := by
  cases landing with
  | «at» pos => rfl
  | lastOf start copies =>
    simp only [checkedPosition, position]
    split
    · rfl
    · have small := columns_le_byteSize copies.text
      rw [copies.byteSize_text] at small
      rw [HasRoom] at h
      rw [sum_eq (by omega), ok_bind]

theorem View.hasRoom_put {view : View} {register : Register} {count : Nat} {landing : Landing}
    (h : view.page.InWord) (small : register.content.byteSize * count ≤ maxPutBytes)
    (rests : (view.put register count).caret = some landing) : landing.HasRoom := by
  cases register with
  | chars text =>
    obtain rfl := Option.some.inj rests
    have width := h.width view.caret.line
    have some : maxPutBytes ≤ maxCount := by decide
    simp only [Landing.HasRoom, Copies.byteSize]
    simp only [Register.content] at small
    omega
  | lines text =>
    obtain rfl := Option.some.inj rests
    trivial

theorem View.hasRoom_cut {view : View} {dest : Place} {inserts : Bool} {landing : Landing}
    (rests : (view.cut dest inserts).caret = some landing) : landing.HasRoom := by
  simp only [cut] at rests
  split at rests
  · cases rests
  · obtain rfl := Option.some.inj rests
    trivial

/-- Only a put may leave the caret beyond the line as it was, and it brings in few bytes. -/
theorem Command.hasRoom {command : Command} {view : View} {effect : Effect} {landing : Landing}
    (h : view.page.InWord) (he : command.effect? view = some effect)
    (rests : effect.caret = some landing) : landing.HasRoom := by
  cases command with
  | move stride | append | appendAtEnd =>
    obtain rfl := Option.some.inj he
    obtain rfl := Option.some.inj rests
    trivial
  | insert =>
    obtain rfl := Option.some.inj he
    cases rests
  | delete target | change target =>
    cases target with
    | stride stride =>
      obtain rfl := Option.some.inj he
      exact View.hasRoom_cut rests
    | lines count =>
      obtain ⟨lines, -, rfl⟩ := Option.map_eq_some_iff.mp he
      obtain rfl := Option.some.inj rests
      trivial
  | put count =>
    obtain ⟨register, -, -, small, rfl⟩ := of_effect?_put he
    exact View.hasRoom_put h small rests
  | replace g count =>
    obtain ⟨-, rfl⟩ := of_effect?_replace he
    obtain rfl := Option.some.inj rests
    trivial

/-! ## Calls -/

namespace Session

variable {β : Type} [Host β]

def checkedCommit (effect : Effect) (s : Session β) : Checked (Session β) :=
  match effect.caret with
  | none => .ok (s.commit effect)
  | some landing => do
    let pos ← landing.checkedPosition
    .ok (s.commit { effect with caret := some (.at pos) })

def checkedApply (effect : Effect) (s : Session β) : Checked (Option Failure × Session β) :=
  let s := { s with engine := { s.engine with aim := effect.aim } }
  match effect.edit with
  | none => do .ok (none, ← s.checkedCommit effect)
  | some edit =>
    match s.perform edit with
    | (none, s) => do .ok (none, ← s.checkedCommit effect)
    | (some failure, s) => .ok (some failure, s)

def checkedRun (parse : Parse Command) (s : Session β) :
    Checked (Except Failure Resolution × Session β) :=
  match parse with
  | .needsMore => .ok (.ok .needsMore, s)
  | .invalid => .ok (.ok .invalid, s)
  | .complete command => do
    match ← command.checkedEffect? s.view with
    | none => .ok (.ok .invalid, s)
    | some effect =>
      match ← s.checkedApply effect with
      | (none, s) => .ok (.ok .matched, s)
      | (some failure, s) => .ok (.error failure, s)

def checkedOperate (op : Operator) (count : Nat) (argument : Text) (s : Session β) :
    Checked (Except Failure Resolution × Session β) :=
  s.checkedRun (op.parse count argument)

def checkedSettle (s : Session β) : Checked (Session β) :=
  if s.engine.mode = .normal ∧ Host.hasSelection s.host = false then
    let caret := Host.caret s.host
    let width := (Host.page s.host).width caret.line
    if 0 < width then do
      let last ← difference width 1
      if last < caret.col then .ok { s with host := Host.moveCaret ⟨caret.line, last⟩ s.host }
      else .ok s
    else .ok s
  else .ok s

variable {effect : Effect} {s : Session β}

theorem checkedCommit_eq (room : ∀ landing ∈ effect.caret, landing.HasRoom) :
    s.checkedCommit effect = .ok (s.commit effect) := by
  cases rests : effect.caret with
  | none => simp only [checkedCommit, rests]
  | some landing =>
    simp only [checkedCommit, rests, Landing.checkedPosition_eq (room landing rests), ok_bind,
      commit]
    rfl

theorem checkedApply_eq (room : ∀ landing ∈ effect.caret, landing.HasRoom) :
    s.checkedApply effect = .ok (s.apply effect) := by
  simp only [checkedApply, apply, checkedCommit_eq room, ok_bind]
  generalize ({ s with engine := { s.engine with aim := effect.aim } } : Session β) = s
  cases effect.edit with
  | none => rfl
  | some edit =>
    simp only
    rcases s.perform edit with ⟨_ | failure, t⟩ <;> rfl

theorem checkedRun_eq {parse : Parse Command} (h : s.view.page.InWord)
    (counted : ∀ command, parse = .complete command → command.Counted) :
    s.checkedRun parse = .ok (s.run parse) := by
  cases parse with
  | needsMore | invalid => rfl
  | complete command =>
    simp only [checkedRun, run, Command.checkedEffect?_eq h (counted command rfl), ok_bind]
    cases he : command.effect? s.view with
    | none => rfl
    | some effect =>
      simp only [checkedApply_eq fun _ => Command.hasRoom h he, ok_bind]
      rcases s.apply effect with ⟨_ | failure, t⟩ <;> rfl

theorem checkedOperate_eq (h : s.view.page.InWord) (op : Operator) (count : Nat)
    (argument : Text) : s.checkedOperate op count argument = .ok (s.operate op count argument) :=
  checkedRun_eq h fun _ => Operator.counted

theorem checkedSettle_eq : s.checkedSettle = .ok s.settle := by
  simp only [checkedSettle, settle]
  generalize (Host.page s.host).width (Host.caret s.host).line = width
  split
  · cases width with
    | zero => simp
    | succ last =>
      simp only [Nat.succ_pos, if_true, true_and, difference_eq, Nat.succ_le_iff, ok_bind,
        Nat.add_sub_cancel]
      split <;> rfl
  · rfl

/-- As long as the page fits, no sum and no difference leaves the range of a word. -/
theorem checked_eq_unchecked (s : Session β) (h : (Host.page s.host).InWord) :
    (∀ (separators : Separators) (move : Move) (place : Place),
      move.checkedRun (Host.page s.host) separators place =
        .ok (move.run (Host.page s.host) separators place)) ∧
    (∀ (op : Operator) (count : Nat) (argument : Text),
      s.checkedOperate op count argument = .ok (s.operate op count argument)) ∧
    (∀ span : Span,
      (Host.page s.host).checkedSlice span = .ok ((Host.page s.host).slice span)) ∧
    s.checkedSettle = .ok s.settle :=
  ⟨fun _ => Move.checkedRun_eq h, checkedOperate_eq h, Page.checkedSlice_eq h, checkedSettle_eq⟩

theorem checked_eq_unchecked_at_largest :
    let s : Session OpenBuffer :=
      ⟨{ Engine.ofConfig {} with aim := some 4294967295, register := some (.chars "xyz".toList) },
        ⟨⟨"one two\nthree".toList, ⟨4294967295, 4294967295⟩⟩, false, false⟩⟩
    (Host.page s.host).InWord ∧
      (Move.checkedRun (Host.page s.host) s.engine.separators (.nextWordEnd, some 4294967295)
          ⟨Host.caret s.host, s.engine.aim⟩ =
        .ok (Move.run (Host.page s.host) s.engine.separators (.nextWordEnd, some 4294967295)
          ⟨Host.caret s.host, s.engine.aim⟩)) ∧
      s.checkedOperate .deleteLine 4294967295 [] = .ok (s.operate .deleteLine 4294967295 []) ∧
      (s.operate .deleteLine 4294967295 []).2.host.document.text = "one two".toList ∧
      s.checkedOperate .delete 0 ['d'] = .ok (s.operate .delete 0 ['d']) ∧
      s.checkedOperate .put 1 [] = .ok (s.operate .put 1 []) ∧
      (Host.page s.host).checkedSlice ⟨.zero, ⟨4294967295, 4294967295⟩⟩ =
        .ok "one two\nthree".toList ∧
      s.checkedSettle = .ok s.settle := by
  intro s
  have h : (Host.page s.host).InWord := by decide +kernel
  obtain ⟨moves, operators, slices, settles⟩ := checked_eq_unchecked s h
  have sliced : (Host.page s.host).slice ⟨.zero, ⟨4294967295, 4294967295⟩⟩ =
      "one two\nthree".toList := by decide +kernel
  exact ⟨h, moves _ _ _, operators _ _ _, by decide +kernel, operators _ _ _, operators _ _ _,
    sliced ▸ slices _, settles⟩

end Session

end ModalEditor

import ModalEditor.Proofs.KeyedText
import ModalEditor.Proofs.PutText
import ModalEditor.Proofs.Slices

/-! # Typing taken back

In insert mode a printable character goes in where the caret is, and Backspace takes out the one
before it. At the start of a line that is the line feed above; elsewhere it is found one column to
the left. Both times the offset of the caret goes back by one, so as many presses of Backspace as
characters were typed restore the whole session.
-/

namespace ModalEditor

open Text

/-! ## Documents -/

namespace Text

variable {a : Text} {c : Char}

theorem Printable.skip {b new : Text} (h : (a ++ new ++ b).Printable) : (a ++ b).Printable :=
  fun c mem => h c (((List.sublist_append_left a new).append_right b).subset mem)

theorem col_endOf_feed (a : Text) : (endOf (a ++ ['\n'])).col = 0 := by
  have split : ['\n'].splitOn '\n' = [[], []] := by decide
  rw [endOf, splitOn_append, split]
  simp
  rfl

theorem endOf_concat (printable : (a ++ [c]).Printable) (other : c ≠ '\n') :
    endOf (a ++ [c]) = ⟨(endOf a).line, (endOf a).col + 1⟩ := by
  have single : '\n' ∉ [c] := fun mem => other (List.mem_singleton.mp mem).symm
  have rows : (a ++ [c]).splitOn '\n' =
      (a.splitOn '\n').dropLast ++ [(a.splitOn '\n').getLastD [] ++ [c]] := by
    rw [splitOn_append, List.splitOn_eq_singleton single]
    rfl
  have plain : Plain ((a.splitOn '\n').getLastD [] ++ [c]) := fun d mem =>
    (printable.of_row (rows ▸ List.mem_append_right _ (.head _)) d mem).1
  have plain' : Plain ((a.splitOn '\n').getLastD []) := plain.of_subset (List.subset_append_left ..)
  simp only [endOf, rows, List.length_append, List.length_singleton, Nat.add_sub_cancel,
    List.length_dropLast, List.getLastD_concat, plain.columns, plain'.columns]

end Text

namespace Document

variable {d : Document} {a b : Text} {c : Char}

def between (a b : Text) : Document :=
  ⟨a ++ b, endOf a⟩

@[simp] theorem text_between (a b : Text) : (between a b).text = a ++ b := rfl

theorem between_eq (feeds : d.text.OnlyFeeds) (holds : (d.page dropReturns).Holds d.caret) :
    between (d.text.take (d.offset dropReturns d.caret))
      (d.text.drop (d.offset dropReturns d.caret)) = d := by
  rw [page_dropReturns feeds] at holds
  rw [offset_dropReturns feeds, between, List.take_append_drop, endOf_of_holds feeds holds]

theorem offset_le (feeds : d.text.OnlyFeeds) {p : Position}
    (below : p.line < (d.page dropReturns).length) : d.offset dropReturns p ≤ d.text.length := by
  rw [page_dropReturns feeds] at below
  rw [offset_dropReturns feeds]
  exact (endOf_take_offset feeds below).2

theorem offset_endOf (printable : d.text.Printable) (split : d.text = a ++ b) :
    d.offset dropReturns (endOf a) = a.length := by
  have feeds := printable.onlyFeeds
  rw [offset_dropReturns feeds, offset_eq feeds.feedEnded (holds_endOf feeds split).line,
    before_endOf printable split]

theorem offset_caret (printable : (a ++ b).Printable) :
    (between a b).offset dropReturns (between a b).caret = a.length :=
  offset_endOf printable rfl

theorem enter_eq_between {start stop : Nat} {new : Text} (feeds : (a ++ b).OnlyFeeds)
    (before : d.text.take start ++ new = a) (after : d.text.drop stop = b)
    (inside : start ≤ d.text.length) : d.enter start stop new = between a b := by
  have text : (d.splice start stop new).text = a ++ b := by rw [text_splice, before, after]
  have behind : start + new.length = a.length := by
    rw [← before, List.length_append, List.length_take, Nat.min_eq_left inside]
  have caret : (d.splice start stop new).position (start + new.length) = endOf a := by
    have fits : a.length ≤ (d.splice start stop new).text.length := by
      rw [text, List.length_append]
      exact Nat.le_add_right ..
    rw [behind, position_eq (text ▸ feeds) fits, text, List.take_left]
  rw [enter, caret, between, ← text]

/-- Typing moves the caret behind what is typed. -/
theorem type_between (printable : (a ++ [c] ++ b).Printable) :
    (between a b).type [c] = between (a ++ [c]) b := by
  rw [type, offset_caret printable.skip]
  exact enter_eq_between printable.onlyFeeds (by simp) (by simp) (by simp)

theorem reach_between (printable : (a ++ [c] ++ b).Printable) :
    ClampedBuffer.reach (between (a ++ [c]) b) 1 = a.length := by
  by_cases feed : c = '\n'
  · subst feed
    have start : (between (a ++ ['\n']) b).caret.col = 0 := col_endOf_feed a
    rw [ClampedBuffer.reach, if_pos ⟨start, Nat.one_pos⟩, offset_caret printable,
      List.length_append, List.length_singleton, Nat.add_sub_cancel]
  · have caret : endOf (a ++ [c]) = ⟨(endOf a).line, (endOf a).col + 1⟩ :=
      endOf_concat (fun d mem => printable d (List.mem_append_left _ mem)) feed
    have inside : ¬ ((between (a ++ [c]) b).caret.col = 0 ∧ 0 < 1) := by
      rintro ⟨start, -⟩
      rw [between, caret] at start
      cases start
    rw [ClampedBuffer.reach, if_neg inside, between, caret]
    exact offset_endOf printable (List.append_assoc ..)

/-- Backspace takes the character before the caret back. -/
theorem erase_between (printable : (a ++ [c] ++ b).Printable) :
    (between (a ++ [c]) b).erase = between a b := by
  rw [erase, reach_between printable, offset_caret printable]
  exact enter_eq_between printable.skip.onlyFeeds (by simp) (by simp) (by simp)

end Document

/-! ## Sessions over printable text -/

namespace ClampedBuffer

def OnPage (b : ClampedBuffer) : Prop :=
  b.page.Holds b.document.caret

theorem onPage_moveCaret (p : Position) (b : ClampedBuffer) : (Host.moveCaret p b).OnPage :=
  Page.holds_clamp (b.document.page_ne_nil dropReturns) p

theorem onPage_enter {d : Document} {new : Text} (feeds : d.text.OnlyFeeds) (clean : new.OnlyFeeds)
    {start : Nat} (inside : start ≤ d.text.length) (stop : Nat) :
    OnPage ⟨d.enter start stop new⟩ := by
  have page : (d.enter start stop new).page dropReturns = (d.enter start stop new).page dropFeed :=
    Document.page_dropReturns (Document.onlyFeeds_splice feeds clean start stop)
  rw [OnPage, ClampedBuffer.page, page]
  exact Document.holds_caret_enter feeds clean inside stop

theorem onPage_erase {b : ClampedBuffer} (feeds : b.document.text.OnlyFeeds) (onPage : b.OnPage) :
    OnPage ⟨b.document.erase⟩ := by
  have here := Document.offset_le feeds onPage.line
  have left : b.document.offset dropReturns ⟨b.document.caret.line, b.document.caret.col - 1⟩ ≤
      b.document.text.length := Document.offset_le feeds onPage.line
  apply onPage_enter feeds onlyFeeds_nil
  rw [reach]
  split
  · exact Nat.le_trans (Nat.sub_le ..) here
  · exact left

end ClampedBuffer

namespace Engine

variable {engine : Engine}

theorem told_eq (informed : engine.pictured = engine.shown) (quiet : engine.beeps = 0) :
    engine.told = engine := by
  simp only [pictured, shown, Picture.mk.injEq] at informed
  rw [told, ← informed.1, ← informed.2, ← quiet]

end Engine

namespace Session

variable {s t : Session ClampedBuffer} {c : Char}

theorem quiet_finish (result : Option Failure × Session ClampedBuffer) :
    (finish result).2.engine.beeps = 0 := by
  rcases result with ⟨_ | why, t⟩ <;> rfl

theorem onPage_settle (onPage : s.host.OnPage) : s.settle.host.OnPage := by
  rcases s.host_settle_cases with same | ⟨p, moved⟩
  · rwa [same]
  · rw [moved]
    exact ClampedBuffer.onPage_moveCaret ..

/-- Between the keys of a console over printable text: the host knows all, text, register and
pending keys are printable, and the caret is on the page. -/
structure InPrint (s : Session ClampedBuffer) : Prop extends s.Steady where
  written : s.Over fun c => Printable [c]
  onPage : s.host.OnPage
  quiet : s.engine.beeps = 0

theorem InPrint.printable (h : s.InPrint) : s.host.document.text.Printable :=
  fun c mem => h.written.text c mem c (.head _)

end Session

namespace Console

open Session

variable {s : Session ClampedBuffer} {console : Console} {key : Key} {typed : List Key} {a b : Text}

/-! ## Reached sessions -/

theorem quiet_handle (quiet : s.engine.beeps = 0) (key : Key) :
    (handle key s).2.engine.beeps = 0 := by
  cases key with
  | char c => exact quiet_finish _
  | escape =>
    simp only [handle]
    split <;> rfl
  | enter | backspace =>
    simp only [handle]
    split
    · exact quiet_finish _
    · exact quiet
  | left | right | up | down =>
    simp only [handle, moveCaret, engine_settle]
    exact quiet
  | other => exact quiet

theorem onPage_typeText (h : s.InPrint) {c : Char} (hc : Printable [c]) :
    (s.typeText [c]).2.host.OnPage := by
  have feeds := h.printable.onlyFeeds
  cases hm : s.engine.mode with
  | insert =>
    rw [typeText_of_insert hm]
    exact ClampedBuffer.onPage_enter feeds hc.onlyFeeds (Document.offset_le feeds h.onPage.line) _
  | normal =>
    rcases hp : s.press [c] with ⟨failure, t⟩
    obtain ⟨rfl, moved⟩ := (Pressed.of_eq hp).host_cases h.onLine
    have there : t.host.OnPage := by
      rcases moved with same | ⟨p, b, moved⟩
      · exact same ▸ h.onPage
      · exact moved ▸ ClampedBuffer.onPage_moveCaret p b
    have typed : s.typeText [c] = finish (none, t.settle) :=
      congrArg finish (feed_cons_of_pressed [] hm hp)
    rw [typed]
    exact onPage_settle (onPage_settle there)

theorem onPage_handle (h : s.InPrint) (written : key.Over fun c => Printable [c]) :
    (handle key s).2.host.OnPage := by
  cases key with
  | char c => exact onPage_typeText h (written c rfl)
  | escape =>
    by_cases idle : s.engine.pending = []
    · rw [handle_escape_of_idle idle]
      rcases s.host_toNormalMode_cases with same | ⟨p, moved⟩
      · exact same ▸ h.onPage
      · exact moved ▸ ClampedBuffer.onPage_moveCaret ..
    · rw [handle_escape_of_keys idle]
      exact h.onPage
  | enter =>
    simp only [handle]
    split
    · exact onPage_typeText h (by decide)
    · exact h.onPage
  | backspace =>
    simp only [handle]
    split
    · next insert =>
      rw [retype_of_insert insert]
      exact ClampedBuffer.onPage_erase h.printable.onlyFeeds h.onPage
    · exact h.onPage
  | left | right | up | down => exact onPage_settle (ClampedBuffer.onPage_moveCaret ..)
  | other => exact h.onPage

theorem inPrint_handle (h : s.InPrint) (written : key.Over fun c => Printable [c]) :
    (handle key s).2.InPrint where
  toSteady := by
    obtain ⟨signals, t, handled, goesOn⟩ := handle_goesOn key h.toSteady
    rw [handled]
    exact goesOn.toSteady
  written := written_handle (by decide) h.written written
  onPage := onPage_handle h written
  quiet := quiet_handle h.quiet key

theorem inPrint_afterKeys {keys : List Key} (h : console.session.InPrint)
    (written : ∀ key ∈ keys, key.Over fun c => Printable [c]) :
    (console.afterKeys keys).session.InPrint := by
  induction keys generalizing console with
  | nil => exact h
  | cons key keys ih =>
    obtain ⟨first, later⟩ := List.forall_mem_cons.mp written
    refine ih ?_ later
    rw [session_press]
    exact inPrint_handle h first

theorem inPrint_ofText {text : Text} (printable : text.Printable) :
    (ofText text).session.InPrint where
  toSteady := (inStep_ofText text).steady
  written := written_ofText fun _ mem d hd => printable d (List.mem_singleton.mp hd ▸ mem)
  onPage := ⟨(inStep_ofText text).steady.onLine, Nat.zero_le _⟩
  quiet := rfl

end Console

/-! ## Typing and taking back -/

/-- The character that a key types in insert mode. -/
def Key.types? : Key → Option Char
  | .char c => some c
  | .enter => some '\n'
  | _ => none

namespace Console

variable {s : Session ClampedBuffer} {console : Console} {typed : List Key} {a b new : Text}

theorem typed_of_types (types : ∀ key ∈ typed, ∃ c ∈ key.types?, Printable [c]) :
    Printable (typed.filterMap Key.types?) ∧
      (typed.filterMap Key.types?).length = typed.length := by
  constructor
  · intro d mem
    obtain ⟨key, hkey, hd⟩ := List.mem_filterMap.mp mem
    obtain ⟨c, hc, plain⟩ := types key hkey
    obtain rfl : c = d := Option.some.inj (hc.symm.trans hd)
    exact plain c (.head _)
  · rw [List.filterMap_length_eq_length]
    intro key mem
    obtain ⟨c, hc, -⟩ := types key mem
    rw [hc]
    rfl

theorem handle_of_types {key : Key} {c : Char} (insert : s.engine.mode = .insert)
    (types : key.types? = some c) : handle key s = s.typeText [c] := by
  cases key with
  | char d =>
    cases types
    rfl
  | enter =>
    cases types
    exact if_pos insert
  | escape | backspace | left | right | up | down | other => cases types

/-- What is typed goes in where the caret is, and the caret behind it. -/
theorem session_typed (insert : console.session.engine.mode = .insert)
    (told : console.session.engine.told = console.session.engine)
    (caret : console.session.host = ⟨.between a b⟩)
    (types : ∀ key ∈ typed, ∃ c, key.types? = some c)
    (printable : (a ++ typed.filterMap Key.types? ++ b).Printable) :
    (console.afterKeys typed).session =
      { console.session with host := ⟨.between (a ++ typed.filterMap Key.types?) b⟩ } := by
  induction typed generalizing console a with
  | nil =>
    rw [List.filterMap_nil, List.append_nil, ← caret]
    rfl
  | cons key typed ih =>
    obtain ⟨⟨c, hc⟩, later⟩ := List.forall_mem_cons.mp types
    have chars : a ++ (key :: typed).filterMap Key.types? =
        a ++ [c] ++ typed.filterMap Key.types? := by
      rw [List.filterMap_cons_some hc, List.append_assoc, List.singleton_append]
    rw [chars] at printable ⊢
    have first : (console.press key).2.session =
        { console.session with host := ⟨.between (a ++ [c]) b⟩ } := by
      rw [session_press, handle_of_types insert hc, Session.typeText_of_insert insert, told, caret,
        Document.type_between printable.skip]
    have rest := @ih (console.press key).2 (a ++ [c])
    rw [first] at rest
    exact rest insert told rfl later printable

/-- As many presses of Backspace as there are characters before the caret take them out. -/
theorem session_erased (insert : console.session.engine.mode = .insert)
    (told : console.session.engine.told = console.session.engine)
    (caret : console.session.host = ⟨.between (a ++ new) b⟩)
    (printable : (a ++ new ++ b).Printable) :
    (console.afterKeys (List.replicate new.length .backspace)).session =
      { console.session with host := ⟨.between a b⟩ } := by
  -- The character that was typed last goes first.
  induction new using List.reverseRecOn generalizing console with
  | nil =>
    rw [List.append_nil] at caret
    rw [← caret]
    rfl
  | append_singleton new c ih =>
    rw [← List.append_assoc] at caret printable
    have first : (console.press .backspace).2.session =
        { console.session with host := ⟨.between (a ++ new) b⟩ } := by
      rw [session_press, handle_backspace insert, Session.retype_of_insert insert, told, caret,
        Document.erase_between printable]
    have rest := @ih (console.press .backspace).2
    rw [first] at rest
    rw [List.length_append, List.length_singleton, List.replicate_succ]
    exact rest insert told rfl printable.skip

/-- As many presses of Backspace as keys were typed restore the session. -/
theorem backspaces_undo_typing (text : Text) (printable : text.Printable) (before typed : List Key)
    (written : ∀ key ∈ before, key.Over fun c => Printable [c])
    (types : ∀ key ∈ typed, ∃ c ∈ key.types?, Printable [c]) :
    let console := (ofText text).afterKeys before
    let document := console.session.host.document
    let n := document.offset dropReturns document.caret
    console.session.engine.mode = .insert →
      (console.afterKeys typed).session.host.document.text =
          document.text.take n ++ typed.filterMap Key.types? ++ document.text.drop n ∧
        (console.afterKeys (typed ++ List.replicate typed.length .backspace)).session =
          console.session := by
  intro console document n insert
  have h : console.session.InPrint := inPrint_afterKeys (inPrint_ofText printable) written
  have told := Engine.told_eq h.informed h.quiet
  have caret : console.session.host = ⟨.between (document.text.take n) (document.text.drop n)⟩ :=
    congrArg ClampedBuffer.mk (Document.between_eq h.printable.onlyFeeds h.onPage).symm
  obtain ⟨chars, length⟩ := typed_of_types types
  have whole : Printable (document.text.take n ++ typed.filterMap Key.types? ++
      document.text.drop n) :=
    List.forall_mem_append.mpr ⟨List.forall_mem_append.mpr
      ⟨fun d mem => h.printable d (List.mem_of_mem_take mem), chars⟩,
      fun d mem => h.printable d (List.mem_of_mem_drop mem)⟩
  have there := session_typed insert told caret
    (fun key mem => (types key mem).imp fun _ found => found.1) whole
  constructor
  · rw [there]
    rfl
  · have back := @session_erased (console.afterKeys typed) (document.text.take n)
      (document.text.drop n) (typed.filterMap Key.types?)
    rw [there] at back
    rw [afterKeys, List.foldl_append]
    calc _ = { console.session with
          host := ⟨.between (document.text.take n) (document.text.drop n)⟩ } :=
        length ▸ back insert told rfl whole
      _ = console.session := by rw [← caret]

theorem backspaces_undo_typing_of_lines :
    let before : List Key := [.down, .char 'x', .char 'A']
    let typed : List Key := [.enter, .char 'x', .enter, .char ' ']
    let console := (ofText "ab\ncd".toList).afterKeys before
    Printable "ab\ncd".toList ∧ (∀ key ∈ before, key.Over fun c => Printable [c]) ∧
      (∀ key ∈ typed, ∃ c ∈ key.types?, Printable [c]) ∧
      console.session.engine.mode = .insert ∧
      console.session.host.document = ⟨"ab\nd".toList, ⟨1, 1⟩⟩ ∧
      (console.afterKeys typed).session.host.document.text = "ab\nd\nx\n ".toList ∧
      (console.afterKeys (typed ++ List.replicate 4 .backspace)).session = console.session := by
  intro before typed console
  have printable : Printable "ab\ncd".toList := by decide
  have written : ∀ key ∈ before, key.Over fun c => Printable [c] := by decide
  have types : ∀ key ∈ typed, ∃ c ∈ key.types?, Printable [c] := by
    have feed : ∃ c ∈ Key.enter.types?, Printable [c] := ⟨'\n', rfl, by decide⟩
    simp only [typed, List.forall_mem_cons]
    exact ⟨feed, ⟨'x', rfl, by decide⟩, feed, ⟨' ', rfl, by decide⟩, List.forall_mem_nil _⟩
  have insert : console.session.engine.mode = .insert := by decide +kernel
  have there : console.session.host.document = ⟨"ab\nd".toList, ⟨1, 1⟩⟩ := by decide +kernel
  obtain ⟨text, back⟩ := backspaces_undo_typing _ printable before typed written types insert
  exact ⟨printable, written, types, insert, there, text.trans (by decide +kernel), back⟩

end Console

end ModalEditor

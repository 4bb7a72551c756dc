import ModalEditor.Console
import ModalEditor.Proofs.BackToNormal
import ModalEditor.Proofs.ClampedCaret
import ModalEditor.Proofs.PictureKept

/-! # The terminal of a console

A terminal shows the caret in the shape that it was sent last. No key of a console fails, so every
signal of the engine reaches the terminal, which then knows the shape of the caret at any time.
Keys are pending in normal mode only, so one escape is enough to be back there with none.
-/

namespace ModalEditor

/-! ## What a terminal makes of a text -/

def caretShape (shape : CaretStyle) : Text → CaretStyle
  | [] => shape
  | '\x1b' :: '[' :: '2' :: ' ' :: 'q' :: rest => caretShape .block rest
  | '\x1b' :: '[' :: '6' :: ' ' :: 'q' :: rest => caretShape .line rest
  | _ :: rest => caretShape shape rest

theorem caretShape_escape (shape : CaretStyle) (signal : Signal) (context : Context) (rest : Text) :
    caretShape shape (signal.escape ++ rest) =
      caretShape ((Picture.mk shape context).hear signal).style rest := by
  cases signal with
  | beep => simp [Signal.escape, caretShape, Picture.hear]
  | style style => cases style <;> simp [Signal.escape, caretShape, Picture.hear]
  | context context => rfl

/-- A terminal that is sent all signals shows the caret as whoever hears them does. -/
theorem caretShape_escapes (picture : Picture) (signals : List Signal) :
    caretShape picture.style (signals.flatMap Signal.escape) = (picture.hearAll signals).style := by
  induction signals generalizing picture with
  | nil => rfl
  | cons signal signals ih =>
    rw [List.flatMap_cons, caretShape_escape picture.style signal picture.context, ih]
    rfl

theorem bell_mem_escapes_iff (signals : List Signal) :
    '\x07' ∈ signals.flatMap Signal.escape ↔ Signal.beep ∈ signals := by
  rw [List.mem_flatMap]
  constructor
  · rintro ⟨signal, mem, bell⟩
    cases signal with
    | beep => exact mem
    | style style => cases style <;> exact absurd bell (by decide)
    | context context => cases bell
  · intro mem
    exact ⟨.beep, mem, by decide⟩

/-! ## One key -/

namespace Session

variable {s t : Session ClampedBuffer}

/-- Between the keys of a console: the pending keys can become a command, the terminal knows all
that the engine has to tell, and the caret is on a line. -/
structure Steady (s : Session ClampedBuffer) : Prop where
  orderly : s.engine.Orderly False
  informed : s.engine.pictured = s.engine.shown
  onLine : s.host.OnLine

/-- A session goes on from one key to the next: whoever hears the signals knows all again. -/
structure GoesOn (s : Session ClampedBuffer) (signals : List Signal) (t : Session ClampedBuffer) :
    Prop extends t.Steady where
  heard : t.engine.pictured = s.engine.pictured.hearAll signals

theorem Steady.goesOn_silently (steady : s.Steady) (engine : t.engine = s.engine)
    (onLine : t.host.OnLine) : s.GoesOn [] t where
  orderly := engine ▸ steady.orderly
  informed := engine ▸ steady.informed
  onLine := onLine
  heard := congrArg Engine.pictured engine

theorem Steady.goesOn (steady : s.Steady) {signals : List Signal} (event : Event ClampedBuffer)
    (run : event.run s = (.signals signals, t)) (onLine : t.host.OnLine) : s.GoesOn signals t := by
  have orderly : (event.run s).2.engine.Orderly False :=
    Event.orderly_run (fun _ _ _ _ => not_false) steady.orderly
  have tells := event.tells_run s
  rw [run] at orderly tells
  refine ⟨⟨orderly, ?_, onLine⟩, tells.hearAll⟩
  cases tells with
  | news _ told =>
    rw [told]
    rfl
  | silent _ nothing _ => exact absurd rfl (nothing signals)

theorem Steady.finish (steady : s.Steady) (event : Event ClampedBuffer)
    (run : event.run s = (Session.finish (none, t)).map Answer.ofReply id)
    (onLine : t.host.OnLine) :
    ∃ signals u, Session.finish (none, t) = (.ok signals, u) ∧ s.GoesOn signals u :=
  ⟨_, _, rfl, steady.goesOn event run (onLine_settle onLine)⟩

theorem Steady.typeText (steady : s.Steady) (text : Text) :
    ∃ signals t, s.typeText text = (.ok signals, t) ∧ s.GoesOn signals t := by
  obtain ⟨u, fed, onLine⟩ := onLine_feed (clusters text) steady.onLine
  have typed : s.typeText text = Session.finish (none, u) := by rw [Session.typeText, fed]
  rw [typed]
  exact steady.finish (.typeText text) (by rw [Event.run, typed]) onLine

theorem Steady.retype (steady : s.Steady) (insert : s.engine.mode = .insert) (text : Text)
    (count : Nat) : ∃ signals t, s.retype text count = (.ok signals, t) ∧ s.GoesOn signals t := by
  obtain ⟨u, made, onLine⟩ : ∃ u, s.perform (.retype text count) = (none, u) ∧ u.host.OnLine :=
    ⟨_, rfl, ClampedBuffer.onLine_enter ..⟩
  have typed : s.retype text count = Session.finish (none, u) := by
    simp only [Session.retype, insert, made]
  rw [typed]
  exact steady.finish (.retype text count) (by rw [Event.run, typed]) onLine

theorem onLine_toNormalMode (onLine : s.host.OnLine) : s.toNormalMode.2.host.OnLine := by
  rcases s.host_toNormalMode_cases with same | ⟨p, moved⟩
  · rwa [same]
  · rw [moved]
    exact ClampedBuffer.onLine_moveCaret ..

theorem text_toNormalMode (s : Session ClampedBuffer) :
    s.toNormalMode.2.host.document.text = s.host.document.text := by
  rcases s.host_toNormalMode_cases with same | ⟨p, moved⟩
  · rw [same]
  · rw [moved]
    rfl

end Session

namespace Console

open Session

variable {s : Session ClampedBuffer} {console : Console} {output : Text}

theorem goesOn_moveCaret (steady : s.Steady) (f : Position → Position) :
    s.GoesOn [] (moveCaret f s) :=
  steady.goesOn_silently (engine_settle _) (onLine_settle (ClampedBuffer.onLine_moveCaret ..))

theorem handle_escape_of_idle (idle : s.engine.pending = []) :
    handle .escape s = (.ok s.toNormalMode.1, s.toNormalMode.2) := by
  simp only [handle, idle, List.isEmpty_nil, if_true]
  rfl

theorem handle_escape_of_keys (keys : s.engine.pending ≠ []) :
    handle .escape s = (.ok s.clearInput.1, s.clearInput.2) := by
  simp only [handle, List.isEmpty_iff, keys, if_false]
  rfl

/-- No key fails. -/
theorem handle_goesOn (key : Key) (steady : s.Steady) :
    ∃ signals t, handle key s = (.ok signals, t) ∧ s.GoesOn signals t := by
  have nothing : s.GoesOn [] s := steady.goesOn_silently rfl steady.onLine
  cases key with
  | char c => exact steady.typeText [c]
  | escape =>
    by_cases idle : s.engine.pending = []
    · refine ⟨_, _, handle_escape_of_idle idle, ?_⟩
      exact steady.goesOn .toNormalMode rfl (onLine_toNormalMode steady.onLine)
    · refine ⟨_, _, handle_escape_of_keys idle, ?_⟩
      exact steady.goesOn .clearInput rfl steady.onLine
  | enter =>
    by_cases insert : s.engine.mode = .insert
    · simp only [handle, insert, if_true]
      exact steady.typeText ['\n']
    · simp only [handle, insert, if_false]
      exact ⟨_, _, rfl, nothing⟩
  | backspace =>
    by_cases insert : s.engine.mode = .insert
    · simp only [handle, insert, if_true]
      exact steady.retype insert [] 1
    · simp only [handle, insert, if_false]
      exact ⟨_, _, rfl, nothing⟩
  | left | right | up | down => exact ⟨_, _, rfl, goesOn_moveCaret steady _⟩
  | other => exact ⟨_, _, rfl, nothing⟩

/-- The session is steady, the last key did not fail, and the terminal was sent all that the engine
told since the start. -/
structure InStep (output : Text) (console : Console) : Prop where
  steady : console.session.Steady
  silent : console.message = none
  sent : ∃ signals, output = signals.flatMap Signal.escape ∧
    console.session.engine.pictured = (Engine.ofConfig {}).pictured.hearAll signals

theorem inStep_ofText (text : Text) : (ofText text).InStep [] where
  steady := ⟨Engine.orderly_ofConfig {}, rfl,
    List.length_pos_iff.mpr (Document.page_ne_nil Text.dropReturns ⟨text, .zero⟩)⟩
  silent := rfl
  sent := ⟨[], rfl, rfl⟩

theorem InStep.press (inStep : console.InStep output) (key : Key) :
    (console.press key).2.InStep (output ++ (console.press key).1) := by
  obtain ⟨steady, -, told, rfl, pictured⟩ := inStep
  obtain ⟨signals, t, handled, goesOn⟩ := handle_goesOn key steady
  simp only [Console.press, handled]
  refine ⟨goesOn.toSteady, rfl, told ++ signals, List.flatMap_append.symm, ?_⟩
  rw [goesOn.heard, pictured, Picture.hearAll_append]

theorem InStep.pressAll (inStep : console.InStep output) (keys : List Key) :
    (console.afterKeys keys).InStep (output ++ (console.pressAll keys).flatMap Prod.fst) := by
  induction keys generalizing console output with
  | nil =>
    rw [Console.pressAll, List.flatMap_nil, List.append_nil]
    exact inStep
  | cons key keys ih =>
    rw [Console.pressAll, List.flatMap_cons, ← List.append_assoc]
    exact ih (inStep.press key)

theorem InStep.caretShape_eq (inStep : console.InStep output) :
    caretShape .block output = console.session.engine.style := by
  obtain ⟨steady, -, told, rfl, pictured⟩ := inStep
  calc caretShape .block (told.flatMap Signal.escape)
      = ((Engine.ofConfig {}).pictured.hearAll told).style :=
        caretShape_escapes (Engine.ofConfig {}).pictured told
    _ = console.session.engine.pictured.style := by rw [pictured]
    _ = console.session.engine.style := congrArg Picture.style steady.informed

theorem bell_mem_press_iff (console : Console) (key : Key) :
    '\x07' ∈ (console.press key).1 ↔ (console.press key).2.beeped = true := by
  unfold press
  rcases handle key console.session with ⟨why | signals, t⟩
  · simp
  · simp only [List.contains_iff_mem]
    exact bell_mem_escapes_iff signals

/-- One escape leads back to normal mode with nothing pending. -/
theorem escape_idles (steady : console.session.Steady) :
    let t := (console.press .escape).2.session
    t.engine.mode = .normal ∧ t.engine.pending = [] ∧
      t.host.document.text = console.session.host.document.text ∧
      t.engine.register = console.session.engine.register := by
  intro t
  by_cases idle : console.session.engine.pending = []
  · have there : t = console.session.toNormalMode.2 := by
      simp only [t, press, handle_escape_of_idle idle]
    rw [there]
    refine ⟨mode_toNormalMode _, ?_, text_toNormalMode _, register_toNormalMode _⟩
    rw [pending_toNormalMode steady.orderly, idle]
  · -- Keys are pending in normal mode only, so the call that drops them leaves that mode on.
    have normal : console.session.engine.mode = .normal := by
      cases hm : console.session.engine.mode with
      | normal => rfl
      | insert => exact absurd (steady.orderly.idle hm) idle
    have there : t = console.session.clearInput.2 := by
      simp only [t, press, handle_escape_of_keys idle]
    rw [there]
    exact ⟨normal, rfl, rfl, rfl⟩

/-- After any keys the terminal shows the caret in the shape of the mode, the bell rings with the
beeps, and one escape leads to idle normal mode. -/
theorem terminal_agrees (text : Text) (keys : List Key) :
    let console := (ofText text).afterKeys keys
    let output := ((ofText text).pressAll keys).flatMap Prod.fst
    let idle := (console.press .escape).2.session
    caretShape .block output = console.session.engine.style ∧ console.message = none ∧
      (∀ key, '\x07' ∈ (console.press key).1 ↔ (console.press key).2.beeped = true) ∧
      idle.engine.mode = .normal ∧ idle.engine.pending = [] ∧
      idle.engine.status = "VIM:> -- NORMAL --".toList ∧
      idle.host.document.text = console.session.host.document.text ∧
      idle.engine.register = console.session.engine.register := by
  intro console output idle
  have inStep : console.InStep output := (inStep_ofText text).pressAll keys
  obtain ⟨normal, nothing, kept, register⟩ := escape_idles inStep.steady
  exact ⟨inStep.caretShape_eq, inStep.silent, bell_mem_press_iff console, normal, nothing,
    Engine.status_of_idle normal nothing, kept, register⟩

end Console

end ModalEditor

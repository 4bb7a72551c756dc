import ModalEditor.Buffer.Clamped
import ModalEditor.Session

/-! # A console

A console is a session driven by single keys on a terminal. Escape drops pending keys first and
goes back to normal mode otherwise; Enter and Backspace work in insert mode; the arrows move the
caret of the host.
-/

namespace ModalEditor

inductive Key where
  | char (c : Char)
  | escape
  | enter
  | backspace
  | left
  | right
  | up
  | down
  /-- A key without a meaning. -/
  | other
  deriving DecidableEq, Repr

structure Console where
  session : Session ClampedBuffer
  /-- Whether the last key was answered by a beep. -/
  beeped : Bool := false
  /-- Why the last key failed, if it did. -/
  message : Option Text := none

def Signal.escape : Signal → Text
  | beep => ['\x07']
  | style .block => "\x1b[2 q".toList
  | style .line => "\x1b[6 q".toList
  | context _ => []

namespace Console

def welcome : Text :=
  ("Welcome to vim_interp!\n\nPress 'i' to enter insert mode.\n"
    ++ "Press 'Esc' to return to normal mode.\nPress Ctrl-C to quit.\n\nTry vim commands like:\n"
    ++ "- hjkl, w, e, 0 and $ for movement\n- dd to delete a line, 3dw to delete words\n"
    ++ "- p to put what was deleted\n- r to replace a character\n").toList

def ofText (text : Text) : Console :=
  { session := ⟨.ofConfig {}, .ofText text⟩ }

/-- Moves the caret of the host and brings it back onto a cluster. -/
def moveCaret (f : Position → Position) (s : Session ClampedBuffer) : Session ClampedBuffer :=
  ({ s with host := s.host.moveCaret (f s.host.document.caret) } : Session ClampedBuffer).settle

def handle (key : Key) (s : Session ClampedBuffer) : Reply × Session ClampedBuffer :=
  match key with
  | .char c => s.typeText [c]
  | .escape =>
    (if s.engine.pending.isEmpty then s.toNormalMode else s.clearInput).map Except.ok id
  | .enter => if s.engine.mode = .insert then s.typeText ['\n'] else (.ok [], s)
  | .backspace => if s.engine.mode = .insert then s.retype [] 1 else (.ok [], s)
  | .left => (.ok [], moveCaret (fun p => ⟨p.line, p.col - 1⟩) s)
  | .right => (.ok [], moveCaret (fun p => ⟨p.line, p.col + 1⟩) s)
  | .up => (.ok [], moveCaret (fun p => ⟨p.line - 1, p.col⟩) s)
  | .down => (.ok [], moveCaret (fun p => ⟨p.line + 1, p.col⟩) s)
  | .other => (.ok [], s)

/-- Handles a key and gives what is written to the terminal. -/
def press (key : Key) (console : Console) : Text × Console :=
  match handle key console.session with
  | (.ok signals, session) =>
    (signals.flatMap Signal.escape, { session, beeped := signals.contains .beep })
  | (.error failure, session) => ([], { session, message := some failure.message })

def pressAll : List Key → Console → List (Text × Console)
  | [], _ => []
  | key :: rest, console =>
    let result := console.press key
    result :: pressAll rest result.2

def afterKeys (keys : List Key) (console : Console) : Console :=
  keys.foldl (fun console key => (console.press key).2) console

end Console

end ModalEditor

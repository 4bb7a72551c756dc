import ModalEditor.Command.Effect
import ModalEditor.Engine
import ModalEditor.Host
import ModalEditor.Keys.Parse

/-! # Sessions

A session is an engine at work on a host. Every call either succeeds and gives the signals for the
host, or fails with the reason for which an edit was not made; the session goes on either way.
-/

namespace ModalEditor

/-- An engine and the host that it works on. -/
structure Session (β : Type) where
  engine : Engine
  host : β

abbrev Reply := Except Failure (List Signal)

inductive Resolution where
  | matched
  | needsMore
  | invalid
  deriving DecidableEq, Repr

namespace Session

variable {β : Type} [Host β]

def view (s : Session β) : View :=
  ⟨Host.page s.host, Host.caret s.host, s.engine.aim, s.engine.separators, s.engine.register⟩

/-- Brings the caret back onto the last cluster of its line. Only in normal mode, and not while
text is selected. -/
def settle (s : Session β) : Session β :=
  if s.engine.mode = .normal ∧ Host.hasSelection s.host = false then
    let caret := Host.caret s.host
    let width := (Host.page s.host).width caret.line
    if 0 < width ∧ width ≤ caret.col then
      { s with host := Host.moveCaret ⟨caret.line, width - 1⟩ s.host }
    else s
  else s

theorem engine_settle (s : Session β) : s.settle.engine = s.engine := by
  simp only [settle]
  split
  · split <;> rfl
  · rfl

/-- What a command leaves behind once its edit is made. -/
def commit (effect : Effect) (s : Session β) : Session β :=
  let host := match effect.caret with
    | some landing => Host.moveCaret landing.position s.host
    | none => s.host
  let engine := { s.engine with register := effect.register.or s.engine.register }
  ⟨if effect.inserts then engine.enter .insert else engine, host⟩

def perform (edit : Edit) (s : Session β) : Option Failure × Session β :=
  let (failure, host) := Host.perform edit s.host
  (failure, { s with host })

/-- Carries out an effect: the remembered column first, then the edit, then the rest. -/
def apply (effect : Effect) (s : Session β) : Option Failure × Session β :=
  let s := { s with engine := { s.engine with aim := effect.aim } }
  match effect.edit with
  | none => (none, s.commit effect)
  | some edit =>
    match s.perform edit with
    | (none, s) => (none, s.commit effect)
    | (some failure, s) => (some failure, s)

def run (parse : Parse Command) (s : Session β) : Except Failure Resolution × Session β :=
  match parse with
  | .needsMore => (.ok .needsMore, s)
  | .invalid => (.ok .invalid, s)
  | .complete command =>
    match command.effect? s.view with
    | none => (.ok .invalid, s)
    | some effect =>
      match s.apply effect with
      | (none, s) => (.ok .matched, s)
      | (some failure, s) => (.error failure, s)

def operate (op : Operator) (count : Nat) (argument : Text) (s : Session β) :
    Except Failure Resolution × Session β :=
  s.run (op.parse count argument)

def reading (g : Cluster) (s : Session β) : Parse Command :=
  Keys.parse (s.engine.pending ++ g)

/-- Adds a cluster to the pending keys and carries out what they were read as. -/
def obey (reading : Parse Command) (g : Cluster) (s : Session β) : Option Failure × Session β :=
  match ({ s with engine := s.engine.extend g } : Session β).run reading with
  | (.error failure, s) => (some failure, s)
  | (.ok .needsMore, s) => (none, s)
  | (.ok .matched, s) => (none, { s with engine := s.engine.clearPending })
  | (.ok .invalid, s) => (none, { s with engine := s.engine.reject })

def press (g : Cluster) (s : Session β) : Option Failure × Session β :=
  s.obey (s.reading g) g

/-- Takes clusters one at a time. From the first one met in insert mode on, all are typed into the
host at once. -/
def feed : List Cluster → Session β → Option Failure × Session β
  | [], s => (none, s)
  | g :: rest, s =>
    if s.engine.mode = .insert then s.perform (.typeIn (g :: rest).flatten)
    else
      match s.press g with
      | (some failure, s) => (some failure, s)
      | (none, s) => feed rest s.settle

def announce (s : Session β) : List Signal × Session β :=
  (s.engine.news, { s with engine := s.engine.told })

/-- Ends a call. A failure drops the pending keys and tells the host nothing. -/
def finish : Option Failure × Session β → Reply × Session β
  | (none, s) => s.settle.announce.map Except.ok id
  | (some failure, s) => (.error failure, { s with engine := s.engine.abandon })

def typeText (text : Text) (s : Session β) : Reply × Session β :=
  finish (s.feed (clusters text))

/-- Text in place of a number of clusters before the caret, as an input method enters it. It means
nothing in normal mode. -/
def retype (text : Text) (count : Nat) (s : Session β) : Reply × Session β :=
  finish <|
    match s.engine.mode with
    | .normal => (none, s)
    | .insert => s.perform (.retype text count)

def toNormalMode (s : Session β) : List Signal × Session β :=
  ({ s with engine := s.engine.enter .normal } : Session β).settle.announce

def clearInput (s : Session β) : List Signal × Session β :=
  ({ s with engine := s.engine.clearPending } : Session β).announce

def setSeparators (separators : Separators) (s : Session β) : Session β :=
  { s with engine := { s.engine with separators } }

end Session

end ModalEditor

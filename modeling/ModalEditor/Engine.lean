import ModalEditor.Cluster.Segmentation
import ModalEditor.Config.Basic
import ModalEditor.Register
import ModalEditor.Signal

/-! # The state of an engine

An engine reads keys as commands in normal mode and passes text on in insert mode. It holds the
mode, the pending keys, what motions and deletions remember, and what it last told its host about
the shape of the caret and the keys that may be bound.
-/

namespace ModalEditor

structure Engine where
  mode : Mode
  /-- The keys of a command that is not complete. -/
  pending : Text
  /-- The column that vertical motions aim for. -/
  aim : Option Nat
  separators : Separators
  register : Option Register
  /-- The shape of the caret that the host was told last. -/
  toldStyle : CaretStyle
  /-- The context that the host was told last. -/
  toldContext : Context
  /-- The beeps of the call under way, which the host hears when the call ends. -/
  beeps : Nat := 0
  deriving DecidableEq, Repr

namespace Engine

/-- The state at the start. The host is taken to know it. -/
def ofConfig (config : Config) : Engine where
  mode := config.initialMode
  pending := []
  aim := none
  separators := config.separators
  register := none
  toldStyle := config.initialMode.style
  toldContext := ⟨config.initialMode.isNormal, false⟩

def style (engine : Engine) : CaretStyle :=
  engine.mode.style

def context (engine : Engine) : Context :=
  ⟨engine.mode.isNormal, !engine.pending.isEmpty⟩

/-- The status line: the pending keys, or the mode if there are none. -/
def status (engine : Engine) : Text :=
  "VIM:>".toList ++
    if engine.mode = .normal ∧ engine.pending ≠ [] then engine.pending
    else " -- ".toList ++ engine.mode.name ++ " --".toList

/-- Switches the mode. A real switch forgets the pending keys and the remembered column. -/
def enter (mode : Mode) (engine : Engine) : Engine :=
  if engine.mode = mode then engine else { engine with mode, pending := [], aim := none }

def extend (g : Cluster) (engine : Engine) : Engine :=
  { engine with pending := engine.pending ++ g }

def clearPending (engine : Engine) : Engine :=
  { engine with pending := [] }

/-- Drops the pending keys because they are not a command. -/
def reject (engine : Engine) : Engine :=
  { engine with pending := [], beeps := engine.beeps + 1 }

/-- Drops the pending keys and the beeps because an edit was not made. -/
def abandon (engine : Engine) : Engine :=
  { engine with pending := [], beeps := 0 }

/-- What the host has not been told yet. -/
def news (engine : Engine) : List Signal :=
  List.replicate engine.beeps .beep ++
    (if engine.style = engine.toldStyle then [] else [.style engine.style]) ++
    (if engine.context = engine.toldContext then [] else [.context engine.context])

def told (engine : Engine) : Engine :=
  { engine with toldStyle := engine.style, toldContext := engine.context, beeps := 0 }

theorem mode_enter (mode : Mode) (engine : Engine) : (engine.enter mode).mode = mode := by
  unfold enter; split <;> simp_all

end Engine

end ModalEditor

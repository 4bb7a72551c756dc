import ModalEditor.Script

/-! # Events

What happens to a session, told from outside: calls to the engine in any order and, between them,
whatever the host does by itself.
-/

namespace ModalEditor

variable {β : Type}

/-- One thing that happens to a session. All but the last are calls to the engine. -/
inductive Event (β : Type) where
  | typeText (text : Text)
  | retype (text : Text) (count : Nat)
  | toNormalMode
  | clearInput
  | settle
  | setSeparators (separators : Separators)
  | operate (op : Operator) (count : Nat) (argument : Text)
  /-- The host changes, in whatever way. -/
  | change (f : β → β)

def Event.run [Host β] (event : Event β) (s : Session β) : Answer × Session β :=
  match event with
  | typeText text => (s.typeText text).map Answer.ofReply id
  | retype text count => (s.retype text count).map Answer.ofReply id
  | toNormalMode => s.toNormalMode.map Answer.signals id
  | clearInput => s.clearInput.map Answer.signals id
  | settle => (.nothing, s.settle)
  | setSeparators separators => (.nothing, s.setSeparators separators)
  | operate op count argument => (s.operate op count argument).map Answer.ofResolution id
  | change f => (.nothing, { s with host := f s.host })

/-- The answers to some events, each with the session after it. -/
def history [Host β] : List (Event β) → Session β → List (Answer × Session β)
  | [], _ => []
  | event :: rest, s => event.run s :: history rest (event.run s).2

def afterEvents [Host β] (events : List (Event β)) (s : Session β) : Session β :=
  events.foldl (fun s event => (event.run s).2) s

theorem afterEvents_keeps [Host β] (holds : Session β → Prop) {events : List (Event β)}
    {s : Session β} (start : holds s)
    (kept : ∀ event ∈ events, ∀ s, holds s → holds (event.run s).2) :
    holds (afterEvents events s) := by
  induction events generalizing s with
  | nil => exact start
  | cons event rest ih =>
    apply ih
    · exact kept event (List.mem_cons_self ..) s start
    · intro later member
      exact kept later (List.mem_cons_of_mem _ member)

def Answer.delivered : Answer → List Signal
  | .signals list => list
  | .nothing | .resolution _ | .failure _ => []

def delivered [Host β] (events : List (Event β)) (s : Session β) : List Signal :=
  (history events s).flatMap fun step => step.1.delivered

section Append

variable [Host β] (events later : List (Event β)) (s : Session β)

theorem afterEvents_append :
    afterEvents (events ++ later) s = afterEvents later (afterEvents events s) :=
  List.foldl_append

theorem history_append :
    history (events ++ later) s = history events s ++ history later (afterEvents events s) := by
  induction events generalizing s with
  | nil => rfl
  | cons event rest ih => exact congrArg (List.cons _) (ih _)

theorem delivered_append :
    delivered (events ++ later) s = delivered events s ++ delivered later (afterEvents events s) := by
  rw [delivered, history_append, List.flatMap_append]
  rfl

end Append

/-! ## Calls alone -/

/-- A call to the engine, other than one that runs an operator. -/
inductive Call where
  | typeText (text : Text)
  | retype (text : Text) (count : Nat)
  | toNormalMode
  | clearInput
  | settle
  | setSeparators (separators : Separators)
  deriving DecidableEq, Repr

def Call.event : Call → Event β
  | typeText text => .typeText text
  | retype text count => .retype text count
  | toNormalMode => .toNormalMode
  | clearInput => .clearInput
  | settle => .settle
  | setSeparators separators => .setSeparators separators

def Call.run [Host β] (call : Call) (s : Session β) : Answer × Session β :=
  call.event.run s

def callHistory [Host β] (calls : List Call) (s : Session β) : List (Answer × Session β) :=
  history (calls.map Call.event) s

def afterCalls [Host β] (calls : List Call) (s : Session β) : Session β :=
  afterEvents (calls.map Call.event) s

def Answer.isFailure : Answer → Bool
  | .failure _ => true
  | .nothing | .signals _ | .resolution _ => false

end ModalEditor

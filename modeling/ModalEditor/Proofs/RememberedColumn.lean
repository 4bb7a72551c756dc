import ModalEditor.Proofs.CountedKeys
import ModalEditor.Proofs.PendingKeys
import ModalEditor.Proofs.ReadCommands

/-! # The column that is remembered

Which column vertical motions aim for can be told from the commands that were carried out, each with
the page and the caret that it found. Motions to the left and right leave the column that they end
in, also if they only tell how far a deletion reaches; motions up and down keep the column or leave
that of the caret; all others, and the change of the mode, leave none.
-/

namespace ModalEditor

namespace Motion

variable {page : Page} {separators : Separators} {m : Motion} {place : Place}

theorem walk_left (times : Nat) (place : Place) :
    left.walk page separators times place =
      ⟨⟨place.pos.line, place.pos.col - times⟩,
        if place.pos.col - times = place.pos.col then place.aim
        else some (place.pos.col - times)⟩ := by
  obtain ⟨⟨l, c⟩, aim⟩ := place
  induction times generalizing c aim with
  | zero => simp [walk]
  | succ times ih =>
    rcases Nat.eq_zero_or_pos c with rfl | some
    · simp [walk, step]
    · have moves : (⟨l, c - 1⟩ : Position) ≠ ⟨l, c⟩ := by
        rw [Ne, Position.mk.injEq]
        omega
      have last : c - (times + 1) = c - 1 - times := by omega
      have moved : c - 1 - times ≠ c := by omega
      simp only [walk, step, if_pos some, if_neg moves, ih, last, if_neg moved]
      split <;> simp_all

theorem walk_right (times : Nat) (place : Place) :
    let stop := max place.pos.col (min (place.pos.col + times) (page.width place.pos.line))
    right.walk page separators times place =
      ⟨⟨place.pos.line, stop⟩, if stop = place.pos.col then place.aim else some stop⟩ := by
  obtain ⟨⟨l, c⟩, aim⟩ := place
  simp only
  induction times generalizing c aim with
  | zero =>
    have stays : max c (min c (page.width l)) = c := by omega
    simp only [walk, Nat.add_zero, stays, if_true]
  | succ times ih =>
    by_cases inside : c < page.width l
    · have moves : (⟨l, c + 1⟩ : Position) ≠ ⟨l, c⟩ := by
        rw [Ne, Position.mk.injEq]
        omega
      have last : max (c + 1) (min (c + 1 + times) (page.width l)) =
          max c (min (c + (times + 1)) (page.width l)) := by omega
      have moved : max c (min (c + (times + 1)) (page.width l)) ≠ c := by omega
      simp only [walk, step, if_pos inside, if_neg moves, ih, last, if_neg moved]
      split <;> simp_all
    · have stays : max c (min (c + (times + 1)) (page.width l)) = c := by omega
      simp [walk, step, inside, stays]

theorem pos_step_down (place : Place) (below : place.pos.line + 1 < page.length) :
    (down.step page separators place).pos =
      ⟨place.pos.line + 1,
        min (place.aim.getD place.pos.col) (page.width (place.pos.line + 1))⟩ :=
  if_pos below

theorem pos_step_up (place : Place) (above : 0 < place.pos.line) :
    (up.step page separators place).pos =
      ⟨place.pos.line - 1,
        min (place.aim.getD place.pos.col) (page.width (place.pos.line - 1))⟩ :=
  if_pos above

/-- What a step leaves to be aimed for is left by a walk as well, if the next step leaves the
same. -/
theorem aim_walk {f : Place → Option Nat} {times : Nat}
    (left : ∀ place, (m.step page separators place).aim = f place)
    (again : ∀ place, f (m.step page separators place) = f place) (some : 0 < times)
    (place : Place) : (m.walk page separators times place).aim = f place := by
  induction times generalizing place with
  | zero => cases some
  | succ times ih =>
    simp only [walk]
    split
    · exact left place
    · rcases Nat.eq_zero_or_pos times with rfl | more
      · exact left place
      · rw [ih more, again]

end Motion

/-! ## What a command leaves to be aimed for -/

/-- The column to be aimed for after a stride from the caret, if it was `memory` before. -/
def Stride.remember (stride : Stride) (page : Page) (caret : Position) (memory : Option Nat) :
    Option Nat :=
  let endIn (col : Nat) := if col = caret.col then memory else some col
  match stride.motion with
  | .left => endIn (caret.col - stride.times)
  | .right => endIn (max caret.col (min (caret.col + stride.times) (page.width caret.line)))
  | .up | .down => some (memory.getD caret.col)
  | .lineStart | .lineEnd | .nextWordStart | .nextWordEnd => none

theorem Stride.aim_run {stride : Stride} (more : 0 < stride.times) (page : Page)
    (separators : Separators) (place : Place) :
    (stride.run page separators place).aim = stride.remember page place.pos place.aim := by
  obtain ⟨m, times⟩ := stride
  simp only [run, remember]
  cases m with
  | left => rw [Motion.walk_left]
  | right => rw [Motion.walk_right]
  | up | down =>
    exact Motion.aim_walk (f := fun place => some (place.aim.getD place.pos.col)) (fun _ => rfl)
      (fun _ => rfl) more place
  | lineStart | lineEnd | nextWordStart | nextWordEnd =>
    exact Motion.aim_walk (f := fun _ => none) (fun _ => rfl) (fun _ => rfl) more place

namespace Command

/-- The motion that a command makes, or that tells how far it reaches. -/
def stride? : Command → Option Stride
  | move stride | delete (.stride stride) | change (.stride stride) => some stride
  | append => some ⟨.right, 1⟩
  | appendAtEnd => some ⟨.lineEnd, 1⟩
  | insert | delete (.lines _) | change (.lines _) | put _ | replace _ _ => none

def inserts : Command → Bool
  | insert | append | appendAtEnd | change _ => true
  | move _ | delete _ | put _ | replace _ _ => false

variable {command : Command} {view : View} {effect : Effect}

/-- What a command leaves to be aimed for is what its motion leaves, before the mode changes. -/
theorem effect?_memory (he : command.effect? view = some effect) :
    effect.inserts = command.inserts ∧
      effect.aim = command.stride?.elim view.aim fun stride => (view.reach stride).aim := by
  have cut : ∀ dest inserts, (view.cut dest inserts).inserts = inserts ∧
      (view.cut dest inserts).aim = dest.aim := by
    intro dest inserts
    unfold View.cut
    simp only
    split <;> exact ⟨rfl, rfl⟩
  cases command with
  | move _ | insert | append | appendAtEnd =>
    obtain rfl := Option.some.inj he
    exact ⟨rfl, rfl⟩
  | delete target | change target =>
    cases target with
    | stride _ =>
      obtain rfl := Option.some.inj he
      exact cut ..
    | lines _ =>
      obtain ⟨lines, -, rfl⟩ := Option.map_eq_some_iff.mp he
      exact ⟨rfl, rfl⟩
  | put _ =>
    obtain ⟨register, -, -, -, rfl⟩ := of_effect?_put he
    cases register <;> exact ⟨rfl, rfl⟩
  | replace _ _ =>
    obtain ⟨-, rfl⟩ := of_effect?_replace he
    exact ⟨rfl, rfl⟩

end Command

theorem Command.Counted.times_pos {command : Command} {stride : Stride} (h : command.Counted)
    (moves : command.stride? = some stride) : 0 < stride.times := by
  cases command with
  | move _ =>
    cases moves
    exact h
  | delete target | change target =>
    cases target with
    | lines _ => cases moves
    | stride _ =>
      cases moves
      exact h
  | append | appendAtEnd =>
    cases moves
    exact Nat.one_pos
  | insert | put _ | replace _ _ => cases moves

/-! ## Commands that were carried out -/

structure Completed where
  command : Command
  view : View

def Completed.remember (done : Completed) (memory : Option Nat) : Option Nat :=
  if done.command.inserts then none
  else done.command.stride?.elim memory fun stride =>
    stride.remember done.view.page done.view.caret memory

/-- The column to be aimed for after some commands, the latest last. -/
def recalled (log : List Completed) (memory : Option Nat) : Option Nat :=
  log.foldl (fun memory done => done.remember memory) memory

theorem Completed.remember_eq {command : Command} {view : View} {effect : Effect}
    (times : ∀ stride, command.stride? = some stride → 0 < stride.times)
    (he : command.effect? view = some effect) :
    Completed.remember ⟨command, view⟩ view.aim = if effect.inserts then none else effect.aim := by
  obtain ⟨inserts, aim⟩ := Command.effect?_memory he
  rw [remember, inserts, aim]
  cases moves : command.stride? with
  | none => rfl
  | some stride =>
    rw [Option.elim_some, Option.elim_some, View.reach, Stride.aim_run (times stride moves)]

theorem recalled_append (log later : List Completed) (memory : Option Nat) :
    recalled (log ++ later) memory = recalled later (recalled log memory) :=
  List.foldl_append

namespace Session

/-- The column is what vertical motions aim for, and in insert mode there is none. -/
structure Recalls {β : Type} (memory : Option Nat) (s : Session β) : Prop where
  aim : s.engine.aim = memory
  typed : s.engine.mode = .insert → memory = none

theorem Recalls.told {β : Type} {s : Session β} {memory : Option Nat} (h : s.Recalls memory) :
    s.announce.2.Recalls memory :=
  ⟨h.aim, h.typed⟩

theorem Recalls.enter_normal {β : Type} {s : Session β} {memory : Option Nat}
    (h : s.Recalls memory) :
    Recalls memory { s with engine := s.engine.enter .normal } := by
  unfold Engine.enter
  split
  · exact h
  · next other =>
    have typing : s.engine.mode = .insert := by
      cases hm : s.engine.mode with
      | normal => exact absurd hm other
      | insert => rfl
    exact ⟨(h.typed typing).symm, fun _ => h.typed typing⟩

variable {β : Type} [Host β] {s t : Session β} {g : Cluster} {gs : List Cluster}
  {memory : Option Nat}

def completion? (g : Cluster) (s : Session β) : Option Completed :=
  match s.reading g with
  | .complete command => if (command.effect? s.view).isSome then some ⟨command, s.view⟩ else none
  | .needsMore | .invalid => none

/-- The commands that clusters have carried out, up to an edit that is not made. -/
def completed : List Cluster → Session β → List Completed
  | [], _ => []
  | g :: rest, s =>
    if s.engine.mode = .insert then []
    else
      match s.press g with
      | (some _, _) => []
      | (none, t) => (s.completion? g).toList ++ completed rest t.settle

theorem Recalls.settle (h : s.Recalls memory) : s.settle.Recalls memory := by
  obtain ⟨aim, typed⟩ := h
  rw [← engine_settle s] at aim typed
  exact ⟨aim, typed⟩

theorem aim_carryOut_eq (effect : Effect) (host : β) (normal : s.engine.mode = .normal) :
    (s.carryOut effect host).engine.aim = if effect.inserts then none else effect.aim := by
  simp only [carryOut, commit, Engine.clearPending, Engine.enter, normal]
  cases effect.inserts <;> rfl

theorem completion?_of_complete {command : Command} {effect : Effect}
    (hr : s.reading g = .complete command) (he : command.effect? s.view = some effect) :
    s.completion? g = some ⟨command, s.view⟩ := by
  simp only [completion?, hr, he, Option.isSome_some, if_true]

/-- A cluster leaves to be aimed for what is recalled after the command that it completes, if it
completes one. -/
theorem Recalls.pressed (h : s.Recalls memory) (normal : s.engine.mode = .normal)
    (hp : s.press g = (none, t)) : t.Recalls (recalled (s.completion? g).toList memory) := by
  have typing : s.engine.mode ≠ .insert := by
    rw [normal]
    decide
  have carried : ∀ {command : Command} {effect : Effect} (host : β),
      s.reading g = .complete command → command.effect? s.view = some effect →
        (s.carryOut effect host).Recalls (recalled (s.completion? g).toList memory) := by
    intro command effect host hr he
    have times : ∀ stride, command.stride? = some stride → 0 < stride.times :=
      fun _ => (Keys.counted hr).times_pos
    have column : recalled (s.completion? g).toList memory =
        if effect.inserts then none else effect.aim := by
      rw [completion?_of_complete hr he, ← h.aim]
      exact Completed.remember_eq times he
    refine ⟨(aim_carryOut_eq effect host normal).trans column.symm, fun typed => ?_⟩
    rw [column, ← aim_carryOut_eq effect host normal]
    exact aim_carryOut effect host normal typed
  have kept : s.completion? g = none → t.engine.aim = s.engine.aim →
      t.engine.mode = s.engine.mode → t.Recalls (recalled (s.completion? g).toList memory) := by
    intro nothing aim mode
    rw [nothing]
    exact ⟨aim.trans h.aim, fun typed => absurd (mode.symm.trans typed) typing⟩
  cases Pressed.of_eq hp with
  | waits hr ht | unread hr ht =>
    subst ht
    exact kept (by simp only [completion?, hr]) rfl rfl
  | unable hr he ht =>
    subst ht
    exact kept (by simp [completion?, hr, he]) rfl rfl
  | unedited hr he _ ht | edited hr he _ _ ht =>
    subst ht
    exact carried _ hr he

theorem recalls_feed (h : s.Recalls memory) (fed : s.feed gs = (none, t)) :
    t.Recalls (recalled (s.completed gs) memory) := by
  induction gs generalizing s memory with
  | nil =>
    cases fed
    exact h
  | cons g gs ih =>
    cases hm : s.engine.mode with
    | insert =>
      rw [feed_cons_of_insert gs hm, perform] at fed
      obtain ⟨-, rfl⟩ := Prod.mk.inj fed
      rw [completed, if_pos hm]
      exact ⟨h.aim, h.typed⟩
    | normal =>
      rcases hp : s.press g with ⟨_ | why, u⟩
      · rw [feed_cons_of_pressed gs hm hp] at fed
        simp only [completed, hm, hp, reduceCtorEq, if_false]
        rw [recalled_append]
        exact ih (h.pressed hm hp).settle fed
      · rw [feed_cons_of_refused gs hm hp] at fed
        cases fed

end Session

/-! ## Calls -/

section Calls

variable {β : Type} [Host β] {s : Session β} {memory : Option Nat}

def Call.completed (call : Call) (s : Session β) : List Completed :=
  match call with
  | .typeText text => s.completed (clusters text)
  | .retype _ _ | .toNormalMode | .clearInput | .settle | .setSeparators _ => []

def completedBy : List Call → Session β → List Completed
  | [], _ => []
  | call :: rest, s => call.completed s ++ completedBy rest (call.run s).2

theorem Session.Recalls.run {call : Call} (h : s.Recalls memory)
    (made : (call.run s).1.isFailure = false) :
    (call.run s).2.Recalls (recalled (call.completed s) memory) := by
  cases call with
  | typeText text =>
    simp only [Call.run, Call.event, Event.run, Session.typeText] at made ⊢
    rcases hf : s.feed (clusters text) with ⟨_ | why, t⟩
    · exact (Session.recalls_feed h hf).settle.told
    · rw [hf] at made
      cases made
  | retype text count =>
    simp only [Call.run, Call.event, Event.run, Session.retype] at made ⊢
    cases hm : s.engine.mode with
    | normal => exact h.settle.told
    | insert =>
      simp only [hm] at made
      rcases hp : s.perform (.retype text count) with ⟨_ | why, t⟩
      · have typed : t.Recalls memory := by
          have engine := Session.engine_perform (.retype text count) s
          rw [hp] at engine
          exact ⟨engine ▸ h.aim, engine ▸ h.typed⟩
        exact typed.settle.told
      · rw [hp] at made
        cases made
  | toNormalMode =>
    exact h.enter_normal.settle.told
  | clearInput => exact ⟨h.aim, h.typed⟩
  | settle => exact h.settle
  | setSeparators separators => exact ⟨h.aim, h.typed⟩

theorem recalls_afterCalls {calls : List Call} (h : s.Recalls memory)
    (made : ∀ result ∈ callHistory calls s, result.1.isFailure = false) :
    (afterCalls calls s).Recalls (recalled (completedBy calls s) memory) := by
  induction calls generalizing s memory with
  | nil => exact h
  | cons call rest ih =>
    rw [completedBy, recalled_append]
    apply ih
    · exact h.run (made _ (List.mem_cons_self ..))
    · intro result later
      exact made result (List.mem_cons_of_mem _ later)

end Calls
/-! ## Where vertical motions lead -/

section Landing

variable {β : Type} [Host β] [FreeCaret β] {s : Session β} {m : Motion}

theorem Session.typeText_motion (key : Char) (normal : s.engine.mode = .normal)
    (idle : s.engine.pending = []) (stop : continuesCount none key = false)
    (hm : Keys.motion? [key] = some m) :
    ∃ signals, s.typeText [key] = (.ok signals, (s.arrive (Place.pullBack (Host.page s.host)
      (m.step (Host.page s.host) s.engine.separators s.place))).announce.2) := by
  let dest := m.step (Host.page s.host) s.engine.separators s.place
  let effect : Effect := { aim := dest.aim, caret := some (.at dest.pos) }
  have once : min ((none : Option Nat).getD 1) maxCount = 1 := by decide
  have whole : clusters [key] = [[key]] :=
    clusters_of_plain fun c hc =>
      List.mem_singleton.mp hc ▸ (Keys.of_eq_plain_of_motion? hm).2
  have read : s.reading [key] = .complete (.move ⟨m, 1⟩) := by
    rw [reading, idle, ← once]
    exact KeyReader.parse_motion .nothing stop hm
  have moved : (Command.move ⟨m, 1⟩).effect? s.view = some effect := by
    simp only [Command.effect?, View.reach, Stride.run, Motion.walk_eq_iterate,
      Function.iterate_one]
    rfl
  have made : effect.Made s.host s.host := rfl
  have pressed : s.press [key] = (none, s.arrive dest) := press_of_complete read moved made
  have settled : (s.arrive dest).settle = s.arrive (dest.pullBack (Host.page s.host)) :=
    settle_moveCaret { s.engine with aim := dest.aim, pending := [] } normal dest.pos s.host
  refine ⟨(s.arrive dest).settle.settle.engine.news, ?_⟩
  rw [typeText, whole, feed_cons_of_pressed [] normal pressed, feed_nil, finish, settle_settle,
    settled]
  rfl

/-- The text can be typed, and takes the caret to the position. -/
def Session.LandsOn (text : Text) (p : Position) (s : Session β) : Prop :=
  ∃ signals t, s.typeText text = (.ok signals, t) ∧ Host.caret t.host = p

theorem Session.landsOn_down (normal : s.engine.mode = .normal) (idle : s.engine.pending = [])
    (below : (Host.caret s.host).line + 1 < (Host.page s.host).length) :
    s.LandsOn ['j'] ⟨(Host.caret s.host).line + 1,
      min (s.engine.aim.getD (Host.caret s.host).col)
        (max ((Host.page s.host).width ((Host.caret s.host).line + 1)) 1 - 1)⟩ := by
  obtain ⟨signals, typed⟩ := typeText_motion 'j' normal idle rfl rfl
  refine ⟨signals, _, typed, ?_⟩
  rw [← Page.pullBack_min]
  exact (FreeCaret.caret_moveCaret ..).trans
    (congrArg (Host.page s.host).pullBack (Motion.pos_step_down s.place below))

theorem Session.landsOn_up (normal : s.engine.mode = .normal) (idle : s.engine.pending = [])
    (above : 0 < (Host.caret s.host).line) :
    s.LandsOn ['k'] ⟨(Host.caret s.host).line - 1,
      min (s.engine.aim.getD (Host.caret s.host).col)
        (max ((Host.page s.host).width ((Host.caret s.host).line - 1)) 1 - 1)⟩ := by
  obtain ⟨signals, typed⟩ := typeText_motion 'k' normal idle rfl rfl
  refine ⟨signals, _, typed, ?_⟩
  rw [← Page.pullBack_min]
  exact (FreeCaret.caret_moveCaret ..).trans
    (congrArg (Host.page s.host).pullBack (Motion.pos_step_up s.place above))

/-- After the command no column but the given one can be aimed for, whatever was before. -/
inductive Completed.Anchors (col : Nat) (done : Completed) : Prop
  | inserts : done.command.inserts = true → Anchors col done
  | forgets {m : Motion} {times : Nat} : done.command.stride? = some ⟨m, times⟩ →
      m ∈ [.lineStart, .lineEnd, .nextWordStart, .nextWordEnd] → Anchors col done
  | left {times : Nat} : done.command.stride? = some ⟨.left, times⟩ →
      done.view.caret.col - times = col → col ≠ done.view.caret.col → Anchors col done
  | right {times : Nat} : done.command.stride? = some ⟨.right, times⟩ →
      max done.view.caret.col
        (min (done.view.caret.col + times) (done.view.page.width done.view.caret.line)) = col →
      col ≠ done.view.caret.col → Anchors col done

theorem Completed.Anchors.getD_remember {done : Completed} {col : Nat} (h : done.Anchors col)
    (memory : Option Nat) : (done.remember memory).getD col = col := by
  unfold remember
  split
  · rfl
  · next stays =>
    cases h with
    | inserts inserts => exact absurd inserts stays
    | forgets moves forgets =>
      rw [moves, Option.elim_some, Stride.remember]
      simp only [List.mem_cons, List.not_mem_nil, or_false] at forgets
      rcases forgets with rfl | rfl | rfl | rfl <;> rfl
    | left moves ends moved | right moves ends moved =>
      rw [moves, Option.elim_some, Stride.remember]
      simp only [ends, if_neg moved, Option.getD_some]

theorem getD_recalled {log : List Completed} {col : Nat}
    (h : ∀ last ∈ log.getLast?, last.Anchors col) : (recalled log none).getD col = col := by
  rcases List.eq_nil_or_concat log with rfl | ⟨earlier, last, rfl⟩
  · rfl
  · rw [List.concat_eq_append] at h ⊢
    rw [recalled_append]
    exact (h last (by simp)).getD_remember _

/-- Where `j` and `k` put the caret is told by the commands carried out before: in the column
recalled after them, as far as the line goes. -/
theorem landsOn_recalled (config : Config) (host : β) (calls : List Call)
    (made : ∀ result ∈ callHistory calls ⟨.ofConfig config, host⟩, result.1.isFailure = false) :
    let start : Session β := ⟨.ofConfig config, host⟩
    let s := afterCalls calls start
    let done := completedBy calls start
    let page := Host.page s.host
    let caret := Host.caret s.host
    let col := (recalled done none).getD caret.col
    s.engine.mode = .normal → s.engine.pending = [] →
      (caret.line + 1 < page.length →
        s.LandsOn ['j'] ⟨caret.line + 1, min col (max (page.width (caret.line + 1)) 1 - 1)⟩) ∧
      (0 < caret.line →
        s.LandsOn ['k'] ⟨caret.line - 1, min col (max (page.width (caret.line - 1)) 1 - 1)⟩) ∧
      ((∀ last ∈ done.getLast?, last.Anchors caret.col) → col = caret.col) := by
  intro start s done page caret col normal idle
  have fresh : start.Recalls none := ⟨rfl, fun _ => rfl⟩
  have aim : s.engine.aim = recalled done none := (recalls_afterCalls fresh made).aim
  have down := Session.landsOn_down normal idle
  have up := Session.landsOn_up normal idle
  rw [aim] at down up
  exact ⟨down, up, getD_recalled⟩

end Landing

theorem landsOn_recalled_after_insert :
    let start : Session OpenBuffer := ⟨.ofConfig {}, .ofText "one two\nthree four".toList .zero⟩
    let calls : List Call := [.typeText "wx".toList, .typeText "ia".toList, .toNormalMode,
      .typeText "2".toList, .clearInput, .typeText "h".toList]
    let s := afterCalls calls start
    let col := (recalled (completedBy calls start) none).getD (Host.caret s.host).col
    col = 4 ∧ s.LandsOn ['j'] ⟨(Host.caret s.host).line + 1,
      min col (max ((Host.page s.host).width ((Host.caret s.host).line + 1)) 1 - 1)⟩ :=
  ⟨by decide +kernel, (landsOn_recalled {} _ _ (by decide +kernel) rfl rfl).1 (by decide +kernel)⟩

/-- After a cluster is deleted the caret does not go straight down: the column that is remembered is
the one behind the deleted cluster. -/
theorem landsOn_beside_after_deletion :
    let start : Session OpenBuffer := ⟨.ofConfig {}, .ofText "abc\ndefg".toList .zero⟩
    let calls : List Call := [.typeText "x".toList]
    let s := afterCalls calls start
    let t := (s.typeText "j".toList).2
    s.engine.mode = .normal ∧ s.engine.pending = [] ∧
      (completedBy calls start).map Completed.command = [.delete (.stride ⟨.right, 1⟩)] ∧
      Host.caret s.host = ⟨0, 0⟩ ∧ Host.caret t.host = ⟨1, 1⟩ ∧
      (Host.caret t.host).col ≠
        min (Host.caret s.host).col (max ((Host.page s.host).width 1) 1 - 1) := by
  decide +kernel

end ModalEditor

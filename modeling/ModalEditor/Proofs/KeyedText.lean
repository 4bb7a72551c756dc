import ModalEditor.Proofs.ReadCommands
import ModalEditor.Proofs.Terminal

/-! # What keys bring into a text

An edit leaves characters of the text and of what it puts in. A command puts in what is in the
register, the cluster that it was read with, or line feeds, and takes into the register what the
page shows. So the keys of a console never lead out of an alphabet that holds the line feed, the
characters of the text and those that are typed.
-/

namespace ModalEditor

variable {c : Char}

/-! ## Edits -/

/-- What an edit puts in, once if it is repeated. -/
def Edit.content : Edit → Text
  | .delete _ => []
  | .insert _ copies | .replace _ copies => copies.unit
  | .typeIn text | .retype text _ => text

namespace Document

variable {shown : Text → Text} {d d' : Document}

theorem mem_of_mem_splice {start stop : Nat} {new : Text}
    (mem : c ∈ (d.splice start stop new).text) : c ∈ d.text ∨ c ∈ new := by
  rw [text_splice, List.mem_append, List.mem_append] at mem
  rcases mem with (before | inside) | after
  · exact .inl (List.mem_of_mem_take before)
  · exact .inr inside
  · exact .inl (List.mem_of_mem_drop after)

theorem mem_of_mem_delete {span : Span} (made : d.delete shown span = .ok d')
    (mem : c ∈ d'.text) : c ∈ d.text := by
  simp only [delete] at made
  split at made
  · cases made
  · cases made
    exact (mem_of_mem_splice mem).resolve_right List.not_mem_nil

/-- An edit leaves characters of the text and of what it puts in. -/
theorem mem_of_mem_edit {reach : Document → Nat → Nat} {e : Edit}
    (made : d.edit shown reach e = .ok d') (mem : c ∈ d'.text) : c ∈ d.text ∨ c ∈ e.content := by
  cases e with
  | delete span => exact .inl (mem_of_mem_delete made mem)
  | insert pos copies =>
    cases made
    exact (mem_of_mem_splice mem).imp_right fun new => (Copies.mem_text.mp new).1
  | replace span copies =>
    simp only [edit] at made
    cases cut : d.delete shown span with
    | error why =>
      rw [cut] at made
      cases made
    | ok left =>
      rw [cut] at made
      cases made
      rcases mem_of_mem_splice mem with old | new
      · exact .inl (mem_of_mem_delete cut old)
      · exact .inr (Copies.mem_text.mp new).1
  | typeIn text | retype text count =>
    cases made
    exact mem_of_mem_splice mem

end Document

namespace ClampedBuffer

variable {b : ClampedBuffer}

theorem mem_of_shows (shows : b.page.Shows c) : c ∈ b.document.text :=
  Document.mem_of_shows (fun line => (List.rdropWhile_prefix _ line).subset) shows

theorem mem_of_mem_perform {e : Edit} (mem : c ∈ (Host.perform e b).2.document.text) :
    c ∈ b.document.text ∨ c ∈ e.content := by
  cases made : b.document.edit Text.dropReturns reach e with
  | ok d =>
    rw [perform_of_made made] at mem
    exact Document.mem_of_mem_edit made mem
  | error why =>
    simp only [Host.perform, perform, made] at mem
    exact .inl mem

end ClampedBuffer

/-! ## Commands -/

namespace View

variable {view : View} {edit : Edit}

theorem content_of_deletion? {span : Span} (h : deletion? span = some edit) :
    edit.content = [] := by
  unfold deletion? at h
  split at h
  · cases h
  · cases h
    rfl

theorem content_of_cut {dest : Place} {inserts : Bool}
    (h : (view.cut dest inserts).edit = some edit) : edit.content = [] := by
  simp only [cut] at h
  split at h
  · cases h
  · cases h
    rfl

theorem mem_of_mem_put {register : Register} {count : Nat}
    (h : (view.put register count).edit = some edit) (mem : c ∈ edit.content) :
    c ∈ register.content := by
  cases register with
  | chars text =>
    cases h
    exact mem
  | lines text =>
    obtain rfl := Option.some.inj h
    split at mem
    · exact mem
    · rw [Register.content, List.mem_append, or_comm]
      exact (List.mem_cons.mp mem).imp_left List.mem_singleton.mpr

end View

namespace Command

variable {command : Command} {view : View} {effect : Effect}

/-- A command puts in the content of the register or the cluster that it was read with. -/
theorem mem_of_mem_content (he : command.effect? view = some effect) {edit : Edit}
    (hedit : effect.edit = some edit) (mem : c ∈ edit.content) :
    (∃ register ∈ view.register, c ∈ register.content) ∨
      ∃ g n, command = .replace g n ∧ c ∈ g := by
  cases command with
  | move _ | insert | append | appendAtEnd =>
    obtain rfl := Option.some.inj he
    cases hedit
  | delete target | change target =>
    have nothing : edit.content = [] := by
      cases target with
      | stride stride =>
        obtain rfl := Option.some.inj he
        exact View.content_of_cut hedit
      | lines count =>
        obtain ⟨lines, -, rfl⟩ := Option.map_eq_some_iff.mp he
        exact View.content_of_deletion? hedit
    rw [nothing] at mem
    cases mem
  | put count =>
    obtain ⟨register, held, -, -, rfl⟩ := of_effect?_put he
    exact .inl ⟨register, held, View.mem_of_mem_put hedit mem⟩
  | replace g count =>
    obtain ⟨-, rfl⟩ := of_effect?_replace he
    obtain rfl := Option.some.inj hedit
    exact .inr ⟨g, count, rfl, mem⟩

end Command

/-! ## Keys in insert mode -/

namespace Document

def type (new : Text) (d : Document) : Document :=
  d.enter (d.offset Text.dropReturns d.caret) (d.offset Text.dropReturns d.caret) new

def erase (d : Document) : Document :=
  d.enter (ClampedBuffer.reach d 1) (d.offset Text.dropReturns d.caret) []

end Document

namespace Session

variable {s : Session ClampedBuffer}

theorem finish_of_insert (insert : s.engine.mode = .insert) :
    (finish (none, s)).2 = { s with engine := s.engine.told } := by
  rw [finish, settle_of_insert insert]
  rfl

theorem typeText_of_insert (insert : s.engine.mode = .insert) (c : Char) :
    (s.typeText [c]).2 = ⟨s.engine.told, ⟨s.host.document.type [c]⟩⟩ := by
  have typed : s.feed (clusters [c]) = (none, { s with host := ⟨s.host.document.type [c]⟩ }) :=
    feed_cons_of_insert [] insert
  rw [typeText, typed]
  exact finish_of_insert insert

theorem retype_of_insert (insert : s.engine.mode = .insert) :
    (s.retype [] 1).2 = ⟨s.engine.told, ⟨s.host.document.erase⟩⟩ := by
  have erased : s.perform (.retype [] 1) = (none, { s with host := ⟨s.host.document.erase⟩ }) := rfl
  simp only [retype, insert, erased]
  exact finish_of_insert insert

end Session

theorem Console.handle_backspace {s : Session ClampedBuffer} (insert : s.engine.mode = .insert) :
    handle .backspace s = s.retype [] 1 :=
  if_pos insert

/-! ## Keys of an alphabet -/

/-- Everything at hand is written in an alphabet: the text, the register and the pending keys. -/
structure Session.Over (alphabet : Char → Prop) (s : Session ClampedBuffer) : Prop where
  text : ∀ c ∈ s.host.document.text, alphabet c
  register : ∀ register ∈ s.engine.register, ∀ c ∈ register.content, alphabet c
  pending : ∀ c ∈ s.engine.pending, alphabet c

/-- A key types a character of an alphabet, or none. -/
def Key.Over (alphabet : Char → Prop) (key : Key) : Prop :=
  ∀ c, key = .char c → alphabet c

instance (alphabet : Char → Prop) [DecidablePred alphabet] (key : Key) :
    Decidable (key.Over alphabet) :=
  match key with
  | .char c =>
    decidable_of_iff (alphabet c) ⟨fun h _ same => Key.char.inj same ▸ h, fun h => h c rfl⟩
  | .escape | .enter | .backspace | .left | .right | .up | .down | .other => isTrue nofun

section Alphabet

variable {alphabet : Char → Prop}

namespace Session

variable {s t : Session ClampedBuffer} {g : Cluster} {failure : Option Failure}

theorem written_ofText {text : Text} (h : ∀ c ∈ text, alphabet c) :
    (Console.ofText text).session.Over alphabet :=
  ⟨h, nofun, nofun⟩

theorem Over.of_subset (written : s.Over alphabet)
    (text : t.host.document.text ⊆ s.host.document.text)
    (register : t.engine.register = s.engine.register)
    (pending : t.engine.pending ⊆ s.engine.pending) : t.Over alphabet :=
  ⟨fun c mem => written.text c (text mem), register ▸ written.register,
    fun c mem => written.pending c (pending mem)⟩

theorem text_settle (s : Session ClampedBuffer) :
    s.settle.host.document.text = s.host.document.text := by
  rcases s.host_settle_cases with same | ⟨p, moved⟩
  · rw [same]
  · rw [moved]
    rfl

theorem Over.settle (written : s.Over alphabet) : s.settle.Over alphabet := by
  have engine := s.engine_settle
  exact written.of_subset (s.text_settle ▸ List.Subset.refl _) (by rw [engine]) (by
    rw [engine]
    exact List.Subset.refl _)

theorem Over.perform (written : s.Over alphabet) {e : Edit} (content : ∀ c ∈ e.content, alphabet c) :
    (s.perform e).2.Over alphabet where
  text c mem := (ClampedBuffer.mem_of_mem_perform mem).elim (written.text c) (content c)
  register := written.register
  pending := written.pending

theorem Over.carryOut (written : s.Over alphabet) {effect : Effect} {host : ClampedBuffer}
    (text : ∀ c ∈ host.document.text, alphabet c)
    (register : ∀ register ∈ effect.register, ∀ c ∈ register.content, alphabet c) :
    (s.carryOut effect host).Over alphabet := by
  refine ⟨?_, ?_, nofun⟩
  · rw [host_carryOut]
    cases effect.caret <;> exact text
  · rw [register_carryOut]
    cases taken : effect.register with
    | none => exact written.register
    | some new =>
      rw [taken] at register
      exact register

/-- A cluster in normal mode does not lead out of an alphabet that holds the line feed. -/
theorem Pressed.written (feed : alphabet '\n') (written : s.Over alphabet) (hg : ∀ c ∈ g, alphabet c)
    (pressed : s.Pressed g failure t) : t.Over alphabet := by
  have keys : ∀ c ∈ s.engine.pending ++ g, alphabet c :=
    List.forall_mem_append.mpr ⟨written.pending, hg⟩
  have taken {command : Command} {effect : Effect} (he : command.effect? s.view = some effect) :
      ∀ register ∈ effect.register, ∀ c ∈ register.content, alphabet c := by
    intro register hr c mem
    by_cases other : c = '\n'
    · exact other ▸ feed
    · exact written.text c (ClampedBuffer.mem_of_shows (Command.shows_of_mem_register he hr mem other))
  have made {command : Command} {effect : Effect} {edit : Edit}
      (hr : s.reading g = .complete command) (he : command.effect? s.view = some effect)
      (hedit : effect.edit = some edit) :
      ∀ c ∈ (Host.perform edit s.host).2.document.text, alphabet c := by
    intro c mem
    rcases ClampedBuffer.mem_of_mem_perform mem with old | new
    · exact written.text c old
    · rcases Command.mem_of_mem_content he hedit new with ⟨register, held, mem⟩ | ⟨_, _, rfl, mem⟩
      · exact written.register register held c mem
      · exact keys c (Keys.mem_of_mem_replace hr mem)
  cases pressed with
  | waits _ ht =>
    subst ht
    exact ⟨written.text, written.register, keys⟩
  | unread _ ht | unable _ _ ht =>
    subst ht
    exact ⟨written.text, written.register, nofun⟩
  | unedited _ he _ ht =>
    subst ht
    exact written.carryOut written.text (taken he)
  | edited hr he hedit done ht =>
    subst ht
    have text := made hr he hedit
    rw [done] at text
    exact written.carryOut text (taken he)
  | refused hr he hedit refused ht =>
    subst ht
    have text := made hr he hedit
    rw [refused] at text
    exact ⟨text, written.register, keys⟩

theorem Over.feed (feed : alphabet '\n') (written : s.Over alphabet) {gs : List Cluster}
    (hgs : ∀ c ∈ gs.flatten, alphabet c) : (s.feed gs).2.Over alphabet := by
  induction gs generalizing s with
  | nil => exact written
  | cons g gs ih =>
    obtain ⟨first, later⟩ := List.forall_mem_append.mp hgs
    cases hm : s.engine.mode with
    | insert =>
      rw [feed_cons_of_insert gs hm]
      exact written.perform hgs
    | normal =>
      rcases hp : s.press g with ⟨_ | why, t⟩
      · rw [feed_cons_of_pressed gs hm hp]
        exact ih ((Pressed.of_eq hp).written feed written first).settle later
      · rw [feed_cons_of_refused gs hm hp]
        exact (Pressed.of_eq hp).written feed written first

theorem Over.finish {result : Option Failure × Session ClampedBuffer}
    (written : result.2.Over alphabet) : (Session.finish result).2.Over alphabet := by
  rcases result with ⟨_ | why, t⟩
  · exact ⟨written.settle.text, written.settle.register, written.settle.pending⟩
  · exact ⟨written.text, written.register, nofun⟩

theorem Over.typeText (feed : alphabet '\n') (written : s.Over alphabet) {text : Text}
    (typed : ∀ c ∈ text, alphabet c) : (s.typeText text).2.Over alphabet :=
  (written.feed feed ((flatten_clusters text).symm ▸ typed)).finish

theorem Over.retype (written : s.Over alphabet) {text : Text} (typed : ∀ c ∈ text, alphabet c)
    (count : Nat) : (s.retype text count).2.Over alphabet := by
  apply Over.finish
  split
  · exact written
  · exact written.perform typed

theorem Over.toNormalMode (written : s.Over alphabet) : s.toNormalMode.2.Over alphabet := by
  refine written.of_subset (s.text_toNormalMode ▸ List.Subset.refl _) s.register_toNormalMode ?_
  rw [Session.toNormalMode, announce, Engine.told, engine_settle, Engine.enter]
  split
  · exact List.Subset.refl _
  · exact List.nil_subset _

end Session

namespace Console

open Session

variable {s : Session ClampedBuffer} {key : Key}

theorem written_handle (feed : alphabet '\n') (written : s.Over alphabet) (typed : key.Over alphabet) :
    (handle key s).2.Over alphabet := by
  cases key with
  | char c =>
    apply written.typeText feed
    intro d mem
    exact List.mem_singleton.mp mem ▸ typed c rfl
  | escape =>
    by_cases idle : s.engine.pending = []
    · rw [handle_escape_of_idle idle]
      exact written.toNormalMode
    · rw [handle_escape_of_keys idle]
      exact ⟨written.text, written.register, nofun⟩
  | enter =>
    simp only [handle]
    split
    · apply written.typeText feed
      intro d mem
      exact List.mem_singleton.mp mem ▸ feed
    · exact written
  | backspace =>
    simp only [handle]
    split
    · exact written.retype (List.forall_mem_nil _) 1
    · exact written
  | left | right | up | down =>
    exact Over.settle ⟨written.text, written.register, written.pending⟩
  | other => exact written

theorem session_press (key : Key) (console : Console) :
    (console.press key).2.session = (handle key console.session).2 := by
  unfold press
  rcases handle key console.session with ⟨why | signals, t⟩ <;> rfl

theorem written_afterKeys (feed : alphabet '\n') {console : Console} {keys : List Key}
    (written : console.session.Over alphabet) (typed : ∀ key ∈ keys, key.Over alphabet) :
    (console.afterKeys keys).session.Over alphabet := by
  induction keys generalizing console with
  | nil => exact written
  | cons key keys ih =>
    obtain ⟨first, later⟩ := List.forall_mem_cons.mp typed
    refine ih ?_ later
    rw [session_press]
    exact written_handle feed written first

end Console

end Alphabet

end ModalEditor

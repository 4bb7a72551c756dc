import ModalEditor.Proofs.Fitting
import ModalEditor.Proofs.FreeCaret
import ModalEditor.Proofs.KeyReader

/-! # Sound sessions

A session is sound when its text is broken by line feeds alone, its engine remembers nothing that
could break a line in another way, and its caret is where the mode lets it rest. What a cluster
does, what typed text does and how a call ends all keep a session sound, failures included.
-/

namespace ModalEditor

/-! ## Clusters read as commands -/

theorem Text.OnlyFeeds.eq_feed {g : Cluster} (clean : Text.OnlyFeeds g) (hg : clusters g = [g])
    (h : '\n' ∈ g) : g = ['\n'] := by
  apply eq_feed_of_mem hg h
  intro hr
  exact absurd (clean _ hr (by decide)) (by decide)

namespace KeyReader

variable {digits more : Text} {outer inner : Option Nat} {g : Cluster} {command : Command}

theorem plain_of_readArgument {r : KeyReader} {trigger : Char} {target : Target → Command}
    (plain : ∀ t, (target t).Plain) (hc : (r.readArgument trigger target g).1 = .complete command) :
    command.Plain := by
  unfold readArgument at hc
  split at hc
  · cases hc
  · split at hc
    · cases hc
      exact plain _
    · split at hc
      · cases hc
        exact plain _
      · cases hc

theorem plain_of_readCommand (h : Spells digits outer) (hg : clusters g = [g])
    (clean : Text.OnlyFeeds g) (hc : (readCommand ⟨outer, none, none⟩ g).1 = .complete command) :
    command.Plain := by
  have pos : total ⟨outer, none, none⟩ ≠ 0 := Nat.ne_of_gt (total_pos h none .nothing)
  unfold readCommand at hc
  split at hc
  · cases hc
  · split at hc
    · cases hc
    · next c rest _ =>
      split at hc
      · next op _ =>
        cases op with
        | insert | append | appendAtEnd | deleteChar | deleteLine =>
          cases hc
          trivial
        | put =>
          cases hc
          exact pos
        | delete | change => cases rest <;> cases hc
        | replace =>
          cases rest with
          | nil => cases hc
          | cons d rest =>
            cases hc
            refine ⟨(Text.onlyFeeds_cons.mp clean).2, ?_, List.cons_ne_nil d rest, pos⟩
            intro feed
            exact absurd (clean.eq_feed hg (List.mem_cons_of_mem _ feed)) (by simp)
      · split at hc
        · cases hc
          trivial
        · cases hc

theorem plain_of_read {r : KeyReader} {keys : Text} (h : Reads r keys) (hg : clusters g = [g])
    (clean : Text.OnlyFeeds g) (arg : g = ['\n'] → r.waiting ≠ some .replace)
    (hc : (r.read g).1 = .complete command) : command.Plain := by
  cases h with
  | count spelled => exact plain_of_readCommand spelled hg clean hc
  | @argument _ _ _ _ w spelled spelled' hw =>
    cases w with
    | delete => exact plain_of_readArgument (fun t => show (Command.delete t).Plain from trivial) hc
    | change => exact plain_of_readArgument (fun t => show (Command.change t).Plain from trivial) hc
    | replace => exact absurd rfl hw
  | replacement spelled =>
    cases hc
    refine ⟨clean, ?_, ?_, Nat.ne_of_gt (total_pos spelled _ .nothing)⟩
    · intro feed
      exact arg (clean.eq_feed hg feed) rfl
    · rintro rfl
      simp at hg

theorem rest_splitCount_of_replacement {r : KeyReader} {keys : Text} (h : Reads r keys)
    (hw : r.waiting = some .replace) : (splitCount keys).rest = ['r'] := by
  cases h with
  | count _ => cases hw
  | argument _ _ other => exact absurd (Option.some.inj hw) other
  | replacement spelled =>
    rw [spelled.splitCount_append]
    rintro c hc
    obtain rfl : 'r' = c := Option.some.inj hc
    rfl

end KeyReader

/-- What an engine remembers: keys that can become a command, and text that only line feeds
break. -/
structure Engine.Clean (engine : Engine) : Prop where
  pending : ∃ r, KeyReader.Reads r engine.pending
  register : ∀ register ∈ engine.register, register.content.OnlyFeeds

theorem Engine.clean_ofConfig (config : Config) : (Engine.ofConfig config).Clean :=
  ⟨⟨.start, KeyReader.reads_start⟩, fun _ h => nomatch h⟩

theorem Engine.Clean.dropped {engine engine' : Engine} (h : engine.Clean)
    (pending : engine'.pending = []) (register : engine'.register = engine.register) :
    engine'.Clean :=
  ⟨⟨.start, pending ▸ KeyReader.reads_start⟩, register ▸ h.register⟩

theorem Engine.Clean.enter {engine : Engine} (h : engine.Clean) (mode : Mode) :
    (engine.enter mode).Clean := by
  unfold Engine.enter
  split
  · exact h
  · exact h.dropped rfl rfl

theorem Recorder.page_of_shown {r : Recorder} (h : r.hidesLines = false) :
    Host.page r = r.buffer.document.page Text.dropFeed := by
  simp [Host.page, Recorder.page, OpenBuffer.page, h]

namespace Session

variable {s t : Session Recorder} {g : Cluster}

/-- A session over a text that only line feeds break, with all of it shown and none selected. -/
structure Tidy (s : Session Recorder) : Prop where
  engine : s.engine.Clean
  text : s.host.buffer.document.text.OnlyFeeds
  free : s.host.buffer.selection = false
  shown : s.host.hidesLines = false

/-- The invariant of calls: the caret is where the mode lets it rest. -/
structure Sound (s : Session Recorder) : Prop extends Tidy s where
  caret : (Host.page s.host).Rests s.engine.mode (Host.caret s.host)

/-- A session between calls whose caret is on the page, although the mode may not let it rest
there. -/
structure Standing (s : Session Recorder) : Prop extends Tidy s where
  caret : (Host.page s.host).Holds (Host.caret s.host)

/-- What a cluster leaves behind: a caret that only has to settle. -/
structure Settling (s : Session Recorder) : Prop extends Tidy s where
  caret : (Host.page s.host).Settles (Host.caret s.host)
  typed : s.engine.mode = .insert → (Host.page s.host).Holds (Host.caret s.host)

/-- What else the host and the engine hold makes no difference. -/
theorem Sound.of_same (h : s.Sound) (engine : t.engine.Clean) (mode : t.engine.mode = s.engine.mode)
    (document : t.host.buffer.document = s.host.buffer.document)
    (selection : t.host.buffer.selection = s.host.buffer.selection)
    (shown : t.host.hidesLines = s.host.hidesLines) : t.Sound := by
  have shown' := shown.trans h.shown
  have caret := h.caret
  rw [Recorder.page_of_shown h.shown] at caret
  refine ⟨⟨engine, document ▸ h.text, selection.trans h.free, shown'⟩, ?_⟩
  rw [Recorder.page_of_shown shown', mode]
  simp only [Host.caret, document]
  exact caret

theorem Sound.standing (h : s.Sound) : s.Standing :=
  ⟨h.toTidy, h.caret.holds⟩

theorem Standing.settling (h : s.Standing) : s.Settling :=
  ⟨h.toTidy, h.caret.settles, fun _ => h.caret⟩

theorem Sound.settling (h : s.Sound) : s.Settling :=
  h.standing.settling

theorem Standing.sound (h : s.Standing) (insert : s.engine.mode = .insert) : s.Sound := by
  refine ⟨h.toTidy, h.caret.line, ?_⟩
  rw [insert]
  exact h.caret.col

theorem Settling.sound_settle (h : s.Settling) : s.settle.Sound := by
  have free : Host.hasSelection s.host = false := by simp [Host.hasSelection, h.free]
  obtain ⟨line, start⟩ := h.caret
  by_cases hangs : s.Overhangs
  · rw [settle_of_overhangs hangs]
    obtain ⟨⟨normal, -⟩, some, -⟩ := hangs
    refine ⟨⟨h.engine, h.text, rfl, h.shown⟩, line, ?_⟩
    simp only [normal]
    exact .inl (Nat.sub_lt some Nat.one_pos)
  · rw [settle_of_not_overhangs hangs]
    refine ⟨h.toTidy, line, ?_⟩
    cases hm : s.engine.mode with
    | insert => exact (h.typed hm).col
    | normal =>
      rcases Nat.eq_zero_or_pos ((Host.page s.host).width (Host.caret s.host).line) with zero | some
      · exact .inr ⟨zero, start zero⟩
      · exact .inl (Nat.lt_of_not_le fun past => hangs ⟨⟨hm, free⟩, some, past⟩)

/-- How clusters are taken: a session that is sound, or a failure that is one of the host and leaves
a session that is sound once the keys are dropped. -/
def EndsWell : Option Failure × Session Recorder → Prop
  | (none, s) => s.Sound
  | (some why, s) => why ≠ .crossed ∧ Sound { s with engine := s.engine.abandon }

/-! ## One cluster -/

theorem Tidy.carryOut {effect : Effect} {host : Recorder} (h : s.Tidy)
    (register : ∀ register ∈ effect.register, register.content.OnlyFeeds)
    (text : host.buffer.document.text.OnlyFeeds)
    (free : host.buffer.selection = s.host.buffer.selection)
    (shown : host.hidesLines = s.host.hidesLines) : (s.carryOut effect host).Tidy := by
  refine ⟨⟨⟨.start, KeyReader.reads_start⟩, ?_⟩, ?_, ?_, ?_⟩
  · rw [register_carryOut]
    cases he : effect.register with
    | none => exact h.engine.register
    | some register' =>
      intro _ hr
      exact register _ (he ▸ hr)
  all_goals
    rw [host_carryOut]
    split
  · exact text
  · exact text
  · rfl
  · exact free.trans h.free
  · exact shown.trans h.shown
  · exact shown.trans h.shown

theorem Standing.settling_of_unedited {effect : Effect} (h : s.Standing)
    (register : ∀ register ∈ effect.register, register.content.OnlyFeeds)
    (fits : effect.Fits (Host.page s.host)) (hedit : effect.edit = none) :
    (s.carryOut effect s.host).Settling := by
  have tidy := h.toTidy.carryOut register h.text rfl rfl
  have holds : (Host.page (s.carryOut effect s.host).host).Holds
      (Host.caret (s.carryOut effect s.host).host) := by
    rw [host_carryOut]
    cases fits with
    | stays _ landed =>
      split
      · next landing hl => exact landed landing hl
      · exact h.caret
    | deletes some | insertsChars some | insertsLines some | replaces some =>
      rw [hedit] at some
      cases some
  exact ⟨tidy, holds.settles, fun _ => holds⟩

theorem Standing.settling_of_edited {effect : Effect} {edit : Edit} {host : Recorder}
    (h : s.Standing) (hm : s.engine.mode = .normal)
    (register : ∀ register ∈ effect.register, register.content.OnlyFeeds)
    (fits : effect.Fits (Host.page s.host)) (hedit : effect.edit = some edit)
    (made : Host.perform edit s.host = (none, host)) : (s.carryOut effect host).Settling := by
  obtain ⟨document, accepted, buffer⟩ := Recorder.document_of_perform made
  rw [Recorder.page_of_shown h.shown] at fits
  obtain ⟨document', made', clean, landing, hcaret, settles, holds⟩ := fits.lands h.text hedit
  obtain rfl : document' = document := Except.ok.inj (made'.symm.trans accepted)
  have shown := Recorder.hidesLines_perform edit s.host
  rw [made] at shown
  have page : Host.page host = document'.page Text.dropFeed := by
    rw [Recorder.page_of_shown (shown.trans h.shown), buffer]
  refine ⟨h.toTidy.carryOut register ?_ ?_ shown, ?_, ?_⟩
  · rw [buffer]
    exact clean
  · rw [buffer]
  · rw [host_carryOut, hcaret, FreeCaret.page_moveCaret, FreeCaret.caret_moveCaret, page]
    exact settles
  · intro typed
    rw [host_carryOut, hcaret, FreeCaret.page_moveCaret, FreeCaret.caret_moveCaret, page]
    rw [mode_carryOut, hm] at typed
    cases hi : effect.inserts with
    | true => exact holds hi
    | false => simp [hi] at typed

theorem Sound.refused {edit : Edit} {host : Recorder} {engine : Engine} {why : Failure}
    (h : s.Sound) (refused : Host.perform edit s.host = (some why, host))
    (mode : engine.mode = s.engine.mode) (register : engine.register = s.engine.register) :
    Sound ⟨engine.abandon, host⟩ := by
  have buffer := (Recorder.buffer_of_refused refused).1
  have shown := Recorder.hidesLines_perform edit s.host
  rw [refused] at shown
  refine h.of_same (h.engine.dropped rfl register) mode ?_ ?_ shown
  · rw [buffer]
  · rw [buffer]

theorem Standing.effect_fits {command : Command} {effect : Effect} (h : s.Standing)
    (hg : clusters g = [g]) (clean : Text.OnlyFeeds g)
    (arg : g = ['\n'] → (splitCount s.engine.pending).rest ≠ ['r'])
    (hc : s.reading g = .complete command) (he : command.effect? s.view = some effect) :
    effect.Fits (Host.page s.host) ∧
      ∀ register ∈ effect.register, register.content.OnlyFeeds := by
  obtain ⟨r, hr⟩ := h.engine.pending
  have page : (Host.page s.host).OnlyFeeds := by
    rw [Recorder.page_of_shown h.shown]
    exact Document.onlyFeeds_page h.text
  have plain : command.Plain := by
    refine KeyReader.plain_of_read hr hg clean ?_ ((KeyReader.parse_append hr hg).symm.trans hc)
    intro feed waiting
    exact arg feed (KeyReader.rest_splitCount_of_replacement hr waiting)
  exact ⟨Command.fits plain h.caret h.engine.register he, Command.register_onlyFeeds page he⟩

/-- A cluster that does not fail leaves a caret that only has to settle. -/
theorem Standing.pressed (h : s.Standing) (hm : s.engine.mode = .normal)
    (hg : clusters g = [g]) (clean : Text.OnlyFeeds g)
    (arg : g = ['\n'] → (splitCount s.engine.pending).rest ≠ ['r'])
    (hp : s.Pressed g none t) : t.Settling := by
  have kept : ∀ {engine : Engine}, engine.Clean → Settling ⟨engine, s.host⟩ := fun clean =>
    ⟨⟨clean, h.text, h.free, h.shown⟩, h.caret.settles, fun _ => h.caret⟩
  cases hp with
  | waits hc ht =>
    obtain rfl := ht
    obtain ⟨r, hr⟩ := h.engine.pending
    rcases KeyReader.keeps_read hr g with ⟨-, reads⟩ | ⟨other, -⟩
    · exact kept ⟨⟨_, reads⟩, h.engine.register⟩
    · exact absurd ((KeyReader.parse_append hr hg).symm.trans hc) other
  | unread _ ht | unable _ _ ht =>
    obtain rfl := ht
    exact kept (h.engine.dropped rfl rfl)
  | unedited hc he hedit ht =>
    obtain rfl := ht
    obtain ⟨fits, register⟩ := h.effect_fits hg clean arg hc he
    exact h.settling_of_unedited register fits hedit
  | edited hc he hedit made ht =>
    obtain rfl := ht
    obtain ⟨fits, register⟩ := h.effect_fits hg clean arg hc he
    exact h.settling_of_edited hm register fits hedit made

theorem Sound.pressed {failure : Option Failure} (h : s.Sound) (hm : s.engine.mode = .normal)
    (hg : clusters g = [g]) (clean : Text.OnlyFeeds g)
    (arg : g = ['\n'] → (splitCount s.engine.pending).rest ≠ ['r'])
    (hp : s.Pressed g failure t) :
    match failure with
    | none => t.Settling
    | some why => EndsWell (some why, t) := by
  cases failure with
  | none => exact h.standing.pressed hm hg clean arg hp
  | some why =>
    cases hp with
    | refused hc he hedit refused ht =>
      obtain rfl := ht
      obtain ⟨fits, -⟩ := h.standing.effect_fits hg clean arg hc he
      refine ⟨?_, h.refused refused rfl rfl⟩
      -- The ends of an edit that fits are in order, so the buffer itself would have made it.
      intro crossed
      rw [Recorder.page_of_shown h.shown] at fits
      obtain ⟨document, made, -⟩ := fits.lands h.text hedit
      cases made.symm.trans ((Recorder.buffer_of_refused refused).2 crossed)

/-! ## Text in insert mode -/

/-- Native typing that exchanges text from within the document. -/
def Types (edit : Edit) (d : Document) : Prop :=
  ∃ start stop new, d.edit Text.dropFeed OpenBuffer.reach edit = .ok (d.enter start stop new) ∧
    start ≤ d.text.length ∧ Text.OnlyFeeds new

theorem Sound.types_typeIn {text : Text} (h : s.Sound) (clean : text.OnlyFeeds) :
    Types (.typeIn text) s.host.buffer.document := by
  have line := h.caret.holds.line
  rw [Recorder.page_of_shown h.shown] at line
  exact ⟨_, _, text, rfl, (Document.endOf_take_offset h.text line).2, clean⟩

theorem Sound.types_retype {text : Text} (count : Nat) (h : s.Sound) (clean : text.OnlyFeeds) :
    Types (.retype text count) s.host.buffer.document := by
  let caret := Host.caret s.host
  have line : (⟨caret.line, caret.col - count⟩ : Position).line < _ := h.caret.holds.line
  rw [Recorder.page_of_shown h.shown] at line
  exact ⟨_, _, text, rfl, (Document.endOf_take_offset h.text line).2, clean⟩

theorem Sound.typed {edit : Edit} (h : s.Sound) (hm : s.engine.mode = .insert)
    (types : Types edit s.host.buffer.document) : EndsWell (s.perform edit) := by
  obtain ⟨start, stop, new, enters, inside, clean⟩ := types
  rcases hp : Host.perform edit s.host with ⟨_ | why, host⟩
  · obtain ⟨document, accepted, buffer⟩ := Recorder.document_of_perform hp
    obtain rfl := Except.ok.inj (enters.symm.trans accepted)
    have shown := Recorder.hidesLines_perform edit s.host
    rw [hp] at shown
    have caret := Document.holds_caret_enter h.text clean inside stop
    have text := Document.onlyFeeds_splice h.text clean start stop
    simp only [perform, hp]
    refine ⟨⟨h.engine, ?_, ?_, shown.trans h.shown⟩, ?_⟩
    · rw [buffer]
      exact text
    · rw [buffer]
      exact h.free
    · rw [Recorder.page_of_shown (shown.trans h.shown), hm]
      simp only [Host.caret, buffer]
      exact ⟨caret.line, caret.col⟩
  · simp only [perform, hp]
    refine ⟨?_, h.refused hp rfl rfl⟩
    intro crossed
    cases enters.symm.trans ((Recorder.buffer_of_refused hp).2 crossed)

/-! ## Clusters -/

/-- No line feed among the clusters is taken as the argument of a pending `r`. -/
def NoFeedReplaces : List Cluster → Session Recorder → Prop
  | [], _ => True
  | g :: rest, s => s.engine.mode = .normal →
      (g = ['\n'] → (splitCount s.engine.pending).rest ≠ ['r']) ∧
        ((s.press g).1 = none → NoFeedReplaces rest (s.press g).2.settle)

instance NoFeedReplaces.decidable :
    (gs : List Cluster) → (s : Session Recorder) → Decidable (NoFeedReplaces gs s)
  | [], _ => .isTrue trivial
  | g :: rest, s =>
    have := decidable rest (s.press g).2.settle
    inferInstanceAs (Decidable (_ → _ ∧ _))

theorem Sound.feed {gs : List Cluster} (h : s.Sound) (hgs : ∀ g ∈ gs, clusters g = [g])
    (clean : ∀ g ∈ gs, Text.OnlyFeeds g) (spared : NoFeedReplaces gs s) :
    EndsWell (s.feed gs) := by
  induction gs generalizing s with
  | nil => exact h
  | cons g gs ih =>
    cases hm : s.engine.mode with
    | insert =>
      rw [feed_cons_of_insert gs hm]
      exact h.typed hm (h.types_typeIn (Text.onlyFeeds_flatten.mpr clean))
    | normal =>
      obtain ⟨arg, later⟩ := spared hm
      have pressed := fun {failure t} (hp : s.press g = (failure, t)) =>
        h.pressed hm (hgs g (List.mem_cons_self ..)) (clean g (List.mem_cons_self ..)) arg
          (Pressed.of_eq hp)
      rcases hp : s.press g with ⟨_ | why, t⟩
      · rw [feed_cons_of_pressed gs hm hp]
        rw [hp] at later
        refine ih (pressed hp).sound_settle ?_ ?_ (later rfl)
        · intro g' hg'
          exact hgs g' (List.mem_cons_of_mem _ hg')
        · intro g' hg'
          exact clean g' (List.mem_cons_of_mem _ hg')
      · rw [feed_cons_of_refused gs hm hp]
        exact pressed hp

/-! ## Calls -/

theorem Sound.announce (h : s.Sound) : s.announce.2.Sound :=
  h.of_same ⟨h.engine.pending, h.engine.register⟩ rfl rfl rfl rfl

theorem EndsWell.finish {result : Option Failure × Session Recorder} (h : EndsWell result) :
    (finish result).1 ≠ .error .crossed ∧ (finish result).2.Sound := by
  obtain ⟨_ | why, s⟩ := result
  · refine ⟨?_, (Sound.settling h).sound_settle.announce⟩
    intro crossed
    cases crossed
  · refine ⟨?_, h.2⟩
    intro crossed
    exact h.1 (Except.error.inj crossed)

end Session

end ModalEditor

import Mathlib.Data.List.Forall2
import ModalEditor.Proofs.Events
import ModalEditor.Proofs.FlatPage
import ModalEditor.Proofs.ShownLines
import ModalEditor.Proofs.Soundness

/-! # Two hosts that behave alike

On a text that only line feeds break, an engine does not tell a host that keeps its caret wherever
it is told from one that pulls it into the text. Where a command has put the caret past the end of a
line, because clusters have merged, settling brings both carets to the same cluster.
-/

namespace ModalEditor

namespace Page

variable {page : Page} {p : Position}

theorem clamp_of_line_lt (h : p.line < page.length) :
    page.clamp p = ⟨p.line, min p.col (page.width p.line)⟩ := by
  have inside : min p.line page.lastLine = p.line := by
    rw [lastLine]
    omega
  simp only [clamp, inside]

end Page

/-- The host makes every edit that the text allows. -/
structure Recorder.Compliant (r : Recorder) : Prop where
  writable : r.buffer.readOnly = false
  unplanned : r.planned = none

theorem Recorder.Compliant.perform {r : Recorder} (h : r.Compliant) {e : Edit} {d : Document}
    (made : r.buffer.document.edit Text.dropFeed OpenBuffer.reach e = .ok d) :
    Host.perform e r =
      (none, { r with edits := r.edits ++ [e], buffer := { r.buffer with document := d } }) := by
  obtain ⟨writable, unplanned⟩ := h
  simp only [Host.perform, Recorder.perform, unplanned, Recorder.pass, OpenBuffer.perform, writable,
    Bool.false_eq_true, if_false, made]

namespace Session

variable {s : Session Recorder} {t : Session ClampedBuffer} {g : Cluster} {gs : List Cluster}

/-- Both engines are in the same state and both hosts hold the same text. The caret of the one is
that of the other, pulled into the text. -/
structure Mirrors (s : Session Recorder) (t : Session ClampedBuffer) : Prop where
  engine : t.engine = s.engine
  text : t.host.document.text = s.host.buffer.document.text
  caret : t.host.document.caret = (Host.page s.host).clamp (Host.caret s.host)
  compliant : s.host.Compliant

theorem Mirrors.page (h : Mirrors s t) (tidy : s.Tidy) : Host.page t.host = Host.page s.host := by
  have same : t.host.document.page Text.dropFeed =
      s.host.buffer.document.page Text.dropFeed := by
    rw [Document.page, h.text]
    rfl
  rw [Recorder.page_of_shown tidy.shown, ← same]
  exact Document.page_dropReturns (h.text ▸ tidy.text)

/-- As long as the caret is on the page both hosts hold the same document. -/
theorem Mirrors.document (h : Mirrors s t) (standing : s.Standing) :
    t.host.document = s.host.buffer.document := by
  have caret := h.caret
  rw [Page.clamp_of_holds standing.caret] at caret
  exact (Document.mk.injEq ..).mpr ⟨h.text, caret⟩

/-! ## Settling -/

theorem Mirrors.overhangs (h : Mirrors s t) (settling : s.Settling) :
    t.Overhangs ↔ s.Overhangs := by
  have free : Host.hasSelection s.host = Host.hasSelection t.host := by
    simp [Host.hasSelection, settling.free]
  have caret : Host.caret t.host = (Host.page s.host).clamp (Host.caret s.host) := h.caret
  rw [Overhangs, Overhangs, h.engine, h.page settling.toTidy, caret,
    Page.clamp_of_line_lt settling.caret.1, free]
  simp only [Nat.le_min, Nat.le_refl, and_true]

theorem Mirrors.settle (h : Mirrors s t) (settling : s.Settling) : Mirrors s.settle t.settle := by
  have hanging := h.overhangs settling
  by_cases hangs : s.Overhangs
  · have page : t.host.page = Host.page s.host := h.page settling.toTidy
    have caret : Host.caret t.host = (Host.page s.host).clamp (Host.caret s.host) := h.caret
    rw [settle_of_overhangs hangs, settle_of_overhangs (hanging.mpr hangs), h.page settling.toTidy,
      caret, Page.clamp_of_line_lt settling.caret.1]
    refine ⟨h.engine, h.text, ?_, ⟨h.compliant.writable, h.compliant.unplanned⟩⟩
    rw [FreeCaret.page_moveCaret, FreeCaret.caret_moveCaret, ← page]
    rfl
  · rw [settle_of_not_overhangs hangs, settle_of_not_overhangs (mt hanging.mp hangs)]
    exact h

/-! ## One cluster -/

/-- A command has the engine go on alike, whatever the host. -/
theorem engine_carryOut_congr {β γ : Type} [Host β] [Host γ] {s : Session β} {t : Session γ}
    (h : t.engine = s.engine) (effect : Effect) (host : β) (host' : γ) :
    (t.carryOut effect host').engine = (s.carryOut effect host).engine := by
  simp only [carryOut, commit, h]

theorem Mirrors.view (h : Mirrors s t) (standing : s.Standing) : t.view = s.view := by
  have caret : Host.caret t.host = Host.caret s.host :=
    congrArg Document.caret (h.document standing)
  simp only [Session.view, h.engine, h.page standing.toTidy, caret]

theorem mirrors_of_landing {effect : Effect} {landing : Landing} {r : Recorder} {b : ClampedBuffer}
    (engine : t.engine = s.engine) (hcaret : effect.caret = some landing)
    (text : b.document.text = r.buffer.document.text) (page : Host.page b = Host.page r)
    (compliant : r.Compliant) : Mirrors (s.carryOut effect r) (t.carryOut effect b) := by
  have host : (s.carryOut effect r).host = Host.moveCaret landing.position r := by
    rw [host_carryOut, hcaret]
  have host' : (t.carryOut effect b).host = Host.moveCaret landing.position b := by
    rw [host_carryOut, hcaret]
  refine ⟨engine_carryOut_congr engine .., ?_, ?_, ?_⟩
  · rw [host, host']
    exact text
  · rw [host, host', FreeCaret.page_moveCaret, FreeCaret.caret_moveCaret, ← page]
    rfl
  · rw [host]
    exact ⟨compliant.writable, compliant.unplanned⟩

theorem Mirrors.carryOut_unedited (h : Mirrors s t) (standing : s.Standing) (effect : Effect) :
    Mirrors (s.carryOut effect s.host) (t.carryOut effect t.host) := by
  cases hcaret : effect.caret with
  | some landing =>
    exact mirrors_of_landing h.engine hcaret h.text (h.page standing.toTidy) h.compliant
  | none =>
    have host : (s.carryOut effect s.host).host = s.host := by rw [host_carryOut, hcaret]
    have host' : (t.carryOut effect t.host).host = t.host := by rw [host_carryOut, hcaret]
    refine ⟨engine_carryOut_congr h.engine .., ?_, ?_, ?_⟩
    · rw [host, host']
      exact h.text
    · rw [host, host']
      exact h.caret
    · rw [host]
      exact h.compliant

/-- An edit that the text allows is made by both hosts, with the same text and caret after it. -/
theorem Mirrors.performed {edit : Edit} {d : Document} (h : Mirrors s t) (standing : s.Standing)
    (made : s.host.buffer.document.edit Text.dropFeed OpenBuffer.reach edit = .ok d)
    (apart : ∀ text count, edit = .retype text count → (Host.caret s.host).col = 0 → count = 0) :
    ∃ r, Host.perform edit s.host = (none, r) ∧ Host.perform edit t.host = (none, ⟨d⟩) ∧
      r.buffer.document = d ∧ r.hidesLines = false ∧ r.Compliant := by
  have made' : t.host.document.edit Text.dropReturns ClampedBuffer.reach edit = .ok d := by
    rw [h.document standing, Document.edit_dropReturns standing.text apart, made]
  exact ⟨_, h.compliant.perform made, ClampedBuffer.perform_of_made made', rfl, standing.shown,
    ⟨h.compliant.writable, h.compliant.unplanned⟩⟩

theorem Mirrors.carryOut_edited {effect : Effect} {edit : Edit} (h : Mirrors s t)
    (standing : s.Standing) (fits : effect.Fits (Host.page s.host))
    (hedit : effect.edit = some edit) :
    ∃ r b, Host.perform edit s.host = (none, r) ∧ Host.perform edit t.host = (none, b) ∧
      Mirrors (s.carryOut effect r) (t.carryOut effect b) := by
  have apart : ∀ text count, edit = .retype text count →
      (Host.caret s.host).col = 0 → count = 0 := by
    rintro text count rfl
    cases fits with
    | stays none => cases none.symm.trans hedit
    | deletes some | insertsChars some | insertsLines some | replaces some =>
      cases some.symm.trans hedit
  rw [Recorder.page_of_shown standing.shown] at fits
  obtain ⟨d, made, clean, landing, hcaret, -⟩ := fits.lands standing.text hedit
  obtain ⟨r, performed, performed', document, shown, compliant⟩ := h.performed standing made apart
  refine ⟨r, ⟨d⟩, performed, performed', mirrors_of_landing h.engine hcaret ?_ ?_ compliant⟩
  · rw [document]
  · rw [Recorder.page_of_shown shown, document]
    exact Document.page_dropReturns clean

theorem Mirrors.pressed (h : Mirrors s t) (standing : s.Standing)
    (hg : clusters g = [g]) (clean : Text.OnlyFeeds g)
    (arg : g = ['\n'] → (splitCount s.engine.pending).rest ≠ ['r']) :
    ∃ s' t', s.press g = (none, s') ∧ t.press g = (none, t') ∧ Mirrors s' t' := by
  have reading : t.reading g = s.reading g := by simp only [Session.reading, h.engine]
  have kept : ∀ engine, Mirrors ⟨engine, s.host⟩ ⟨engine, t.host⟩ := fun engine =>
    ⟨rfl, h.text, h.caret, h.compliant⟩
  rw [press_eq, press_eq, reading, h.view standing, h.engine]
  cases hr : s.reading g with
  | needsMore | invalid => exact ⟨_, _, rfl, rfl, kept _⟩
  | complete command =>
    simp only
    cases he : command.effect? s.view with
    | none => exact ⟨_, _, rfl, rfl, kept _⟩
    | some effect =>
      simp only
      cases hedit : effect.edit with
      | none => exact ⟨_, _, rfl, rfl, h.carryOut_unedited standing effect⟩
      | some edit =>
        obtain ⟨fits, -⟩ := standing.effect_fits hg clean arg hr he
        obtain ⟨r, b, made, made', mirrors⟩ := h.carryOut_edited standing fits hedit
        simp only [made, made']
        exact ⟨_, _, rfl, rfl, mirrors⟩

/-! ## Text in insert mode -/

theorem Mirrors.typed {edit : Edit} (h : Mirrors s t) (standing : s.Standing)
    (insert : s.engine.mode = .insert) (types : Types edit s.host.buffer.document)
    (apart : ∀ text count, edit = .retype text count → (Host.caret s.host).col = 0 → count = 0) :
    ∃ s' t', s.perform edit = (none, s') ∧ t.perform edit = (none, t') ∧ Mirrors s' t' ∧
      s'.Standing := by
  have ends := (standing.sound insert).typed insert types
  obtain ⟨start, stop, new, made, -⟩ := types
  obtain ⟨r, performed, performed', document, shown, compliant⟩ := h.performed standing made apart
  have sound : Sound { s with host := r } := by
    simp only [perform, performed] at ends
    exact ends
  refine ⟨_, ⟨t.engine, ⟨s.host.buffer.document.enter start stop new⟩⟩, ?_, ?_, ?_, sound.standing⟩
  · simp only [perform, performed]
  · simp only [perform, performed']
  · refine ⟨h.engine, ?_, ?_, compliant⟩
    · rw [document]
    · rw [Page.clamp_of_holds sound.standing.caret]
      simp only [Host.caret, document]

/-- Both sessions take clusters alike, and neither fails. -/
theorem Mirrors.feed (h : Mirrors s t) (standing : s.Standing) (hgs : ∀ g ∈ gs, clusters g = [g])
    (clean : ∀ g ∈ gs, Text.OnlyFeeds g) (spared : NoFeedReplaces gs s) :
    ∃ s' t', s.feed gs = (none, s') ∧ t.feed gs = (none, t') ∧ Mirrors s' t' ∧ s'.Settling := by
  induction gs generalizing s t with
  | nil => exact ⟨s, t, rfl, rfl, h, standing.settling⟩
  | cons g gs ih =>
    cases hm : s.engine.mode with
    | insert =>
      rw [feed_cons_of_insert gs hm, feed_cons_of_insert gs (h.engine ▸ hm)]
      have types := (standing.sound hm).types_typeIn (Text.onlyFeeds_flatten.mpr clean)
      obtain ⟨s', t', fed, fed', mirrors, later⟩ := h.typed standing hm types nofun
      exact ⟨s', t', fed, fed', mirrors, later.settling⟩
    | normal =>
      obtain ⟨arg, later⟩ := spared hm
      have hg := hgs g (List.mem_cons_self ..)
      have cleanly := clean g (List.mem_cons_self ..)
      obtain ⟨u, v, hu, hv, mirrors⟩ := h.pressed standing hg cleanly arg
      have settling := standing.pressed hm hg cleanly arg (Pressed.of_eq hu)
      rw [feed_cons_of_pressed gs hm hu, feed_cons_of_pressed gs (h.engine ▸ hm) hv]
      rw [hu] at later
      refine ih (mirrors.settle settling) settling.sound_settle.standing ?_ ?_ (later rfl)
      · intro g' hg'
        exact hgs g' (List.mem_cons_of_mem _ hg')
      · intro g' hg'
        exact clean g' (List.mem_cons_of_mem _ hg')

/-! ## Calls -/

/-- Between calls: the carets are on the page, at the same place. -/
structure InStep (s : Session Recorder) (t : Session ClampedBuffer) : Prop extends Mirrors s t where
  standing : s.Standing

/-- Neither call fails, both answer the same, and the sessions go on in step. -/
structure StaysInStep (a : Answer × Session Recorder) (b : Answer × Session ClampedBuffer) :
    Prop where
  succeeds : a.1.isFailure = false
  answer : b.1 = a.1
  inStep : InStep a.2 b.2

theorem Mirrors.settled (h : Mirrors s t) (settling : s.Settling) : InStep s.settle t.settle :=
  ⟨h.settle settling, settling.sound_settle.standing⟩

theorem InStep.engine_map (h : InStep s t) {f : Engine → Engine} (clean : (f s.engine).Clean) :
    InStep { s with engine := f s.engine } { t with engine := f t.engine } :=
  ⟨⟨congrArg f h.engine, h.text, h.caret, h.compliant⟩,
    ⟨clean, h.standing.text, h.standing.free, h.standing.shown⟩, h.standing.caret⟩

theorem InStep.announce (h : InStep s t) : InStep s.announce.2 t.announce.2 :=
  h.engine_map ⟨h.standing.engine.pending, h.standing.engine.register⟩

theorem InStep.news (h : InStep s t) : t.announce.1 = s.announce.1 :=
  congrArg Engine.news h.engine

theorem Mirrors.finish (h : Mirrors s t) (settling : s.Settling) :
    StaysInStep ((Session.finish (none, s)).map Answer.ofReply id)
      ((Session.finish (none, t)).map Answer.ofReply id) :=
  ⟨rfl, congrArg Answer.signals (h.settled settling).news, (h.settled settling).announce⟩

theorem InStep.typeText {text : Text} (h : InStep s t) (clean : text.OnlyFeeds)
    (spared : NoFeedReplaces (clusters text) s) :
    StaysInStep ((s.typeText text).map Answer.ofReply id)
      ((t.typeText text).map Answer.ofReply id) := by
  rw [← flatten_clusters text] at clean
  obtain ⟨s', t', fed, fed', mirrors, settling⟩ := h.feed h.standing
    (fun g => clusters_of_mem) (Text.onlyFeeds_flatten.mp clean) spared
  rw [Session.typeText, Session.typeText, fed, fed']
  exact mirrors.finish settling

theorem InStep.retype {text : Text} {count : Nat} (h : InStep s t) (clean : text.OnlyFeeds)
    (inside : s.engine.mode = .insert → (Host.caret s.host).col = 0 → count = 0) :
    StaysInStep ((s.retype text count).map Answer.ofReply id)
      ((t.retype text count).map Answer.ofReply id) := by
  rw [Session.retype, Session.retype, h.engine]
  cases hm : s.engine.mode with
  | normal => exact h.toMirrors.finish h.standing.settling
  | insert =>
    have types := (h.standing.sound hm).types_retype count clean
    obtain ⟨s', t', made, made', mirrors, standing⟩ := h.typed h.standing hm types (by
      rintro _ _ ⟨⟩
      exact inside hm)
    simp only [made, made']
    exact mirrors.finish standing.settling

theorem InStep.toNormalMode (h : InStep s t) :
    StaysInStep (s.toNormalMode.map Answer.signals id) (t.toNormalMode.map Answer.signals id) := by
  have entered := h.engine_map (h.standing.engine.enter .normal)
  have settled := entered.toMirrors.settled entered.standing.settling
  exact ⟨rfl, congrArg Answer.signals settled.news, settled.announce⟩

theorem InStep.clearInput (h : InStep s t) :
    StaysInStep (s.clearInput.map Answer.signals id) (t.clearInput.map Answer.signals id) := by
  have dropped := h.engine_map (f := Engine.clearPending) (h.standing.engine.dropped rfl rfl)
  exact ⟨rfl, congrArg Answer.signals dropped.news, dropped.announce⟩

theorem InStep.setSeparators (h : InStep s t) (separators : Separators) :
    InStep (s.setSeparators separators) (t.setSeparators separators) :=
  h.engine_map (f := fun engine => { engine with separators })
    ⟨h.standing.engine.pending, h.standing.engine.register⟩

end Session

open Session

/-- The calls after which only line feeds break the text: they type no other break and replace
nothing by a line feed. In insert mode nothing is replaced from before the start of a line. -/
def Call.Tame (call : Call) (s : Session Recorder) : Prop :=
  match call with
  | typeText text => text.OnlyFeeds ∧ NoFeedReplaces (clusters text) s
  | retype text count =>
    text.OnlyFeeds ∧ (s.engine.mode = .insert → (Host.caret s.host).col = 0 → count = 0)
  | toNormalMode | clearInput | settle | setSeparators _ => True

instance Call.Tame.decidable (call : Call) (s : Session Recorder) : Decidable (call.Tame s) :=
  match call with
  | .typeText _ | .retype _ _ => inferInstanceAs (Decidable (_ ∧ _))
  | .toNormalMode | .clearInput | .settle | .setSeparators _ => .isTrue trivial

def TameCalls : List Call → Session Recorder → Prop
  | [], _ => True
  | call :: rest, s => call.Tame s ∧ TameCalls rest (call.run s).2

instance TameCalls.decidable :
    (calls : List Call) → (s : Session Recorder) → Decidable (TameCalls calls s)
  | [], _ => .isTrue trivial
  | call :: rest, s =>
    have := decidable rest (call.run s).2
    inferInstanceAs (Decidable (_ ∧ _))

variable {s : Session Recorder} {t : Session ClampedBuffer}

theorem Call.staysInStep_run {call : Call} (h : InStep s t) (tame : call.Tame s) :
    StaysInStep (call.run s) (call.run t) := by
  cases call with
  | typeText text => exact h.typeText tame.1 tame.2
  | retype text count => exact h.retype tame.1 tame.2
  | toNormalMode => exact h.toNormalMode
  | clearInput => exact h.clearInput
  | settle => exact ⟨rfl, rfl, h.toMirrors.settled h.standing.settling⟩
  | setSeparators separators => exact ⟨rfl, rfl, h.setSeparators separators⟩

theorem staysInStep_callHistory {calls : List Call} (h : InStep s t) (tame : TameCalls calls s) :
    List.Forall₂ StaysInStep (callHistory calls s) (callHistory calls t) := by
  induction calls generalizing s t with
  | nil => exact .nil
  | cons call rest ih =>
    have first := Call.staysInStep_run h tame.1
    exact .cons first (ih first.inStep tame.2)

/-- Neither call fails and both answer the same. The engines are in the same state after them, and
the hosts hold the same text and caret. -/
structure SameOutcome (a : Answer × Session Recorder) (b : Answer × Session ClampedBuffer) :
    Prop where
  succeeds : a.1.isFailure = false
  answer : b.1 = a.1
  engine : b.2.engine = a.2.engine
  document : b.2.host.document = a.2.host.buffer.document

/-- Through any tame calls both hosts answer the same and hold the same text and caret. -/
theorem hosts_agree (config : Config) (text : Text) (caret : Position) (calls : List Call)
    (clean : text.OnlyFeeds)
    (valid : ((⟨text, caret⟩ : Document).page Text.dropFeed).Holds caret)
    (tame : TameCalls calls ⟨.ofConfig config, { buffer := .ofText text caret }⟩) :
    List.Forall₂ SameOutcome
      (callHistory calls ⟨.ofConfig config, { buffer := .ofText text caret }⟩)
      (callHistory calls ⟨.ofConfig config, ⟨⟨text, caret⟩⟩⟩) := by
  have start : InStep ⟨.ofConfig config, { buffer := .ofText text caret }⟩
      ⟨.ofConfig config, ⟨⟨text, caret⟩⟩⟩ :=
    ⟨⟨rfl, rfl, (Page.clamp_of_holds valid).symm, ⟨rfl, rfl⟩⟩,
      ⟨Engine.clean_ofConfig config, clean, rfl, rfl⟩, valid⟩
  refine List.Forall₂.imp (fun _ _ h => ?_) (staysInStep_callHistory start tame)
  exact ⟨h.succeeds, h.answer, h.inStep.engine, h.inStep.toMirrors.document h.inStep.standing⟩

theorem hosts_agree_over_merged_clusters :
    let text := "abcd\nx\u0301\ny".toList
    let start : Session Recorder := ⟨.ofConfig {}, { buffer := .ofText text .zero }⟩
    let start' : Session ClampedBuffer := ⟨.ofConfig {}, ⟨⟨text, .zero⟩⟩⟩
    let calls : List Call := [.typeText "4r\u1100".toList, .typeText "x2p".toList,
      .typeText "aä\nb".toList, .retype "c".toList 1, .setSeparators "x".toList,
      .toNormalMode, .typeText "j2x3".toList, .clearInput, .settle, .typeText "ddp".toList]
    Host.caret ((start.feed (clusters "4r".toList)).2.press "\u1100".toList).2.host = ⟨0, 3⟩ ∧
      List.Forall₂ SameOutcome (callHistory calls start) (callHistory calls start') :=
  ⟨by decide +kernel, hosts_agree {} _ _ _ (by decide) ⟨by decide, by decide⟩ (by decide +kernel)⟩

end ModalEditor

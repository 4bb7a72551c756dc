import ModalEditor.Proofs.FreeCaret
import ModalEditor.Proofs.Picture

/-! # Keys in one call or in two

Between two calls the caret is settled once more and the host is told the news. Neither makes a
difference to the keys that follow, so it does not matter how keys are divided into calls.
-/

namespace ModalEditor.Session

section Retell

variable {β : Type} (style : CaretStyle) (context : Context) (extra : Nat)

/-- The session had its host been told something else and had it more beeps to sound. -/
def retell (s : Session β) : Session β :=
  { s with
    engine := { s.engine with
      toldStyle := style, toldContext := context, beeps := s.engine.beeps + extra } }

theorem reject_retell (s : Session β) :
    ({ s.retell style context extra with
        engine := (s.retell style context extra).engine.reject } : Session β) =
      ({ s with engine := s.engine.reject } : Session β).retell style context extra := by
  simp only [retell, Engine.reject, Nat.add_right_comm]

variable [Host β]

theorem settle_retell (s : Session β) :
    (s.retell style context extra).settle = s.settle.retell style context extra := by
  simp only [retell, engine_settle]
  exact settle_with rfl

theorem carryOut_retell (effect : Effect) (host : β) (s : Session β) :
    (s.retell style context extra).carryOut effect host =
      (s.carryOut effect host).retell style context extra := by
  by_cases inserts : effect.inserts = true
  · by_cases already : s.engine.mode = .insert <;>
      simp [carryOut, commit, retell, Engine.enter, Engine.clearPending, inserts, already]
  · simp [carryOut, commit, retell, Engine.clearPending, inserts]

theorem press_retell (g : Cluster) (s : Session β) :
    (s.retell style context extra).press g =
      (s.press g).map id (retell style context extra) := by
  have reading : (s.retell style context extra).reading g = s.reading g := rfl
  have view : (s.retell style context extra).view = s.view := rfl
  have host : (s.retell style context extra).host = s.host := rfl
  rw [press_eq, press_eq, reading, view, host]
  cases s.reading g with
  | needsMore => rfl
  | invalid => exact congrArg (Prod.mk none) (reject_retell style context extra s)
  | complete command =>
    simp only
    cases command.effect? s.view with
    | none => exact congrArg (Prod.mk none) (reject_retell style context extra s)
    | some effect =>
      simp only
      cases effect.edit with
      | none => exact congrArg (Prod.mk none) (carryOut_retell style context extra effect s.host s)
      | some edit =>
        simp only
        rcases Host.perform edit s.host with ⟨_ | why, made⟩
        · exact congrArg (Prod.mk none) (carryOut_retell style context extra effect made s)
        · rfl

theorem feed_retell (gs : List Cluster) (s : Session β) :
    (s.retell style context extra).feed gs = (s.feed gs).map id (retell style context extra) := by
  induction gs generalizing s with
  | nil => rfl
  | cons g gs ih =>
    cases hm : s.engine.mode with
    | insert =>
      rw [feed_cons_of_insert gs hm, feed_cons_of_insert (s := s.retell ..) gs hm]
      rfl
    | normal =>
      have pressed := press_retell style context extra g s
      rcases hp : s.press g with ⟨_ | why, t⟩
      · rw [hp] at pressed
        rw [feed_cons_of_pressed gs hm hp, feed_cons_of_pressed (s := s.retell ..) gs hm pressed,
          settle_retell, ih]
      · rw [hp] at pressed
        rw [feed_cons_of_refused gs hm hp, feed_cons_of_refused (s := s.retell ..) gs hm pressed]
        rfl

end Retell

theorem pictured_feed {β : Type} [Host β] (gs : List Cluster) (s : Session β) :
    (s.feed gs).2.engine.pictured = s.engine.pictured := by
  have same := feed_retell s.engine.toldStyle s.engine.toldContext 0 gs s
  have fed := congrArg (fun result => result.2.engine.pictured) same
  exact fed

structure Agree {β : Type} (s t : Session β) : Prop where
  host : s.host = t.host
  mode : s.engine.mode = t.engine.mode
  pending : s.engine.pending = t.engine.pending
  aim : s.engine.aim = t.engine.aim
  separators : s.engine.separators = t.engine.separators
  register : s.engine.register = t.engine.register

/-- What a host that knew the session before makes of a reply: how many beeps it heard and its
picture of the engine, or why the call failed. -/
def heard {β : Type} (s : Session β) (before : List Signal) : Reply → Except Failure (Nat × Picture)
  | .ok signals =>
    .ok ((before ++ signals).count .beep, s.engine.pictured.hearAll (before ++ signals))
  | .error why => .error why

theorem retell_announce {β : Type} (s : Session β) :
    s.announce.2.retell s.engine.toldStyle s.engine.toldContext s.engine.beeps = s := by
  simp only [announce, Engine.told, retell, Nat.zero_add]

theorem pictured_announce {β : Type} (s : Session β) :
    s.announce.2.engine.pictured = s.engine.shown := rfl

theorem pictured_retell {β : Type} (style : CaretStyle) (context : Context) (extra : Nat)
    (s : Session β) : (s.retell style context extra).engine.pictured = ⟨style, context⟩ := rfl

theorem announce_fst {β : Type} (s : Session β) : s.announce.1 = s.engine.news := rfl

/-- What a successful call adds to the picture of a host that heard all before it. -/
theorem heard_ok {β : Type} {s t : Session β} {before : List Signal}
    (h : s.engine.pictured.hearAll before = t.engine.pictured) :
    s.heard before (.ok t.engine.news) =
      .ok (before.count .beep + t.engine.beeps, t.engine.shown) := by
  rw [heard, List.count_append, Engine.count_beep_news, Picture.hearAll_append, h,
    Engine.hearAll_news]

/-- Keys may be given in one call or in two, as long as no cluster is torn and the first part is
taken as commands. -/
theorem typeText_append {s t : Session Recorder} {a b : Text} {first : List Signal}
    (whole : clusters (a ++ b) = clusters a ++ clusters b) (ne : a ≠ [])
    (still : (s.feed (clusters a).dropLast).2.engine.mode = .normal)
    (h : s.typeText a = (.ok first, t)) :
    Agree (s.typeText (a ++ b)).2 (t.typeText b).2 ∧
      s.heard [] (s.typeText (a ++ b)).1 = s.heard first (t.typeText b).1 := by
  obtain ⟨u, hu, told⟩ := typeText_ok h
  have nonempty : clusters a ≠ [] := by
    intro none'
    exact ne (by rw [← flatten_clusters a, none', List.flatten_nil])
  obtain ⟨⟨v, rfl⟩, later⟩ := feed_append nonempty still hu
  rw [settle_settle] at told
  obtain ⟨rfl, rfl⟩ : v.settle.engine.news = first ∧ v.settle.announce.2 = t := Prod.mk.inj told
  generalize v.settle = v at hu later
  have before : s.engine.pictured = v.engine.pictured := by rw [← pictured_feed (clusters a) s, hu]
  have once : s.feed (clusters (a ++ b)) = (v.announce.2.feed (clusters b)).map id
      (retell v.engine.toldStyle v.engine.toldContext v.engine.beeps) := by
    rw [whole, later, ← feed_retell, retell_announce]
  have after := pictured_feed (clusters b) v.announce.2
  simp only [typeText, once]
  rcases hw : v.announce.2.feed (clusters b) with ⟨_ | why, w⟩
  · rw [hw, pictured_announce, ← engine_settle w] at after
    let one := w.settle.retell v.engine.toldStyle v.engine.toldContext v.engine.beeps
    have heardOne : s.heard [] (.ok one.engine.news) = _ :=
      heard_ok (before.trans (pictured_retell ..).symm)
    have heardTwo : s.heard v.engine.news (.ok w.settle.engine.news) = _ :=
      heard_ok (by rw [before, Engine.hearAll_news, after])
    simp only [Prod.map, id, finish, settle_retell, announce_fst]
    refine ⟨⟨rfl, rfl, rfl, rfl, rfl, rfl⟩, heardOne.trans (Eq.trans ?_ heardTwo.symm)⟩
    rw [Engine.count_beep_news, List.count_nil, Nat.zero_add]
    exact congrArg (fun beeps => Except.ok (beeps, w.settle.engine.shown)) (Nat.add_comm ..)
  · exact ⟨⟨rfl, rfl, rfl, rfl, rfl, rfl⟩, rfl⟩

theorem typeText_append_of_pending_count :
    let s : Session Recorder :=
      ⟨.ofConfig {}, { buffer := .ofText "one two".toList .zero, planned := some ⟨2, .readOnly⟩ }⟩
    let t := (s.typeText "x2".toList).2
    (t.typeText "dwiab".toList).1 = .error (.refused .readOnly) ∧
      Agree (s.typeText ("x2".toList ++ "dwiab".toList)).2 (t.typeText "dwiab".toList).2 ∧
      s.heard [] (s.typeText ("x2".toList ++ "dwiab".toList)).1 =
        s.heard [.context ⟨true, true⟩] (t.typeText "dwiab".toList).1 :=
  ⟨rfl, typeText_append (by decide) (by decide) rfl rfl⟩

end ModalEditor.Session

import ModalEditor.Engine

/-! # The host's picture of an engine

A host draws the caret and binds keys by the signals that it has been sent. What an engine holds to
have told is the picture of a host that heard everything.
-/

namespace ModalEditor

/-- The shape of the caret and the context as far as a host knows. -/
structure Picture where
  style : CaretStyle
  context : Context
  deriving DecidableEq, Repr

namespace Picture

def hear (picture : Picture) : Signal → Picture
  | .beep => picture
  | .style style => { picture with style }
  | .context context => { picture with context }

def hearAll (picture : Picture) (signals : List Signal) : Picture :=
  signals.foldl hear picture

theorem hearAll_append (picture : Picture) (a b : List Signal) :
    picture.hearAll (a ++ b) = (picture.hearAll a).hearAll b :=
  List.foldl_append

theorem hearAll_beeps (picture : Picture) (n : Nat) :
    picture.hearAll (List.replicate n .beep) = picture := by
  induction n with
  | zero => rfl
  | succ n ih => exact ih

theorem hearAll_style (told style : CaretStyle) (context : Context) :
    hearAll ⟨told, context⟩ (if style = told then [] else [.style style]) = ⟨style, context⟩ := by
  by_cases h : style = told <;> simp [h, hearAll, hear]

theorem hearAll_context (style : CaretStyle) (told context : Context) :
    hearAll ⟨style, told⟩ (if context = told then [] else [.context context]) =
      ⟨style, context⟩ := by
  by_cases h : context = told <;> simp [h, hearAll, hear]

end Picture

namespace Engine

/-- The picture of a host that was told what the engine holds to have told. -/
def pictured (engine : Engine) : Picture :=
  ⟨engine.toldStyle, engine.toldContext⟩

def shown (engine : Engine) : Picture :=
  ⟨engine.style, engine.context⟩

theorem hearAll_news (engine : Engine) : engine.pictured.hearAll engine.news = engine.shown := by
  rw [news, Picture.hearAll_append, Picture.hearAll_append, Picture.hearAll_beeps, pictured,
    Picture.hearAll_style, Picture.hearAll_context, shown]

theorem count_beep_news (engine : Engine) : engine.news.count .beep = engine.beeps := by
  have style : (if engine.style = engine.toldStyle then [] else [Signal.style engine.style]).count
      .beep = 0 := by split <;> simp
  have context : (if engine.context = engine.toldContext then []
      else [Signal.context engine.context]).count .beep = 0 := by split <;> simp
  rw [news, List.count_append, List.count_append, style, context, List.count_replicate_self,
    Nat.add_zero]

end Engine

end ModalEditor

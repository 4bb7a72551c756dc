import ModalEditor.Buffer.Open
import ModalEditor.Proofs.KeyReader
import ModalEditor.Proofs.Pressing

/-! # A session reads keys once

What a session makes of each cluster that it interprets, over any number of calls, is what a key
reader makes of the same clusters.
-/

namespace ModalEditor.Session

open KeyReader

variable {β : Type} [Host β] {s t : Session β} {r : KeyReader}

/-- What a session takes clusters for, up to the first that it does not interpret because the mode
has changed or an edit was not made. -/
def readings : List Cluster → Session β → List (Parse Command)
  | [], _ => []
  | g :: rest, s =>
    if s.engine.mode = .insert then []
    else s.reading g ::
      match s.press g with
      | (some _, _) => []
      | (none, s) => readings rest s.settle

def readingsOfCalls : List Text → Session β → List (Parse Command)
  | [], _ => []
  | text :: calls, s =>
    s.readings (clusters text) ++
      match s.typeText text with
      | (.error _, _) => []
      | (.ok _, s) => if s.engine.mode = .insert then [] else readingsOfCalls calls s

/-- The session is in normal mode and the reader stands for its pending keys. -/
structure ReadBy (r : KeyReader) (s : Session β) : Prop where
  normal : s.engine.mode = .normal
  reads : Reads r s.engine.pending

theorem readBy_press {g : Cluster} (h : s.ReadBy r) (hg : clusters g = [g])
    (hp : s.press g = (none, t)) (normal : t.engine.mode = .normal) :
    t.ReadBy (r.read g).2 := by
  have said : s.reading g = (r.read g).1 := parse_append h.reads hg
  refine ⟨normal, ?_⟩
  rcases keeps_read h.reads g with ⟨more, reads⟩ | ⟨done, start⟩
  · rw [← said] at more
    cases Pressed.of_eq hp with
    | waits _ ht => rw [ht]; exact reads
    | unread hr | unable hr | unedited hr | edited hr => rw [hr] at more; cases more
  · rw [← said] at done
    rw [start]
    cases Pressed.of_eq hp with
    | waits hr => exact absurd hr done
    | unread _ ht | unable _ _ ht => rw [ht]; exact reads_start
    | unedited _ _ _ ht | edited _ _ _ _ ht => rw [ht]; exact reads_start

theorem readBy_settle (h : s.ReadBy r) : s.settle.ReadBy r :=
  ⟨by rw [engine_settle]; exact h.normal, by rw [engine_settle]; exact h.reads⟩

/-- One call: the readings agree, and the reader keeps up with a session that stays in normal
mode. -/
theorem readings_prefix {gs : List Cluster} (h : s.ReadBy r) (hg : ∀ g ∈ gs, clusters g = [g]) :
    s.readings gs <+: r.readAll gs ∧
      ∀ t, s.feed gs = (none, t) → t.engine.mode = .normal →
        s.readings gs = r.readAll gs ∧ t.ReadBy (r.after gs) := by
  induction gs generalizing s r with
  | nil =>
    refine ⟨List.prefix_refl _, ?_⟩
    rintro t ht -
    obtain rfl : s = t := (Prod.mk.inj ht).2
    exact ⟨rfl, h⟩
  | cons g gs ih =>
    have whole : clusters g = [g] := hg g (List.mem_cons_self ..)
    have said : s.reading g = (r.read g).1 := parse_append h.reads whole
    have others : ∀ g' ∈ gs, clusters g' = [g'] := fun g' h' => hg g' (List.mem_cons_of_mem _ h')
    rcases hp : s.press g with ⟨_ | why, u⟩
    · have unfolded : s.readings (g :: gs) = (r.read g).1 :: u.settle.readings gs := by
        simp [readings, h.normal, hp, said]
      rw [unfolded, feed_cons_of_pressed gs h.normal hp, readAll, List.cons_prefix_cons]
      cases hm : u.engine.mode with
      | normal =>
        obtain ⟨before, same⟩ := ih (readBy_settle (readBy_press h whole hp hm)) others
        refine ⟨⟨rfl, before⟩, fun t ht normal => ?_⟩
        obtain ⟨all, reads⟩ := same t ht normal
        exact ⟨by rw [all], reads⟩
      | insert =>
        have mode : u.settle.engine.mode = .insert := by rw [engine_settle]; exact hm
        have stopped : u.settle.readings gs = [] := by cases gs <;> simp [readings, mode]
        refine ⟨⟨rfl, by rw [stopped]; exact List.nil_prefix⟩, fun t ht normal => ?_⟩
        have kept : t.engine.mode = .insert := by
          cases gs with
          | nil =>
            obtain rfl : u.settle = t := (Prod.mk.inj ht).2
            exact mode
          | cons g' gs =>
            rw [feed_cons_of_insert gs mode] at ht
            rw [← mode, ← engine_perform (.typeIn (g' :: gs).flatten) u.settle, ht]
        rw [kept] at normal
        cases normal
    · have unfolded : s.readings (g :: gs) = [(r.read g).1] := by
        simp [readings, h.normal, hp, said]
      rw [unfolded, feed_cons_of_refused gs h.normal hp, readAll, List.cons_prefix_cons]
      refine ⟨⟨rfl, List.nil_prefix⟩, fun t ht _ => ?_⟩
      cases (Prod.mk.inj ht).1

theorem readAll_append (r : KeyReader) (a b : List Cluster) :
    r.readAll (a ++ b) = r.readAll a ++ (r.after a).readAll b := by
  induction a generalizing r with
  | nil => rfl
  | cons g a ih => simp [readAll, ih, KeyReader.after]

/-- In normal mode with nothing pending, a session takes each cluster for what a key reader takes
it for that has seen the clusters before it, whichever calls they came in. -/
theorem readingsOfCalls_prefix_readAll (s : Session β) (normal : s.engine.mode = .normal)
    (idle : s.engine.pending = []) (calls : List Text) :
    s.readingsOfCalls calls <+: KeyReader.start.readAll (calls.flatMap clusters) := by
  have readBy : s.ReadBy KeyReader.start := ⟨normal, by rw [idle]; exact reads_start⟩
  clear normal idle
  generalize KeyReader.start = r at readBy ⊢
  induction calls generalizing s r with
  | nil => exact List.prefix_refl _
  | cons text calls ih =>
    have whole : ∀ g ∈ clusters text, clusters g = [g] := fun g hg => clusters_of_mem hg
    obtain ⟨before, same⟩ := readings_prefix readBy whole
    rw [List.flatMap_cons, readAll_append, readingsOfCalls]
    split
    · rw [List.append_nil]
      exact before.trans (List.prefix_append ..)
    · next signals t ht =>
      obtain ⟨u, hu, told⟩ := typeText_ok ht
      obtain rfl : u.settle.announce.2 = t := congrArg Prod.snd told
      split
      · rw [List.append_nil]
        exact before.trans (List.prefix_append ..)
      · next still =>
        have normal : u.engine.mode = .normal := by
          have kept : u.settle.announce.2.engine.mode = u.engine.mode := by
            rw [← engine_settle u]; rfl
          rw [kept] at still
          cases hm : u.engine.mode with
          | normal => rfl
          | insert => exact absurd hm still
        obtain ⟨all, reads⟩ := same u hu normal
        rw [all]
        refine (List.prefix_append_right_inj _).mpr (ih _ _ ?_)
        have settled := readBy_settle reads
        exact ⟨settled.normal, settled.reads⟩

theorem readings_of_huge_count :
    let s : Session OpenBuffer := ⟨.ofConfig {}, .ofText "one\ntwo".toList .zero⟩
    let calls := ["9999999999d".toList, "3d".toList]
    s.readingsOfCalls calls =
        List.replicate 12 .needsMore ++ [.complete (.delete (.lines 4294967295))] ∧
      s.readingsOfCalls calls <+: KeyReader.start.readAll (calls.flatMap clusters) :=
  ⟨by decide, readingsOfCalls_prefix_readAll _ rfl rfl _⟩

end ModalEditor.Session

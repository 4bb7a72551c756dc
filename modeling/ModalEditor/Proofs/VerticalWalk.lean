import ModalEditor.Proofs.CountedKeys

/-! # Vertical walks

Motions up and down, with counts and in any order, lead to a line that the counts tell alone: each
is added or taken away in turn, as far as there are lines. The column is the one that is aimed for,
as far as the line goes, and short lines in between leave no trace.
-/

namespace ModalEditor

/-- A motion up or down as it is typed: digits that spell its count, if it has one, and its key. -/
structure Climb where
  down : Bool
  digits : Text
  count : Option Nat
  spelled : Spells digits count

namespace Climb

def key (climb : Climb) : Char :=
  if climb.down then 'j' else 'k'

def keys (climb : Climb) : Text :=
  climb.digits ++ [climb.key]

def motion (climb : Climb) : Motion :=
  if climb.down then .down else .up

def times (climb : Climb) : Nat :=
  climb.count.getD 1

def held (climb : Climb) : Nat :=
  min climb.times maxCount

/-- The line that a number of lines lead to from line `l`, with the first and the last as limits. -/
def toward (climb : Climb) (last times l : Nat) : Nat :=
  if climb.down then min (l + times) last else l - times

def lineFrom (last l : Nat) (climb : Climb) : Nat :=
  climb.toward last climb.times l

def heldFrom (last l : Nat) (climb : Climb) : Nat :=
  climb.toward last climb.held l

theorem motion?_key (climb : Climb) : Keys.motion? [climb.key] = some climb.motion := by
  unfold key motion
  split <;> rfl

theorem continuesCount_key (climb : Climb) (count : Option Nat) :
    continuesCount count climb.key = false := by
  unfold key
  split <;> simp [continuesCount]

theorem held_pos (climb : Climb) : 0 < climb.held :=
  Nat.lt_min.mpr ⟨climb.spelled.getD_pos, by decide⟩

theorem plain_keys (climb : Climb) : ∀ c ∈ climb.keys, CharKind.of c = .plain := by
  intro c hc
  rcases List.mem_append.mp hc with digit | key
  · exact of_eq_plain_of_isDigit (climb.spelled.isDigit c digit)
  · rw [List.mem_singleton.mp key]
    exact (Keys.of_eq_plain_of_motion? climb.motion?_key).2

theorem toward_le_last {climb : Climb} {last l : Nat} (h : l ≤ last) (times : Nat) :
    climb.toward last times l ≤ last := by
  unfold toward
  split
  · exact Nat.min_le_right ..
  · exact Nat.le_trans (Nat.sub_le ..) h

theorem toward_succ (climb : Climb) (last l times : Nat) :
    climb.toward last 1 (climb.toward last times l) = climb.toward last (times + 1) l := by
  unfold toward
  split <;> omega

theorem heldFrom_eq {climb : Climb} {last l : Nat} (h : l ≤ last)
    (fits : climb.times ≤ maxCount ∨ last < maxCount) :
    climb.heldFrom last l = climb.lineFrom last l := by
  unfold heldFrom lineFrom toward held
  split <;> omega

theorem foldl_heldFrom {climbs : List Climb} {last l : Nat} (h : l ≤ last)
    (fits : last < maxCount ∨ ∀ climb ∈ climbs, climb.times ≤ maxCount) :
    climbs.foldl (heldFrom last) l = climbs.foldl (lineFrom last) l := by
  induction climbs generalizing l with
  | nil => rfl
  | cons climb climbs ih =>
    have first : climb.times ≤ maxCount ∨ last < maxCount :=
      fits.symm.imp_left fun small => small climb (List.mem_cons_self ..)
    rw [List.foldl_cons, List.foldl_cons, heldFrom_eq h first]
    apply ih (climb.toward_le_last h climb.times)
    exact fits.imp_right fun small climb' later => small climb' (List.mem_cons_of_mem _ later)

end Climb

/-! ## Staying in a column -/

/-- Column `d` of a line or its last cluster, with `d` aimed for. -/
def Page.inColumn (page : Page) (d l : Nat) : Place :=
  ⟨⟨l, min d (max (page.width l) 1 - 1)⟩, some d⟩

/-- The column `d` is aimed for, and the caret is in it or on the last cluster of its line. -/
structure Place.Aligned (page : Page) (d : Nat) (place : Place) : Prop where
  line : place.pos.line < page.length
  aim : place.aim.getD place.pos.col = d
  col : place.pos.col = min d (max (page.width place.pos.line) 1 - 1)

namespace Page

variable {page : Page} {d l : Nat}

theorem pullBack_inColumn (page : Page) (d l : Nat) :
    page.pullBack (page.inColumn d l).pos = (page.inColumn d l).pos := by
  apply pullBack_of_inside
  simp only [inColumn]
  omega

@[simp] theorem line_inColumn (page : Page) (d l : Nat) : (page.inColumn d l).pos.line = l := rfl

theorem aligned_inColumn (h : l < page.length) : (page.inColumn d l).Aligned page d :=
  ⟨h, rfl, rfl⟩

end Page

namespace Place.Aligned

variable {page : Page} {separators : Separators} {place : Place} {d : Nat}

theorem le_lastLine (h : place.Aligned page d) : place.pos.line ≤ page.lastLine :=
  Nat.le_sub_one_of_lt h.line

theorem rests (h : place.Aligned page d) : page.Rests .normal place.pos := by
  refine ⟨h.line, ?_⟩
  have := h.col
  omega

theorem aligned_toward (h : place.Aligned page d) (climb : Climb) (times : Nat) :
    (page.inColumn d (climb.toward page.lastLine times place.pos.line)).Aligned page d := by
  have := h.line
  have within := climb.toward_le_last h.le_lastLine times
  refine Page.aligned_inColumn (Nat.lt_of_le_of_lt within ?_)
  unfold Page.lastLine
  omega

/-- One press takes an aligned place to the next line, if there is one, in the same column. -/
theorem press (h : place.Aligned page d) (climb : Climb) :
    climb.motion.press page separators place =
      page.inColumn d (climb.toward page.lastLine 1 place.pos.line) := by
  obtain ⟨⟨l, c⟩, aim⟩ := place
  obtain ⟨line, rfl, col⟩ := h
  simp only at line col
  -- Where nothing moves the place is in the column already.
  have stays : page.pullBack ⟨l, c⟩ = (page.inColumn (aim.getD c) l).pos := by
    rw [← page.pullBack_inColumn, Page.inColumn, ← col]
  unfold Climb.motion Climb.toward Motion.press Place.pullBack
  split
  · simp only [Motion.step]
    split
    · next below =>
      have next : min (l + 1) page.lastLine = l + 1 := Nat.min_eq_left (Nat.le_sub_one_of_lt below)
      rw [Page.pullBack_min, next]
      rfl
    · next bottom =>
      have same : min (l + 1) page.lastLine = l := by
        unfold Page.lastLine
        omega
      rw [stays, same]
      rfl
  · simp only [Motion.step]
    split
    · rw [Page.pullBack_min]
      rfl
    · next top =>
      obtain rfl : l = 0 := by omega
      rw [stays]
      rfl

theorem pullBack_iterate_step (h : place.Aligned page d) (climb : Climb) {n : Nat} (some : 0 < n) :
    ((climb.motion.step page separators)^[n] place).pullBack page =
      page.inColumn d (climb.toward page.lastLine n place.pos.line) := by
  obtain ⟨n, rfl⟩ := Nat.exists_eq_succ_of_ne_zero (Nat.ne_of_gt some)
  rw [← Motion.iterate_press h.rests]
  induction n with
  | zero => exact h.press climb
  | succ n ih =>
    rw [Function.iterate_succ_apply', ih n.succ_pos,
      (h.aligned_toward climb (n + 1)).press climb, Page.line_inColumn, climb.toward_succ]

end Place.Aligned

/-! ## Walks -/

namespace Session

variable {β : Type} [Host β] {s : Session β} {d : Nat}

theorem aligned_place (ready : s.Ready) (near : ∀ d ∈ s.engine.aim, (Host.caret s.host).col =
      min d (max ((Host.page s.host).width (Host.caret s.host).line) 1 - 1)) :
    s.place.Aligned (Host.page s.host) (s.engine.aim.getD (Host.caret s.host).col) := by
  refine ⟨ready.caret.1, rfl, ?_⟩
  show (Host.caret s.host).col = _
  cases memory : s.engine.aim with
  | none =>
    have := ready.caret.2
    simp only [Option.getD_none, place]
    omega
  | some d => exact near d memory

variable [FreeCaret β]

theorem interprets_climb (ready : s.Ready) (aligned : s.place.Aligned (Host.page s.host) d)
    (climb : Climb) :
    s.Interprets (climb.keys.map fun c => [c])
      (s.arrive ((Host.page s.host).inColumn d
        (climb.heldFrom (Host.page s.host).lastLine (Host.caret s.host).line))) := by
  have moved : s.Interprets ((climb.digits.map fun c => [c]) ++ [[climb.key]])
      (s.arrive (Place.pullBack (Host.page s.host)
        ((climb.motion.step (Host.page s.host) s.engine.separators)^[climb.held] s.place))) :=
    interprets_motion ready climb.spelled (climb.continuesCount_key _) climb.motion?_key
  rw [aligned.pullBack_iterate_step climb climb.held_pos] at moved
  rw [Climb.keys, List.map_append]
  exact moved

/-- Motion after motion: the column that is aimed for stays, and the lines are the only thing that
adds up. -/
theorem interprets_climbs (ready : s.Ready) (aligned : s.place.Aligned (Host.page s.host) d)
    {climbs : List Climb} (some : climbs ≠ []) :
    s.Interprets ((climbs.flatMap Climb.keys).map fun c => [c])
      (s.arrive ((Host.page s.host).inColumn d
        (climbs.foldl (Climb.heldFrom (Host.page s.host).lastLine) (Host.caret s.host).line))) := by
  induction climbs generalizing s with
  | nil => exact absurd rfl some
  | cons climb climbs ih =>
    have first := interprets_climb ready aligned climb
    let next := (Host.page s.host).inColumn d
      (climb.heldFrom (Host.page s.host).lastLine (Host.caret s.host).line)
    have aligned' : next.Aligned (Host.page s.host) d := aligned.aligned_toward climb _
    by_cases last : climbs = []
    · subst last
      rw [List.flatMap_singleton]
      exact first
    · have later := ih (ready_arrive ready.normal aligned'.rests)
        (by rwa [place_arrive, page_arrive]) last
      rw [arrive_arrive, page_arrive, caret_arrive] at later
      rw [List.flatMap_cons, List.map_append, interprets_append]
      exact ⟨_, first, later⟩

theorem typed_walk (ready : s.Ready) (aligned : s.place.Aligned (Host.page s.host) d)
    {climbs : List Climb} (some : climbs ≠ []) {calls : List Text}
    (flat : calls.flatten = climbs.flatMap Climb.keys) :
    s.Typed calls (s.arrive ((Host.page s.host).inColumn d
      (climbs.foldl (Climb.heldFrom (Host.page s.host).lastLine)
        (Host.caret s.host).line))).announce.2 := by
  have plain : ∀ c ∈ climbs.flatMap Climb.keys, CharKind.of c = .plain := by
    intro c hc
    obtain ⟨climb, -, key⟩ := List.mem_flatMap.mp hc
    exact climb.plain_keys c key
  refine Interprets.typed ?_ ready.settled ?_
  · rintro rfl
    obtain ⟨climb, climbs, rfl⟩ := List.exists_cons_of_ne_nil some
    simp [Climb.keys] at flat
  · rw [flatMap_clusters_of_plain (flat ▸ plain), flat]
    exact interprets_climbs ready aligned some

theorem typed_there_and_back (ready : s.Ready) (aligned : s.place.Aligned (Host.page s.host) d)
    {there back : Climb} (down : there.down = true) (up : back.down = false)
    (same : there.times = back.times)
    (below : (Host.caret s.host).line + there.times < (Host.page s.host).length)
    {calls : List Text} (flat : calls.flatten = there.keys ++ back.keys) :
    ∃ t, s.Typed calls t ∧ Host.caret t.host = Host.caret s.host := by
  have walked := typed_walk ready aligned (List.cons_ne_nil there [back]) (by simpa using flat)
  have col : (Host.caret s.host).col =
      min d (max ((Host.page s.host).width (Host.caret s.host).line) 1 - 1) := aligned.col
  have returned : back.heldFrom (Host.page s.host).lastLine
      (there.heldFrom (Host.page s.host).lastLine (Host.caret s.host).line) =
        (Host.caret s.host).line := by
    unfold Climb.heldFrom Climb.toward Climb.held Page.lastLine
    rw [down, up, same]
    simp only [if_true, Bool.false_eq_true, if_false]
    omega
  refine ⟨_, walked, (caret_arrive ..).trans ?_⟩
  rw [List.foldl_cons, List.foldl_cons, List.foldl_nil, returned, Page.inColumn, ← col]

end Session

/-- Motions up and down lead to the line that their counts add up to, in the column that is aimed
for as far as the line goes. -/
theorem Session.typed_climbs {β : Type} [Host β] [FreeCaret β] (s : Session β) (ready : s.Ready)
    (near : ∀ d ∈ s.engine.aim, (Host.caret s.host).col =
      min d (max ((Host.page s.host).width (Host.caret s.host).line) 1 - 1)) :
    let page := Host.page s.host
    let caret := Host.caret s.host
    let d := s.engine.aim.getD caret.col
    (∀ (climbs : List Climb) (calls : List Text), climbs ≠ [] →
      (page.length ≤ maxCount ∨ ∀ climb ∈ climbs, climb.times ≤ maxCount) →
      calls.flatten = climbs.flatMap Climb.keys →
      let line := climbs.foldl (Climb.lineFrom page.lastLine) caret.line
      ∃ t, s.Typed calls t ∧
        t.host = Host.moveCaret ⟨line, min d (max (page.width line) 1 - 1)⟩ s.host ∧
        t.engine.aim = some d ∧ t.engine.register = s.engine.register ∧
        t.engine.mode = .normal ∧ t.engine.pending = []) ∧
    ∀ (there back : Climb) (calls : List Text), there.down = true → back.down = false →
      there.times = back.times → caret.line + there.times < page.length →
      calls.flatten = there.keys ++ back.keys →
      ∃ t, s.Typed calls t ∧ Host.caret t.host = caret := by
  intro page caret d
  have aligned : s.place.Aligned page d := aligned_place ready near
  constructor
  · intro climbs calls some fits flat line
    have walked := typed_walk ready aligned some flat
    have last : page.lastLine < maxCount ∨ ∀ climb ∈ climbs, climb.times ≤ maxCount := by
      refine fits.imp_left fun few => Nat.lt_of_lt_of_le ?_ few
      have := aligned.line
      unfold Page.lastLine
      omega
    rw [show climbs.foldl _ (Host.caret s.host).line = line from
      Climb.foldl_heldFrom aligned.le_lastLine last] at walked
    exact ⟨_, walked, rfl, rfl, rfl, ready.normal, rfl⟩
  · intro there back calls down up same below flat
    exact typed_there_and_back ready aligned down up same below flat

theorem Session.typed_climbs_over_short_lines :
    let s : Session OpenBuffer :=
      ⟨{ Engine.ofConfig {} with aim := some 7 },
        .ofText "four letters\nab\n\nlong again".toList ⟨1, 1⟩⟩
    (∃ t, s.Typed ["1".toList, "2j3kj".toList, "k".toList] t ∧ Host.caret t.host = ⟨0, 7⟩ ∧
      t.engine.aim = some 7 ∧ t.host.document.text = s.host.document.text) ∧
    ∃ t, s.Typed ["2j2k".toList] t ∧ Host.caret t.host = ⟨1, 1⟩ := by
  intro s
  have ready : s.Ready := ⟨rfl, rfl, by decide⟩
  have walks := typed_climbs s ready (by rintro d ⟨⟩; decide)
  let counted (down : Bool) (n : Nat) (pos : 0 < n) : Climb := ⟨down, _, _, spells_toDigits pos⟩
  constructor
  · obtain ⟨t, typed, host, aim, -⟩ := walks.1
      [counted true 12 (by decide), counted false 3 (by decide), ⟨true, [], none, .nothing⟩,
        ⟨false, [], none, .nothing⟩]
      ["1".toList, "2j3kj".toList, "k".toList] (List.cons_ne_nil _ _) (.inl (by decide)) rfl
    refine ⟨t, typed, ?_, aim, ?_⟩
    · rw [host]
      decide +kernel
    · rw [host]
      rfl
  · exact walks.2 (counted true 2 (by decide)) (counted false 2 (by decide)) ["2j2k".toList] rfl rfl
      rfl (by decide) rfl

end ModalEditor

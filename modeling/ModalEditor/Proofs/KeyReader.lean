import ModalEditor.Keys.Parse
import ModalEditor.Proofs.Boundaries
import ModalEditor.Proofs.Numeral

/-! # Reading keys once

A key reader takes clusters one at a time and keeps two counts and the operator that waits for its
argument, never the keys themselves. Reading all pending keys again at every cluster comes to the
same.
-/

namespace ModalEditor

inductive Waiting where
  | delete
  | change
  | replace
  deriving DecidableEq, Repr

def Waiting.key : Waiting → Char
  | delete => 'd'
  | change => 'c'
  | replace => 'r'

/-- What is kept of the keys of a command that is not complete: the count before the operator, the
operator, and the count of its argument. Both counts are exact, whatever their size. -/
structure KeyReader where
  outer : Option Nat := none
  waiting : Option Waiting := none
  inner : Option Nat := none
  deriving DecidableEq, Repr

namespace KeyReader

def start : KeyReader := {}

/-- The count of a command: the product of both counts, where a missing one is one, held at the
largest count. -/
def total (r : KeyReader) : Nat :=
  min (r.outer.getD 1 * r.inner.getD 1) maxCount

def extend? (count : Option Nat) (g : Cluster) : Option Nat :=
  match g with
  | [c] => if continuesCount count c then some (appendDigit count c) else none
  | _ => none

def readOperator (r : KeyReader) (op : Operator) (rest : Text) : Parse Command × KeyReader :=
  match op, rest with
  | .insert, _ => (.complete .insert, start)
  | .append, _ => (.complete .append, start)
  | .appendAtEnd, _ => (.complete .appendAtEnd, start)
  | .deleteChar, _ => (.complete (.delete (.stride ⟨.right, r.total⟩)), start)
  | .deleteLine, _ => (.complete (.delete (.lines r.total)), start)
  | .put, _ => (.complete (.put r.total), start)
  | .delete, [] => (.needsMore, { r with waiting := some .delete })
  | .change, [] => (.needsMore, { r with waiting := some .change })
  | .replace, [] => (.needsMore, { r with waiting := some .replace })
  | .delete, _ => (.invalid, start)
  | .change, _ => (.invalid, start)
  | .replace, g => (.complete (.replace g r.total), start)

def readCommand (r : KeyReader) (g : Cluster) : Parse Command × KeyReader :=
  match extend? r.outer g with
  | some n => (.needsMore, { r with outer := some n })
  | none =>
    match g with
    | [] => (.invalid, start)
    | c :: rest =>
      match Keys.operator? c with
      | some op => r.readOperator op rest
      | none =>
        match Keys.motion? g with
        | some m => (.complete (.move ⟨m, r.total⟩), start)
        | none => (.invalid, start)

def readArgument (r : KeyReader) (trigger : Char) (command : Target → Command) (g : Cluster) :
    Parse Command × KeyReader :=
  match extend? r.inner g with
  | some n => (.needsMore, { r with inner := some n })
  | none =>
    if g = [trigger] then (.complete (command (.lines r.total)), start)
    else
      match Keys.motion? g with
      | some m => (.complete (command (.stride ⟨m, r.total⟩)), start)
      | none => (.invalid, start)

/-- Reads a cluster: what it makes of the keys so far, and what is kept of them. -/
def read (r : KeyReader) (g : Cluster) : Parse Command × KeyReader :=
  match r.waiting with
  | none => r.readCommand g
  | some .delete => r.readArgument 'd' .delete g
  | some .change => r.readArgument 'c' .change g
  | some .replace => (.complete (.replace g r.total), start)

def readAll : KeyReader → List Cluster → List (Parse Command)
  | _, [] => []
  | r, g :: rest => (r.read g).1 :: (r.read g).2.readAll rest

def after (r : KeyReader) (gs : List Cluster) : KeyReader :=
  gs.foldl (fun r g => (r.read g).2) r

/-- The pending keys that a reader stands for. -/
inductive Reads : KeyReader → Text → Prop
  | count {digits : Text} {outer : Option Nat} : Spells digits outer →
      Reads ⟨outer, none, none⟩ digits
  | argument {digits more : Text} {outer inner : Option Nat} {w : Waiting} : Spells digits outer →
      Spells more inner → w ≠ .replace → Reads ⟨outer, some w, inner⟩ (digits ++ w.key :: more)
  | replacement {digits : Text} {outer : Option Nat} : Spells digits outer →
      Reads ⟨outer, some .replace, none⟩ (digits ++ ['r'])

theorem reads_start : Reads start [] :=
  .count .nothing

end KeyReader

/-! ## Characters that are keys -/

theorem of_eq_plain_of_isDigit {c : Char} (h : c.isDigit = true) : CharKind.of c = .plain := by
  simp only [Char.isDigit, Bool.and_eq_true, decide_eq_true_eq] at h
  have low : '0'.toNat ≤ c.toNat := h.1
  have high : c.toNat ≤ '9'.toNat := h.2
  exact CharKind.of_printable (Nat.le_trans (by decide) low) (Nat.le_trans high (by decide))

namespace Keys

theorem mem_of_operator? {c : Char} {op : Operator} (h : operator? c = some op) :
    (c, op) ∈ operators := by
  obtain ⟨before, after, split, -⟩ := List.lookup_eq_some_iff.mp h
  simp [split]

theorem of_eq_plain_of_operator? {c : Char} {op : Operator} (h : operator? c = some op) :
    CharKind.of c = .plain := by
  have plain : ∀ entry ∈ operators, CharKind.of entry.1 = .plain := by decide
  exact plain (c, op) (mem_of_operator? h)

theorem of_eq_plain_of_motion? {c : Char} {rest : Text} {m : Motion}
    (h : motion? (c :: rest) = some m) : rest = [] ∧ CharKind.of c = .plain := by
  cases rest with
  | cons d rest => cases h
  | nil =>
    have plain : ∀ entry ∈ motions, CharKind.of entry.1 = .plain := by decide
    obtain ⟨before, after, split, -⟩ := List.lookup_eq_some_iff.mp h
    exact ⟨rfl, plain (c, m) (by simp [split])⟩

theorem continuesCount_eq_false {c : Char} (count : Option Nat) (h : CharKind.of c ≠ .plain) :
    continuesCount count c = false := by
  cases hc : c.isDigit with
  | false => simp [continuesCount, hc]
  | true => exact absurd (of_eq_plain_of_isDigit hc) h

theorem operator?_eq_none {c : Char} (h : CharKind.of c ≠ .plain) : operator? c = none := by
  cases hop : operator? c with
  | none => rfl
  | some op => exact absurd (of_eq_plain_of_operator? hop) h

theorem motion?_eq_none {c : Char} (rest : Text) (h : CharKind.of c ≠ .plain) :
    motion? (c :: rest) = none := by
  cases hm : motion? (c :: rest) with
  | none => rfl
  | some m => exact absurd (of_eq_plain_of_motion? hm).2 h

theorem operator?_eq_none_of_isDigit {c : Char} (h : c.isDigit = true) : operator? c = none := by
  have keys : ∀ entry ∈ operators, entry.1.isDigit = false := by decide
  cases hop : operator? c with
  | none => rfl
  | some op => simp [keys (c, op) (mem_of_operator? hop)] at h

end Keys

/-! ## Reading all keys again -/

namespace KeyReader

variable {digits more : Text} {outer inner : Option Nat} {g : Cluster}

theorem extend?_eq_some {count : Option Nat} {n : Nat} (h : extend? count g = some n) :
    ∃ c, g = [c] ∧ continuesCount count c = true ∧ n = appendDigit count c := by
  unfold extend? at h
  split at h
  · next c =>
    split at h
    · next hc => exact ⟨c, rfl, hc, (Option.some.inj h).symm⟩
    · cases h
  · cases h

theorem extend?_eq_none {count : Option Nat} {c : Char} {rest : Text}
    (h : extend? count (c :: rest) = none) (hc : continuesCount count c = true) : rest ≠ [] := by
  rintro rfl
  simp [extend?, hc] at h

theorem splitCount_append_cluster (h : Spells digits outer) (hg : clusters g = [g]) :
    (∃ n, extend? outer g = some n ∧ Spells (digits ++ g) (some n)) ∨
    (extend? outer g = none ∧ ∃ c d rest, g = c :: d :: rest ∧ c.isDigit = true ∧
      CharKind.of d ≠ .plain ∧ (splitCount (digits ++ g)).rest = d :: rest) ∨
    (extend? outer g = none ∧
      splitCount (digits ++ g) = ⟨min (outer.getD 1) maxCount, g⟩) := by
  cases hn : extend? outer g with
  | some n =>
    obtain ⟨c, rfl, hc, rfl⟩ := extend?_eq_some hn
    exact .inl ⟨_, rfl, .digit h hc⟩
  | none =>
    right
    obtain ⟨c, rest, rfl⟩ := List.exists_cons_of_ne_nil (ne_nil_of_cluster hg)
    cases hc : continuesCount outer c with
    | false => exact .inr ⟨rfl, h.splitCount_append (by simp [hc])⟩
    | true =>
      have digit : c.isDigit = true := by
        simp only [continuesCount, Bool.and_eq_true] at hc
        exact hc.1
      obtain ⟨d, rest, rfl⟩ := List.exists_cons_of_ne_nil (extend?_eq_none hn hc)
      have mark := not_plain_of_cluster (of_eq_plain_of_isDigit digit) hg
      have stop : ∀ e ∈ (d :: rest).head?,
          continuesCount (some (appendDigit outer c)) e = false := by
        rintro e he
        obtain rfl : d = e := Option.some.inj he
        exact Keys.continuesCount_eq_false _ mark
      have split := (h.digit hc).splitCount_append stop
      rw [List.append_assoc, List.singleton_append] at split
      exact .inl ⟨rfl, c, d, rest, rfl, digit, mark, by rw [split]⟩

theorem countProduct_min {a b : Nat} (ha : 0 < a) (hb : 0 < b) :
    countProduct (min a maxCount) (min b maxCount) = min (a * b) maxCount := by
  have pos : 0 < maxCount := by decide
  simp only [countProduct]
  rcases Nat.le_total a maxCount with small | large
  · rcases Nat.le_total b maxCount with small' | large'
    · rw [Nat.min_eq_left small, Nat.min_eq_left small']
    · have h₁ := Nat.le_mul_of_pos_left maxCount ha
      have h₂ := Nat.le_mul_of_pos_left b ha
      rw [Nat.min_eq_left small, Nat.min_eq_right large', Nat.min_eq_right h₁,
        Nat.min_eq_right (Nat.le_trans large' h₂)]
  · have h₁ := Nat.le_mul_of_pos_right maxCount (Nat.lt_min.mpr ⟨hb, pos⟩)
    have h₂ := Nat.le_mul_of_pos_right a hb
    rw [Nat.min_eq_right large, Nat.min_eq_right h₁, Nat.min_eq_right (Nat.le_trans large h₂)]

theorem total_pos (h : Spells digits outer) (w : Option Waiting) (h' : Spells more inner) :
    0 < total ⟨outer, w, inner⟩ :=
  Nat.lt_min.mpr ⟨Nat.mul_pos h.getD_pos h'.getD_pos, by decide⟩

theorem repeated_eq {n : Nat} (m : Motion) (h : 0 < n) : m.repeated n = ⟨m, n⟩ := by
  rw [Motion.repeated, Nat.max_eq_left h]

theorem parse_argument (h : Spells digits outer) (h' : Spells more inner) (w : Option Waiting)
    {trigger : Char} (plain : CharKind.of trigger = .plain) (command : Target → Command)
    (hg : clusters g = [g]) :
    (Keys.argument trigger (min (outer.getD 1) maxCount) (more ++ g)).map command =
      (readArgument ⟨outer, w, inner⟩ trigger command g).1 := by
  rcases splitCount_append_cluster h' hg with ⟨n, hn, spelled⟩ | ⟨hn, c, d, rest, rfl, _, mark,
    split⟩ | ⟨hn, split⟩
  · have split := spelled.splitCount_self
    simp only [Keys.argument, split, readArgument, hn, Parse.map]
  · have other : d :: rest ≠ [trigger] := by
      rintro same
      exact mark ((List.cons.inj same).1 ▸ plain)
    have none' : Keys.motion? (c :: d :: rest) = none := rfl
    simp only [Keys.argument, split, readArgument, hn, none', Keys.motion?_eq_none rest mark, other,
      List.cons.injEq, reduceCtorEq, and_false, if_false, Parse.map]
  · obtain ⟨c, rest, rfl⟩ := List.exists_cons_of_ne_nil (ne_nil_of_cluster hg)
    have count := countProduct_min h.getD_pos h'.getD_pos
    simp only [Keys.argument, split, readArgument, hn, count]
    by_cases same : c :: rest = [trigger]
    · simp only [same, if_true, Parse.map, total]
    · simp only [same, if_false]
      cases Keys.motion? (c :: rest) with
      | none => rfl
      | some m =>
        have pos : 0 < min (outer.getD 1 * inner.getD 1) maxCount := total_pos h w h'
        simp only [Parse.map, repeated_eq m pos, total]

theorem parse_operator (h : Spells digits outer) (op : Operator) {c : Char} {rest : Text}
    (plain : CharKind.of c = .plain) (hg : clusters (c :: rest) = [c :: rest]) :
    op.parse (min (outer.getD 1) maxCount) rest =
      (readOperator ⟨outer, none, none⟩ op rest).1 := by
  have pos : 0 < min (outer.getD 1) maxCount := Nat.lt_min.mpr ⟨h.getD_pos, by decide⟩
  have count : max (min (outer.getD 1) maxCount) 1 = min (outer.getD 1) maxCount :=
    Nat.max_eq_left pos
  have total : total ⟨outer, none, none⟩ = min (outer.getD 1) maxCount := by simp [total]
  have needsArgument : ∀ trigger, CharKind.of trigger = .plain → ∀ command : Target → Command,
      ((Keys.argument trigger (min (outer.getD 1) maxCount) rest).map command) =
        if rest = [] then .needsMore else .invalid := by
    intro trigger htrigger command
    cases rest with
    | nil => rfl
    | cons d rest =>
      have mark := not_plain_of_cluster plain hg
      have split : splitCount ([] ++ d :: rest) = _ :=
        Spells.nothing.splitCount_append (by simp [Keys.continuesCount_eq_false _ mark])
      have other : d :: rest ≠ [trigger] := by
        rintro same
        exact mark ((List.cons.inj same).1 ▸ htrigger)
      rw [List.nil_append] at split
      simp only [Keys.argument, split, Keys.motion?_eq_none rest mark, other, reduceCtorEq,
        if_false, Parse.map]
  cases op with
  | insert | append | appendAtEnd => rfl
  | deleteChar => simp only [Operator.parse, readOperator, count, total, repeated_eq _ pos]
  | deleteLine | put => simp only [Operator.parse, readOperator, count, total]
  | delete =>
    simp only [Operator.parse, count, needsArgument 'd' (by decide)]
    cases rest <;> rfl
  | change =>
    simp only [Operator.parse, count, needsArgument 'c' (by decide)]
    cases rest <;> rfl
  | replace =>
    cases rest with
    | nil => rfl
    | cons d rest =>
      have whole := clusters_tail_of_plain plain hg (List.cons_ne_nil d rest)
      simp only [Operator.parse, count, whole, readOperator, total]

theorem parse_command (h : Spells digits outer) (hg : clusters g = [g]) :
    Keys.parse (digits ++ g) = (readCommand ⟨outer, none, none⟩ g).1 := by
  rcases splitCount_append_cluster h hg with ⟨n, hn, spelled⟩ | ⟨hn, c, d, rest, rfl, digit, mark,
    split⟩ | ⟨hn, split⟩
  · have split := spelled.splitCount_self
    simp only [Keys.parse, split, readCommand, hn]
  · have none' : Keys.motion? (c :: d :: rest) = none := rfl
    simp only [Keys.parse, split, readCommand, hn, Keys.operator?_eq_none mark,
      Keys.motion?_eq_none rest mark, Keys.operator?_eq_none_of_isDigit digit, none']
  · obtain ⟨c, rest, rfl⟩ := List.exists_cons_of_ne_nil (ne_nil_of_cluster hg)
    simp only [Keys.parse, split, readCommand, hn]
    cases hop : Keys.operator? c with
    | some op => exact parse_operator h op (Keys.of_eq_plain_of_operator? hop) hg
    | none =>
      cases Keys.motion? (c :: rest) with
      | none => rfl
      | some m =>
        have pos : 0 < min (outer.getD 1) maxCount := Nat.lt_min.mpr ⟨h.getD_pos, by decide⟩
        simp only [repeated_eq m pos, total, Option.getD_none, Nat.mul_one]

theorem parse_waiting (h : Spells digits outer) (w : Waiting) (keys : Text) :
    Keys.parse (digits ++ w.key :: keys) =
      match w with
      | .delete => (Keys.argument 'd' (min (outer.getD 1) maxCount) keys).map .delete
      | .change => (Keys.argument 'c' (min (outer.getD 1) maxCount) keys).map .change
      | .replace => Operator.replace.parse (min (outer.getD 1) maxCount) keys := by
  have pos : 0 < min (outer.getD 1) maxCount := Nat.lt_min.mpr ⟨h.getD_pos, by decide⟩
  have stop : ∀ c ∈ (w.key :: keys).head?, continuesCount outer c = false := by
    rintro c hc
    obtain rfl : w.key = c := Option.some.inj hc
    cases w <;> rfl
  have deletes : Keys.operator? 'd' = some .delete := rfl
  have changes : Keys.operator? 'c' = some .change := rfl
  simp only [Keys.parse, h.splitCount_append stop]
  cases w with
  | delete => simp only [Waiting.key, deletes, Operator.parse, Nat.max_eq_left pos]
  | change => simp only [Waiting.key, changes, Operator.parse, Nat.max_eq_left pos]
  | replace => rfl

/-- Reading all keys again with one more cluster gives what the reader makes of that cluster. -/
theorem parse_append {r : KeyReader} {keys : Text} (h : Reads r keys) (hg : clusters g = [g]) :
    Keys.parse (keys ++ g) = (r.read g).1 := by
  cases h with
  | count spelled => exact parse_command spelled hg
  | replacement spelled =>
    have pos : 0 < min (Option.getD _ 1) maxCount := Nat.lt_min.mpr ⟨spelled.getD_pos, by decide⟩
    rw [List.append_assoc]
    refine (parse_waiting spelled .replace g).trans ?_
    simp only [Operator.parse, hg, Nat.max_eq_left pos, read, total, Option.getD_none, Nat.mul_one]
  | @argument _ _ _ _ w spelled spelled' hw =>
    rw [List.append_assoc, List.cons_append, parse_waiting spelled]
    cases w with
    | delete => exact parse_argument spelled spelled' _ (by decide) _ hg
    | change => exact parse_argument spelled spelled' _ (by decide) _ hg
    | replace => exact absurd rfl hw

/-! ## What the reader keeps -/

/-- A reader stands for the keys that a cluster leaves pending: all of them while more are needed,
and none once they were read as a command or rejected. -/
def Keeps (result : Parse Command × KeyReader) (keys : Text) : Prop :=
  result.1 = .needsMore ∧ Reads result.2 keys ∨ result.1 ≠ .needsMore ∧ result.2 = start

theorem keeps_readArgument (h : Spells digits outer) (h' : Spells more inner) {w : Waiting}
    (hw : w ≠ .replace) (trigger : Char) (command : Target → Command) (g : Cluster) :
    Keeps (readArgument ⟨outer, some w, inner⟩ trigger command g)
      (digits ++ w.key :: more ++ g) := by
  unfold readArgument
  split
  · next n hn =>
    obtain ⟨c, rfl, hc, rfl⟩ := extend?_eq_some hn
    rw [List.append_assoc, List.cons_append]
    exact .inl ⟨rfl, .argument h (.digit h' hc) hw⟩
  · split
    · exact .inr ⟨by simp, rfl⟩
    · split <;> exact .inr ⟨by simp, rfl⟩

theorem keeps_readOperator (h : Spells digits outer) {c : Char} {op : Operator} (rest : Text)
    (hop : Keys.operator? c = some op) :
    Keeps (readOperator ⟨outer, none, none⟩ op rest) (digits ++ c :: rest) := by
  have key := Keys.mem_of_operator? hop
  cases op with
  | insert | append | appendAtEnd | deleteChar | deleteLine | put =>
    exact .inr ⟨by simp [readOperator], rfl⟩
  | delete =>
    obtain rfl : c = 'd' := by simpa [Keys.operators] using key
    cases rest with
    | nil => exact .inl ⟨rfl, .argument h .nothing (w := .delete) (by decide)⟩
    | cons d rest => exact .inr ⟨by simp [readOperator], rfl⟩
  | change =>
    obtain rfl : c = 'c' := by simpa [Keys.operators] using key
    cases rest with
    | nil => exact .inl ⟨rfl, .argument h .nothing (w := .change) (by decide)⟩
    | cons d rest => exact .inr ⟨by simp [readOperator], rfl⟩
  | replace =>
    obtain rfl : c = 'r' := by simpa [Keys.operators] using key
    cases rest with
    | nil => exact .inl ⟨rfl, .replacement h⟩
    | cons d rest => exact .inr ⟨by simp [readOperator], rfl⟩

theorem keeps_readCommand (h : Spells digits outer) (g : Cluster) :
    Keeps (readCommand ⟨outer, none, none⟩ g) (digits ++ g) := by
  unfold readCommand
  split
  · next n hn =>
    obtain ⟨c, rfl, hc, rfl⟩ := extend?_eq_some hn
    exact .inl ⟨rfl, .count (.digit h hc)⟩
  · split
    · exact .inr ⟨by simp, rfl⟩
    · split
      · next hop => exact keeps_readOperator h _ hop
      · split <;> exact .inr ⟨by simp, rfl⟩

theorem keeps_read {r : KeyReader} {keys : Text} (h : Reads r keys) (g : Cluster) :
    Keeps (r.read g) (keys ++ g) := by
  cases h with
  | count spelled => exact keeps_readCommand spelled g
  | replacement spelled => exact .inr ⟨by simp [read], rfl⟩
  | @argument _ _ _ _ w spelled spelled' hw =>
    cases w with
    | delete => exact keeps_readArgument spelled spelled' hw _ _ g
    | change => exact keeps_readArgument spelled spelled' hw _ _ g
    | replace => exact absurd rfl hw

end KeyReader

end ModalEditor

import Mathlib.Data.List.TakeWhile
import ModalEditor.Word.Scan

/-! # The words of a line

A word is a longest run of clusters of one class other than blank. The scan of a line finds what can
be cut out of it at once: the word that ends after a column with nothing but blanks before it. There
is none only if blanks are all that is left of the line.
-/

namespace ModalEditor

variable {classes : List WordClass} {col : Nat} {word word' : Word}

/-- The word is a longest run of clusters of its class. -/
structure Word.Whole (classes : List WordClass) (word : Word) : Prop where
  filled : word.kind ≠ .blank
  nonempty : word.start < word.stop
  inside : ∀ i, word.start ≤ i → i < word.stop → classes[i]? = some word.kind
  left : ∀ i, i + 1 = word.start → classes[i]? ≠ some word.kind
  right : classes[word.stop]? ≠ some word.kind

/-- The word is the first one that ends after the column. -/
structure Word.Next (classes : List WordClass) (col : Nat) (word : Word) : Prop
    extends Word.Whole classes word where
  after : col < word.stop
  blanks : ∀ i, col ≤ i → i < word.start → classes[i]? = some .blank

def Blank (classes : List WordClass) (col : Nat) : Prop :=
  ∀ i kind, col ≤ i → classes[i]? = some kind → kind = .blank

namespace Word

theorem Whole.stop_le (h : word.Whole classes) : word.stop ≤ classes.length := by
  have nonempty := h.nonempty
  obtain ⟨inside, -⟩ := List.getElem?_eq_some_iff.mp (h.inside (word.stop - 1) (by omega) (by omega))
  omega

/-- Two words that share a column are one. -/
theorem Whole.unique (h : word.Whole classes) (h' : word'.Whole classes) {i : Nat}
    (start : word.start ≤ i) (stop : i < word.stop) (start' : word'.start ≤ i)
    (stop' : i < word'.stop) : word = word' := by
  have kind : word.kind = word'.kind :=
    Option.some.inj ((h.inside i start stop).symm.trans (h'.inside i start' stop'))
  have inside {j : Nat} (low : word.start ≤ j) (high : j < word.stop) :
      classes[j]? = some word'.kind := kind ▸ h.inside j low high
  have inside' {j : Nat} (low : word'.start ≤ j) (high : j < word'.stop) :
      classes[j]? = some word.kind := kind ▸ h'.inside j low high
  have starts : word.start = word'.start := by
    rcases Nat.lt_trichotomy word.start word'.start with less | same | more
    · exact absurd (inside (by omega) (by omega)) (h'.left (word'.start - 1) (by omega))
    · exact same
    · exact absurd (inside' (by omega) (by omega)) (h.left (word.start - 1) (by omega))
  have stops : word.stop = word'.stop := by
    rcases Nat.lt_trichotomy word.stop word'.stop with less | same | more
    · exact absurd (inside' (by omega) less) h.right
    · exact same
    · exact absurd (inside (by omega) more) h'.right
  obtain ⟨s, t, k⟩ := word
  obtain ⟨s', t', k'⟩ := word'
  obtain rfl : s = s' := starts
  obtain rfl : t = t' := stops
  obtain rfl : k = k' := kind
  rfl

theorem Whole.stop_le_start (h : word.Whole classes) (h' : word'.Whole classes)
    (after : word.stop < word'.stop) : word.stop ≤ word'.start := by
  by_contra overlap
  have nonempty := h.nonempty
  obtain rfl := h.unique h' (i := word.stop - 1) (by omega) (by omega) (by omega) (by omega)
  exact Nat.lt_irrefl _ after

end Word

/-! ## Runs -/

theorem getElem?_of_run {left run right : List WordClass} {kind : WordClass}
    (same : ∀ k ∈ run, k = kind) {i : Nat} (start : left.length ≤ i)
    (stop : i < left.length + run.length) : (left ++ run ++ right)[i]? = some kind := by
  have inside : i - left.length < run.length := by omega
  rw [List.append_assoc, List.getElem?_append_right start, List.getElem?_append_left inside,
    List.getElem?_eq_getElem inside, same _ (List.getElem_mem inside)]

theorem eq_of_mem_takeWhile {kind k : WordClass} {line : List WordClass}
    (mem : k ∈ line.takeWhile (· = kind)) : k = kind := by
  simpa using List.mem_takeWhile_imp mem

theorem head?_dropWhile_ne (kind : WordClass) (line : List WordClass) :
    (line.dropWhile (· = kind)).head? ≠ some kind := by
  intro first
  have other := List.head?_dropWhile_not (fun k => decide (k = kind)) line
  simp [first] at other

theorem exists_last_run (kind : WordClass) (line : List WordClass) :
    ∃ left run, line = left ++ run ∧ (line.reverse.takeWhile (· = kind)).length = run.length ∧
      (∀ k ∈ run, k = kind) ∧ left.getLast? ≠ some kind := by
  refine ⟨(line.reverse.dropWhile (· = kind)).reverse, (line.reverse.takeWhile (· = kind)).reverse,
    ?_, ?_, ?_, ?_⟩
  · rw [← List.reverse_append, List.takeWhile_append_dropWhile, List.reverse_reverse]
  · rw [List.length_reverse]
  · intro k mem
    exact eq_of_mem_takeWhile (List.mem_reverse.mp mem)
  · rw [List.getLast?_reverse]
    exact head?_dropWhile_ne kind line.reverse

/-- A run that stops short of its class on both sides is a word. -/
theorem whole_of_run {left run right : List WordClass} {kind : WordClass} (filled : kind ≠ .blank)
    (nonempty : run ≠ []) (same : ∀ k ∈ run, k = kind) (before : left.getLast? ≠ some kind)
    (behind : right.head? ≠ some kind) :
    Word.Whole (left ++ run ++ right) ⟨left.length, left.length + run.length, kind⟩ where
  filled := filled
  nonempty := Nat.lt_add_of_pos_right (List.length_pos_iff.mpr nonempty)
  inside _ := getElem?_of_run same
  left i last := by
    simp only at last
    rw [List.append_assoc, List.getElem?_append_left (by omega)]
    rwa [List.getLast?_eq_getElem?, ← last, Nat.add_sub_cancel] at before
  right := by
    simp only
    rw [← List.length_append, List.getElem?_append_right (Nat.le_refl _), Nat.sub_self]
    rwa [List.head?_eq_getElem?] at behind

theorem exists_blanks {kind : WordClass} {more : List WordClass}
    (h : (classes.drop col).dropWhile (· = .blank) = kind :: more) :
    ∃ above, classes = above ++ kind :: more ∧ kind ≠ .blank ∧ col ≤ above.length ∧
      ∀ i, col ≤ i → i < above.length → classes[i]? = some .blank := by
  have rest : (classes.drop col).takeWhile (· = .blank) ++ kind :: more = classes.drop col := by
    rw [← h, List.takeWhile_append_dropWhile]
  have line : classes.take col ++ (classes.drop col).takeWhile (· = .blank) ++ kind :: more =
      classes := by
    rw [List.append_assoc, rest, List.take_append_drop]
  have width : (classes.take col).length = col := by
    have some := congrArg List.length rest
    simp only [List.length_append, List.length_cons, List.length_drop] at some
    rw [List.length_take]
    omega
  refine ⟨_, line.symm, ?_, ?_, ?_⟩
  · rintro rfl
    exact head?_dropWhile_ne .blank (classes.drop col) (by rw [h]; rfl)
  · rw [List.length_append, width]
    exact Nat.le_add_right ..
  · intro i start stop
    rw [← line]
    rw [List.length_append] at stop
    exact getElem?_of_run (fun _ => eq_of_mem_takeWhile) (width.symm ▸ start) stop

/-! ## The scan -/

/-- The first word that ends after a column, cut out of the line at once. -/
def firstRun (classes : List WordClass) (col : Nat) : Option Word :=
  match (classes.drop col).dropWhile (· = .blank) with
  | [] => none
  | kind :: more =>
    let first := classes.length - (more.length + 1)
    let before := (classes.take first).reverse.takeWhile (· = kind)
    let rest := more.takeWhile (· = kind)
    some ⟨first - before.length, first + 1 + rest.length, kind⟩

theorem firstRun_eq {above more : List WordClass} {kind : WordClass}
    (found : (classes.drop col).dropWhile (· = .blank) = kind :: more)
    (line : classes = above ++ kind :: more) :
    firstRun classes col = some ⟨above.length - (above.reverse.takeWhile (· = kind)).length,
      above.length + 1 + (more.takeWhile (· = kind)).length, kind⟩ := by
  have first : classes.length - (more.length + 1) = above.length := by
    rw [line, List.length_append, List.length_cons, Nat.add_sub_cancel]
  have upTo : classes.take above.length = above := by
    rw [line, List.take_left]
  simp only [firstRun, found, first, upTo]

theorem WordKind.exists_wanted {k : WordClass} (filled : k ≠ .blank) :
    ∃ kind : WordKind, kind.wanted = k := by
  cases k with
  | letter => exact ⟨letters, rfl⟩
  | separator => exact ⟨separators, rfl⟩
  | blank => exact absurd rfl filled

theorem findIdx?_other (kind : WordClass) (line : List WordClass) :
    line.findIdx? (· != kind) =
      if (line.takeWhile (· = kind)).length < line.length
      then some (line.takeWhile (· = kind)).length else none := by
  induction line with
  | nil => rfl
  | cons k line ih =>
    by_cases same : k = kind
    · subst same
      rw [List.findIdx?_cons, bne_self_eq_false, if_neg Bool.false_ne_true, ih,
        List.takeWhile_cons_of_pos (by simp)]
      simp only [List.length_cons, Nat.add_lt_add_iff_right]
      split <;> rfl
    · simp [List.findIdx?_cons, same]

namespace Word

variable {kind : WordKind} {rest more : List WordClass} {i : Nat}

theorem closes_eq (k : WordClass) (kind : WordKind) : closes k kind = decide (k ≠ kind.wanted) := by
  cases k <;> cases kind <;> rfl

theorem carry_wanted (run : Option WordKind) (kind : WordKind) :
    carry run kind.wanted = some kind := by
  cases kind <;> rfl

theorem elim_lastOther? (kind : WordKind) (line : List WordClass) :
    (lastOther? kind line).elim 0 (· + 1) =
      line.length - (line.reverse.takeWhile (· = kind.wanted)).length := by
  have short := (List.takeWhile_sublist (p := (· = kind.wanted)) (l := line.reverse)).length_le
  rw [List.length_reverse] at short
  rw [lastOther?, findIdx?_other, List.length_reverse]
  split
  · simp only [Option.map_some, Option.elim_some]
    omega
  · simp only [Option.map_none, Option.elim_none]
    omega

theorem startOf_eq {above : List WordClass} (line : classes = above ++ kind.wanted :: more) :
    startOf classes kind (above.length + 1 + (more.takeWhile (· = kind.wanted)).length) =
      above.length - (above.reverse.takeWhile (· = kind.wanted)).length := by
  have split : classes = (above ++ kind.wanted :: more.takeWhile (· = kind.wanted)) ++
      more.dropWhile (· = kind.wanted) := by
    rw [line, List.append_assoc, List.cons_append, List.takeWhile_append_dropWhile]
  have width : above.length + 1 + (more.takeWhile (· = kind.wanted)).length =
      (above ++ kind.wanted :: more.takeWhile (· = kind.wanted)).length := by
    rw [List.length_append, List.length_cons]
    omega
  have same : ∀ k ∈ (kind.wanted :: more.takeWhile (· = kind.wanted)).reverse,
      decide (k = kind.wanted) = true := by
    intro k mem
    rcases List.mem_cons.mp (List.mem_reverse.mp mem) with rfl | mem
    · exact decide_eq_true rfl
    · exact decide_eq_true (eq_of_mem_takeWhile mem)
  rw [startOf, width, split, List.take_left, elim_lastOther?, List.reverse_append,
    List.takeWhile_append_of_pos same]
  simp only [List.length_append, List.length_reverse]
  omega

/-- An open run goes on as far as its class does. -/
theorem scan_open (left : i + rest.length = classes.length) :
    scan classes i (some kind) rest =
      some (ofRun classes kind (i + (rest.takeWhile (· = kind.wanted)).length)) := by
  induction rest generalizing i with
  | nil =>
    obtain rfl : i = classes.length := left
    rfl
  | cons k rest ih =>
    rw [List.length_cons, ← Nat.add_assoc, Nat.add_right_comm] at left
    by_cases same : k = kind.wanted
    · have goesOn : (some kind).filter (closes k) = none := by simp [closes_eq, same]
      rw [scan, goesOn, same, carry_wanted, List.takeWhile_cons_of_pos (by simp), List.length_cons]
      simp only [ih left, Nat.add_assoc, Nat.add_comm 1]
    · have ends : (some kind).filter (closes k) = some kind := by simp [closes_eq, same]
      rw [scan, ends, List.takeWhile_cons_of_neg (by simp [same])]
      rfl

theorem scan_blank (i : Nat) (rest : List WordClass) :
    scan classes i none (.blank :: rest) = scan classes (i + 1) none rest := rfl

theorem scan_dropWhile (left : i + rest.length = classes.length) :
    scan classes i none rest = scan classes (classes.length -
      (rest.dropWhile (· = .blank)).length) none (rest.dropWhile (· = .blank)) := by
  induction rest generalizing i with
  | nil => rfl
  | cons k rest ih =>
    have here : i = classes.length - (k :: rest).length := by omega
    rw [List.length_cons, ← Nat.add_assoc, Nat.add_right_comm] at left
    by_cases blank : k = .blank
    · subst blank
      rw [List.dropWhile_cons_of_pos (by simp), scan_blank, ih left]
    · rw [List.dropWhile_cons_of_neg (by simp [blank]), ← here]

end Word

/-- The scan finds the word that can be cut out at once. -/
theorem nextWord_eq_firstRun (classes : List WordClass) (col : Nat) :
    nextWord classes col = firstRun classes col := by
  have left : min col classes.length + (classes.drop (min col classes.length)).length =
      classes.length := by
    rw [List.length_drop]
    omega
  have same : classes.drop (min col classes.length) = classes.drop col := by
    rcases Nat.le_total col classes.length with inside | past
    · rw [Nat.min_eq_left inside]
    · rw [Nat.min_eq_right past, List.drop_length, List.drop_of_length_le past]
  rw [same] at left
  simp only [nextWord, same]
  rw [Word.scan_dropWhile left]
  cases found : (classes.drop col).dropWhile (· = .blank) with
  | nil =>
    simp only [firstRun, found]
    rfl
  | cons k more =>
    obtain ⟨above, line, filled, -, -⟩ := exists_blanks found
    obtain ⟨kind, rfl⟩ := WordKind.exists_wanted filled
    have behind : above.length + 1 + more.length = classes.length := by
      rw [line, List.length_append, List.length_cons]
      omega
    have first : classes.length - (more.length + 1) = above.length := by omega
    have opens : Word.scan classes above.length none (kind.wanted :: more) =
        Word.scan classes (above.length + 1) (some kind) more :=
      congrArg (Word.scan classes (above.length + 1) · more) (Word.carry_wanted none kind)
    rw [List.length_cons, first, opens, Word.scan_open behind, Word.ofRun, Word.startOf_eq line,
      firstRun_eq found line]

/-! ## The next word -/

theorem nextWord_next (h : nextWord classes col = some word) : word.Next classes col := by
  rw [nextWord_eq_firstRun] at h
  cases found : (classes.drop col).dropWhile (· = .blank) with
  | nil => simp [firstRun, found] at h
  | cons kind more =>
    obtain ⟨above, line, filled, after, blank⟩ := exists_blanks found
    obtain ⟨left, before, back, wide, same, last⟩ := exists_last_run kind above
    rw [firstRun_eq found line, Option.some.injEq] at h
    have split : classes = left ++ (before ++ kind :: more.takeWhile (· = kind)) ++
        more.dropWhile (· = kind) := by
      rw [line, back]
      simp [List.takeWhile_append_dropWhile]
    have place : word = ⟨left.length,
        left.length + (before ++ kind :: more.takeWhile (· = kind)).length, kind⟩ := by
      rw [← h, wide, back]
      simp only [List.length_append, List.length_cons, Word.mk.injEq, and_true]
      omega
    have whole : Word.Whole classes word := by
      rw [place, split]
      apply whole_of_run filled (by simp) _ last (head?_dropWhile_ne kind more)
      intro k mem
      rcases List.mem_append.mp mem with mem | mem
      · exact same k mem
      · rcases List.mem_cons.mp mem with rfl | mem
        · rfl
        · exact eq_of_mem_takeWhile mem
    have short : left.length ≤ above.length ∧ above.length < word.stop := by
      rw [place, back]
      simp only [List.length_append, List.length_cons]
      omega
    refine ⟨whole, by omega, ?_⟩
    intro i start stop
    rw [place] at stop
    exact blank i start (Nat.lt_of_lt_of_le stop short.1)

theorem nextWord_eq_none_iff : nextWord classes col = none ↔ Blank classes col := by
  have blank : nextWord classes col = none ↔ (classes.drop col).dropWhile (· = .blank) = [] := by
    rw [nextWord_eq_firstRun, firstRun]
    split
    · next none => simp [none]
    · next some => simp [some]
  rw [blank, List.dropWhile_eq_nil_iff]
  constructor
  · intro all i kind start found
    have left : kind ∈ classes.drop col := by
      apply List.mem_of_getElem? (i := i - col)
      rwa [List.getElem?_drop, Nat.add_sub_cancel' start]
    exact of_decide_eq_true (all kind left)
  · intro blank kind mem
    obtain ⟨i, found⟩ := List.getElem?_of_mem mem
    rw [List.getElem?_drop] at found
    exact decide_eq_true (blank _ kind (Nat.le_add_right ..) found)

theorem Word.Whole.not_blank (h : word.Whole classes) (after : col < word.stop) :
    ¬ Blank classes col := by
  intro blank
  have nonempty := h.nonempty
  exact h.filled (blank (word.stop - 1) _ (by omega) (h.inside _ (by omega) (by omega)))

theorem Word.Next.start_le (h : word.Next classes col) (h' : word'.Whole classes)
    (after : col < word'.stop) : word.start ≤ max col word'.start := by
  by_contra later
  have nonempty := h'.nonempty
  have blank := h.blanks (max col word'.start) (by omega) (by omega)
  have filled := h'.inside (max col word'.start) (by omega) (by omega)
  exact h'.filled (Option.some.inj (filled.symm.trans blank))

theorem Word.Next.unique (h : word.Next classes col) (h' : word'.Next classes col) :
    word = word' := by
  have start := h.start_le h'.toWhole h'.after
  have start' := h'.start_le h.toWhole h.after
  have nonempty := h.nonempty
  have nonempty' := h'.nonempty
  have after := h.after
  have after' := h'.after
  -- The first filled column from `col` on is in both.
  exact h.toWhole.unique h'.toWhole (i := max col word.start) (by omega) (by omega) (by omega)
    (by omega)

theorem nextWord_eq_some_iff : nextWord classes col = some word ↔ word.Next classes col := by
  constructor
  · exact nextWord_next
  · intro next
    cases found : nextWord classes col with
    | none => exact absurd (nextWord_eq_none_iff.mp found) (next.not_blank next.after)
    | some word' => rw [(nextWord_next found).unique next]

end ModalEditor

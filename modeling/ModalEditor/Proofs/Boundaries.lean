import ModalEditor.Cluster.Segmentation

/-! # Boundaries between clusters

Clusters are read from left to right, and reading begins anew at every boundary. So the boundaries
of a text stay when more text follows it, and any run of whole clusters is cut again as before.
-/

namespace ModalEditor

namespace Ending

/-- How the open cluster ends after one more character, which may have opened it. -/
def next (ending : Ending) (c : Char) : Ending :=
  if ending.continues (.of c) then ending.after (.of c) else start (.of c)

def scan (ending : Ending) (text : Text) : Ending :=
  text.foldl next ending

@[simp] theorem scan_nil (ending : Ending) : ending.scan [] = ending := rfl

@[simp] theorem scan_cons (ending : Ending) (c : Char) (text : Text) :
    ending.scan (c :: text) = (ending.next c).scan text := rfl

end Ending

variable {ending : Ending} {c : Char} {text : Text}

theorem segment_cons_of_continues (rest : Text) (h : ending.continues (.of c) = true) :
    segment ending (c :: rest) =
      (c :: (segment (ending.next c) rest).1, (segment (ending.next c) rest).2) := by
  simp [segment, Ending.next, h]

theorem segment_cons_of_boundary (rest : Text) (h : ending.continues (.of c) = false) :
    segment ending (c :: rest) =
      ([], (c :: (segment (ending.next c) rest).1) :: (segment (ending.next c) rest).2) := by
  simp [segment, Ending.next, h]

theorem continues_closed (kind : CharKind) : Ending.closed.continues kind = false := by
  cases kind <;> rfl

theorem clusters_cons (c : Char) (rest : Text) :
    clusters (c :: rest) =
      (c :: (segment (Ending.closed.next c) rest).1) ::
        (segment (Ending.closed.next c) rest).2 := by
  rw [clusters, segment_cons_of_boundary rest (continues_closed _)]

/-! ## More text after a text -/

theorem length_segment_append (ending : Ending) (a b : Text) :
    (segment ending (a ++ b)).2.length =
      (segment ending a).2.length + (segment (ending.scan a) b).2.length := by
  induction a generalizing ending with
  | nil => simp [segment]
  | cons c a ih =>
    cases h : ending.continues (.of c) with
    | true =>
      rw [List.cons_append, segment_cons_of_continues _ h, segment_cons_of_continues _ h]
      exact ih _
    | false =>
      rw [List.cons_append, segment_cons_of_boundary _ h, segment_cons_of_boundary _ h]
      simp only [List.length_cons, ih, Ending.scan_cons]
      omega

theorem columns_le_append (a b : Text) : columns a ≤ columns (a ++ b) := by
  have h := length_segment_append .closed a b
  simp only [columns, clusters]
  omega

theorem columns_pos (h : text ≠ []) : 0 < columns text := by
  obtain ⟨c, rest, rfl⟩ := List.exists_cons_of_ne_nil h
  simp [columns, clusters_cons]

/-! ## Runs of whole clusters -/

theorem segment_take (ending : Ending) (text : Text) (n : Nat) :
    segment ending ((segment ending text).1 ++ ((segment ending text).2.take n).flatten) =
      ((segment ending text).1, (segment ending text).2.take n) := by
  induction text generalizing ending n with
  | nil => simp [segment]
  | cons c text ih =>
    cases h : ending.continues (.of c) with
    | true =>
      rw [segment_cons_of_continues _ h, List.cons_append, segment_cons_of_continues _ h, ih]
    | false =>
      rw [segment_cons_of_boundary _ h]
      cases n with
      | zero => rfl
      | succ n =>
        rw [List.take_succ_cons, List.flatten_cons, List.nil_append, List.cons_append,
          segment_cons_of_boundary _ h, ih]

theorem clusters_take (text : Text) (n : Nat) :
    clusters ((clusters text).take n).flatten = (clusters text).take n := by
  have h := segment_take .closed text n
  rw [segment_closed_fst, List.nil_append] at h
  simp only [clusters, h]

theorem columns_take (text : Text) (n : Nat) :
    columns ((clusters text).take n).flatten = min n (columns text) := by
  rw [columns, clusters_take, List.length_take, columns]

theorem segment_of_boundary (rest : Text) (h : ending.continues (.of c) = false) :
    segment ending (c :: rest) = ([], clusters (c :: rest)) := by
  have same : Ending.closed.next c = ending.next c := by
    simp [Ending.next, h, continues_closed]
  rw [segment_cons_of_boundary rest h, clusters_cons, same]

theorem clusters_flatten_snd (ending : Ending) (text : Text) :
    clusters (segment ending text).2.flatten = (segment ending text).2 := by
  induction text generalizing ending with
  | nil => rfl
  | cons c text ih =>
    cases h : ending.continues (.of c) with
    | true => simpa only [segment_cons_of_continues _ h] using ih _
    | false =>
      rw [segment_of_boundary _ h, flatten_clusters]

theorem clusters_flatten_of_cons {g : Cluster} {gs : List Cluster} (h : clusters text = g :: gs) :
    clusters gs.flatten = gs := by
  cases text with
  | nil => simp at h
  | cons c rest =>
    rw [clusters_cons, List.cons.injEq] at h
    rw [← h.2]
    exact clusters_flatten_snd _ _

theorem clusters_drop (text : Text) (n : Nat) :
    clusters ((clusters text).drop n).flatten = (clusters text).drop n := by
  induction n generalizing text with
  | zero => simp
  | succ n ih =>
    cases h : clusters text with
    | nil => simp
    | cons g gs =>
      have rest := clusters_flatten_of_cons h
      simpa only [rest, List.drop_succ_cons] using ih gs.flatten

/-- A cluster of a text is one cluster when it stands alone. -/
theorem clusters_of_mem {g : Cluster} (h : g ∈ clusters text) : clusters g = [g] := by
  obtain ⟨before, after, split⟩ := List.append_of_mem h
  have tail : clusters (g :: after).flatten = g :: after := by
    have := clusters_drop text before.length
    rwa [split, List.drop_left] at this
  have head := clusters_take (g :: after).flatten 1
  rw [tail] at head
  simpa using head

theorem ne_nil_of_cluster {g : Cluster} (h : clusters g = [g]) : g ≠ [] := by
  rintro rfl
  cases h

/-! ## Clusters that start with a plain character -/

theorem next_plain_of_continues (h : Ending.plain.continues (.of c) = true) :
    Ending.plain.next c = .plain ∧ Ending.closed.next c = .plain := by
  simp only [Ending.next, Ending.start, h, continues_closed]
  revert h
  cases CharKind.of c <;> simp [Ending.continues, Ending.after]

theorem not_continues_plain {kind : CharKind} (h : kind = .plain) :
    Ending.plain.continues kind = false := by
  rw [h]
  rfl

/-- What follows a plain character in its cluster would be one cluster without it. -/
theorem clusters_of_segment_plain (h : (segment .plain text).2 = []) (ne : text ≠ []) :
    clusters text = [text] := by
  obtain ⟨c, rest, rfl⟩ := List.exists_cons_of_ne_nil ne
  cases hc : Ending.plain.continues (.of c) with
  | false => simp [segment_cons_of_boundary rest hc] at h
  | true =>
    obtain ⟨open_, closed⟩ := next_plain_of_continues hc
    rw [segment_cons_of_continues rest hc, open_] at h
    have whole := segment_append_flatten .plain rest
    rw [h, List.flatten_nil, List.append_nil] at whole
    rw [clusters_cons, closed, h, whole]

theorem segment_plain_of_cluster {rest : Text} (plain : CharKind.of c = .plain)
    (h : clusters (c :: rest) = [c :: rest]) : (segment .plain rest).2 = [] := by
  have next : Ending.closed.next c = .plain := by
    simp [Ending.next, continues_closed, plain, Ending.start, Ending.after]
  rw [clusters_cons, next, List.cons.injEq] at h
  exact h.2

/-- A plain character is alone in its cluster or goes on with one that is not plain. -/
theorem not_plain_of_cluster {d : Char} {rest : Text} (plain : CharKind.of c = .plain)
    (h : clusters (c :: d :: rest) = [c :: d :: rest]) : CharKind.of d ≠ .plain := by
  intro hd
  have tail := segment_plain_of_cluster plain h
  rw [segment_cons_of_boundary rest (not_continues_plain hd)] at tail
  simp at tail

theorem clusters_tail_of_plain {rest : Text} (plain : CharKind.of c = .plain)
    (h : clusters (c :: rest) = [c :: rest]) (ne : rest ≠ []) : clusters rest = [rest] :=
  clusters_of_segment_plain (segment_plain_of_cluster plain h) ne

theorem segment_plain (h : ∀ c ∈ text, CharKind.of c = .plain) :
    segment .plain text = ([], text.map fun c => [c]) := by
  induction text with
  | nil => rfl
  | cons c rest ih =>
    have plain := h c (List.mem_cons_self ..)
    have next : Ending.plain.next c = .plain := by
      simp [Ending.next, plain, Ending.start, Ending.after]
    rw [segment_cons_of_boundary rest (not_continues_plain plain), next,
      ih fun d hd => h d (List.mem_cons_of_mem _ hd), List.map_cons]

/-- Plain characters are clusters each of its own. -/
theorem clusters_of_plain (h : ∀ c ∈ text, CharKind.of c = .plain) :
    clusters text = text.map fun c => [c] := by
  cases text with
  | nil => rfl
  | cons c rest =>
    have plain := h c (List.mem_cons_self ..)
    have next : Ending.closed.next c = .plain := by
      simp [Ending.next, continues_closed, plain, Ending.start, Ending.after]
    rw [clusters_cons, next, segment_plain fun d hd => h d (List.mem_cons_of_mem _ hd),
      List.map_cons]

theorem clusters_cons_cluster {g : Cluster} (plain : CharKind.of c = .plain)
    (hg : clusters g = [g]) : clusters (c :: g) = [c :: g] ∨ clusters (c :: g) = [[c], g] := by
  obtain ⟨d, rest, rfl⟩ := List.exists_cons_of_ne_nil (ne_nil_of_cluster hg)
  have next : Ending.closed.next c = .plain := by
    simp [Ending.next, continues_closed, plain, Ending.start, Ending.after]
  rw [clusters_cons, next]
  cases h : Ending.plain.continues (.of d) with
  | true =>
    obtain ⟨open_, closed⟩ := next_plain_of_continues h
    rw [clusters_cons, closed, List.cons.injEq] at hg
    rw [segment_cons_of_continues rest h, open_, hg.1, hg.2]
    exact .inl rfl
  | false =>
    rw [segment_of_boundary rest h, hg]
    exact .inr rfl

theorem clusters_plain_append {keys : Text} (plain : ∀ d ∈ keys, CharKind.of d = .plain)
    (start : CharKind.of c = .plain) (rest : Text) :
    clusters (keys ++ c :: rest) = (keys.map fun d => [d]) ++ clusters (c :: rest) := by
  induction keys with
  | nil => rfl
  | cons d keys ih =>
    have next : Ending.closed.next d = .plain := by
      simp [Ending.next, continues_closed, plain d (.head _), Ending.start, Ending.after]
    have later := ih fun d' h => plain d' (.tail _ h)
    obtain ⟨d', more, split, plain'⟩ : ∃ d' more, keys ++ c :: rest = d' :: more ∧
        CharKind.of d' = .plain := by
      cases keys with
      | nil => exact ⟨c, rest, rfl, start⟩
      | cons d' keys => exact ⟨d', _, rfl, plain d' (.tail _ (.head _))⟩
    rw [List.cons_append, clusters_cons, next, split,
      segment_of_boundary more (not_continues_plain plain'), ← split, later]
    rfl

/-! ## Line feeds in a cluster -/

namespace CharKind

theorem ofHangul_ne_carriageReturn (code : Nat) : ofHangul code ≠ some .carriageReturn := by
  unfold ofHangul
  iterate 4 (split; · simp)
  split
  · split <;> simp
  · simp

theorem ofCode_ne_carriageReturn (code : Nat) : ofCode code ≠ .carriageReturn := by
  have hangul := ofHangul_ne_carriageReturn code
  unfold ofCode
  cases h : ofHangul code with
  | some kind =>
    rw [h] at hangul
    intro e
    exact hangul (congrArg some e)
  | none =>
    simp only
    -- `split` takes seconds on as many branches.
    iterate 10 refine iteInduction (motive := (· ≠ carriageReturn)) (fun _ => by decide) fun _ => ?_
    decide

theorem eq_return_of_start (h : Ending.closed.next c = .carriageReturn) : c = '\r' := by
  rcases Decidable.em (c = '\r') with hc | hc
  · exact hc
  · apply absurd h
    rw [Ending.next, if_neg (by simp [continues_closed])]
    have kind : of c ≠ .carriageReturn := by
      unfold of
      rw [if_neg hc]
      split
      · decide
      · split
        · decide
        · exact ofCode_ne_carriageReturn _
    revert kind
    cases of c <;> simp [Ending.start, Ending.after]

end CharKind

theorem not_continues_lineFeed (h : ending ≠ .carriageReturn) :
    ending.continues .lineFeed = false := by
  cases ending with
  | carriageReturn => exact absurd rfl h
  | _ => rfl

theorem next_ne_carriageReturn (ne : ending ≠ .carriageReturn)
    (h : ending.continues (.of c) = true) : ending.next c ≠ .carriageReturn := by
  rw [Ending.next, if_pos h]
  revert h
  cases ending with
  | carriageReturn => exact absurd rfl ne
  | _ => cases CharKind.of c <;> simp [Ending.continues, Ending.after]

theorem not_mem_feed_of_segment (ne : ending ≠ .carriageReturn) (h : (segment ending text).2 = []) :
    '\n' ∉ text := by
  induction text generalizing ending with
  | nil => exact List.not_mem_nil
  | cons c rest ih =>
    cases hc : ending.continues (.of c) with
    | false => simp [segment_cons_of_boundary rest hc] at h
    | true =>
      rw [segment_cons_of_continues rest hc] at h
      rw [List.mem_cons, not_or]
      refine ⟨?_, ih (next_ne_carriageReturn ne hc) h⟩
      rintro rfl
      exact absurd (hc.symm.trans (not_continues_lineFeed ne)) (by decide)

theorem eq_nil_of_feed {rest : Text} (h : clusters ('\n' :: rest) = ['\n' :: rest]) :
    rest = [] := by
  rw [clusters_cons, show Ending.closed.next '\n' = .closed from rfl, segment_closed_fst,
    List.cons.injEq, List.cons.injEq] at h
  exact h.1.2.symm

theorem eq_feed_of_mem {g : Cluster} (hg : clusters g = [g]) (h : '\n' ∈ g) (hr : '\r' ∉ g) :
    g = ['\n'] := by
  obtain ⟨c, rest, rfl⟩ := List.exists_cons_of_ne_nil (List.ne_nil_of_mem h)
  by_cases hc : c = '\n'
  · obtain rfl := hc
    rw [eq_nil_of_feed hg]
  · rw [clusters_cons, List.cons.injEq] at hg
    have later : '\n' ∈ rest := (List.mem_cons.mp h).resolve_left (Ne.symm hc)
    refine absurd later (not_mem_feed_of_segment ?_ hg.2)
    intro ends
    rw [CharKind.eq_return_of_start ends] at hr
    exact hr (List.mem_cons_self ..)

end ModalEditor

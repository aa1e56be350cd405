import Mathlib.Data.List.Basic
import Mathlib.Data.List.Induction
import Mathlib.Data.List.TakeWhile

/-!
# Text in lines, read through a window

`lines` cuts a text behind every end of line. A reader with a window of `width` elements does not see
lines but pieces: `piece` is what it gets, up to an end of line or until its window is full, and `pieces`
is what a number of reads get. As long as no line is longer than the window, the pieces are the lines
(`pieces_eq_lines`).

`foldl_last` is about settings that are read one after the other: what the last of them said is what
stays.
-/

namespace Lines

variable {α : Type} [DecidableEq α]

/-- The lines of a text, each with its end of line; the last may have none. -/
def lines (nl : α) : List α → List (List α)
  | [] => []
  | c :: text =>
    if c = nl then [c] :: lines nl text
    else
      match lines nl text with
      | [] => [[c]]
      | line :: rest => (c :: line) :: rest

/-- One read: up to an end of line, at most `width` elements; and what is left. -/
def piece (nl : α) : Nat → List α → List α × List α
  | 0, text => ([], text)
  | _ + 1, [] => ([], [])
  | width + 1, c :: text =>
    if c = nl then ([c], text)
    else
      let (line, rest) := piece nl width text
      (c :: line, rest)

/-- What at most `n` reads get, up to the end of the text. -/
def pieces (nl : α) (width : Nat) : Nat → List α → List (List α)
  | 0, _ => []
  | _ + 1, [] => []
  | n + 1, text@(_ :: _) => (piece nl width text).1 :: pieces nl width n (piece nl width text).2

variable {nl : α}

/-- Nothing is lost. -/
theorem flatten_lines (text : List α) : (lines nl text).flatten = text := by
  induction text with
  | nil => rfl
  | cons c text ih =>
    rw [lines]
    split
    case isTrue => rw [List.flatten_cons, ih, List.singleton_append]
    case isFalse =>
      cases hrest : lines nl text with
      | nil =>
        rw [hrest] at ih
        rw [← ih]
        rfl
      | cons line rest =>
        rw [hrest, List.flatten_cons] at ih
        rw [List.flatten_cons, List.cons_append, ih]

/-- Lines in a row: each ends in an end of line and has no other, but for the last, which may have
none. -/
inductive Cut (nl : α) : List (List α) → Prop where
  | nil : Cut nl []
  | last {line : List α} (nonempty : line ≠ []) (unended : nl ∉ line) : Cut nl [line]
  | cons {body : List α} {rest : List (List α)} (inner : nl ∉ body) (more : Cut nl rest) :
    Cut nl ((body ++ [nl]) :: rest)

theorem cut_lines (text : List α) : Cut nl (lines nl text) := by
  induction text with
  | nil => exact .nil
  | cons c text ih =>
    rw [lines]
    split
    case isTrue hend =>
      rw [hend]
      exact .cons List.not_mem_nil ih
    case isFalse hinner =>
      have hne : nl ≠ c := Ne.symm hinner
      generalize lines nl text = rest at ih
      cases ih with
      | nil => exact .last (List.cons_ne_nil _ _) (by simpa using hne)
      | last nonempty unended => exact .last (List.cons_ne_nil _ _) (by simp [hne, unended])
      | @cons body _ inner more =>
        have hbody : nl ∉ c :: body := by simp [hne, inner]
        exact .cons hbody more

omit [DecidableEq α] in
/-- Lines that are left out leave lines. -/
theorem Cut.sublist {ls kept : List (List α)} (h : Cut nl ls) (hsub : kept.Sublist ls) : Cut nl kept := by
  induction h generalizing kept with
  | nil =>
    rw [List.sublist_nil.mp hsub]
    exact .nil
  | last nonempty unended =>
    rcases List.sublist_singleton.mp hsub with rfl | rfl
    · exact .nil
    · exact .last nonempty unended
  | cons inner more ih =>
    cases hsub with
    | cons _ hsub => exact ih hsub
    | cons_cons _ hsub => exact .cons inner (ih hsub)

/-- Behind its text a line has an end of line at most. -/
theorem Cut.length_le {ls : List (List α)} (h : Cut nl ls) {line : List α} (hmem : line ∈ ls) :
    line.length ≤ (line.takeWhile (· ≠ nl)).length + 1 := by
  induction h with
  | nil => exact absurd hmem List.not_mem_nil
  | last nonempty unended =>
    obtain rfl := List.mem_singleton.mp hmem
    rw [List.takeWhile_eq_self_iff.mpr fun c hc => decide_eq_true (ne_of_mem_of_not_mem hc unended)]
    exact Nat.le_succ _
  | @cons body rest inner more ih =>
    rcases List.mem_cons.mp hmem with rfl | hmem
    · have hbody : ∀ c ∈ body, decide (c ≠ nl) = true := fun c hc => decide_eq_true (ne_of_mem_of_not_mem hc inner)
      rw [List.takeWhile_append_of_pos hbody, List.length_append, List.length_append, List.length_singleton]
      exact Nat.succ_le_succ (Nat.le_add_right _ _)
    · exact ih hmem

/-! ## Reading -/

/-- What has no end of line is read as far as the window reaches, and the rest of the window behind it. -/
theorem piece_body {width : Nat} {body : List α} (text : List α) (inner : nl ∉ body) (fits : body.length ≤ width) :
    piece nl width (body ++ text) =
      (body ++ (piece nl (width - body.length) text).1, (piece nl (width - body.length) text).2) := by
  induction body generalizing width with
  | nil => rfl
  | cons c body ih =>
    rw [List.length_cons] at fits
    obtain ⟨w, rfl⟩ : ∃ w, width = w + 1 := ⟨width - 1, (Nat.sub_add_cancel (Nat.le_trans (Nat.succ_pos _) fits)).symm⟩
    rw [List.mem_cons, not_or] at inner
    rw [List.cons_append, piece, if_neg (Ne.symm inner.1), ih inner.2 (Nat.le_of_succ_le_succ fits),
      List.length_cons, Nat.succ_sub_succ]
    rfl

/-- A line that fits into the window is read whole. -/
theorem piece_line {width : Nat} {body text : List α} (inner : nl ∉ body) (fits : body.length < width) :
    piece nl width (body ++ [nl] ++ text) = (body ++ [nl], text) := by
  obtain ⟨w, hw⟩ : ∃ w, width - body.length = w + 1 := ⟨width - body.length - 1, by omega⟩
  rw [List.append_assoc, piece_body _ inner (Nat.le_of_lt fits), hw, List.singleton_append, piece, if_pos rfl]

theorem piece_last {width : Nat} {line : List α} (unended : nl ∉ line) (fits : line.length ≤ width) :
    piece nl width line = (line, []) := by
  have hread := piece_body [] unended fits
  rw [List.append_nil] at hread
  rw [hread]
  cases width - line.length with
  | zero => rw [piece, List.append_nil]
  | succ w => rw [piece, List.append_nil]

/-- A read takes from the front of the text. -/
theorem piece_append (width : Nat) (text : List α) : (piece nl width text).1 ++ (piece nl width text).2 = text := by
  induction width generalizing text with
  | zero => rfl
  | succ width ih =>
    cases text with
    | nil => rfl
    | cons c text =>
      rw [piece]
      split
      · rfl
      · exact congrArg (c :: ·) (ih text)

theorem pieces_succ {width n : Nat} {text : List α} (h : text ≠ []) :
    pieces nl width (n + 1) text = (piece nl width text).1 :: pieces nl width n (piece nl width text).2 := by
  cases text with
  | nil => exact absurd rfl h
  | cons c text => rw [pieces]

/-- What is read comes from the text. -/
theorem subset_of_mem_pieces {width n : Nat} {text line : List α} (h : line ∈ pieces nl width n text) : line ⊆ text := by
  induction n generalizing text with
  | zero => exact absurd h List.not_mem_nil
  | succ n ih =>
    cases text with
    | nil => exact absurd h List.not_mem_nil
    | cons c text =>
      have hsplit : (piece nl width (c :: text)).1 ++ (piece nl width (c :: text)).2 = c :: text := piece_append width _
      rw [pieces] at h
      rcases List.mem_cons.mp h with rfl | h
      · intro x hx
        rw [← hsplit]
        exact List.mem_append_left _ hx
      · intro x hx
        rw [← hsplit]
        exact List.mem_append_right _ (ih h hx)

theorem lines_single {body : List α} (inner : nl ∉ body) : lines nl (body ++ [nl]) = [body ++ [nl]] := by
  induction body with
  | nil => rw [List.nil_append, lines, if_pos rfl, lines]
  | cons c body ih =>
    rw [List.mem_cons, not_or] at inner
    rw [List.cons_append, lines, if_neg (Ne.symm inner.1), ih inner.2]

/-- As long as no line is longer than the window, and the reads are enough, the pieces are the lines. -/
theorem pieces_flatten {width n : Nat} {ls : List (List α)} (h : Cut nl ls)
    (fits : ∀ line ∈ ls, line.length ≤ width) (enough : ls.length ≤ n) : pieces nl width n ls.flatten = ls := by
  induction h generalizing n with
  | nil => cases n with
    | zero => rfl
    | succ n => rfl
  | @last line nonempty unended =>
    obtain ⟨m, rfl⟩ : ∃ m, n = m + 1 := ⟨n - 1, (Nat.sub_add_cancel enough).symm⟩
    obtain ⟨c, text, rfl⟩ := List.exists_cons_of_ne_nil nonempty
    rw [List.flatten_singleton, pieces, piece_last unended (fits _ List.mem_cons_self)]
    cases m with
    | zero => rfl
    | succ m => rfl
  | @cons body rest inner more ih =>
    obtain ⟨m, rfl⟩ : ∃ m, n = m + 1 := ⟨n - 1, (Nat.sub_add_cancel (Nat.lt_of_lt_of_le (Nat.succ_pos _) enough)).symm⟩
    have hline : (body ++ [nl]).length ≤ width := fits _ List.mem_cons_self
    rw [List.length_append, List.length_singleton] at hline
    obtain ⟨c, text, htext⟩ := List.exists_cons_of_ne_nil (List.append_ne_nil_of_right_ne_nil body (List.cons_ne_nil nl []))
    have hread := @piece_line _ _ nl width body rest.flatten inner hline
    rw [List.flatten_cons, htext, List.cons_append, pieces, ← List.cons_append, ← htext, hread]
    dsimp only
    rw [ih (fun line hline => fits line (List.mem_cons_of_mem _ hline)) (Nat.le_of_succ_le_succ enough)]

theorem pieces_eq_lines {width n : Nat} {text : List α} (fits : ∀ line ∈ lines nl text, line.length ≤ width)
    (enough : (lines nl text).length ≤ n) : pieces nl width n text = lines nl text := by
  have h := pieces_flatten (cut_lines text) fits enough
  rwa [flatten_lines] at h

end Lines

namespace Settings

variable {ι σ ν : Type}

/-- What a field holds after settings were read one after the other is what the last of those that set it
said, or what it held before. -/
theorem foldl_last {set : σ → ι → σ} (field : σ → ν) (value : ι → Option ν)
    (step : ∀ s i, field (set s i) = (value i).getD (field s)) (is : List ι) (s : σ) :
    field (is.foldl set s) = ((is.filterMap value).getLast?).getD (field s) := by
  induction is using List.reverseRecOn with
  | nil => rfl
  | append_singleton is i ih =>
    rw [List.foldl_append, List.foldl_cons, List.foldl_nil, step, ih, List.filterMap_append]
    cases h : value i with
    | none =>
      rw [List.filterMap_cons_none h, List.filterMap_nil, List.append_nil]
      rfl
    | some v =>
      rw [List.filterMap_cons_some h, List.filterMap_nil, List.getLast?_concat]
      rfl

end Settings

/-!
# The last stretch of a list

A list of answers is a sequence of stretches: within one the answers agree, from one to the next they
change. `Opens key past first` says that `first` opened the last stretch.
-/

namespace Stretch

variable {α κ : Type} {key : α → κ} {past : List α} {first other x : α}

/-- `first` opened the last stretch: those after it have its key, the one before it has another. -/
def Opens (key : α → κ) (past : List α) (first : α) : Prop :=
  ∃ before more, past = before ++ first :: more ∧ (∀ x ∈ before.getLast?, key x ≠ key first) ∧
    ∀ x ∈ more, key x = key first

theorem Opens.singleton (key : α → κ) (x : α) : Opens key [x] x :=
  ⟨[], [], rfl, by simp, by simp⟩

/-- What ends a list ends with is what the list ends with. -/
theorem getLast?_append_cons (before more : List α) :
    (before ++ x :: more).getLast? = (x :: more).getLast? := by
  rw [List.getLast?_append, List.getLast?_cons, Option.some_or]

/-- The last stretch ends with its own key. -/
theorem Opens.key_last (h : Opens key past first) : ∀ x ∈ past.getLast?, key x = key first := by
  obtain ⟨before, more, rfl, -, hmore⟩ := h
  intro x hx
  rw [getLast?_append_cons] at hx
  rcases List.mem_cons.mp (List.mem_of_getLast? hx) with rfl | hmem
  · rfl
  · exact hmore x hmem

/-- One more of the same key continues the stretch. -/
theorem Opens.continued (h : Opens key past first) (same : key x = key first) : Opens key (past ++ [x]) first := by
  obtain ⟨before, more, rfl, hbefore, hmore⟩ := h
  refine ⟨before, more ++ [x], by rw [List.append_assoc, List.cons_append], hbefore, fun y hy => ?_⟩
  rcases List.mem_append.mp hy with hy | hy
  · exact hmore y hy
  · obtain rfl := List.mem_singleton.mp hy
    exact same

/-- One of another key opens the next stretch. -/
theorem Opens.turned (h : Opens key past first) (change : key x ≠ key first) : Opens key (past ++ [x]) x := by
  refine ⟨past, [], rfl, fun y hy heq => ?_, by simp⟩
  rw [h.key_last y hy] at heq
  exact change heq.symm

/-- A stretch is not opened within the stretch that another opened. -/
theorem Opens.not_later {before more between : List α} (hmore : ∀ x ∈ more, key x = key first)
    (hbefore : ∀ x ∈ (before ++ first :: between).getLast?, key x ≠ key other)
    (hsplit : more = between ++ other :: past) : False := by
  have hother : key other = key first := hmore other (by rw [hsplit]; exact List.mem_append_right _ List.mem_cons_self)
  obtain ⟨y, hy⟩ : ∃ y, (first :: between).getLast? = some y := ⟨_, List.getLast?_eq_some_getLast (List.cons_ne_nil _ _)⟩
  have hkey : key y = key first := by
    rcases List.mem_cons.mp (List.mem_of_getLast? hy) with rfl | hmem
    · rfl
    · exact hmore y (by rw [hsplit]; exact List.mem_append_left _ hmem)
  refine hbefore y ?_ (hkey.trans hother.symm)
  rw [getLast?_append_cons]
  exact hy

/-- One element opened the last stretch. -/
theorem Opens.unique (h : Opens key past first) (h' : Opens key past other) : first = other := by
  obtain ⟨before, more, rfl, hbefore, hmore⟩ := h
  obtain ⟨before', more', hsplit, hbefore', hmore'⟩ := h'
  rcases List.append_eq_append_iff.mp hsplit with ⟨between, rfl, heq⟩ | ⟨between, rfl, heq⟩
  · cases between with
    | nil => exact (List.cons.inj heq).1
    | cons y between =>
      obtain ⟨rfl, htail⟩ := List.cons.inj heq
      exact (not_later hmore hbefore' htail).elim
  · cases between with
    | nil => exact (List.cons.inj heq).1.symm
    | cons y between =>
      obtain ⟨rfl, htail⟩ := List.cons.inj heq
      exact (not_later hmore' hbefore htail).elim

end Stretch

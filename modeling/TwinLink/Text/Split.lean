/-! Cutting a text at every place where a separator stands. -/

namespace TwinLink.Text

/-- The pieces between separators; there is one more than there are separators. -/
def pieces (separator : Char → Bool) : List Char → List (List Char)
  | [] => [[]]
  | c :: s =>
    if separator c then [] :: pieces separator s
    else
      match pieces separator s with
      | piece :: rest => (c :: piece) :: rest
      | [] => [[c]]

theorem pieces_ne_nil (separator : Char → Bool) (s : List Char) : pieces separator s ≠ [] := by
  cases s with
  | nil => simp [pieces]
  | cons c s =>
    simp only [pieces]
    split
    · simp
    · split <;> simp

theorem pieces_of_forall {separator : Char → Bool} {s : List Char}
    (h : ∀ c ∈ s, separator c = false) : pieces separator s = [s] := by
  induction s with
  | nil => rfl
  | cons c s ih =>
    rw [pieces, ih fun d hd => h d (List.mem_cons_of_mem _ hd), h c List.mem_cons_self]
    rfl

/-- The pieces on both sides of a separator are those of the two parts. -/
theorem pieces_append_cons {separator : Char → Bool} {d : Char} (hd : separator d = true)
    (s t : List Char) :
    pieces separator (s ++ d :: t) = pieces separator s ++ pieces separator t := by
  induction s with
  | nil => simp [pieces, hd]
  | cons c s ih =>
    rw [List.cons_append, pieces, pieces, ih]
    split
    · rfl
    · cases hp : pieces separator s with
      | nil => exact absurd hp (pieces_ne_nil _ _)
      | cons piece rest => rfl

end TwinLink.Text

import Mathlib.Data.List.Basic
import Mathlib.Data.List.TakeWhile
import TwinLink.Text.Blank

/-! Trimming. What is left of a text when it is trimmed stands in it between blanks, and it is the
only part between blanks that has none at its own ends. -/

namespace TwinLink.Text

variable {bs s : List Char}

theorem dropWhile_blanks (hbs : ∀ c ∈ bs, isBlank c = true)
    (hs : ∀ c ∈ s.head?, isBlank c = false) : (bs ++ s).dropWhile isBlank = s := by
  rw [List.dropWhile_append_of_pos hbs]
  cases s with
  | nil => rfl
  | cons c s => exact List.dropWhile_cons_of_neg (by simp [hs c rfl])

theorem exists_trim (s : String) : ∃ before after,
    s.toList = before ++ (trim s).toList ++ after ∧ (∀ c ∈ before, isBlank c = true) ∧
      ∀ c ∈ after, isBlank c = true := by
  refine ⟨s.toList.takeWhile isBlank,
    ((s.toList.dropWhile isBlank).reverse.takeWhile isBlank).reverse, ?_, ?_, ?_⟩
  · rw [trim, String.toList_ofList, trimChars, List.append_assoc, ← List.reverse_append,
      List.takeWhile_append_dropWhile, List.reverse_reverse, List.takeWhile_append_dropWhile]
  · exact fun c hc => List.mem_takeWhile_imp hc
  · exact fun c hc => List.mem_takeWhile_imp (List.mem_reverse.mp hc)

theorem trim_of_append {before after : List Char} {t : String}
    (h : t.toList = before ++ s ++ after) (hbefore : ∀ c ∈ before, isBlank c = true)
    (hafter : ∀ c ∈ after, isBlank c = true) (hhead : ∀ c ∈ s.head?, isBlank c = false)
    (hlast : ∀ c ∈ s.getLast?, isBlank c = false) (hs : s ≠ []) : trim t = String.ofList s := by
  have hfirst : ∀ c ∈ (s ++ after).head?, isBlank c = false := by
    rwa [List.head?_append_of_ne_nil _ hs]
  have hreverse : ∀ c ∈ s.reverse.head?, isBlank c = false := by
    rwa [List.head?_reverse]
  have hblank : ∀ c ∈ after.reverse, isBlank c = true := by
    simpa using hafter
  rw [trim, trimChars, h, List.append_assoc, dropWhile_blanks hbefore hfirst, List.reverse_append,
    dropWhile_blanks hblank hreverse, List.reverse_reverse]

end TwinLink.Text

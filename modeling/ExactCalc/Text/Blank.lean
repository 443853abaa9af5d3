import ExactCalc.Text.Range

/-!
# White space

The code points with the Unicode property White_Space, and trimming by them. Zero
width spaces and the byte order mark do not have the property.
-/

set_option autoImplicit false

namespace ExactCalc.Text

def blanks : Ranges :=
  [(0x09, 0x0D), (0x20, 0x20), (0x85, 0x85), (0xA0, 0xA0), (0x1680, 0x1680),
   (0x2000, 0x200A), (0x2028, 0x2029), (0x202F, 0x202F), (0x205F, 0x205F), (0x3000, 0x3000)]

def isBlank (c : Char) : Bool := blanks.has c

/-- The text without the characters of a class at its end. -/
def trimEnd (p : Char → Bool) (cs : List Char) : List Char := (cs.reverse.dropWhile p).reverse

/-- What is trimmed off the end is of the class. -/
theorem exists_trimEnd_append (p : Char → Bool) (cs : List Char) :
    ∃ ds, cs = trimEnd p cs ++ ds ∧ ∀ c ∈ ds, p c = true := by
  refine ⟨(cs.reverse.takeWhile p).reverse, ?_, ?_⟩
  · rw [trimEnd, ← List.reverse_append, List.takeWhile_append_dropWhile, List.reverse_reverse]
  · intro c hc
    exact List.all_eq_true.1 List.all_takeWhile c (List.mem_reverse.1 hc)

/-- Where trimming stops, a character is left that is not of the class. -/
theorem not_of_mem_getLast?_trimEnd (p : Char → Bool) (cs : List Char) :
    ∀ c ∈ (trimEnd p cs).getLast?, p c = false := by
  intro c hc
  rw [trimEnd, List.getLast?_reverse, Option.mem_def] at hc
  have h := List.head?_dropWhile_not p cs.reverse
  rw [hc] at h
  exact h

/-- The text without the blanks at its two ends. -/
def trim (cs : List Char) : List Char := trimEnd isBlank (cs.dropWhile isBlank)

example : (blanks.map fun r => r.2 + 1 - r.1).sum = 25 := by decide

end ExactCalc.Text

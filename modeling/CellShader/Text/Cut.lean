/-!
# Cutting a text at a character

A text is cut into the stretches between the places where a separator stands, and put together
again. There is one stretch more than there are separators, so that cutting loses nothing.
-/

namespace CellShader.Text

/-- Put a character in front of the first stretch. -/
def consFirst (c : Char) : List (List Char) → List (List Char)
  | [] => [[c]]
  | l :: ls => (c :: l) :: ls

/-- The stretches between the separators. -/
def cut (sep : Char) : List Char → List (List Char)
  | [] => [[]]
  | c :: cs => if c = sep then [] :: cut sep cs else consFirst c (cut sep cs)

/-- Stretches put together with separators between them. -/
def glue (sep : Char) : List (List Char) → List Char
  | [] => []
  | [r] => r
  | r :: rs => r ++ sep :: glue sep rs

theorem cut_ne_nil (sep : Char) (cs : List Char) : cut sep cs ≠ [] := by
  cases cs with
  | nil => simp [cut]
  | cons c cs =>
    simp only [cut]
    split
    · simp
    · cases cut sep cs <;> simp [consFirst]

theorem length_cut (sep : Char) (cs : List Char) : (cut sep cs).length = cs.count sep + 1 := by
  induction cs with
  | nil => rfl
  | cons c cs ih =>
    by_cases h : c = sep
    · simp [cut, h, ih]
    · have hne := cut_ne_nil sep cs
      cases hr : cut sep cs with
      | nil => exact absurd hr hne
      | cons r rs =>
        rw [hr] at ih
        simpa [cut, h, hr, consFirst, List.count_cons] using ih

theorem glue_cut (sep : Char) (cs : List Char) : glue sep (cut sep cs) = cs := by
  induction cs with
  | nil => rfl
  | cons c cs ih =>
    have hne := cut_ne_nil sep cs
    cases hr : cut sep cs with
    | nil => exact absurd hr hne
    | cons r rs =>
      rw [hr] at ih
      by_cases h : c = sep
      · simp [cut, h, hr, glue, ih]
      · cases rs with
        | nil => simpa [cut, h, hr, consFirst, glue] using ih
        | cons r' rs' => simpa [cut, h, hr, consFirst, glue] using ih

end CellShader.Text

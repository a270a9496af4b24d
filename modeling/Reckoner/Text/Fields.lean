namespace Reckoner.Text

/-!
# Separated fields

Main definition:
* `fields`: the pieces of a text between the occurrences of a separator

Main statement: `fields_ne_nil` (there is always at least one piece).
-/

/-- The pieces of a text between the occurrences of a separator; there is always one more piece
    than separators. -/
def fields (separator : Char) : List Char → List (List Char)
  | [] => [[]]
  | c :: rest =>
    if c = separator then [] :: fields separator rest
    else match fields separator rest with
      | [] => [[c]]
      | field :: more => (c :: field) :: more

/-- There is always at least one piece. -/
theorem fields_ne_nil (separator : Char) (cs : List Char) : fields separator cs ≠ [] := by
  cases cs with
  | nil => simp [fields]
  | cons c rest =>
    simp only [fields]
    split
    · simp
    · split <;> simp

end Reckoner.Text

/-!
# Paths

A path is a text of segments with slashes between them. Empty segments and single dots name nothing
new; two dots name the directory above. Joining puts a slash between two paths unless there is one.
-/

namespace FileServer.Path

/-- The texts between the slashes. -/
def segments : List Char → List (List Char)
  | [] => [[]]
  | c :: rest =>
    if c = '/' then [] :: segments rest
    else
      match segments rest with
      | [] => [[c]]
      | first :: others => (c :: first) :: others

theorem segments_ne_nil (text : List Char) : segments text ≠ [] := by
  cases text with
  | nil => simp [segments]
  | cons c rest =>
    simp only [segments]
    split
    · simp
    · split <;> simp

/-- The segment that names the directory itself. -/
def here : List Char := ['.']

/-- The segment that names the directory above. -/
def above : List Char := ['.', '.']

/-- The segments that name something: not the empty ones, and not single dots. -/
def names (text : List Char) : List (List Char) :=
  (segments text).filter fun segment => segment ≠ [] ∧ segment ≠ here

/-- Whether a path leads upwards somewhere. -/
def climbs (text : List Char) : Bool := (segments text).contains above

/-- One path beneath another. -/
def join (root relative : List Char) : List Char :=
  if root = [] ∨ root.getLast? = some '/' then root ++ relative else root ++ '/' :: relative

end FileServer.Path

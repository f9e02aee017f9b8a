/-!
# Parts of a text

A text is cut at each place of a mark. There is always at least one part.
-/

namespace Lifecycle.Text

/-- The parts of a text between the places of a mark. -/
def partsAt (mark : Char) : List Char → List (List Char)
  | [] => [[]]
  | c :: cs =>
    match partsAt mark cs with
    | [] => [[c]]
    | part :: parts => if c = mark then [] :: part :: parts else (c :: part) :: parts

end Lifecycle.Text

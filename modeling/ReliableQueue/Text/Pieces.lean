/-!
Texts taken apart at separators.
-/

namespace ReliableQueue.Text

/-- The parts of a text between separators; one more than there are separators. -/
def pieces (isSeparator : Char → Bool) : List Char → List (List Char)
  | [] => [[]]
  | c :: cs =>
    if isSeparator c then [] :: pieces isSeparator cs
    else
      match pieces isSeparator cs with
      | part :: parts => (c :: part) :: parts
      | [] => [[c]]

end ReliableQueue.Text

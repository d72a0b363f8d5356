/-!
# Pieces of a text

A text in its pieces between separators, and a text cut at the first separator.
-/

namespace TimetableFeed.Text

/-- The pieces of `cs` between the characters `mark`; there is always one at least. -/
def splitAt (mark : Char) : List Char → List (List Char)
  | [] => [[]]
  | c :: rest =>
    if c = mark then [] :: splitAt mark rest
    else
      match splitAt mark rest with
      | [] => [[c]]
      | piece :: pieces => (c :: piece) :: pieces

/-- The part before the first `mark` and the part after it, if there is one. -/
def cut (mark : Char) (cs : List Char) : List Char × Option (List Char) :=
  (cs.takeWhile (· ≠ mark),
    match cs.dropWhile (· ≠ mark) with
    | [] => none
    | _ :: rest => some rest)

end TimetableFeed.Text

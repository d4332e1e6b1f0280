/-!
Texts divided by a mark.
-/

namespace PatternHooks.Text

/-- What stands before, between and after the marks. -/
def parts (mark : Char) : List Char → List (List Char)
  | [] => [[]]
  | c :: cs =>
    if c = mark then [] :: parts mark cs
    else match parts mark cs with
      | [] => [[c]]
      | part :: more => (c :: part) :: more

def split (mark : Char) (s : String) : List String := (parts mark s.toList).map String.ofList

end PatternHooks.Text

/-! # The parts of a text

A text is divided at every place where a given character stands. There is always one part more
than there are such places, so parts can be empty.
-/
namespace Scriptlet.Text

/-- The parts of a text between the given character, where `part` is what has been read of the first
one, in reverse. -/
def partsFrom (mark : Char) (part : List Char) : List Char → List String
  | [] => [String.ofList part.reverse]
  | c :: rest =>
    if c = mark then String.ofList part.reverse :: partsFrom mark [] rest
    else partsFrom mark (c :: part) rest

/-- The parts of a text between the given character. -/
def parts (mark : Char) (text : String) : List String :=
  partsFrom mark [] text.toList

end Scriptlet.Text

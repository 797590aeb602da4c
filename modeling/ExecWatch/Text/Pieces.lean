/-!
# Pieces of a text

Cutting a text at every separator, and finding one text in another.
-/

namespace ExecWatch.Text

/-- The pieces of `text` between the characters that `separates` holds of. -/
def pieces (separates : Char → Bool) : List Char → List (List Char)
  | [] => [[]]
  | c :: rest =>
    if separates c then [] :: pieces separates rest
    else
      match pieces separates rest with
      | first :: others => (c :: first) :: others
      | [] => [[c]]

/-- What stands behind the first occurrence of `mark`. -/
def after? (mark : List Char) : List Char → Option (List Char)
  | [] => if mark.isEmpty then some [] else none
  | c :: rest =>
    if mark.isPrefixOf (c :: rest) then some ((c :: rest).drop mark.length) else after? mark rest

/-- The text holds `mark`. -/
def holds (mark text : List Char) : Bool := (after? mark text).isSome

end ExecWatch.Text

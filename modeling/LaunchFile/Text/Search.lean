/-!
# Text/Search — texts inside texts

A text occurs in another when it begins at some place of it; the empty text occurs everywhere.
-/

namespace LaunchFile.Text

/-- Whether `part` begins at some place of the text. -/
def occurs (part : List Char) : List Char → Bool
  | [] => part.isEmpty
  | c :: cs => part.isPrefixOf (c :: cs) || occurs part cs

end LaunchFile.Text

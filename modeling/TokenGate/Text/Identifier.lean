/-!
# Identifiers

The ASCII names of tokens and of the data that conditions look up.
-/

namespace TokenGate.Text

/-- An ASCII letter. -/
def isLetter (c : Char) : Bool := ('a' ≤ c && c ≤ 'z') || ('A' ≤ c && c ≤ 'Z')

/-- An ASCII letter or digit. -/
def isLetterOrDigit (c : Char) : Bool := isLetter c || ('0' ≤ c && c ≤ '9')

/-- A character that may begin an identifier. -/
def isNameStart (c : Char) : Bool := isLetter c || c == '_'

/-- A character that may stand in an identifier after the first. -/
def isNamePart (c : Char) : Bool := isLetterOrDigit c || c == '_'

/-- An identifier: a letter or underscore, then letters, digits and underscores. -/
def isIdentifier : List Char → Bool
  | [] => false
  | c :: rest => isNameStart c && rest.all isNamePart

end TokenGate.Text

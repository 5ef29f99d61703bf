/-
LIKE patterns for a text that is to be matched literally.

In a pattern `%` stands for any text, `_` for any one character, and a backslash
makes the next character literal.  So a user's text gets a backslash before each
of these three, and the wildcard of the operator goes around it.
-/

namespace EventReport.Text.Pattern

/-- The characters that do not stand for themselves in a pattern. -/
def isSpecial (c : Char) : Bool := c == '\\' || c == '%' || c == '_'

/-- The pattern that only the text itself matches. -/
def literal : List Char → List Char
  | [] => []
  | c :: cs => if isSpecial c then '\\' :: c :: literal cs else c :: literal cs

/-- The pattern for the texts that contain `s`. -/
def containing (s : String) : String := String.ofList ('%' :: literal s.toList ++ ['%'])

/-- The pattern for the texts that begin with `s`. -/
def startingWith (s : String) : String := String.ofList (literal s.toList ++ ['%'])

/-- The pattern for the texts that end with `s`. -/
def endingWith (s : String) : String := String.ofList ('%' :: literal s.toList)

end EventReport.Text.Pattern

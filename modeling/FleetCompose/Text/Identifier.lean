/-!
# Identifiers

The names of template variables: an ASCII letter or underscore, followed by ASCII
letters, digits and underscores.
-/

namespace FleetCompose.Text

/-- An ASCII letter or an underscore. -/
def startsIdentifier (c : Char) : Bool :=
  c.isAlpha || c == '_'

/-- An ASCII letter, an ASCII digit or an underscore. -/
def continuesIdentifier (c : Char) : Bool :=
  c.isAlphanum || c == '_'

/-- Is the list of characters an identifier? -/
def isIdentifierChars : List Char → Bool
  | [] => false
  | c :: cs => startsIdentifier c && cs.all continuesIdentifier

/-- Is the text an identifier? -/
def isIdentifier (s : String) : Bool :=
  isIdentifierChars s.toList

theorem continuesIdentifier_of_starts {c : Char} (h : startsIdentifier c = true) :
    continuesIdentifier c = true := by
  simp only [startsIdentifier, continuesIdentifier, Char.isAlphanum, Bool.or_eq_true] at *
  rcases h with h | h
  · exact .inl (.inl h)
  · exact .inr h

end FleetCompose.Text

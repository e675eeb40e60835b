/-
Text as the linter sees it.

A source file is bytes, and nearly all of them spell characters.  A byte that is part of no
character still has to be kept when a line is mended, so it counts as one glyph of its own: it
is never blank, and it is never one of the characters that a rule asks for.  Everything the
rules ask for is ASCII, and so is the set of blanks; a no-break space is an ordinary character
here.
-/

namespace Semicolon

/-- One unit of a source text: a character, or a byte that is part of no character. -/
inductive Glyph where
  | char (c : Char)
  | byte (b : UInt8)
  deriving DecidableEq, Repr, Inhabited

namespace Glyph

/-- The blanks: space, tab, line feed, vertical tab, form feed, carriage return. -/
def isBlank : Glyph → Bool
  | .char c => [' ', '\t', '\n', '\x0b', '\x0c', '\r'].contains c
  | .byte _ => false

/-- Is this glyph one of the given characters? -/
def among (cs : String) : Glyph → Bool
  | .char c => cs.toList.contains c
  | .byte _ => false

end Glyph

/-- A text is a list of glyphs. -/
abbrev Text := List Glyph

namespace Text

/-- The text that spells a string. -/
def ofString (s : String) : Text := s.toList.map Glyph.char

/-- The text without its leading blanks. -/
def trimLeft (t : Text) : Text := t.dropWhile Glyph.isBlank

/-- The text without its trailing blanks. -/
def trimRight (t : Text) : Text := (t.reverse.dropWhile Glyph.isBlank).reverse

/-- A text of blanks alone; the empty text is one. -/
def isBlank (t : Text) : Bool := t.all Glyph.isBlank

/-- The first glyph, if there is one. -/
def first? (t : Text) : Option Glyph := t.head?

/-- The last glyph, if there is one. -/
def last? (t : Text) : Option Glyph := t.getLast?

/-- Does the text begin with the word? -/
def startsWith (t : Text) (word : String) : Bool := (ofString word).isPrefixOf t

/-- Does the text end with the word? -/
def endsWith (t : Text) (word : String) : Bool := (ofString word).isSuffixOf t

/-- Does the text begin with one of the words? -/
def startsWithAny (t : Text) (words : List String) : Bool := words.any t.startsWith

/-- Does the text end with one of the words? -/
def endsWithAny (t : Text) (words : List String) : Bool := words.any t.endsWith

/-- Is the text exactly one of the words? -/
def isOneOf (t : Text) (words : List String) : Bool := words.any (fun w => t = ofString w)

/-- Does the character occur anywhere in the text? -/
def has (t : Text) (c : Char) : Bool := t.contains (.char c)

/-- How often the character occurs. -/
def occurrences (t : Text) (c : Char) : Nat := t.count (.char c)

/-- How many more times `opening` occurs than `closing`; negative when there are fewer. -/
def net (opening closing : Char) (t : Text) : Int :=
  (t.occurrences opening : Int) - (t.occurrences closing : Int)

/-- The net number of round brackets that the text opens. -/
def parenNet (t : Text) : Int := net '(' ')' t

end Text

end Semicolon

/-
A line and its trailing comment.

A comment starts at the first `//` that does not stand directly after a colon, so the two
slashes of `http://host` stay code.  Quotation marks are not looked at: a `//` inside a
string literal starts a comment too.  The code of a line with a comment loses its trailing
blanks; a line without one is all code, exactly as it stands.
-/
import Semicolon.Text.Glyph

namespace Semicolon

/-- One line of a source text, without its line end, and its two parts. -/
structure Line where
  text : Text
  code : Text
  comment : Text
  deriving DecidableEq, Repr

namespace Line

/-- Cuts a text before the first comment mark.  `before` is the glyph in front of the text, if
there is one.  The second part is empty exactly when there is no mark. -/
def cut : (before : Option Glyph) → Text → Text × Text
  | _, [] => ([], [])
  | before, g :: rest =>
    if Text.startsWith (g :: rest) "//" && before ≠ some (.char ':') then ([], g :: rest)
    else
      let (code, comment) := cut (some g) rest
      (g :: code, comment)

/-- The code and the trailing comment of a text. -/
def split (t : Text) : Text × Text :=
  match cut none t with
  | (_, []) => (t, [])
  | (code, comment) => (code.trimRight, comment)

/-- The line that a text makes up. -/
def ofText (t : Text) : Line :=
  { text := t, code := (split t).1, comment := (split t).2 }

/-- The line with a semicolon between its code and its comment. -/
def terminated (l : Line) : Text := l.code ++ .char ';' :: l.comment

end Line

end Semicolon

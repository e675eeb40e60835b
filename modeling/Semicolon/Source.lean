/-
A source file between bytes and lines.

Reading decodes the bytes, cuts at line feeds and drops every carriage return and line feed at
the end of a piece.  A final line feed ends the last line and starts no further one; an empty
file has no lines.  Writing puts a line feed after every line, so a file always ends in one.
-/
import Semicolon.Text.Utf8

namespace Semicolon.Source

/-- The pieces of a text between line feeds.  There is always at least one. -/
def pieces : Text → List Text
  | [] => [[]]
  | g :: rest =>
    match pieces rest with
    | [] => [[g]]
    | p :: ps => if g = .char '\n' then [] :: p :: ps else (g :: p) :: ps

/-- A carriage return or a line feed. -/
def isLineEnd (g : Glyph) : Bool := g = .char '\r' || g = .char '\n'

/-- A piece without the line ends that it ends in. -/
def chomp (t : Text) : Text := (t.reverse.dropWhile isLineEnd).reverse

/-- The lines of a text. -/
def linesOfText (t : Text) : List Text :=
  let ps := pieces t
  (if ps.getLast? = some [] then ps.dropLast else ps).map chomp

/-- The lines of a file with these bytes. -/
def lines (bs : Bytes) : List Text := linesOfText (Utf8.decode bs)

/-- The bytes of a file with these lines. -/
def bytes (ls : List Text) : Bytes := ls.flatMap fun l => Utf8.encode l ++ [0x0A]

end Semicolon.Source

/-
Indentation does not matter.

The linter looks at a line in three forms: as it stands, without its indentation, and split into
code and comment.  The rules do not agree on which form they take.  The semicolon that closes a
declaration and the operators of logic are looked for in the line as it stands, what opens a block
in the trimmed line, the tail of the code in a split of the line as it stands, and the kind of the
line in a split of the trimmed one.  None of them can tell by how much the line is indented: what is
counted or looked for at the end is never blank, and the split of the trimmed line is the trimmed
split of the line.  So two lines that are the same without their indentation are alike.

A line that is all blanks is all indentation.  Its code is those blanks and not the empty text,
but it is never reported, and so it is only replaced.
-/
import Semicolon.Proofs.Alike
import Semicolon.Proofs.Independence

namespace Semicolon

/-- The text with `w` in the place of its indentation. -/
def Text.reindent (w t : Text) : Text := w ++ t.trimLeft

namespace Text

variable {w t u : Text}

theorem trimLeft_trimLeft (t : Text) : t.trimLeft.trimLeft = t.trimLeft :=
  trimLeft_of_prefix (List.prefix_refl _)

theorem trimLeft_reindent (hw : w.isBlank = true) : (reindent w t).trimLeft = t.trimLeft := by
  rw [reindent, trimLeft_blank_append hw, trimLeft_trimLeft]

/-- Texts that are the same without their indentation have the same code, up to indentation. -/
theorem trimLeft_code (h : u.trimLeft = t.trimLeft) :
    (Line.split u).1.trimLeft = (Line.split t).1.trimLeft := by
  have hsplit : Line.split u.trimLeft = Line.split t.trimLeft := by rw [h]
  rw [Line.split_trimLeft, Line.split_trimLeft] at hsplit
  exact congrArg Prod.fst hsplit

/-- **No rule can tell apart two lines that are the same without their indentation.** -/
theorem alike_of_trimLeft_eq (h : u.trimLeft = t.trimLeft) : t.Alike u where
  parens := by
    rw [← net_trimLeft (by decide) (by decide), trimLeft_code h,
      net_trimLeft (by decide) (by decide)]
  brackets := by
    rw [← net_trimLeft (by decide) (by decide), trimLeft_code h,
      net_trimLeft (by decide) (by decide)]
  endsOpen := by
    show (Line.split u).1.last?.any (·.among ("," ++ binaryOperators))
      = (Line.split t).1.last?.any (·.among ("," ++ binaryOperators))
    rw [← last?_any_trimLeft (by decide), trimLeft_code h, last?_any_trimLeft (by decide)]
  picksUp := by rw [picksUp, picksUp, h]
  dangles := by
    rw [dangles, dangles, h, ← endsWithAny_trimLeft (by decide), h,
      endsWithAny_trimLeft (by decide)]
  ignorable := by
    intro p
    rw [isIgnorable, isIgnorable, h]
  bare := by rw [h]
  semicolon := by rw [← has_trimLeft (by decide), h, has_trimLeft (by decide)]
  condition := by rw [h]
  result := by rw [h]
  net := by rw [← parenNet_trimLeft, h, parenNet_trimLeft]

end Text

namespace Line

variable {w t : Text}

/-- Blanks in front of a line with code in it are blanks in front of its code. -/
theorem split_indent (hw : w.isBlank = true) (hcode : (split t).1.isBlank = false) :
    split (w ++ t) = (w ++ (split t).1, (split t).2) := by
  have hcut := cut_indent hw t
  by_cases h : (cut none t).2 = []
  · rw [split_of_unmarked h, split_of_unmarked (by rw [hcut]; exact h)]
  · rw [split_of_marked h] at hcode ⊢
    have hcore : (cut none t).1.isBlank = false := by
      rw [Bool.eq_false_iff]
      intro hblank
      rw [Text.trimRight_eq_nil_iff.mpr hblank] at hcode
      exact Bool.noConfusion hcode
    rw [split_of_marked (by rw [hcut]; exact h), hcut, Text.trimRight_append hcore]

/-- A line may be indented before or after it gets its semicolon. -/
theorem terminated_reindent (hw : w.isBlank = true) (hcode : (split t).1.isBlank = false) :
    (ofText (Text.reindent w t)).terminated = Text.reindent w (ofText t).terminated := by
  have htrim : (split t.trimLeft).1.isBlank = false := by
    rw [split_trimLeft, Text.isBlank_trimLeft]
    exact hcode
  have hsplit : split (Text.reindent w t) = (w ++ (split t).1.trimLeft, (split t).2) := by
    rw [Text.reindent, split_indent hw htrim, split_trimLeft]
  show (split (Text.reindent w t)).1 ++ .char ';' :: (split (Text.reindent w t)).2
    = w ++ (ofText t).terminated.trimLeft
  rw [hsplit, trimLeft_terminated hcode, List.append_assoc]

end Line

/-! ### Another indentation in a file -/

namespace Scan

/-- The lines with another indentation on each of them.  The first line has the index zero. -/
def reindent (new : Nat → Text) (lines : List Text) : List Text :=
  lines.mapIdx fun i t => Text.reindent (new i) t

variable {p : Policy} {lines : List Text} {new : Nat → Text}

theorem getElem?_reindent (new : Nat → Text) (lines : List Text) (i : Nat) :
    (reindent new lines)[i]? = lines[i]?.map (Text.reindent (new i)) :=
  List.getElem?_mapIdx

theorem alike_reindent (hnew : ∀ i < lines.length, (new i).isBlank = true) :
    List.Forall₂ Text.Alike lines (reindent new lines) := by
  refine forall₂_mapIdx fun i t ht => ?_
  obtain ⟨hi, -⟩ := List.getElem?_eq_some_iff.mp ht
  exact Text.alike_of_trimLeft_eq (Text.trimLeft_reindent (hnew i hi))

theorem mended_reindent (hnew : ∀ i < lines.length, (new i).isBlank = true) :
    mended p (reindent new lines) = reindent new (mended p lines) := by
  refine List.ext_getElem? fun i => ?_
  rw [getElem?_mended, getElem?_reindent, getElem?_reindent, getElem?_mended,
    missing_of_alike p (alike_reindent hnew)]
  cases ht : lines[i]? with
  | none => rfl
  | some t =>
      simp only [Option.map_some]
      by_cases hmem : i + 1 ∈ missing p lines
      · obtain ⟨hi, -⟩ := List.getElem?_eq_some_iff.mp ht
        have hcode := Text.isBlank_code_of_not_ignorable (lacks_of_mem_missing ht hmem).accountable
        rw [if_pos hmem, if_pos hmem, Line.terminated_reindent (hnew i hi) hcode]
      · rw [if_neg hmem, if_neg hmem]

/-- **Indentation does not matter.**  Put other blanks in front of each line in the place of those
that are there: the same semicolons are missing, and every mended line is the old mended line
with the new blanks in front. -/
theorem reindent_unnoticed (p : Policy) (lines : List Text) (new : Nat → Text)
    (hnew : ∀ i < lines.length, (new i).isBlank = true) :
    missing p (reindent new lines) = missing p lines ∧
    mended p (reindent new lines) = reindent new (mended p lines) :=
  ⟨missing_of_alike p (alike_reindent hnew), mended_reindent hnew⟩

/-- A line of blanks alone, a comment alone, a line with a comment, and a sum over two lines. -/
def flushLines : List Text :=
  [Text.ofString "\t \t", Text.ofString " // (", Text.ofString "a  // b", Text.ofString "c",
    Text.ofString "\x0c+ d"]

/-- As many spaces in front of a line as there are lines above it. -/
def stairs (i : Nat) : Text := List.replicate i (.char ' ')

theorem reindent_unnoticed_stairs :
    (∀ i < flushLines.length, (stairs i).isBlank = true) ∧
    missing {} (reindent stairs flushLines) = [3, 5] ∧
    mended {} (reindent stairs flushLines)
      = [Text.ofString "", Text.ofString " // (", Text.ofString "  a;// b", Text.ofString "   c",
          Text.ofString "    + d;"] := by
  have hnew : ∀ i < flushLines.length, (stairs i).isBlank = true := by decide
  obtain ⟨hmissing, hmended⟩ := reindent_unnoticed {} flushLines stairs hnew
  refine ⟨hnew, ?_, ?_⟩
  · rw [hmissing]
    decide
  · rw [hmended]
    decide

end Scan

end Semicolon

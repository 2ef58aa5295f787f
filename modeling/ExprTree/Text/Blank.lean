/-!
# Blank characters

Which characters separate tokens and are trimmed from the ends of a text: the
characters of Unicode that are white space or separate paragraphs, segments
and lines. `trim` removes them at both ends and keeps everything else.
-/

namespace ExprTree.Text

/-- White space and the separator controls; a zero-width space is not blank. -/
def isBlank (c : Char) : Bool :=
  let n := c.toNat
  (9 ≤ n && n ≤ 13) || (28 ≤ n && n ≤ 32) || n == 0x85 || n == 0xA0 || n == 0x1680 ||
    (0x2000 ≤ n && n ≤ 0x200A) || n == 0x2028 || n == 0x2029 || n == 0x202F || n == 0x205F || n == 0x3000

/-- Drops the characters that satisfy `p` at both ends. -/
def trimWhere (p : Char → Bool) (cs : List Char) : List Char :=
  ((cs.dropWhile p).reverse.dropWhile p).reverse

/-- Drops the blanks at both ends. -/
def trimBlanks (cs : List Char) : List Char :=
  trimWhere isBlank cs

/-- Drops the blanks at both ends of a string. -/
def trim (s : String) : String :=
  String.ofList (trimBlanks s.toList)

theorem isBlank_of_isWhitespace {c : Char} (h : c.isWhitespace = true) : isBlank c = true := by
  simp only [Char.isWhitespace, Bool.or_eq_true, decide_eq_true_eq] at h
  rcases h with ((rfl | rfl) | rfl) | rfl <;> decide

end ExprTree.Text

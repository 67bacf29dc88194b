import LabelScheduler.Text.CharRange

/-!
# Blanks, trimmed text and fields

Blanks are the white-space controls, the information separators, the next-line control and the
space, line and paragraph separators. Trimming removes them from both ends; the fields of a text are
its maximal runs without blanks.
-/

namespace LabelScheduler.Text

/-- The blank characters. -/
def blankRanges : CharRanges :=
  [(0x0009, 0x000d), (0x001c, 0x0020), (0x0085, 0x0085), (0x00a0, 0x00a0), (0x1680, 0x1680),
    (0x2000, 0x200a), (0x2028, 0x2029), (0x202f, 0x202f), (0x205f, 0x205f), (0x3000, 0x3000)]

/-- A character that separates words. -/
def isBlank (c : Char) : Bool := blankRanges.has c

/-- The characters without those at both ends that satisfy `p`. -/
def trimBoth (p : Char → Bool) (cs : List Char) : List Char :=
  ((cs.dropWhile p).reverse.dropWhile p).reverse

/-- The text without the blanks at both ends. -/
def trim (s : String) : String := String.ofList (trimBoth isBlank s.toList)

/-- There is nothing but blanks in the text. -/
def isBlankText (s : String) : Bool := s.toList.all isBlank

/-- There is a blank somewhere in the text. -/
def hasBlank (s : String) : Bool := s.toList.any isBlank

/-- The maximal runs of characters that are not blank, in order. -/
def fieldChars : List Char → List (List Char)
  | [] => []
  | c :: cs =>
    if isBlank c then fieldChars cs
    else match cs with
      | [] => [[c]]
      | d :: _ =>
        if isBlank d then [c] :: fieldChars cs
        else match fieldChars cs with
          | [] => [[c]]
          | w :: ws => (c :: w) :: ws

/-- The blank-separated fields of a text, in order. -/
def fields (s : String) : List String := (fieldChars s.toList).map String.ofList

/-- The pieces of a text between the occurrences of `sep`; there is always at least one. -/
def piecesAt (sep : Char) : List Char → List (List Char)
  | [] => [[]]
  | c :: cs =>
    if c = sep then [] :: piecesAt sep cs
    else match piecesAt sep cs with
      | [] => [[c]]
      | p :: ps => (c :: p) :: ps

end LabelScheduler.Text

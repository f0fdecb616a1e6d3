/-!
# Blank characters

Sizes, rank lists, split lists and launcher variables may stand between blanks. A blank is a
character with the Unicode property `White_Space`, so a no-break space is one and a
zero-width space is not.
-/

namespace CollectiveBench.Text

/-- The code points of `White_Space`, as closed ranges in ascending order. -/
def blankRanges : List (Nat × Nat) :=
  [(0x09, 0x0d), (0x20, 0x20), (0x85, 0x85), (0xa0, 0xa0), (0x1680, 0x1680),
   (0x2000, 0x200a), (0x2028, 0x2029), (0x202f, 0x202f), (0x205f, 0x205f), (0x3000, 0x3000)]

/-- Whether the character is white space. -/
def isBlank (character : Char) : Bool :=
  blankRanges.any fun (first, last) => first ≤ character.toNat && character.toNat ≤ last

/-- The characters without leading blanks. -/
def trimStart (characters : List Char) : List Char := characters.dropWhile isBlank

/-- The characters without leading and trailing blanks. -/
def trim (characters : List Char) : List Char :=
  (trimStart (trimStart characters).reverse).reverse

end CollectiveBench.Text

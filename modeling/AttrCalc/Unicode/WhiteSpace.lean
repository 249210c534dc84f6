import AttrCalc.Unicode.CodeRange

/-!
# White space

The characters with the property White_Space.  They separate lexemes, and runs of them are what
layout normalisation reduces to single blanks.

## Main definitions

* `isWhiteSpace` : whether a character is white space.
-/

namespace AttrCalc.Unicode

/-- The characters with the property White_Space. -/
def whiteSpaceRanges : List CodeRange :=
  [⟨0x9, 0xD⟩, ⟨0x20, 0x20⟩, ⟨0x85, 0x85⟩, ⟨0xA0, 0xA0⟩, ⟨0x1680, 0x1680⟩, ⟨0x2000, 0x200A⟩,
    ⟨0x2028, 0x2029⟩, ⟨0x202F, 0x202F⟩, ⟨0x205F, 0x205F⟩, ⟨0x3000, 0x3000⟩]

/-- Whether `c` is white space. -/
def isWhiteSpace (c : Char) : Bool :=
  covers whiteSpaceRanges c

end AttrCalc.Unicode

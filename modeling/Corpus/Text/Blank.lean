import Corpus.Text.Ranges

/-!
# Blanks

The characters that count as white space: those with the Unicode property of that name and the four
separators U+001C to U+001F.
-/

namespace Corpus.Text

/-- The ranges of the white-space characters. -/
def blankRanges : Ranges :=
  [(0x9, 0xD), (0x1C, 0x20), (0x85, 0x85), (0xA0, 0xA0), (0x1680, 0x1680), (0x2000, 0x200A),
   (0x2028, 0x2029), (0x202F, 0x202F), (0x205F, 0x205F), (0x3000, 0x3000)]

/-- **White space.** -/
def isBlank (c : Char) : Bool := blankRanges.contains c

/-- The text without the blanks at its ends. -/
def stripped (text : Text) : Text := text.trimmed isBlank

end Corpus.Text

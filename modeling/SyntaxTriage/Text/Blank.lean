import SyntaxTriage.Text.CodeRange

/-!
White space in the wide sense of Unicode, with the four separators of ASCII.
-/

namespace SyntaxTriage.Text

def blankRanges : CodeRanges := [
  (0x9, 0xd), (0x1c, 0x20), (0x85, 0x85), (0xa0, 0xa0), (0x1680, 0x1680), (0x2000, 0x200a),
  (0x2028, 0x2029), (0x202f, 0x202f), (0x205f, 0x205f), (0x3000, 0x3000)]

def isBlank (c : Char) : Bool := blankRanges.contains c

def trimEnd (text : List Char) : List Char := (text.reverse.dropWhile isBlank).reverse

end SyntaxTriage.Text

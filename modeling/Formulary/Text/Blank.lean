/-!
This module contains the class of blank characters and the removal of blanks at both ends of a
text. Blanks separate tokens and stand around command lines without a meaning of their own.
-/

namespace Formulary

/--
The blank characters: the ASCII controls that move the cursor or separate records, the space, and
the other separators of Unicode.
-/
def isBlank (c : Char) : Bool :=
  let n := c.toNat
  (0x09 ≤ n && n ≤ 0x0D) || (0x1C ≤ n && n ≤ 0x20) || n == 0x85 || n == 0xA0 || n == 0x1680
    || (0x2000 ≤ n && n ≤ 0x200A) || n == 0x2028 || n == 0x2029 || n == 0x202F || n == 0x205F
    || n == 0x3000

def trim (text : String) : String :=
  String.ofList ((text.toList.dropWhile isBlank).reverse.dropWhile isBlank).reverse

end Formulary

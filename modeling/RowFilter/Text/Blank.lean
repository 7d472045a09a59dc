/-!
# Blank characters and trimming

A character is blank when Unicode gives it the White_Space property.  Trimming
removes the blanks at both ends of a text and keeps those inside it.  The zero
width space U+200B is not blank.
-/

namespace RowFilter
namespace Text

/-- The White_Space property. -/
def isBlank (c : Char) : Bool :=
  let n := c.toNat
  (9 ≤ n && n ≤ 13) || n == 0x20 || n == 0x85 || n == 0xA0 || n == 0x1680 ||
    (0x2000 ≤ n && n ≤ 0x200A) || n == 0x2028 || n == 0x2029 || n == 0x202F ||
    n == 0x205F || n == 0x3000

/-- The text without its leading blanks. -/
def trimStart (cs : List Char) : List Char :=
  cs.dropWhile isBlank

/-- The text without its trailing blanks. -/
def trimEnd (cs : List Char) : List Char :=
  (cs.reverse.dropWhile isBlank).reverse

/-- The text without the blanks at its ends. -/
def trim (cs : List Char) : List Char :=
  trimEnd (trimStart cs)

@[simp] theorem trimStart_nil :
    trimStart [] = [] :=
  rfl

@[simp] theorem trimEnd_nil :
    trimEnd [] = [] :=
  rfl

@[simp] theorem trim_nil :
    trim [] = [] :=
  rfl

end Text
end RowFilter

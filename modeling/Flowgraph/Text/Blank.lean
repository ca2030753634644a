/- # Flowgraph.Text.Blank -- white space at the ends of a text

`isBlank` is the property White_Space: the ASCII blanks, the next-line and
no-break characters, and the spaces and separators of typography.
`trim` takes blanks off both ends and nothing off the middle.

Texts are handled as lists of characters; `trimmed` is the same operation on
strings.
-/

set_option autoImplicit false

namespace Flowgraph.Text

/-- White space in the wide sense, with the separators outside ASCII. -/
def isBlank (c : Char) : Bool :=
  let n := c.toNat
  (0x9 ≤ n && n ≤ 0xD) || n == 0x20 || n == 0x85 || n == 0xA0 || n == 0x1680 ||
    (0x2000 ≤ n && n ≤ 0x200A) || n == 0x2028 || n == 0x2029 || n == 0x202F ||
    n == 0x205F || n == 0x3000

def trimStart (cs : List Char) : List Char := cs.dropWhile isBlank

def trimEnd (cs : List Char) : List Char := (cs.reverse.dropWhile isBlank).reverse

def trim (cs : List Char) : List Char := trimEnd (trimStart cs)

/-- The string without the blanks at its ends. -/
def trimmed (s : String) : String := String.ofList (trim s.toList)

/-- Whether a text holds anything but blanks. -/
def isBlankText (s : String) : Bool := s.toList.all isBlank

/-- The number of bytes of a text in UTF-8. -/
def byteSize : List Char → Nat
  | [] => 0
  | c :: cs => c.utf8Size + byteSize cs

@[simp] theorem byteSize_nil : byteSize [] = 0 := rfl

@[simp] theorem byteSize_cons (c : Char) (cs : List Char) :
    byteSize (c :: cs) = c.utf8Size + byteSize cs := rfl

@[simp] theorem byteSize_append (as bs : List Char) :
    byteSize (as ++ bs) = byteSize as + byteSize bs := by
  induction as with
  | nil => simp
  | cons c cs ih => simp [ih, Nat.add_assoc]

end Flowgraph.Text

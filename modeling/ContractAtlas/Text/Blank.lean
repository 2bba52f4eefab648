/-!
# Blanks

Which characters separate words, and the operations that rest on it: trimming,
splitting into words, and writing every run of blanks as a single space.  The
zero-width space, the Mongolian vowel separator and the byte-order mark are not
blanks.
-/

namespace ContractAtlas.Text

/-- The blanks: the ASCII ones with the four information separators, the next
line, and the space, line and paragraph separators of Unicode. -/
def isBlank (c : Char) : Bool :=
  let n := c.toNat
  if n < 0x80 then
    n == 0x20 || (0x09 ≤ n && n ≤ 0x0D) || (0x1C ≤ n && n ≤ 0x1F)
  else
    n == 0x85 || n == 0xA0 || n == 0x1680 || (0x2000 ≤ n && n ≤ 0x200A) ||
      n == 0x2028 || n == 0x2029 || n == 0x202F || n == 0x205F || n == 0x3000

/-- The blanks that may stand around a numeral: all but the information separators. -/
def isSpace (c : Char) : Bool :=
  isBlank c && !(0x1C ≤ c.toNat && c.toNat ≤ 0x1F)

def trimStart (chars : List Char) : List Char :=
  chars.dropWhile isBlank

def trimEnd (chars : List Char) : List Char :=
  (chars.reverse.dropWhile isBlank).reverse

/-- The characters without the blanks at both ends. -/
def trim (chars : List Char) : List Char :=
  trimEnd (trimStart chars)

/-- The characters without the spaces at both ends. -/
def trimSpaces (chars : List Char) : List Char :=
  ((chars.dropWhile isSpace).reverse.dropWhile isSpace).reverse

/-- Whether nothing but blanks is there. -/
def allBlank (chars : List Char) : Bool :=
  chars.all isBlank

/-- The maximal runs of characters that are no blanks. -/
def words (chars : List Char) : List (List Char) :=
  (chars.splitOnP isBlank).filter fun word => !word.isEmpty

/-- The words with one space between neighbours. -/
def collapse (chars : List Char) : List Char :=
  [' '].intercalate (words chars)

theorem mem_words {chars word : List Char} (h : word ∈ words chars) : word ≠ [] := by
  simp only [words, List.mem_filter, Bool.not_eq_true', List.isEmpty_eq_false_iff] at h
  exact h.2

end ContractAtlas.Text

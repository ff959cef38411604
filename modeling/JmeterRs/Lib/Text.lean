import Mathlib.Data.List.Infix
import JmeterRs.Lib.Mut

/-!
# Text as the standard library reads it

`trim` removes Unicode white space, digits are ASCII, and `parse` of an unsigned integer accepts a
leading plus sign.  `truncateBytes` cuts a text at a character boundary.
-/

namespace JmeterRs

/-- `char::is_whitespace`: the Unicode property White_Space. -/
def isWhitespace (c : Char) : Bool :=
  let n := c.toNat
  (9 ≤ n && n ≤ 13) || n == 0x20 || n == 0x85 || n == 0xA0 || n == 0x1680 ||
    (0x2000 ≤ n && n ≤ 0x200A) || n == 0x2028 || n == 0x2029 || n == 0x202F || n == 0x205F ||
    n == 0x3000

def trim (text : List Char) : List Char :=
  ((text.dropWhile isWhitespace).reverse.dropWhile isWhitespace).reverse

/-- `char::is_control`: the Unicode category Cc. -/
def isControl (c : Char) : Bool := c.toNat < 0x20 || (0x7F ≤ c.toNat && c.toNat ≤ 0x9F)

def startsWith (text start : String) : Bool := start.toList.isPrefixOf text.toList

/-- `str::contains`. -/
def containsText (text part : String) : Bool := part.toList <:+: text.toList

def isAsciiDigit (c : Char) : Bool := '0'.toNat ≤ c.toNat && c.toNat ≤ '9'.toNat

/-- The value of a text of ASCII digits. -/
def digitsValue (text : List Char) : ℕ := text.foldl (fun n c => 10 * n + (c.toNat - '0'.toNat)) 0

/-- A nonempty text of ASCII digits with a value up to `max`. -/
def parseDigits (max : ℕ) (text : List Char) : Option ℕ :=
  if text ≠ [] ∧ text.all isAsciiDigit ∧ digitsValue text ≤ max then some (digitsValue text)
  else none

/-- `str::parse::<usize>`. -/
def parseUsize (value : String) : Option ℕ :=
  match value.toList with
  | '+' :: digits => parseDigits usizeMax digits
  | digits => parseDigits usizeMax digits

/-- The longest run of leading characters within `n` UTF-8 bytes. -/
def takeBytes (n : ℕ) : List Char → List Char
  | [] => []
  | c :: cs => if c.utf8Size ≤ n then c :: takeBytes (n - c.utf8Size) cs else []

/-- Cuts a text to at most `max` bytes at a character boundary. -/
def truncateBytes (max : ℕ) (value : String) : String :=
  if value.utf8ByteSize ≤ max then value else String.ofList (takeBytes max value.toList)

end JmeterRs

import Paperboat.Paste.Stream

/-! One shell word of a paste. `decodePOSIXWord` reads it with two loops, the inner one for a quoted
section; here they are one recursion whose first argument is the quote of the section it is in. It is
compared with quote removal as a shell does it, byte by byte over the quoting that a byte stands in. -/

namespace Paperboat.Paste

def doubleQuote : UInt8 := '"'.toUInt8

def bytesIn (chars : List Char) : Bytes := chars.map Char.toUInt8

def refused : Bytes :=
  bytesIn [' ', '\t', '\r', '\n', '$', '\x60', '|', '&', ';', '<', '>', '(', ')', '\x7b', '\x7d', '~']

/-- What the next byte stands in: the last two are after a backslash that quotes. -/
inductive Quoting where
  | unquoted | single | double | escaped | doubleEscaped
  deriving DecidableEq

/-- The quoting of the section that a quote opens. -/
def sectionOf : Option UInt8 → Quoting
  | none => .unquoted
  | some quote => if quote = doubleQuote then .double else .single

@[simp] theorem sectionOf_none : sectionOf none = .unquoted := rfl

variable {q q' : Quoting} {w out : Bytes} {glob : Bool} {r : Bytes × Bool} {c : UInt8} {left : List (UInt8 × Quoting)}

end Paperboat.Paste

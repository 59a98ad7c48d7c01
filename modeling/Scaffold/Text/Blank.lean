/-!
Blank text: the characters with the White_Space property of the Unicode standard.
-/

namespace Scaffold.Text

/-- The 25 characters with the White_Space property. -/
def blankChars : List Char :=
  ['\t', '\n', '\x0b', '\x0c', '\r', ' ', '\u0085', '\u00a0', '\u1680', '\u2000', '\u2001',
   '\u2002', '\u2003', '\u2004', '\u2005', '\u2006', '\u2007', '\u2008', '\u2009', '\u200a',
   '\u2028', '\u2029', '\u202f', '\u205f', '\u3000']

def isBlankChar (c : Char) : Bool :=
  blankChars.contains c

def isBlank (text : String) : Bool :=
  text.toList.all isBlankChar

theorem isBlank_eq_true_iff {text : String} :
    isBlank text = true ↔ ∀ c ∈ text.toList, isBlankChar c = true := by
  simp [isBlank]

end Scaffold.Text

/-!
This module contains the blank characters of Unicode and what is defined by them: stripping a text
at both ends, and cutting a text into its comma separated entries.
-/

namespace NodeSettings
namespace Text

/--
A character is blank if it separates lines or words: the white space of Unicode together with the
four information separators U+001C to U+001F.
-/
def isBlank (c : Char) : Bool :=
  let n := c.toNat
  (9 ≤ n && n ≤ 13) || (28 ≤ n && n ≤ 32) || n == 0x85 || n == 0xA0 || n == 0x1680
    || (0x2000 ≤ n && n ≤ 0x200A) || n == 0x2028 || n == 0x2029 || n == 0x202F || n == 0x205F
    || n == 0x3000

def dropBlanks (cs : List Char) : List Char :=
  cs.dropWhile isBlank

def stripChars (cs : List Char) : List Char :=
  (dropBlanks (dropBlanks cs).reverse).reverse

def strip (s : String) : String :=
  String.ofList (stripChars s.toList)

@[simp]
theorem toList_strip (s : String) : (strip s).toList = stripChars s.toList := by
  simp [strip]

/-- The pieces between the commas; there is always one more of them than commas. -/
def splitCommas : List Char → List (List Char)
  | [] => [[]]
  | ',' :: cs => [] :: splitCommas cs
  | c :: cs =>
    match splitCommas cs with
    | [] => [[c]]
    | piece :: pieces => (c :: piece) :: pieces

theorem splitCommas_ne_nil (cs : List Char) : splitCommas cs ≠ [] := by
  fun_cases splitCommas cs <;> simp_all

def entries (s : String) : List String :=
  (splitCommas s.toList |>.map stripChars |>.filter (!·.isEmpty)).map String.ofList

end Text
end NodeSettings

/-!
This module contains texts: sequences of characters and of surrogates, the points that stand for one
half of a character each. No character is a surrogate, but an escape can write one by itself.
-/

namespace NodeSettings

inductive CodePoint where
  | char (c : Char)
  | surrogate (n : Fin 0x800)
deriving DecidableEq

namespace CodePoint

def toNat : CodePoint → Nat
  | char c => c.toNat
  | surrogate n => 0xD800 + n.val

def ofNat? (n : Nat) : Option CodePoint :=
  if h : 0xD800 ≤ n ∧ n < 0xE000 then some (surrogate ⟨n - 0xD800, by omega⟩)
  else if n < 0x110000 then some (char (Char.ofNat n))
  else none

def isChar (kind : Char → Bool) : CodePoint → Bool
  | char c => kind c
  | surrogate _ => false

end CodePoint

structure Text where
  points : List CodePoint
deriving DecidableEq

namespace Text

def ofChars (cs : List Char) : Text :=
  ⟨cs.map .char⟩

@[coe]
def ofString (s : String) : Text :=
  ofChars s.toList

instance : Coe String Text := ⟨ofString⟩

instance : Append Text := ⟨fun s t => ⟨s.points ++ t.points⟩⟩

instance : Inhabited Text := ⟨⟨[]⟩⟩

def isEmpty (t : Text) : Bool :=
  t.points.isEmpty

def chars? (t : Text) : Option (List Char) :=
  t.points.mapM fun
    | .char c => some c
    | .surrogate _ => none

def toString? (t : Text) : Option String :=
  t.chars?.map String.ofList

/-- The characters of a text, with the replacement character for a surrogate. -/
def chars (t : Text) : List Char :=
  t.points.map fun
    | .char c => c
    | .surrogate _ => '\ufffd'

def intercalate (between : Text) : List Text → Text
  | [] => ⟨[]⟩
  | [t] => t
  | t :: ts => t ++ between ++ intercalate between ts

@[simp]
theorem chars?_ofChars (cs : List Char) : (ofChars cs).chars? = some cs := by
  induction cs <;> simp_all [ofChars, chars?]

@[simp]
theorem points_append (s t : Text) : (s ++ t).points = s.points ++ t.points := rfl

end Text
end NodeSettings

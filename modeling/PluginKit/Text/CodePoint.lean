/-!
# Code points and texts

A text is a sequence of code points. A code point is a character, or one half of a surrogate pair: an escape in
a script or in JSON can name such a half alone, and it then travels through the program until the text that
holds it is written as UTF-8, where it is refused.
-/

namespace PluginKit

/-- A code point: a character, or the surrogate half U+D800 + `half`. -/
inductive CodePoint where
  | scalar (c : Char)
  | surrogate (half : Fin 2048)
  deriving DecidableEq, Repr

namespace CodePoint

instance : Inhabited CodePoint := ⟨scalar 'A'⟩

instance : Coe Char CodePoint := ⟨scalar⟩

def toNat : CodePoint → Nat
  | scalar c => c.toNat
  | surrogate half => 0xD800 + half.val

/-- The code point with a number; the null character for numbers that have none. -/
def ofNat (n : Nat) : CodePoint :=
  if h : 0xD800 ≤ n ∧ n < 0xE000 then surrogate ⟨n - 0xD800, by omega⟩ else scalar (Char.ofNat n)

instance : LE CodePoint := ⟨fun a b => a.toNat ≤ b.toNat⟩

instance (a b : CodePoint) : Decidable (a ≤ b) := inferInstanceAs (Decidable (a.toNat ≤ b.toNat))

instance : LT CodePoint := ⟨fun a b => a.toNat < b.toNat⟩

instance (a b : CodePoint) : Decidable (a < b) := inferInstanceAs (Decidable (a.toNat < b.toNat))

def isSurrogate : CodePoint → Bool
  | scalar _ => false
  | surrogate _ => true

theorem ofNat_toNat (c : CodePoint) : ofNat c.toNat = c := by
  unfold ofNat
  split
  next h =>
    cases c with
    | scalar c =>
      have v := c.valid
      simp only [toNat, Char.toNat] at h
      simp only [UInt32.isValidChar, Nat.isValidChar] at v
      omega
    | surrogate half =>
      simp only [toNat, surrogate.injEq]
      apply Fin.ext
      simp
  next h =>
    cases c with
    | scalar c => simp [toNat]
    | surrogate half =>
      have v := half.isLt
      simp only [toNat] at h
      omega

end CodePoint

abbrev Text := List CodePoint

namespace Text

def ofString (s : String) : Text :=
  s.toList.map .scalar

instance : Coe String Text := ⟨ofString⟩

def toString? (s : Text) : Option String :=
  (s.mapM fun c =>
    match c with
    | CodePoint.scalar c => some c
    | CodePoint.surrogate _ => none).map String.ofList

end Text

end PluginKit

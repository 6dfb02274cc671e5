set_option autoImplicit false

/-! # Code points

A string is made of characters. Texts from elsewhere may also hold halves of surrogate pairs, which
are code points but no characters. What has to do with any texts is said of their code points; names
and labels are strings. -/

namespace CallablePurity

/-- A character, or one half of a surrogate pair, which stands for ten bits of a character. -/
inductive CodePoint where
  | char (c : Char)
  | high (bits : Fin 0x400)
  | low (bits : Fin 0x400)
deriving DecidableEq

/-- A type of texts. -/
class Wording (τ : Type) where
  codePoints : τ → List CodePoint
  /-- Texts with the same code points are the same. -/
  eq_of_codePoints : ∀ {s t : τ}, codePoints s = codePoints t → s = t

instance : Wording String where
  codePoints s := s.toList.map .char
  eq_of_codePoints h :=
    String.toList_inj.1 ((List.map_inj_right fun _ _ => CodePoint.char.inj).1 h)

instance : Wording (List CodePoint) where
  codePoints := id
  eq_of_codePoints := id

instance : Coe String (List CodePoint) where
  coe := Wording.codePoints

end CallablePurity

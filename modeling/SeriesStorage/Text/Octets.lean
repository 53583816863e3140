/-!
# Octets

The octets that encode a text in UTF-8, their number, and reading them back.

* `octetCount_eq_length_octets`: the number is right.
* `octetCount_append`: it adds up.
-/

namespace SeriesStorage

/-- The octets that encode characters. -/
def octets (cs : List Char) : List UInt8 := cs.flatMap String.utf8EncodeChar

/-- How many octets encode characters. -/
def octetCount (cs : List Char) : Nat := cs.foldr (fun c n => c.utf8Size + n) 0

/-- The text that octets encode, if they encode one. -/
def textOfOctets? (octets : List UInt8) : Option String := String.fromUTF8? octets.toByteArray

/-! ## Lemmas -/

theorem octetCount_eq_length_octets (cs : List Char) : octetCount cs = (octets cs).length := by
  induction cs with
  | nil => rfl
  | cons c cs ih =>
    simp only [octetCount, octets, List.foldr_cons, List.flatMap_cons, List.length_append,
      String.length_utf8EncodeChar] at *
    rw [ih]

theorem octetCount_append (cs ds : List Char) :
    octetCount (cs ++ ds) = octetCount cs + octetCount ds := by
  simp only [octetCount_eq_length_octets, octets, List.flatMap_append, List.length_append]

end SeriesStorage
